/-
  Proofs/Matching.lean --- file trees of one shape.

  Two trees match when they have the same directories and the same files, and the contents of two
  files in one place are related; the relation may depend on the name of the file.  Then every
  path leads to the same kind of thing in both, or fails in both for the same reason, and two
  files that a path leads to are related by its last component (`find_alike`, `read_alike`).
-/
import EditionSurvey.Package.Reading
import EditionSurvey.Proofs.Lockstep
import Mathlib.Data.List.Forall2

set_option autoImplicit false

namespace EditionSurvey

variable {related : String → List UInt8 → List UInt8 → Prop}

namespace FileNode

mutual

/-- A file or directory of a name matches another one. -/
inductive Matches (related : String → List UInt8 → List UInt8 → Prop) :
    String → FileNode → FileNode → Prop where
  /-- files with related contents -/
  | file {name : String} {bytes other : List UInt8} (contents : related name bytes other) :
      Matches related name (.file bytes) (.file other)
  /-- directories whose entries match -/
  | directory {name : String} {entries others : List (String × FileNode)}
      (inside : EntriesMatch related entries others) :
      Matches related name (.directory entries) (.directory others)

/-- The entries of a directory match those of another one, in order. -/
inductive EntriesMatch (related : String → List UInt8 → List UInt8 → Prop) :
    List (String × FileNode) → List (String × FileNode) → Prop where
  /-- no entries -/
  | nil : EntriesMatch related [] []
  /-- an entry, and more of them -/
  | cons {name : String} {node other : FileNode} {entries others : List (String × FileNode)}
      (head : Matches related name node other) (tail : EntriesMatch related entries others) :
      EntriesMatch related ((name, node) :: entries) ((name, other) :: others)

end

theorem EntriesMatch.lookup {entries others : List (String × FileNode)}
    (h : EntriesMatch related entries others) (name : String) :
    Option.Rel (Matches related name) (entries.lookup name) (others.lookup name) := by
  induction entries generalizing others with
  | nil =>
      cases h
      exact .none
  | cons entry entries ih =>
      cases h with
      | @cons key node other _ _ head tail =>
          simp only [List.lookup_cons]
          split
          · next heq =>
              obtain rfl : name = key := by simpa using heq
              exact .some head
          · exact ih tail

/-- The last component tells which file a path leads to; a directory is reached under any
name. -/
theorem follow_alike (parts : List String) :
    ∀ {above others : List FileNode} {node other : FileNode} {name : String},
      List.Forall₂ (fun a b => ∀ name, Matches related name a b) above others →
        Matches related name node other →
          Alike (Matches related (parts.getLast?.getD name)) (follow above node parts)
            (follow others other parts) := by
  induction parts with
  | nil => exact fun _ hnode => .ok hnode
  | cons part rest ih =>
      intro above others node other name habove hnode
      rw [List.getLast?_cons, Option.getD_some]
      cases hnode with
      | file => exact .error _
      | @directory _ entries others inside =>
          have hhere : ∀ name, Matches related name (.directory entries) (.directory others) :=
            fun _ => .directory inside
          simp only [follow]
          split
          · cases habove with
            | nil => exact ih .nil (hhere part)
            | cons hup habove => exact ih habove (hup part)
          · split
            · exact ih habove (hhere part)
            · split
              · exact .error _
              · have hnext := inside.lookup part
                revert hnext
                generalize entries.lookup part = found
                generalize others.lookup part = other
                rintro (hnext | _)
                · exact ih (.cons hhere habove) hnext
                · exact .error _

mutual

/-- The files of a name are related, one by one. -/
theorem Matches.contentsNamed {key name : String} {node other : FileNode}
    (h : Matches related key node other) :
    List.Forall₂ (related name) (node.contentsNamed name) (other.contentsNamed name) := by
  cases h with
  | file => exact .nil
  | directory inside =>
      rw [FileNode.contentsNamed, FileNode.contentsNamed]
      exact inside.contentsNamedIn

theorem EntriesMatch.contentsNamedIn {name : String} {entries others : List (String × FileNode)}
    (h : EntriesMatch related entries others) :
    List.Forall₂ (related name) (FileNode.contentsNamedIn name entries)
      (FileNode.contentsNamedIn name others) := by
  cases h with
  | nil => exact .nil
  | @cons key node other _ _ head tail =>
      rw [FileNode.contentsNamedIn, FileNode.contentsNamedIn]
      refine List.rel_append ?_ tail.contentsNamedIn
      have hbelow : List.Forall₂ (related name) (node.contentsNamed name)
          (other.contentsNamed name) := head.contentsNamed
      cases head with
      | file contents =>
          rw [contentsNamedAt, contentsNamedAt]
          split
          · next heq => exact .cons (heq ▸ contents) .nil
          · exact .nil
      | directory inside =>
          rw [contentsNamedAt, contentsNamedAt]
          exact hbelow

end

end FileNode

namespace FileTree

/-- Two trees match, and the current directory is the same in both. -/
structure Matches (related : String → List UInt8 → List UInt8 → Prop)
    (first second : FileTree) : Prop where
  /-- the same files and directories -/
  top : FileNode.Matches related "" first.top second.top
  /-- the same current directory -/
  here : first.here = second.here

/-- The last component that is followed to a path. -/
def lastName (tree : FileTree) (path : Path) : String := (tree.fromTop path).getLast?.getD ""

variable {first second : FileTree} (h : Matches related first second)

include h

theorem fromTop_eq (path : Path) : first.fromTop path = second.fromTop path := by
  rw [fromTop, fromTop, h.here]

theorem find_alike (path : Path) :
    Alike (FileNode.Matches related (first.lastName path))
      (first.find path) (second.find path) := by
  have hfollow := FileNode.follow_alike (second.fromTop path) .nil h.top
  rw [lastName, find, find, fromTop_eq h]
  split
  · exact .error _
  · split
    · exact .error _
    · revert hfollow
      generalize first.top.follow [] (second.fromTop path) = found
      generalize second.top.follow [] (second.fromTop path) = other
      rintro (hfound | failure)
      · exact .ok hfound
      · exact .error _

theorem test_eq {holds : FileNode → Bool}
    (hholds : ∀ name node other, FileNode.Matches related name node other →
      holds node = holds other) (path : Path) : first.test path holds = second.test path holds := by
  have hfind := find_alike h path
  rw [test, test]
  revert hfind
  generalize first.find path = found
  generalize second.find path = other
  rintro (hfound | failure)
  · exact congrArg Except.ok (hholds _ _ _ hfound)
  · rfl

theorem isFile_eq : first.isFile = second.isFile := by
  funext path
  refine test_eq h (fun name node other hnode => ?_) path
  cases hnode <;> rfl

theorem isDirectory_eq : first.isDirectory = second.isDirectory := by
  funext path
  refine test_eq h (fun name node other hnode => ?_) path
  cases hnode <;> rfl

theorem resolve_eq : first.resolve = second.resolve := by
  funext path
  rw [resolve, resolve, h.here]

theorem read_alike (path : Path) :
    Alike (Alike (related (first.lastName path))) (first.read path) (second.read path) := by
  have hfind := find_alike h path
  rw [read, read]
  revert hfind
  generalize first.find path = found
  generalize second.find path = other
  rintro (hfound | failure)
  · cases hfound with
    | file contents => exact .ok (.ok contents)
    | directory => exact .ok (.error _)
  · cases failure with
    | file failure => exact .ok (.error failure)
    | _ => exact .error _

end FileTree

end EditionSurvey
