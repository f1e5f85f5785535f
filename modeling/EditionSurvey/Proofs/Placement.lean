/-
  Proofs/Placement.lean --- what it changes to write a file.

  A path leads to a place: its components without dots.  What the components lead to is what
  there is at the place, if there are directories on the way (`FileNode.follow_eq_ok_iff`).
  Putting a file at a place whose directory exists changes what there is at this place and at no
  other (`FileNode.kindAt_put`).  So a file that was written is read back, and any other file is
  read as before (`FileTree.changesOnly_of_write`).
-/
import EditionSurvey.Proofs.Termination

set_option autoImplicit false

namespace EditionSurvey

namespace FileNode

/-! ## Places -/

/-- The node at a place below a node. -/
def nodeAt? (node : FileNode) : (place : List String) → Option FileNode
  | [] => some node
  | name :: rest =>
      match node with
      | .file _ => none
      | .directory entries => (entries.lookup name).bind fun next => next.nodeAt? rest

/-- The content of a file; a directory has none. -/
def content? : FileNode → Option (List UInt8)
  | .file bytes => some bytes
  | .directory _ => none

/-- What there is at a place below a node: nothing, a directory, or a file with its content. -/
def kindAt (node : FileNode) (place : List String) : Option (Option (List UInt8)) :=
  (node.nodeAt? place).map content?

theorem nodeAt?_append (node : FileNode) (place rest : List String) :
    node.nodeAt? (place ++ rest) = (node.nodeAt? place).bind (·.nodeAt? rest) := by
  induction place generalizing node with
  | nil => rfl
  | cons name place ih =>
      cases node with
      | file bytes => rfl
      | directory entries =>
          simp only [List.cons_append, nodeAt?]
          cases entries.lookup name with
          | none => rfl
          | some next => exact ih next

theorem kindAt_eq_directory_iff {node : FileNode} {place : List String} :
    node.kindAt place = some none ↔ ∃ entries, node.nodeAt? place = some (.directory entries) := by
  unfold kindAt
  rcases node.nodeAt? place with _ | bytes | entries <;> simp [content?]

theorem kindAt_eq_file_iff {node : FileNode} {place : List String} {bytes : List UInt8} :
    node.kindAt place = some (some bytes) ↔ node.nodeAt? place = some (.file bytes) := by
  unfold kindAt
  rcases node.nodeAt? place with _ | other | entries <;> simp [content?]

/-! ## Following components -/

/-- A node stands at a place below a top, with the nodes above it, nearest first. -/
inductive Stands (top : FileNode) : List String → List FileNode → FileNode → Prop where
  /-- the top itself -/
  | top : Stands top [] [] top
  /-- an entry of a directory that stands at a place -/
  | entry {place : List String} {above : List FileNode} {entries : List (String × FileNode)}
      {name : String} {node : FileNode} (directory : Stands top place above (.directory entries))
      (lookup : entries.lookup name = some node) :
      Stands top (place ++ [name]) (.directory entries :: above) node

theorem Stands.nodeAt? {top node : FileNode} {place : List String} {above : List FileNode}
    (h : Stands top place above node) : top.nodeAt? place = some node := by
  induction h with
  | top => rfl
  | entry _ lookup ih => simp [nodeAt?_append, ih, FileNode.nodeAt?, lookup]

/-- From a place on, each component is followed from a directory, and is not too long. -/
def Passable (top : FileNode) : (place parts : List String) → Prop
  | _, [] => True
  | place, name :: rest =>
      top.kindAt place = some none ∧ (name ≠ ".." → name.utf8ByteSize ≤ nameLimit) ∧
        Passable top (Path.step place name) rest

theorem dot_fits : ".".utf8ByteSize ≤ nameLimit := by decide

/-- Components lead to what there is at their place, if they can be followed. -/
theorem follow_eq_ok_iff {top node found : FileNode} {place parts : List String}
    {above : List FileNode} (hstands : Stands top place above node) :
    node.follow above parts = .ok found ↔
      Passable top place parts ∧ top.nodeAt? (Path.follow place parts) = some found := by
  induction parts generalizing place above node with
  | nil => simp [follow, Passable, Path.follow, hstands.nodeAt?]
  | cons name rest ih =>
      rw [Path.follow_cons, Passable]
      cases node with
      | file bytes => simp [follow, kindAt, hstands.nodeAt?, content?]
      | directory entries =>
          have hhere : top.kindAt place = some none :=
            kindAt_eq_directory_iff.mpr ⟨entries, hstands.nodeAt?⟩
          simp only [follow]
          by_cases hup : name = ".."
          · rw [if_pos hup, Path.step, if_pos hup]
            cases hstands with
            | top => simpa [hhere, hup] using ih .top
            | entry directory _ => simpa [hhere, hup] using ih directory
          · rw [if_neg hup, Path.step, if_neg hup]
            by_cases hdot : name = "."
            · rw [if_pos hdot, if_pos hdot, hdot]
              simpa [hhere, dot_fits] using ih hstands
            · rw [if_neg hdot, if_neg hdot]
              by_cases hlong : nameLimit < name.utf8ByteSize
              · simp [hlong, hup]
              rw [if_neg hlong]
              cases hentry : entries.lookup name with
              | none =>
                  have hmissing : top.nodeAt? (place ++ [name]) = none := by
                    simp [nodeAt?_append, hstands.nodeAt?, nodeAt?, hentry]
                  cases rest with
                  | nil => simp [Path.follow, hmissing]
                  | cons => simp [Passable, kindAt, hmissing]
              | some next =>
                  simpa [hhere, Nat.not_lt.mp hlong] using ih (hstands.entry hentry)

/-- Components behind those that lead somewhere are followed from there. -/
theorem exists_passed_of_follow {above : List FileNode} {node found : FileNode}
    {parts : List String} (h : node.follow above parts = .ok found) :
    ∃ passed, ∀ more, node.follow above (parts ++ more) = found.follow passed more := by
  fun_induction FileNode.follow above node parts with
  | case1 above node =>
      obtain rfl : node = found := Except.ok.inj h
      exact ⟨above, fun _ => rfl⟩
  | case2 | case6 | case7 => cases h
  | case3 rest entries ih =>
      obtain ⟨passed, hpassed⟩ := ih h
      exact ⟨passed, fun more => by simpa [follow] using hpassed more⟩
  | case4 rest entries up above ih =>
      obtain ⟨passed, hpassed⟩ := ih h
      exact ⟨passed, fun more => by simpa [follow] using hpassed more⟩
  | case5 above rest entries hup ih =>
      obtain ⟨passed, hpassed⟩ := ih h
      exact ⟨passed, fun more => by simpa [follow, hup] using hpassed more⟩
  | case8 above name rest entries hup hdot hlong next hentry ih =>
      obtain ⟨passed, hpassed⟩ := ih h
      exact ⟨passed, fun more => by simpa [follow, hup, hdot, hlong, hentry] using hpassed more⟩

theorem passable_append_singleton {top : FileNode} {place parts : List String} {name : String} :
    Passable top place (parts ++ [name]) ↔
      Passable top place parts ∧ top.kindAt (Path.follow place parts) = some none ∧
        (name ≠ ".." → name.utf8ByteSize ≤ nameLimit) := by
  induction parts generalizing place with
  | nil => simp [Passable, Path.follow]
  | cons part rest ih =>
      rw [List.cons_append, Passable, Passable, ih, Path.follow_cons]
      tauto

/-- Whether components can be followed depends on where there are directories. -/
theorem Passable.congr {top other : FileNode}
    (h : ∀ place, top.kindAt place = some none ↔ other.kindAt place = some none)
    {place parts : List String} : Passable top place parts ↔ Passable other place parts := by
  induction parts generalizing place with
  | nil => exact Iff.rfl
  | cons name rest ih => rw [Passable, Passable, h, ih]

/-- Whatever there is at a place is in a directory. -/
theorem kindAt_dropLast {node : FileNode} {place : List String} {kind : Option (List UInt8)}
    (hplace : place ≠ []) (h : node.kindAt place = some kind) :
    node.kindAt place.dropLast = some none := by
  rw [← List.dropLast_append_getLast hplace] at h
  unfold kindAt at h
  rw [nodeAt?_append] at h
  rw [kindAt_eq_directory_iff]
  rcases hnode : node.nodeAt? place.dropLast with _ | bytes | entries
  · simp [hnode] at h
  · simp [hnode, nodeAt?] at h
  · exact ⟨entries, rfl⟩

/-! ## Putting a file at a place -/

theorem kindAt_nil_eq_directory_iff {node : FileNode} :
    node.kindAt [] = some none ↔ ∃ entries, node = .directory entries := by
  simp [kindAt_eq_directory_iff, nodeAt?]

theorem kindAt_file_cons (bytes : List UInt8) (name : String) (rest : List String) :
    (FileNode.file bytes).kindAt (name :: rest) = none := rfl

theorem kindAt_directory_cons (entries : List (String × FileNode)) (name : String)
    (rest : List String) :
    (FileNode.directory entries).kindAt (name :: rest) =
      (entries.lookup name).bind (·.kindAt rest) := by
  unfold kindAt
  rw [nodeAt?]
  cases entries.lookup name <;> rfl

/-- Below what is no directory there is nothing. -/
theorem kindAt_cons_of_not_directory {node : FileNode} (h : node.kindAt [] ≠ some none)
    (name : String) (rest : List String) : node.kindAt (name :: rest) = none := by
  cases node with
  | file bytes => rfl
  | directory entries => exact absurd (kindAt_nil_eq_directory_iff.mpr ⟨entries, rfl⟩) h

/-- What there is in a directory with an entry of a name that was set. -/
theorem kindAt_setMember (entries : List (String × FileNode)) (name key : String)
    (node : FileNode) (rest : List String) :
    (FileNode.directory (setMember entries name node)).kindAt (key :: rest) =
      if key = name then node.kindAt rest
      else (FileNode.directory entries).kindAt (key :: rest) := by
  rw [kindAt_directory_cons, kindAt_directory_cons, lookup_setMember]
  split <;> rfl

/-- A file that is put into a directory is there, and below it there is nothing, as before. -/
theorem kindAt_put_entry {entry : Option FileNode} (bytes : List UInt8) {key : String}
    (hfree : entry.bind (·.kindAt []) ≠ some none) (more : List String) :
    (((entry.getD (.directory [])).put (.file bytes) []).kindAt more) =
      if key :: more = [key] then some (some bytes) else entry.bind (·.kindAt more) := by
  rw [put]
  cases more with
  | nil => rw [if_pos rfl]; rfl
  | cons name rest =>
      rw [kindAt_file_cons, if_neg (by simp)]
      cases entry with
      | none => rfl
      | some node => exact (kindAt_cons_of_not_directory hfree name rest).symm

/-- A file that is put at a place in a directory, where no directory is, is there, and at any
other place there is what was there. -/
theorem kindAt_put {node : FileNode} {place : List String} (bytes : List UInt8)
    (hroom : place ≠ [] → node.kindAt place.dropLast = some none)
    (hfree : node.kindAt place ≠ some none) (other : List String) :
    (node.put (.file bytes) place).kindAt other =
      if other = place then some (some bytes) else node.kindAt other := by
  induction place generalizing node other with
  | nil =>
      rw [put]
      cases other with
      | nil => rfl
      | cons key rest =>
          rw [kindAt_file_cons, if_neg (List.cons_ne_nil key rest),
            kindAt_cons_of_not_directory hfree]
  | cons name rest ih =>
      obtain ⟨entries, rfl⟩ : ∃ entries, node = .directory entries := by
        have hparent := hroom (List.cons_ne_nil name rest)
        cases node with
        | file bytes => cases rest <;> simp [kindAt, nodeAt?, content?] at hparent
        | directory entries => exact ⟨entries, rfl⟩
      rw [put]
      cases other with
      | nil => rfl
      | cons key more =>
          rw [kindAt_setMember]
          by_cases hkey : key = name
          · subst hkey
            rw [if_pos rfl, kindAt_directory_cons]
            rw [kindAt_directory_cons] at hfree
            cases rest with
            | nil => exact kindAt_put_entry bytes hfree more
            | cons first rest =>
                have hparent := hroom (List.cons_ne_nil key _)
                rw [List.dropLast_cons_cons, kindAt_directory_cons] at hparent
                cases hentry : entries.lookup key with
                | none => simp [hentry] at hparent
                | some next =>
                    simp only [hentry, Option.bind_some, Option.getD_some, List.cons.injEq,
                      true_and] at hparent hfree ⊢
                    exact ih (fun _ => hparent) hfree more
          · rw [if_neg hkey, if_neg fun h => hkey (List.cons.inj h).1]

end FileNode

theorem Path.parent_child {path : Path} (h : path.parts ≠ []) :
    path.parent.child path.name = path := by
  have hparts := List.dropLast_append_getLast h
  simp only [Path.child, Path.parent, Path.name, List.getLast?_eq_some_getLast h,
    Option.getD_some, hparts]

namespace FileTree

/-! ## Writing a file -/

/-- The place that a path leads to. -/
def placeAt (tree : FileTree) (path : Path) : List String := Path.follow [] (tree.fromTop path)

/-- A path can be looked up and followed. -/
structure Reachable (tree : FileTree) (path : Path) : Prop where
  /-- it holds no zero -/
  zero : hasZero path = false
  /-- it is short enough -/
  short : path.toString.utf8ByteSize < pathLimit
  /-- its components can be followed -/
  passable : tree.top.Passable [] (tree.fromTop path)

variable {tree after : FileTree} {path other : Path} {bytes : List UInt8}

theorem find_eq_ok_iff {node : FileNode} :
    tree.find path = .ok node ↔
      tree.Reachable path ∧ tree.top.nodeAt? (tree.placeAt path) = some node := by
  have hfollow : tree.top.follow [] (tree.fromTop path) = .ok node ↔
      tree.top.Passable [] (tree.fromTop path) ∧
        tree.top.nodeAt? (tree.placeAt path) = some node := FileNode.follow_eq_ok_iff .top
  obtain ⟨hzero, hfind⟩ | ⟨hlong, hfind⟩ | ⟨hzero, hshort, hfind⟩ := tree.find_cases path
  · refine iff_of_false (by simp [hfind]) fun ⟨hreachable, _⟩ => ?_
    exact absurd hreachable.zero (by simp [hzero])
  · refine iff_of_false (by simp [hfind]) fun ⟨hreachable, _⟩ => ?_
    exact absurd hreachable.short (Nat.not_lt.mpr hlong)
  · constructor
    · intro h
      obtain ⟨hpassable, hnode⟩ := hfollow.mp (follow_of_find h)
      exact ⟨⟨hzero, hshort, hpassable⟩, hnode⟩
    · rintro ⟨⟨_, _, hpassable⟩, hnode⟩
      rw [hfind, hfollow.mpr ⟨hpassable, hnode⟩]
      rfl

theorem read_eq_ok_iff :
    tree.read path = .ok (.ok bytes) ↔
      tree.Reachable path ∧ tree.top.kindAt (tree.placeAt path) = some (some bytes) := by
  rw [FileNode.kindAt_eq_file_iff, ← find_eq_ok_iff]
  unfold read
  rcases tree.find path with (failure | _ | _ | _ | _ | _ | _ | _) | content | entries <;> simp

/-- A path that leads to nothing can be looked up. -/
theorem follow_of_find_missing (h : tree.find path = .error (.file .missing)) :
    hasZero path = false ∧ path.toString.utf8ByteSize < pathLimit ∧
      tree.top.follow [] (tree.fromTop path) = .error .missing := by
  obtain ⟨_, hfind⟩ | ⟨_, hfind⟩ | ⟨hzero, hshort, hfind⟩ := tree.find_cases path
  · cases hfind.symm.trans h
  · cases hfind.symm.trans h
  · refine ⟨hzero, hshort, ?_⟩
    rw [hfind] at h
    cases hfollow : tree.top.follow [] (tree.fromTop path) with
    | ok node => simp [hfollow, Except.mapError] at h
    | error failure => simpa [hfollow, Except.mapError] using h

/-- In a directory that can be found, a name that leads to nothing can be followed. -/
theorem reachable_of_find_missing {directory : Path} {name : String}
    {entries : List (String × FileNode)} (hname : name ≠ "..")
    (hmissing : tree.find (directory.child name) = .error (.file .missing))
    (hdirectory : tree.find directory = .ok (.directory entries)) :
    tree.Reachable (directory.child name) ∧
      tree.placeAt (directory.child name) = tree.placeAt directory ++ [name] ∧
      tree.top.kindAt (tree.placeAt directory) = some none ∧
      tree.top.kindAt (tree.placeAt (directory.child name)) = none := by
  obtain ⟨hzero, hshort, hfollow⟩ := follow_of_find_missing hmissing
  rw [fromTop_child] at hfollow
  obtain ⟨⟨_, _, hpassable⟩, hnode⟩ := find_eq_ok_iff.mp hdirectory
  have hkind := FileNode.kindAt_eq_directory_iff.mpr ⟨entries, hnode⟩
  obtain ⟨passed, hpassed⟩ := FileNode.exists_passed_of_follow (follow_of_find hdirectory)
  have hlast : (FileNode.directory entries).follow passed [name] = .error .missing :=
    (hpassed [name]).symm.trans hfollow
  simp only [FileNode.follow, if_neg hname] at hlast
  split at hlast
  · cases hlast
  · next hdot =>
      have hplace : tree.placeAt (directory.child name) = tree.placeAt directory ++ [name] := by
        rw [placeAt, fromTop_child, Path.follow, List.foldl_append, List.foldl_cons,
          List.foldl_nil, Path.step, if_neg hname, if_neg hdot, placeAt, Path.follow]
      split at hlast
      · cases hlast
      · next hlong =>
          refine ⟨⟨hzero, hshort, ?_⟩, hplace, hkind, ?_⟩
          · rw [fromTop_child]
            exact FileNode.passable_append_singleton.mpr
              ⟨hpassable, hkind, fun _ => Nat.le_of_not_lt hlong⟩
          · split at hlast
            · next hentry =>
                rw [hplace, FileNode.kindAt, FileNode.nodeAt?_append, hnode]
                simp [FileNode.nodeAt?, hentry]
            · cases hlast

/-- A file is written at the place of its path, which can be followed, and which is in a
directory and is none. -/
theorem exists_of_write (h : tree.write path bytes = .ok after) :
    after = { tree with top := tree.top.put (.file bytes) (tree.placeAt path) } ∧
      tree.Reachable path ∧
      (tree.placeAt path ≠ [] → tree.top.kindAt (tree.placeAt path).dropLast = some none) ∧
      tree.top.kindAt (tree.placeAt path) ≠ some none := by
  unfold write at h
  split at h
  · cases h
  · next hmissing =>
      split at h
      · cases h
      · next hname =>
          split at h
          · next entries hparent =>
              have hparts : path.parts ≠ [] := by
                intro hnil
                have hsame : path.parent = path := by rw [Path.parent, hnil, List.dropLast_nil, ← hnil]
                rw [hsame, hmissing] at hparent
                cases hparent
              have hpath := (Path.parent_child hparts).symm
              rw [hpath] at hmissing
              obtain ⟨hreachable, hplace, hkind, hnone⟩ :=
                reachable_of_find_missing hname hmissing hparent
              rw [← hpath] at hreachable hplace hnone
              refine ⟨(Except.ok.inj h).symm, hreachable, fun _ => ?_, by simp [hnone]⟩
              rwa [hplace, List.dropLast_concat]
          · cases h
          · cases h
  · cases h
  · next content hfile =>
      obtain ⟨hreachable, hnode⟩ := find_eq_ok_iff.mp hfile
      have hkind := FileNode.kindAt_eq_file_iff.mpr hnode
      exact ⟨(Except.ok.inj h).symm, hreachable,
        fun hplace => FileNode.kindAt_dropLast hplace hkind, by simp [hkind]⟩

/-- A file can be written at a path. -/
def Writable (tree : FileTree) (path : Path) : Prop := ∃ bytes after, tree.write path bytes = .ok after

/-- Whether a file can be written does not depend on its content. -/
theorem Writable.exists_write (h : tree.Writable path) (bytes : List UInt8) :
    ∃ after, tree.write path bytes = .ok after := by
  obtain ⟨content, after, h⟩ := h
  unfold write at h ⊢
  split at h
  · cases h
  · split at h
    · cases h
    · next hname =>
        rw [if_neg hname]
        split at h
        · exact ⟨_, rfl⟩
        · cases h
        · cases h
  · cases h
  · exact ⟨_, rfl⟩

theorem kindAt_of_write (h : tree.write path bytes = .ok after) (place : List String) :
    after.top.kindAt place =
      if place = tree.placeAt path then some (some bytes) else tree.top.kindAt place := by
  obtain ⟨rfl, _, hroom, hfree⟩ := exists_of_write h
  exact FileNode.kindAt_put bytes hroom hfree place

/-- Writing a file makes no difference to which paths can be followed. -/
theorem reachable_of_write_iff (h : tree.write path bytes = .ok after) :
    after.Reachable other ↔ tree.Reachable other := by
  have hkind := kindAt_of_write h
  obtain ⟨rfl, _, _, hfree⟩ := exists_of_write h
  have hdirectories : ∀ place, (tree.top.put (.file bytes) (tree.placeAt path)).kindAt place =
      some none ↔ tree.top.kindAt place = some none := by
    intro place
    rw [hkind place]
    split
    · next hplace => simp [hplace, hfree]
    · exact Iff.rfl
  have hpassable : (tree.top.put (.file bytes) (tree.placeAt path)).Passable [] (tree.fromTop other) ↔
      tree.top.Passable [] (tree.fromTop other) := FileNode.Passable.congr hdirectories
  exact ⟨fun ⟨hzero, hshort, h⟩ => ⟨hzero, hshort, hpassable.mp h⟩,
    fun ⟨hzero, hshort, h⟩ => ⟨hzero, hshort, hpassable.mpr h⟩⟩

/-- What is read after a file was written: the file, and any other file as before. -/
theorem read_of_write_iff (h : tree.write path bytes = .ok after) (other : Path)
    (content : List UInt8) :
    after.read other = .ok (.ok content) ↔
      if tree.placeAt other = tree.placeAt path then tree.Reachable other ∧ content = bytes
      else tree.read other = .ok (.ok content) := by
  have hplace : after.placeAt other = tree.placeAt other := by
    obtain ⟨rfl, _⟩ := exists_of_write h
    rfl
  rw [read_eq_ok_iff, reachable_of_write_iff h, hplace, kindAt_of_write h]
  split
  · simp [eq_comm]
  · exact read_eq_ok_iff.symm

/-- The one difference between two trees is a file at a path, which is there in the second. -/
structure ChangesOnly (tree after : FileTree) (path : Path) (bytes : List UInt8) : Prop where
  /-- the file is read -/
  read : after.read path = .ok (.ok bytes)
  /-- a file at another place is read in both or in none -/
  reads : ∀ (other : Path) (content : List UInt8), tree.placeAt other ≠ tree.placeAt path →
    (after.read other = .ok (.ok content) ↔ tree.read other = .ok (.ok content))
  /-- at another place there is the same -/
  kindAt : ∀ place, place ≠ tree.placeAt path → after.top.kindAt place = tree.top.kindAt place
  /-- the current directory is the same -/
  here : after.here = tree.here

theorem changesOnly_of_write (h : tree.write path bytes = .ok after) :
    tree.ChangesOnly after path bytes where
  read := by
    rw [read_of_write_iff h, if_pos rfl]
    exact ⟨(exists_of_write h).2.1, rfl⟩
  reads other content hother := by rw [read_of_write_iff h, if_neg hother]
  kindAt place hplace := by rw [kindAt_of_write h, if_neg hplace]
  here := by
    obtain ⟨rfl, _⟩ := exists_of_write h
    rfl

end FileTree

end EditionSurvey
