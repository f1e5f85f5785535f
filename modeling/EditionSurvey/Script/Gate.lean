/-
  Script/Gate.lean --- the first construct of a tree that an edition does not have.

  `tooNew?` is the search by plain recursion, node before parts and part by part.
  `search` is the same search with an explicit stack of the nodes that are left, so that a
  tree may be as deep as memory allows.  `search_eq_tooNew?` says that both find the same.
-/
import EditionSurvey.Script.Feature
import EditionSurvey.Diagnostic

set_option autoImplicit false

namespace EditionSurvey.Script

/-- A construct that an edition does not have, and the node that depends on it. -/
structure Finding where
  /-- the node -/
  node : Node
  /-- the construct -/
  feature : Feature
  deriving Repr

/-- The first construct of the node itself that came after the edition. -/
def tooNewHere? (source : Array Char) (edition : Int) (node : Node) : Option Finding :=
  ((features source node).find? fun f => edition < f.edition).map (⟨node, ·⟩)

mutual

/-- The first construct of a tree, node before parts, that came after the edition. -/
def tooNew? (source : Array Char) (edition : Int) : Node → Option Finding
  | .mk form role span parts =>
      (tooNewHere? source edition (.mk form role span parts)).or
        (tooNewAmong? source edition parts)

/-- The first construct of the trees, tree by tree, that came after the edition. -/
def tooNewAmong? (source : Array Char) (edition : Int) : List Node → Option Finding
  | [] => none
  | node :: rest => (tooNew? source edition node).or (tooNewAmong? source edition rest)

end

theorem Node.sizes_append (xs ys : List Node) :
    Node.size.sizes (xs ++ ys) = Node.size.sizes xs + Node.size.sizes ys := by
  induction xs with
  | nil => simp [Node.size.sizes]
  | cons x xs ih => simp [Node.size.sizes, ih, Nat.add_assoc]

/-- The search with a stack of the trees that are left. -/
def search (source : Array Char) (edition : Int) : List Node → Option Finding
  | [] => none
  | node :: rest =>
      match tooNewHere? source edition node with
      | some finding => some finding
      | none => search source edition (node.parts ++ rest)
termination_by stack => Node.size.sizes stack
decreasing_by
  cases node
  simp [Node.sizes_append, Node.size.sizes, Node.size, Node.parts]

theorem tooNewAmong?_append (source : Array Char) (edition : Int) (xs ys : List Node) :
    tooNewAmong? source edition (xs ++ ys) =
      (tooNewAmong? source edition xs).or (tooNewAmong? source edition ys) := by
  induction xs with
  | nil => simp [tooNewAmong?]
  | cons x xs ih => simp [tooNewAmong?, ih, Option.or_assoc]

theorem search_eq_tooNewAmong? (source : Array Char) (edition : Int) (stack : List Node) :
    search source edition stack = tooNewAmong? source edition stack := by
  fun_induction search source edition stack with
  | case1 => simp [tooNewAmong?]
  | case2 node rest finding h =>
      cases node
      simp [tooNewAmong?, tooNew?, h]
  | case3 node rest h ih =>
      rw [ih]
      cases node
      simp [tooNewAmong?, tooNew?, tooNewAmong?_append, h, Node.parts]

/-- The search with a stack finds what the plain search finds. -/
theorem search_eq_tooNew? (source : Array Char) (edition : Int) (tree : Node) :
    search source edition [tree] = tooNew? source edition tree := by
  simp [search_eq_tooNewAmong?, tooNewAmong?]

/-- A finding as it is reported, at the start of its node. -/
def Finding.diagnostic (finding : Finding) : Diagnostic where
  message := s!"{finding.feature.description} requires {label finding.feature.edition}"
  line := finding.node.span.map (·.line)
  column := finding.node.span.map (·.column)

end EditionSurvey.Script
