/-
  Proofs/Threshold.lean --- from which edition on a script conforms.

  Parsing does not look at the edition, so a script without a tree is refused alike at every one.
  A script with a tree conforms from the latest edition on that any construct of any of its nodes
  needs, and at every edition if no node needs one (`validate_threshold`).

  The search for constructs that are too new goes through a stack of trees; what it examines
  before it gives up is all nodes of these trees (`search_eq_none_iff`).
-/
import EditionSurvey.Script.Validate
import Mathlib.Control.Monad.Basic

set_option autoImplicit false

namespace EditionSurvey.Script

variable {source : Array Char} {edition : Int}

/-! ## What a tree needs -/

/-- The editions that brought the constructs of a tree, node by node. -/
def editionsOf (source : Array Char) (tree : Node) : List Int :=
  tree.preorder.flatMap fun node => (features source node).map Feature.edition

/-- The edition that a tree needs, if it has any construct that not every edition has. -/
def requiredEdition? (source : Array Char) (tree : Node) : Option Int :=
  (editionsOf source tree).max?

/-- Whether a node is an object, or a pattern for one, with a rest or spread among its members. -/
def IsObjectRestOrSpread (node : Node) : Prop :=
  (node.form = .object ∨ node.form = .objectPattern) ∧
    ∃ part ∈ node.partsAs .property, isRestOrSpread part = true

theorem mem_editionsOf {needed : Int} {tree : Node} :
    needed ∈ editionsOf source tree ↔
      ∃ node ∈ tree.preorder, ∃ feature ∈ features source node, feature.edition = needed := by
  simp only [editionsOf, List.mem_flatMap, List.mem_map]

/-- A tree needs an edition at most exactly if all its constructs do. -/
theorem requiredEdition?_le_iff {tree : Node} :
    (∀ required ∈ requiredEdition? source tree, required ≤ edition) ↔
      ∀ needed ∈ editionsOf source tree, needed ≤ edition := by
  unfold requiredEdition?
  cases hmax : (editionsOf source tree).max? with
  | none =>
      rw [List.max?_eq_none_iff] at hmax
      simp [hmax]
  | some latest =>
      simp only [Option.mem_def, Option.some.injEq, forall_eq']
      exact List.max?_le_iff hmax

theorem mem_given_of_true {candidates : List (Bool × Feature)} {feature : Feature}
    (h : (true, feature) ∈ candidates) : feature ∈ given candidates := by
  unfold given
  exact List.mem_map.mpr ⟨(true, feature), List.mem_filter.mpr ⟨h, rfl⟩, rfl⟩

theorem objectRestSpread_mem_features {node : Node} (h : IsObjectRestOrSpread node) :
    Feature.objectRestSpread ∈ features source node := by
  obtain ⟨hform, hpart⟩ := h
  have hany : (node.partsAs .property).any isRestOrSpread = true := List.any_eq_true.mpr hpart
  rcases hform with hform | hform
  all_goals
    unfold features
    rw [hform, hany]
    exact mem_given_of_true (by simp)

/-! ## What the search examines -/

theorem Node.preorders_append (first next : List Node) :
    Node.preorder.preorders (first ++ next) =
      Node.preorder.preorders first ++ Node.preorder.preorders next := by
  induction first with
  | nil => rfl
  | cons node rest ih =>
      rw [List.cons_append, Node.preorder.preorders, Node.preorder.preorders, ih,
        List.append_assoc]

theorem Node.preorder_eq (node : Node) :
    node.preorder = node :: Node.preorder.preorders node.parts := by
  cases node
  rfl

theorem tooNewHere?_eq_none_iff {node : Node} :
    tooNewHere? source edition node = none ↔
      ∀ feature ∈ features source node, feature.edition ≤ edition := by
  simp only [tooNewHere?, Option.map_eq_none_iff, List.find?_eq_none, decide_eq_true_eq,
    Int.not_lt]

/-- Nothing is found exactly if no node of the trees on the stack has a construct that came
after the edition. -/
theorem search_eq_none_iff {stack : List Node} :
    search source edition stack = none ↔
      ∀ node ∈ Node.preorder.preorders stack,
        ∀ feature ∈ features source node, feature.edition ≤ edition := by
  fun_induction search source edition stack with
  | case1 => simp [Node.preorder.preorders]
  | case2 node rest finding hhere =>
      have hfound : ¬∀ feature ∈ features source node, feature.edition ≤ edition := by
        rw [← tooNewHere?_eq_none_iff, hhere]
        exact Option.some_ne_none finding
      have hmem : node ∈ Node.preorder.preorders (node :: rest) := by
        rw [Node.preorder.preorders, Node.preorder_eq]
        exact List.mem_cons_self
      exact ⟨fun h => (Option.some_ne_none finding h).elim, fun hall => absurd (hall node hmem) hfound⟩
  | case3 node rest hhere ih =>
      have hnode := tooNewHere?_eq_none_iff.mp hhere
      have hstack : Node.preorder.preorders (node :: rest) =
          node :: Node.preorder.preorders (node.parts ++ rest) := by
        rw [Node.preorder.preorders, Node.preorder_eq, Node.preorders_append, List.cons_append]
      rw [ih, hstack, List.forall_mem_cons]
      exact ⟨fun hrest => ⟨hnode, hrest⟩, And.right⟩

/-! ## Judgements of a tree -/

/-- A tree is accepted from the edition on that it needs. -/
theorem checkTree_eq_ok_iff {tree : Node} :
    checkTree source edition tree = .ok () ↔
      ∀ required ∈ requiredEdition? source tree, required ≤ edition := by
  have hsearch : search source edition [tree] = none ↔
      ∀ needed ∈ editionsOf source tree, needed ≤ edition := by
    rw [search_eq_none_iff, Node.preorder.preorders, Node.preorder.preorders, List.append_nil]
    constructor
    · intro hall needed hneeded
      obtain ⟨node, hnode, feature, hfeature, rfl⟩ := mem_editionsOf.mp hneeded
      exact hall node hnode feature hfeature
    · intro hall node hnode feature hfeature
      exact hall _ (mem_editionsOf.mpr ⟨node, hnode, feature, hfeature, rfl⟩)
  rw [requiredEdition?_le_iff, ← hsearch]
  unfold checkTree
  cases search source edition [tree] <;> simp

/-- A tree that is not accepted does not conform. -/
theorem checkTree_cases (source : Array Char) (edition : Int) (tree : Node) :
    checkTree source edition tree = .ok () ∨
      ∃ diagnostic, checkTree source edition tree = .error (.incompatible diagnostic) := by
  unfold checkTree
  cases search source edition [tree] with
  | none => exact .inl rfl
  | some finding => exact .inr ⟨finding.diagnostic, rfl⟩

/-! ## Judgements of a script -/

theorem validate_of_parse_error {source : String} {interruption : Grammar.Interruption}
    (h : parse (commentInterpreterLine source.toList) = .error interruption) (edition : Int) :
    validate source edition = .error (.ofInterruption interruption) := by
  simp only [validate, h]

theorem validate_of_parse_ok {source : String} {tree : Node}
    (h : parse (commentInterpreterLine source.toList) = .ok tree) (edition : Int) :
    validate source edition =
      checkTree (commentInterpreterLine source.toList).toArray edition tree := by
  simp only [validate, h]

/-- The judgement of a script by all editions: it is given up at every edition, either because
it nests too deep or because a template has no head; or it has the same syntax error at every
edition; or it has a tree, and conforms from the edition on that the tree needs.  So it conforms
at every edition after one at which it does, and one with a rest or spread in an object conforms
at no edition before the ninth. -/
theorem validate_threshold (source : String) :
    let text := commentInterpreterLine source.toList
    (∀ edition, validate source edition = .error .nestsTooDeeply) ∨
      (∀ edition, validate source edition = .error .templateWithoutHead) ∨
      (∃ error : SyntaxError, parse text = .error (.syntaxError error) ∧
        ∀ edition, validate source edition = .error (.incompatible error.diagnostic)) ∨
      ∃ tree, parse text = .ok tree ∧
        (∀ edition, validate source edition = .ok () ↔
          ∀ required ∈ requiredEdition? text.toArray tree, required ≤ edition) ∧
        (∀ edition, validate source edition = .ok () ∨
          ∃ diagnostic, validate source edition = .error (.incompatible diagnostic)) ∧
        (∀ edition later, edition ≤ later →
          validate source edition = .ok () → validate source later = .ok ()) ∧
        ∀ node ∈ tree.preorder, IsObjectRestOrSpread node →
          ∀ edition < 9, validate source edition ≠ .ok () := by
  intro text
  rcases hparse : parse text with interruption | tree
  · have hrefused := validate_of_parse_error hparse
    cases interruption with
    | nestsTooDeeply => exact .inl hrefused
    | templateWithoutHead => exact .inr (.inl hrefused)
    | syntaxError error => exact .inr (.inr (.inl ⟨error, rfl, hrefused⟩))
  · have hjudged := validate_of_parse_ok hparse
    have haccepted : ∀ edition, validate source edition = .ok () ↔
        ∀ required ∈ requiredEdition? text.toArray tree, required ≤ edition := by
      intro edition
      rw [hjudged, checkTree_eq_ok_iff]
    refine .inr (.inr (.inr ⟨tree, rfl, haccepted, ?_, ?_, ?_⟩))
    · intro edition
      rw [hjudged]
      exact checkTree_cases _ edition tree
    · intro edition later hle haccept
      rw [haccepted] at haccept ⊢
      intro required hrequired
      exact Int.le_trans (haccept required hrequired) hle
    · intro node hnode hobject edition hbefore haccept
      rw [haccepted, requiredEdition?_le_iff] at haccept
      have hneeded : 9 ∈ editionsOf text.toArray tree :=
        mem_editionsOf.mpr ⟨node, hnode, .objectRestSpread, objectRestSpread_mem_features hobject, rfl⟩
      have hlate : 9 ≤ edition := haccept 9 hneeded
      omega

/-- Whether a script has a template without a head is settled before its edition matters. -/
theorem validate_eq_templateWithoutHead_iff {source : String} {edition : Int} :
    validate source edition = .error .templateWithoutHead ↔
      parse (commentInterpreterLine source.toList) = .error .templateWithoutHead := by
  cases hparse : parse (commentInterpreterLine source.toList) with
  | error interruption =>
      rw [validate_of_parse_error hparse]
      cases interruption <;> simp [Refusal.ofInterruption]
  | ok tree =>
      rw [validate_of_parse_ok hparse]
      rcases checkTree_cases (commentInterpreterLine source.toList).toArray edition tree with
        hjudged | ⟨diagnostic, hjudged⟩
      all_goals simp [hjudged]

/-- A template with an empty substitution has no tree and no syntax error, and so it is neither
accepted nor found not to conform, nor does it nest too deep, at any edition. -/
theorem emptySubstitution_templateWithoutHead :
    parse (commentInterpreterLine "\x60$\x7b\x7d\x60".toList) = .error .templateWithoutHead ∧
      ∀ edition : Int, validate "\x60$\x7b\x7d\x60" edition = .error .templateWithoutHead := by
  have hfifth : validate "\x60$\x7b\x7d\x60" 5 = .error .templateWithoutHead := by decide +kernel
  have hparse := validate_eq_templateWithoutHead_iff.mp hfifth
  refine ⟨hparse, fun edition => ?_⟩
  exact validate_eq_templateWithoutHead_iff.mpr hparse

end EditionSurvey.Script
