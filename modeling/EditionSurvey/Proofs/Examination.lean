/-
  Proofs/Examination.lean --- which nodes the search for constructs that are too new examines.

  `Examines` is the loop of the search as a relation without a measure: it takes the node on top of
  the stack, ends with a finding if the node has a construct that is too new, and otherwise goes on
  with the parts of the node before what was below it.  From a tree it always ends, and it takes the
  nodes of the tree in preorder, all of them unless it finds one that is too new.  So a script with a
  tree is refused for the first construct that is too new of the first node that has one
  (`validate_first_finding`).
-/
import EditionSurvey.Proofs.Threshold

set_option autoImplicit false

namespace EditionSurvey.Script

variable {source : Array Char} {edition : Int}

/-! ## The loop -/

/-- From a stack of trees the loop takes the nodes one by one and ends with the outcome. -/
inductive Examines (source : Array Char) (edition : Int) :
    List Node → List Node → Option Finding → Prop where
  /-- nothing is left -/
  | done : Examines source edition [] [] none
  /-- the node on top has a construct that is too new -/
  | found {node : Node} {rest : List Node} {finding : Finding}
      (here : tooNewHere? source edition node = some finding) :
      Examines source edition (node :: rest) [node] (some finding)
  /-- the node on top has none; its parts are next -/
  | pass {node : Node} {rest nodes : List Node} {outcome : Option Finding}
      (here : tooNewHere? source edition node = none)
      (next : Examines source edition (node.parts ++ rest) nodes outcome) :
      Examines source edition (node :: rest) (node :: nodes) outcome

/-- The loop ends from every stack, with what the search finds. -/
theorem exists_examines (source : Array Char) (edition : Int) (stack : List Node) :
    ∃ nodes, Examines source edition stack nodes (search source edition stack) := by
  fun_induction search source edition stack with
  | case1 => exact ⟨[], .done⟩
  | case2 node rest finding hhere => exact ⟨[node], .found hhere⟩
  | case3 node rest hhere ih =>
      obtain ⟨nodes, hnodes⟩ := ih
      exact ⟨node :: nodes, .pass hhere hnodes⟩

theorem Node.preorders_cons (node : Node) (rest : List Node) :
    Node.preorder.preorders (node :: rest) =
      node :: Node.preorder.preorders (node.parts ++ rest) := by
  rw [Node.preorder.preorders, Node.preorder_eq, Node.preorders_append, List.cons_append]

theorem Node.mem_preorders_of_mem {node : Node} {trees : List Node} (h : node ∈ trees) :
    node ∈ Node.preorder.preorders trees := by
  induction trees with
  | nil => cases h
  | cons tree rest ih =>
      rw [Node.preorder.preorders, Node.preorder_eq]
      obtain rfl | h := List.mem_cons.mp h
      · exact List.mem_cons_self
      · exact List.mem_append_right _ (ih h)

theorem Node.preorder_eq_preorders (tree : Node) :
    tree.preorder = Node.preorder.preorders [tree] := by
  rw [Node.preorder.preorders, Node.preorder.preorders, List.append_nil]

mutual

theorem Node.parts_subset_preorder {node : Node} :
    ∀ {tree : Node}, node ∈ tree.preorder → node.parts ⊆ tree.preorder
  | .mk form role span parts, hnode => by
      rw [Node.preorder] at hnode ⊢
      obtain rfl | hnode := List.mem_cons.mp hnode
      · exact fun part hpart => List.mem_cons_of_mem _ (Node.mem_preorders_of_mem hpart)
      · exact fun part hpart => List.mem_cons_of_mem _ (Node.parts_subset_preorders hnode hpart)

theorem Node.parts_subset_preorders {node : Node} :
    ∀ {trees : List Node}, node ∈ Node.preorder.preorders trees →
      node.parts ⊆ Node.preorder.preorders trees
  | [], hnode => by cases hnode
  | tree :: rest, hnode => by
      rw [Node.preorder.preorders] at hnode ⊢
      obtain hnode | hnode := List.mem_append.mp hnode
      · exact fun part hpart => List.mem_append_left _ (Node.parts_subset_preorder hnode hpart)
      · exact fun part hpart => List.mem_append_right _ (Node.parts_subset_preorders hnode hpart)

end

/-- The loop that finds nothing has taken all nodes of the trees, in preorder. -/
theorem Examines.eq_preorders {stack nodes : List Node} {outcome : Option Finding}
    (h : Examines source edition stack nodes outcome) (hnone : outcome = none) :
    nodes = Node.preorder.preorders stack := by
  induction h with
  | done => rfl
  | found => cases hnone
  | pass _ _ ih => rw [ih hnone, Node.preorders_cons]

/-- The loop that finds something has taken the nodes in preorder up to the one it is about, and
there was nothing to find before. -/
theorem Examines.exists_of_some {stack nodes : List Node} {outcome : Option Finding}
    {finding : Finding} (h : Examines source edition stack nodes outcome)
    (hsome : outcome = some finding) :
    ∃ before node after, nodes = before ++ [node] ∧
      Node.preorder.preorders stack = before ++ node :: after ∧
      (∀ earlier ∈ before, tooNewHere? source edition earlier = none) ∧
      tooNewHere? source edition node = some finding := by
  induction h with
  | done => cases hsome
  | @found node rest _ hhere =>
      refine ⟨[], node, Node.preorder.preorders (node.parts ++ rest), rfl, ?_, by simp, ?_⟩
      · exact Node.preorders_cons node rest
      · rw [hhere, hsome]
  | @pass first rest _ _ hhere _ ih =>
      obtain ⟨before, node, after, rfl, hpreorder, hbefore, hnode⟩ := ih hsome
      refine ⟨first :: before, node, after, rfl, ?_, ?_, hnode⟩
      · rw [Node.preorders_cons, hpreorder, List.cons_append]
      · exact List.forall_mem_cons.mpr ⟨hhere, hbefore⟩

/-! ## The finding of a node -/

/-- The first construct of a node that came after the edition. -/
theorem exists_of_tooNewHere? {node : Node} {finding : Finding}
    (h : tooNewHere? source edition node = some finding) :
    ∃ earlier feature later, finding = ⟨node, feature⟩ ∧
      features source node = earlier ++ feature :: later ∧
      (∀ other ∈ earlier, other.edition ≤ edition) ∧ edition < feature.edition := by
  obtain ⟨feature, hfirst, rfl⟩ := Option.map_eq_some_iff.mp h
  obtain ⟨hlate, earlier, later, hfeatures, hearlier⟩ := List.find?_eq_some_iff_append.mp hfirst
  refine ⟨earlier, feature, later, rfl, hfeatures, fun other hother => ?_, by simpa using hlate⟩
  simpa using hearlier other hother

/-! ## Scripts -/

/-- What the edition gate says of a construct that a node depends on. -/
def Node.objection (node : Node) (feature : Feature) : Diagnostic where
  message := s!"{feature.description} requires {label feature.edition}"
  line := node.span.map (·.line)
  column := node.span.map (·.column)

/-- A script is found not to conform because it does not parse, or because some node of its tree has
a construct that is too new. -/
theorem incompatible_cases {script : String} {diagnostic : Diagnostic}
    (h : validate script edition = .error (.incompatible diagnostic)) :
    let text := commentInterpreterLine script.toList
    (∃ error, parse text = .error (.syntaxError error) ∧ diagnostic = error.diagnostic) ∨
      ∃ tree node feature, parse text = .ok tree ∧ node ∈ tree.preorder ∧
        feature ∈ features text.toArray node ∧ edition < feature.edition ∧
        diagnostic = node.objection feature := by
  intro text
  cases hparse : parse text with
  | error interruption =>
      rw [validate_of_parse_error hparse] at h
      cases interruption with
      | syntaxError error =>
          have hreason : Refusal.incompatible error.diagnostic = .incompatible diagnostic :=
            Except.error.inj h
          exact .inl ⟨error, rfl, (Refusal.incompatible.inj hreason).symm⟩
      | nestsTooDeeply => simp [Refusal.ofInterruption] at h
      | templateWithoutHead => simp [Refusal.ofInterruption] at h
  | ok tree =>
      rw [validate_of_parse_ok hparse, checkTree] at h
      obtain ⟨nodes, hnodes⟩ := exists_examines text.toArray edition [tree]
      cases hsearch : search text.toArray edition [tree] with
      | none => simp [text, hsearch] at h
      | some finding =>
          rw [hsearch] at hnodes
          obtain ⟨before, node, after, -, hpreorder, -, hnode⟩ := hnodes.exists_of_some rfl
          obtain ⟨earlier, feature, later, rfl, hfeatures, -, hlate⟩ := exists_of_tooNewHere? hnode
          have hreason : (Finding.mk node feature).diagnostic = diagnostic := by
            simpa [text, hsearch] using h
          refine .inr ⟨tree, node, feature, rfl, ?_, ?_, hlate, hreason.symm⟩
          · simp [Node.preorder_eq_preorders, hpreorder]
          · simp [hfeatures]

/-- A script with a tree.  The loop over a stack ends, finds what the plain recursion finds, and
takes the nodes of the tree in preorder.  Either it takes all of them, so that with a node each of
its parts is taken, none has a construct that came after the edition, and the script conforms; or it
stops at the first node that has one, and the script is refused for the first such construct of that
node, at the place of the node. -/
theorem validate_first_finding {script : String} {tree : Node}
    (h : parse (commentInterpreterLine script.toList) = .ok tree) (edition : Int) :
    let text := (commentInterpreterLine script.toList).toArray
    search text edition [tree] = tooNew? text edition tree ∧
      (validate script edition = .ok () ↔
        ∀ node ∈ tree.preorder, ∀ feature ∈ features text node, feature.edition ≤ edition) ∧
      ∃ nodes, Examines text edition [tree] nodes (tooNew? text edition tree) ∧
        nodes <+: tree.preorder ∧
        ((validate script edition = .ok () ∧ nodes = tree.preorder ∧
            ∀ node ∈ nodes, node.parts ⊆ nodes) ∨
          ∃ before node after earlier feature later,
            nodes = before ++ [node] ∧ tree.preorder = before ++ node :: after ∧
            (∀ other ∈ before, ∀ passed ∈ features text other, passed.edition ≤ edition) ∧
            features text node = earlier ++ feature :: later ∧
            (∀ passed ∈ earlier, passed.edition ≤ edition) ∧ edition < feature.edition ∧
            validate script edition = .error (.incompatible (node.objection feature))) := by
  intro text
  have hjudged : validate script edition = checkTree text edition tree :=
    validate_of_parse_ok h edition
  obtain ⟨nodes, hnodes⟩ := exists_examines text edition [tree]
  refine ⟨search_eq_tooNew? text edition tree, ?_, nodes, ?_, ?_⟩
  · rw [hjudged, checkTree_eq_ok_iff, requiredEdition?_le_iff]
    constructor
    · intro hall node hnode feature hfeature
      exact hall _ (mem_editionsOf.mpr ⟨node, hnode, feature, hfeature, rfl⟩)
    · intro hall needed hneeded
      obtain ⟨node, hnode, feature, hfeature, rfl⟩ := mem_editionsOf.mp hneeded
      exact hall node hnode feature hfeature
  · rwa [← search_eq_tooNew?]
  · cases hsearch : search text edition [tree] with
    | none =>
        rw [hsearch] at hnodes
        have hall : nodes = tree.preorder := by
          rw [hnodes.eq_preorders rfl, Node.preorder_eq_preorders]
        refine ⟨hall ▸ List.prefix_refl _, .inl ⟨?_, hall, ?_⟩⟩
        · simp only [hjudged, checkTree, hsearch]
        · rw [hall]
          exact fun node hnode => Node.parts_subset_preorder hnode
    | some finding =>
        rw [hsearch] at hnodes
        obtain ⟨before, node, after, rfl, hpreorder, hbefore, hnode⟩ := hnodes.exists_of_some rfl
        rw [← Node.preorder_eq_preorders] at hpreorder
        obtain ⟨earlier, feature, later, rfl, hfeatures, hearlier, hlate⟩ :=
          exists_of_tooNewHere? hnode
        refine ⟨⟨after, by simp [hpreorder]⟩, .inr ⟨before, node, after, earlier, feature, later,
          rfl, hpreorder, ?_, hfeatures, hearlier, hlate, ?_⟩⟩
        · exact fun other hother => tooNewHere?_eq_none_iff.mp (hbefore other hother)
        · simp only [hjudged, checkTree, hsearch]
          rfl

/-- A script whose second line declares a variable of a block, with an arrow function. -/
def lateScript : String := "var a;\nlet b = c => c;"

/-- The search of the script stops at the declaration, before the arrow function. -/
theorem lateScript_first_finding :
    ∃ tree, parse (commentInterpreterLine lateScript.toList) = .ok tree ∧
      validate lateScript 5 =
        .error (.incompatible ⟨"'let' declaration requires ES2015", some 2, some 0⟩) ∧
      ∃ nodes, Examines (commentInterpreterLine lateScript.toList).toArray 5 [tree] nodes
          (tooNew? (commentInterpreterLine lateScript.toList).toArray 5 tree) ∧
        nodes <+: tree.preorder := by
  have hparses : (parse (commentInterpreterLine lateScript.toList)).toOption.isSome = true := by
    decide +kernel
  cases htree : parse (commentInterpreterLine lateScript.toList) with
  | error interruption => simp [htree, Except.toOption] at hparses
  | ok tree =>
      obtain ⟨-, -, nodes, hnodes, hprefix, -⟩ := validate_first_finding htree 5
      exact ⟨tree, rfl, by decide +kernel, nodes, hnodes, hprefix⟩

end EditionSurvey.Script
