/-
  Proofs/Places/Member.lean --- names, patterns, functions and members are placed.

  One lemma for each production: from the token ahead on, it gives trees whose nodes are placed, or
  it ends with an error at a place of the text.  The productions of the level below are assumed to do
  so.
-/
import EditionSurvey.Proofs.Places.Rules

set_option autoImplicit false

namespace EditionSurvey.Script.Grammar

variable {text : List Char} {g : Productions} {α : Type}

/-! ## Names and patterns -/

/-- A name that is bound is placed, and a word that may not be bound is reported where it stands. -/
theorem places_bindingName (kind : Option String) : Places text (bindingName kind) := by
  refine keeps_here.bind fun start hstart => keeps_advance.bind fun t ht => ?_
  refine keeps_context.bind fun c _ => ?_
  have hnode : Places text (node start (.identifier t.lexeme.text) []) := keeps_leaf hstart
  split
  · exact .unless (keeps_failAt ht _) (.unless (keeps_unexpected ht) hnode)
  · exact .unless (keeps_unexpected ht) hnode
  · exact .unless (keeps_failAt ht _) (.unless (keeps_unexpected ht) hnode)
  · exact .unless (keeps_unexpected ht) hnode

theorem places_bindingWithDefault (hg : g.Placed text) (kind : Option String) :
    Keeps text (bindingWithDefault g kind) (Bound.Placed text) := by
  refine keeps_ahead.bind fun t ht => (hg.binding kind).bind fun ⟨target, names⟩ hbound => ?_
  refine (keeps_accept _).before fun _ => .ite ?_ (.pure hbound)
  refine keeps_context.bind fun _ _ => .before (keeps_adjust fun _ => rfl) fun _ => ?_
  refine hg.assignment.isolate.bind fun right hright => ?_
  refine .before (keeps_adjust fun _ => rfl) fun _ => ?_
  exact (keeps_nodeFrom ht (by simp [hbound.1, hright])).bind fun n hn => .pure ⟨hn, hbound.2⟩

theorem places_bindingRest (hg : g.Placed text) (kind : Option String) :
    Keeps text (bindingRest g kind) (Bound.Placed text) := by
  refine keeps_here.bind fun start hstart => (keeps_expect _).before fun _ => ?_
  refine (hg.binding kind).bind fun ⟨target, names⟩ hbound => ?_
  exact (keeps_node hstart (by simp [hbound.1])).bind fun n hn => .pure ⟨hn, hbound.2⟩

theorem places_arrayBindingElements (hg : g.Placed text) (kind : Option String) (fuel : Nat) :
    ∀ {reversed : List Bound}, (∀ bound ∈ reversed, bound.Placed text) →
      Keeps text (arrayBindingElements g kind fuel reversed) fun elements =>
        ∀ bound ∈ elements, bound.Placed text := by
  induction fuel with
  | zero => exact fun _ => keeps_tooDeep
  | succ fuel ih =>
      intro reversed h
      refine (keeps_sees _).before fun _ => .ite (.pure (by simpa using h)) ?_
      refine (keeps_accept _).before fun _ => .ite (ih h) ?_
      refine (keeps_sees _).before fun _ => .ite ?_ ?_
      · refine (places_bindingRest hg kind).bind fun bound hbound => .pure ?_
        simpa [or_imp, forall_and, hbound] using h
      · refine (places_bindingWithDefault hg kind).bind fun bound hbound => ?_
        exact .expectUnless (ih (List.forall_mem_cons.mpr ⟨hbound, h⟩))

theorem stands_names {elements : List Bound} (h : ∀ bound ∈ elements, bound.Placed text) :
    ∀ t ∈ elements.flatMap (·.2), t.Stands text := by
  intro t ht
  obtain ⟨bound, hbound, ht⟩ := List.mem_flatMap.mp ht
  exact (h bound hbound).2 t ht

theorem places_arrayBinding (hg : g.Placed text) (kind : Option String) :
    Keeps text (arrayBinding g kind) (Bound.Placed text) := by
  refine keeps_here.bind fun start hstart => (keeps_expect _).before fun _ => ?_
  refine keeps_budget.before fun _ => ?_
  refine (places_arrayBindingElements hg kind _ (by simp)).bind fun elements helements => ?_
  refine (keeps_expect _).before fun _ => ?_
  refine (keeps_node hstart ?_).bind fun n hn => .pure ⟨hn, stands_names helements⟩
  exact List.forall_mem_map.mpr fun bound hbound => (helements bound hbound).1

theorem places_propertyName (hg : g.Placed text) : Places text (propertyName g) := by
  refine keeps_here.bind fun start hstart => keeps_advance.bind fun t ht => ?_
  split
  · refine keeps_strict.before fun _ => ?_
    exact .unless (keeps_failAt ht _) (keeps_leaf hstart)
  · refine keeps_strict.before fun _ => ?_
    exact .unless (keeps_failAt ht _) (keeps_leaf hstart)
  · exact hg.assignment.isolate.bind fun n hn => (keeps_expect _).before fun _ => .pure hn
  · exact .unless (keeps_unexpected ht) (keeps_leaf hstart)

theorem places_propertyBinding (hg : g.Placed text) (kind : Option String) :
    Keeps text (propertyBinding g kind) (Bound.Placed text) := by
  refine keeps_here.bind fun start hstart => keeps_ahead.bind fun t ht => ?_
  split
  · refine (places_bindingName none).bind fun key hkey => ?_
    refine (keeps_leaf hstart).bind fun bound hbound => ?_
    refine (keeps_accept _).before fun _ => .ite ?_ ?_
    · refine hg.assignment.bind fun right hright => ?_
      refine (keeps_nodeFrom ht (by simp [hbound, hright])).bind fun value hvalue => ?_
      exact (keeps_node hstart (by simp [hkey, hvalue])).bind fun n hn => .pure ⟨hn, by simp [ht]⟩
    · refine (keeps_sees _).before fun _ => .ite ?_ ?_
      · exact (keeps_node hstart (by simp [hkey, hbound])).bind fun n hn => .pure ⟨hn, by simp [ht]⟩
      · refine (keeps_expect _).before fun _ => ?_
        refine (places_bindingWithDefault hg kind).bind fun ⟨value, names⟩ hvalue => ?_
        exact (keeps_node hstart (by simp [hkey, hvalue.1])).bind fun n hn => .pure ⟨hn, hvalue.2⟩
  · refine (keeps_sees _).before fun _ => (places_propertyName hg).bind fun key hkey => ?_
    refine (keeps_expect _).before fun _ => ?_
    refine (places_bindingWithDefault hg kind).bind fun ⟨value, names⟩ hvalue => ?_
    exact (keeps_node hstart (by simp [hkey, hvalue.1])).bind fun n hn => .pure ⟨hn, hvalue.2⟩

theorem places_restProperty (hg : g.Placed text) (kind : Option String) :
    Keeps text (restProperty g kind) (Bound.Placed text) := by
  refine keeps_here.bind fun start hstart => (keeps_expect _).before fun _ => ?_
  refine (hg.binding kind).bind fun ⟨target, names⟩ hbound => ?_
  refine (keeps_sees _).before fun _ => .unless (keeps_failBehind _) ?_
  refine (keeps_sees _).before fun _ => .unless (keeps_failBehind _) ?_
  exact (keeps_node hstart (by simp [hbound.1])).bind fun n hn => .pure ⟨hn, hbound.2⟩

theorem places_objectBinding (hg : g.Placed text) (kind : Option String) :
    Keeps text (objectBinding g kind) (Bound.Placed text) := by
  have hcomma : ∀ member : Bound, member.Placed text → Keeps text (do
      if !(← sees "\x7d") then expect ","
      return some member) fun found => ∀ bound ∈ found, Bound.Placed text bound :=
    fun _ hmember => .expectUnless (.pure (by simpa using hmember))
  refine keeps_here.bind fun start hstart => (keeps_expect _).before fun _ => ?_
  refine (Keeps.many (R := Bound.Placed text) ?_).bind fun members hmembers =>
    (keeps_expect _).before fun _ => ?_
  · refine (keeps_sees _).before fun _ => .ite (.pure (by simp)) ?_
    refine (keeps_sees _).before fun _ => ?_
    split
    · exact (places_restProperty hg kind).bind hcomma
    · exact (places_propertyBinding hg kind).bind hcomma
  · refine (keeps_node hstart ?_).bind fun n hn => .pure ⟨hn, stands_names hmembers⟩
    exact List.forall_mem_map.mpr fun bound hbound =>
      (Node.placed_withRole _).mpr (hmembers bound hbound).1

/-- A pattern is placed with the names that it binds, of which each is kept with its token. -/
theorem places_binding (hg : g.Placed text) (kind : Option String) :
    Keeps text (binding g kind) (Bound.Placed text) := by
  refine (keeps_sees _).before fun _ => .ite (places_arrayBinding hg kind) ?_
  refine (keeps_sees _).before fun _ => .ite (places_objectBinding hg kind) ?_
  refine keeps_ahead.bind fun t ht => (keeps_seesKeyword _).before fun _ => ?_
  refine .unless (keeps_failAt ht _) ?_
  exact (places_bindingName kind).bind fun n hn => .pure ⟨hn, by simp [ht]⟩

/-! ## Parameters -/

/-- The token of the culprit, if there is one, is one of the text. -/
def Culprit.Placed (text : List Char) (culprit : Culprit) : Prop :=
  ∀ t ∈ culprit.token, t.Stands text

/-- The parameters are placed, and what may be reported of them is. -/
structure Parameters.Placed (text : List Char) (ps : Parameters) : Prop where
  nodes : ∀ n ∈ ps.reversed, n.Placed text
  stricted : ∀ culprit ∈ ps.stricted, culprit.Placed text
  firstRestricted : ∀ culprit ∈ ps.firstRestricted, culprit.Placed text

theorem Parameters.Placed.list {ps : Parameters} (h : ps.Placed text) :
    ∀ n ∈ ps.list, n.Placed text := by
  simpa [Parameters.list] using h.nodes

theorem Parameters.Placed.bind {ps : Parameters} (h : ps.Placed text) {culprit : Culprit}
    (hculprit : culprit.Placed text) (strict : Bool) (name : String) :
    (ps.bind strict culprit name).Placed text := by
  have hsome : ∀ noted ∈ some culprit, noted.Placed text := by simpa using hculprit
  unfold Parameters.bind
  dsimp only
  repeat' split
  all_goals exact {
    nodes := h.nodes
    stricted := by first | exact h.stricted | exact hsome
    firstRestricted := by first | exact h.firstRestricted | exact hsome }

theorem Parameters.Placed.foldl {β : Type} {f : Parameters → β → Parameters} {list : List β}
    {ps : Parameters} (h : ps.Placed text)
    (hf : ∀ ps : Parameters, ps.Placed text → ∀ b ∈ list, (f ps b).Placed text) :
    (list.foldl f ps).Placed text :=
  List.foldlRecOn list f h hf

/-- One more parameter. -/
theorem Parameters.Placed.concat {ps : Parameters} (h : ps.Placed text) {param : Node}
    (hparam : param.Placed text) (simple : Bool) :
    Parameters.Placed text
      { ps with simple, reversed := param.withRole .param :: ps.reversed } where
  nodes := List.forall_mem_cons.mpr ⟨(Node.placed_withRole _).mpr hparam, h.nodes⟩
  stricted := h.stricted
  firstRestricted := h.firstRestricted

theorem keeps_failParameter {culprit : Culprit} (h : culprit.Placed text) (fault : Fault)
    {R : α → Prop} : Keeps text (failParameter culprit fault : Parse α) R := by
  unfold failParameter
  split
  · next t ht => exact keeps_failAt (h t ht) fault
  · exact keeps_failBehind fault

theorem places_restParameter (hg : g.Placed text) :
    Keeps text (restParameter g) (Bound.Placed text) := by
  refine keeps_here.bind fun start hstart => (keeps_expect _).before fun _ => ?_
  refine (hg.binding none).bind fun ⟨target, names⟩ hbound => ?_
  refine (keeps_sees _).before fun _ => .unless (keeps_failBehind _) ?_
  refine (keeps_sees _).before fun _ => .unless (keeps_failBehind _) ?_
  exact (keeps_node hstart (by simp [hbound.1])).bind fun n hn => .pure ⟨hn, hbound.2⟩

theorem places_parameter (hg : g.Placed text) {ps : Parameters} (h : ps.Placed text) :
    Keeps text (parameter g ps) (Parameters.Placed text) := by
  have hmore : ∀ (bound : Bound) (strict : Bool), bound.Placed text → Parameters.Placed text
      { bound.2.foldl (fun ps t => ps.bind strict ⟨some t⟩ t.lexeme.text) ps with
        simple := (bound.2.foldl (fun (ps : Parameters) t => ps.bind strict ⟨some t⟩ t.lexeme.text)
          ps).simple && bound.1.isIdentifier
        reversed := bound.1.withRole .param :: (bound.2.foldl (fun (ps : Parameters) t =>
          ps.bind strict ⟨some t⟩ t.lexeme.text) ps).reversed } := by
    intro bound strict hbound
    refine .concat (h.foldl fun ps hps t ht => hps.bind ?_ strict _) hbound.1 _
    simpa [Culprit.Placed] using hbound.2 t ht
  refine (keeps_sees _).before fun _ => ?_
  split
  · exact (places_restParameter hg).bind fun bound hbound => keeps_strict.before fun strict =>
      .pure (hmore bound strict hbound)
  · exact (places_bindingWithDefault hg none).bind fun bound hbound => keeps_strict.before
      fun strict => .pure (hmore bound strict hbound)

theorem places_parametersRest (hg : g.Placed text) (fuel : Nat) :
    ∀ {ps : Parameters}, ps.Placed text →
      Keeps text (parametersRest g fuel ps) (Parameters.Placed text) := by
  induction fuel with
  | zero => exact fun _ => keeps_tooDeep
  | succ fuel ih =>
      intro ps h
      refine (keeps_sees _).before fun _ => keeps_seesEnd.before fun _ => .ite ?_ ?_
      · exact (keeps_expect _).before fun _ => .pure h
      · exact (places_parameter hg h).bind fun ps h => .expectUnless (ih h)

/-- Parameters are placed, and so are those that may be reported once the body is known to be strict. -/
theorem places_parameters (hg : g.Placed text) {firstRestricted : Option Culprit}
    (h : ∀ culprit ∈ firstRestricted, culprit.Placed text) :
    Keeps text (parameters g firstRestricted) (Parameters.Placed text) :=
  (keeps_expect _).before fun _ => keeps_budget.before fun _ =>
    places_parametersRest hg _ ⟨by simp, by simp, h⟩

/-! ## Bodies -/

theorem places_directiveStatement (hg : g.Placed text) (spelling : String) :
    Keeps text (directiveStatement g spelling) fun found => found.1.Placed text := by
  refine keeps_here.bind fun start hstart => (places_expression hg).bind fun expr hexpr => ?_
  have hnode : ∀ form, Places text (node start form [expr]) :=
    fun form => keeps_node hstart (by simpa using hexpr)
  refine keeps_endStatement.before fun _ => ?_
  split
  · exact .ite ((hnode _).bind fun n hn => .pure hn) ((hnode _).bind fun n hn => .pure hn)
  · exact (hnode _).bind fun n hn => .pure hn

/-- The directives at the head of a body are placed.  Among them, an octal escape is reported at the first
token that has one, which is why that token is kept. -/
theorem places_directives (hg : g.Placed text) (fuel : Nat) :
    ∀ {octal : Option Token} {reversed : List Node}, (∀ t ∈ octal, t.Stands text) →
      (∀ n ∈ reversed, n.Placed text) →
      Keeps text (directives g fuel octal reversed) fun list => ∀ n ∈ list, n.Placed text := by
  induction fuel with
  | zero => exact fun _ _ => keeps_tooDeep
  | succ fuel ih =>
      intro octal reversed hoctal hreversed
      refine keeps_ahead.bind fun t ht => ?_
      split
      · refine (places_directiveStatement hg _).bind fun ⟨statement, directive⟩ hstatement => ?_
        have hreversed : ∀ n ∈ statement :: reversed, n.Placed text :=
          List.forall_mem_cons.mpr ⟨hstatement, hreversed⟩
        dsimp only
        split
        · exact .pure fun n hn => hreversed n (List.mem_reverse.mp hn)
        · refine .before (keeps_adjust fun _ => rfl) fun _ => ?_
          split
          · next first =>
              exact .fails (keeps_failAt (hoctal first rfl) _)
          · refine keeps_context.bind fun c _ => .unless (keeps_failAt ht _) ?_
            exact ih hoctal hreversed
        · refine ih (fun first hfirst => ?_) hreversed
          obtain hfirst | ⟨-, hfirst⟩ := Option.or_eq_some_iff.mp hfirst
          · exact hoctal first hfirst
          · split at hfirst
            · cases hfirst
              exact ht
            · cases hfirst
      · exact .pure fun n hn => hreversed n (List.mem_reverse.mp hn)

theorem places_directivePrologue (hg : g.Placed text) :
    Keeps text (directivePrologue g) fun list => ∀ n ∈ list, n.Placed text :=
  keeps_budget.before fun _ => places_directives hg _ (by simp) (by simp)

/-- One more statement of a body. -/
theorem places_someItem (hg : g.Placed text) :
    Keeps text (do return some (← g.item)) fun found => ∀ n ∈ found, Node.Placed text n :=
  hg.item.bind fun n hn => .pure (by simpa using hn)

theorem places_functionBody (hg : g.Placed text) : Places text (functionBody g) := by
  refine keeps_here.bind fun start hstart => (keeps_expect _).before fun _ => ?_
  refine (places_directivePrologue hg).bind fun prologue hprologue => ?_
  refine keeps_context.bind fun outer _ => .before (keeps_adjust fun _ => rfl) fun _ => ?_
  refine (Keeps.many (R := Node.Placed text) ?_).bind fun items hitems => ?_
  · refine keeps_seesEnd.before fun _ => (keeps_sees _).before fun _ => ?_
    exact .ite (.pure (by simp)) (places_someItem hg)
  · refine (keeps_expect _).before fun _ => .before (keeps_adjust fun _ => rfl) fun _ => ?_
    exact keeps_node hstart (List.forall_mem_append.mpr ⟨hprologue, hitems⟩)

theorem keeps_checkStrictParameters {ps : Parameters} (h : ps.Placed text) (fault : Option Fault) :
    Keeps text (checkStrictParameters ps fault) fun _ => True := by
  refine keeps_strict.before fun _ => .ite ?_ (.pure trivial)
  dsimp only
  split
  · next culprit hculprit =>
      exact .fails (keeps_failParameter (h.firstRestricted culprit hculprit) _)
  · split
    · next culprit hculprit => exact keeps_failParameter (h.stricted culprit hculprit) _
    · exact .pure trivial

theorem places_bodyOf {ps : Parameters} (h : ps.Placed text) (fault : Option Fault)
    {p : Parse Node} (hp : Places text p) : Places text (bodyOf ps fault p) :=
  .withStrictness (.before (keeps_adjust fun _ => rfl) fun _ => hp.bind fun _ hn =>
    (keeps_checkStrictParameters h fault).before fun _ => .pure hn)

/-! ## Functions -/

theorem places_functionName {name : Parse Node} (hname : Places text name) :
    Keeps text (functionName name) fun found =>
      found.1.Placed text ∧ ∀ culprit ∈ found.2.1, culprit.Placed text := by
  refine keeps_ahead.bind fun t ht => hname.bind fun id hid => keeps_strict.before fun _ => ?_
  have hculprit : ∀ culprit ∈ some (Culprit.mk (some t)), culprit.Placed text := by
    simpa [Culprit.Placed] using ht
  refine .ite (.unless (keeps_failAt ht _) (.pure ⟨hid, by simp⟩)) ?_
  exact .ite (.pure ⟨hid, hculprit⟩) (.ite (.pure ⟨hid, hculprit⟩) (.pure ⟨hid, by simp⟩))

theorem keeps_functionHead : Keeps text functionHead fun _ => True := by
  refine (keeps_seesName _).before fun isAsync => ?_
  have hrest : Keeps text (do
      expectKeyword "function"
      let isGenerator ← if isAsync then pure false else accept "*"
      return (isAsync, isGenerator)) fun _ => True := by
    refine (keeps_expectKeyword _).before fun _ => ?_
    split
    · exact .pure trivial
    · exact (keeps_accept _).before fun _ => .pure trivial
  exact .ite (keeps_advance.bind fun _ _ => hrest) hrest

theorem places_functionTail (hg : g.Placed text) {start : Mark} (hstart : start.Starts text)
    (declared isAsync isGenerator : Bool) {name : Option Node} (hname : ∀ n ∈ name, n.Placed text)
    {culprit : Option Culprit} (hculprit : ∀ noted ∈ culprit, noted.Placed text)
    (fault : Option Fault) :
    Places text (functionTail g start declared isAsync isGenerator name culprit fault) := by
  refine (places_parameters hg hculprit).bind fun ps hps => ?_
  refine (places_bodyOf hps _ (places_functionBody hg)).bind fun body hbody => ?_
  refine keeps_node hstart ?_
  simpa [or_imp, forall_and, hbody] using ⟨hname, hps.list⟩

/-- A function is placed with its name, its parameters and its body. -/
theorem places_functionDeclaration (hg : g.Placed text) : Places text (functionDeclaration g) := by
  refine keeps_here.bind fun start hstart => keeps_functionHead.before fun _ => ?_
  refine (places_functionName (places_bindingName none)).bind fun found hfound => ?_
  exact .withSuspension (places_functionTail hg hstart _ _ _ (by simpa using hfound.1) hfound.2 _)

theorem places_functionExpression (hg : g.Placed text) : Places text (functionExpression g) := by
  refine keeps_here.bind fun start hstart => keeps_functionHead.before fun _ => ?_
  refine .withSuspension ((keeps_sees _).before fun _ => .ite ?_ ?_)
  · exact places_functionTail hg hstart _ _ _ (by simp) (by simp) _
  · refine (places_functionName ?_).bind fun found hfound => ?_
    · refine keeps_strict.before fun _ => (keeps_seesKeyword _).before fun _ => ?_
      exact .ite places_propertyWord (places_bindingName none)
    · exact places_functionTail hg hstart _ _ _ (by simpa using hfound.1) hfound.2 _

theorem keeps_seesAsyncFunction : Keeps text seesAsyncFunction fun _ => True := by
  refine (keeps_seesName _).before fun _ => .ite (.pure trivial) ?_
  exact keeps_get.bind fun _ _ => keeps_peekBeyond.before fun _ => .pure trivial

/-! ## Methods -/

theorem places_methodBody (hg : g.Placed text) {ps : Parameters} (hps : ps.Placed text) :
    Places text (methodBody g ps) :=
  .before (keeps_adjust fun _ => rfl) fun _ => places_bodyOf hps _ (places_functionBody hg).isolate

theorem places_methodNode {start : Mark} (hstart : start.Starts text) (isAsync isGenerator : Bool)
    {ps : Parameters} (hps : ps.Placed text) {body : Node} (hbody : body.Placed text) :
    Places text (methodNode start isAsync isGenerator ps body) := by
  refine keeps_node hstart ?_
  simpa [or_imp, forall_and, hbody] using hps.list

/-- The body of a method and its node, behind the parameters. -/
theorem places_methodTail (hg : g.Placed text) {start : Mark} (hstart : start.Starts text)
    (isAsync isGenerator : Bool) {ps : Parameters} (hps : ps.Placed text) :
    Places text (do methodNode start isAsync isGenerator ps (← methodBody g ps)) :=
  (places_methodBody hg hps).bind fun _ hbody => places_methodNode hstart _ _ hps hbody

theorem keeps_setYield (allowYield : Bool) : Keeps text (setYield allowYield) fun _ => True :=
  keeps_adjust fun _ => rfl

theorem places_plainMethod (hg : g.Placed text) : Places text (plainMethod g) := by
  refine keeps_here.bind fun start hstart => .keepingYield ((keeps_setYield _).before fun _ => ?_)
  exact (places_parameters hg (by simp)).bind fun ps hps => places_methodTail hg hstart _ _ hps

theorem places_asyncMethod (hg : g.Placed text) : Places text (asyncMethod g) := by
  refine keeps_here.bind fun start hstart => .withSuspension ?_
  exact (places_parameters hg (by simp)).bind fun ps hps => places_methodTail hg hstart _ _ hps

theorem places_generatorMethod (hg : g.Placed text) : Places text (generatorMethod g) := by
  refine keeps_here.bind fun start hstart => .keepingYield ((keeps_setYield _).before fun _ => ?_)
  refine (places_parameters hg (by simp)).bind fun ps hps => (keeps_setYield _).before fun _ => ?_
  exact places_methodTail hg hstart _ _ hps

theorem places_getter (hg : g.Placed text) : Places text (getter g) := by
  refine keeps_here.bind fun start hstart => .keepingYield ((keeps_setYield _).before fun _ => ?_)
  refine (places_parameters hg (by simp)).bind fun ps hps => .unless (keeps_failAhead _) ?_
  exact places_methodTail hg hstart _ _ hps

theorem places_setter (hg : g.Placed text) : Places text (setter g) := by
  refine keeps_here.bind fun start hstart => .keepingYield ((keeps_setYield _).before fun _ => ?_)
  refine (places_parameters hg (by simp)).bind fun ps hps => ?_
  split
  · exact .unless (keeps_failAhead _) (places_methodTail hg hstart _ _ hps)
  · exact .fails (keeps_failAhead _)

/-! ## Members of objects -/

theorem keeps_seesPropertyName : Keeps text seesPropertyName fun _ => True :=
  keeps_ahead.bind fun _ _ => .pure trivial

theorem keeps_seesAny (marks : List String) : Keeps text (seesAny marks) fun _ => True := by
  refine keeps_ahead.bind fun t _ => ?_
  split <;> exact .pure trivial

theorem places_spread (hg : g.Placed text) : Places text (spread g) := by
  refine keeps_here.bind fun start hstart => (keeps_expect _).before fun _ => ?_
  exact hg.assignment.inherit.bind fun argument hargument => keeps_node hstart (by simpa)

/-- The name and the value of the member are placed. -/
structure Member.Placed (text : List Char) (m : Member) : Prop where
  key : m.key.Placed text
  value : m.value.Placed text

theorem places_member {m : Member} (hm : m.Placed text) {start : Mark} (hstart : start.Starts text) :
    Places text (m.node start) :=
  keeps_node hstart (by simp [hm.key, hm.value])

theorem places_shorthandMember (hg : g.Placed text) {start : Mark} (hstart : start.Starts text)
    {key : Node} (hkey : key.Placed text) (name : String) :
    Keeps text (shorthandMember g start key name) (Member.Placed text) := by
  refine (keeps_leaf hstart).bind fun id hid => (keeps_sees _).before fun _ => .ite ?_ ?_
  · refine keeps_ahead.bind fun sign hsign => .before (keeps_modifyContext fun c _ => ?_) fun _ => ?_
    · simpa [Context.Placed] using hsign
    · refine keeps_advance.bind fun _ _ => hg.assignment.isolate.bind fun right hright => ?_
      exact (keeps_node hstart (by simp [hid, hright])).bind fun value hvalue => .pure ⟨hkey, hvalue⟩
  · exact .pure ⟨hkey, hid⟩

/-- What follows the name of a member is a value, a method or nothing, and is placed. -/
theorem places_memberTail (hg : g.Placed text) {start : Mark} (hstart : start.Starts text)
    (token : Token) {key : Node} (hkey : key.Placed text) (computed isAsync hasProto : Bool) :
    Keeps text (memberTail g start token key computed isAsync hasProto) (Member.Placed text) := by
  refine (keeps_sees _).before fun _ => .ite ?_ ?_
  · refine .unless (keeps_failAhead _) (keeps_advance.bind fun _ _ => ?_)
    exact hg.assignment.inherit.bind fun value hvalue => .pure ⟨hkey, hvalue⟩
  refine (keeps_sees _).before fun _ => .ite ?_ ?_
  · split
    · exact (places_asyncMethod hg).bind fun value hvalue => .pure ⟨hkey, hvalue⟩
    · exact (places_plainMethod hg).bind fun value hvalue => .pure ⟨hkey, hvalue⟩
  · split
    · exact (places_shorthandMember hg hstart hkey _).bind fun m hm => .pure ⟨hm.key, hm.value⟩
    · exact keeps_advance.bind fun t ht => keeps_unexpected ht

theorem places_accessor (hg : g.Placed text) (kind : PropertyKind) :
    Keeps text (accessor g kind) (Member.Placed text) := by
  refine (keeps_sees _).before fun _ => (places_propertyName hg).bind fun key hkey => ?_
  refine .ite ((keeps_setYield _).before fun _ => ?_) ?_
  · exact (places_getter hg).bind fun value hvalue => .pure ⟨hkey, hvalue⟩
  · exact (places_setter hg).bind fun value hvalue => .pure ⟨hkey, hvalue⟩

theorem places_generatorMember (hg : g.Placed text) :
    Keeps text (generatorMember g) (Member.Placed text) := by
  refine (keeps_sees _).before fun _ => (places_propertyName hg).bind fun key hkey => ?_
  exact (places_generatorMethod hg).bind fun value hvalue => .pure ⟨hkey, hvalue⟩

theorem places_namedMember (hg : g.Placed text) {start : Mark} (hstart : start.Starts text)
    (token : Token) (name : String) (hasProto : Bool) :
    Keeps text (namedMember g start token name hasProto) (Member.Placed text) := by
  refine keeps_advance.bind fun _ _ => (keeps_sees _).before fun computed => ?_
  refine keeps_lineBreak.before fun _ => (keeps_seesAny _).before fun _ => ?_
  have hrest : ∀ (isAsync : Bool) (key : Node), key.Placed text → Keeps text (do
      let nameFollows ← seesPropertyName
      if !isAsync && name == "get" && nameFollows then accessor g .getter
      else if !isAsync && name == "set" && nameFollows then accessor g .setter
      else memberTail g start token key computed isAsync hasProto) (Member.Placed text) :=
    fun isAsync key hkey => keeps_seesPropertyName.before fun _ =>
      .ite (places_accessor hg _) (.ite (places_accessor hg _)
        (places_memberTail hg hstart token hkey computed isAsync hasProto))
  dsimp only
  split
  · exact (places_propertyName hg).bind (hrest _)
  · exact (keeps_leaf hstart).bind (hrest _)

theorem places_objectMember (hg : g.Placed text) (hasProto : Bool) :
    Keeps text (objectMember g hasProto) fun found => found.1.Placed text := by
  refine keeps_here.bind fun start hstart => keeps_ahead.bind fun t ht => ?_
  have hnode : ∀ m : Member, m.Placed text → Keeps text (do
      return (← m.node start, m.setsProto)) fun found => found.1.Placed text :=
    fun m hm => (places_member hm hstart).bind fun n hn => .pure hn
  split
  · exact (places_namedMember hg hstart _ _ _).bind hnode
  · refine keeps_advance.bind fun _ _ => keeps_seesPropertyName.before fun _ => ?_
    refine .ite ((places_generatorMember hg).bind hnode) ?_
    exact .unexpectedAhead
  · refine (keeps_sees _).before fun _ => (places_propertyName hg).bind fun key hkey => ?_
    exact (places_memberTail hg hstart t hkey _ _ _).bind hnode

theorem places_objectMembers (hg : g.Placed text) (fuel : Nat) :
    ∀ {hasProto : Bool} {reversed : List Node}, (∀ n ∈ reversed, n.Placed text) →
      Keeps text (objectMembers g fuel hasProto reversed) fun list => ∀ n ∈ list, n.Placed text := by
  induction fuel with
  | zero => exact fun _ => keeps_tooDeep
  | succ fuel ih =>
      intro hasProto reversed h
      refine (keeps_sees _).before fun _ => .ite ?_ ?_
      · exact .pure fun n hn => h n (List.mem_reverse.mp hn)
      have hmore : ∀ found : Node × Bool, found.1.Placed text → Keeps text (do
          if !(← sees "\x7d") then expect ","
          objectMembers g fuel (hasProto || found.2) (found.1.withRole .property :: reversed))
          fun list => ∀ n ∈ list, n.Placed text := by
        intro found hfound
        have hreversed := List.forall_mem_cons.mpr
          ⟨(Node.placed_withRole .property).mpr hfound, h⟩
        exact .expectUnless (ih hreversed)
      refine (keeps_sees _).before fun _ => .ite ?_ ?_
      · exact (places_spread hg).bind fun n hn => hmore (n, false) hn
      · exact (places_objectMember hg hasProto).bind hmore

/-- The members of an object are placed, each from its own token on. -/
theorem places_objectLiteral (hg : g.Placed text) : Places text (objectLiteral g) := by
  refine keeps_here.bind fun start hstart => (keeps_expect _).before fun _ => ?_
  refine keeps_budget.before fun _ => ?_
  refine (places_objectMembers hg _ (by simp)).bind fun members hmembers => ?_
  exact (keeps_expect _).before fun _ => keeps_node hstart hmembers

/-! ## Members of classes -/

/-- The token and the name of the head are placed. -/
structure ClassMemberHead.Placed (text : List Char) (head : ClassMemberHead) : Prop where
  token : head.token.Stands text
  key : ∀ n ∈ head.key, n.Placed text

theorem places_classMemberHead (hg : g.Placed text) :
    Keeps text (classMemberHead g) (ClassMemberHead.Placed text) := by
  refine keeps_ahead.bind fun t ht => (keeps_accept _).before fun _ => .ite ?_ ?_
  · exact .pure ⟨ht, by simp⟩
  -- Behind the name and `static`, whatever they are, `async` may stand before the name.
  have hasync : ∀ head : ClassMemberHead, head.Placed text → Keeps text (do
      let mut head := head
      if head.token.isNamed "async" && !(← lineBreak) then
        let follower := (← ahead).lexeme.text
        if follower ≠ ":" && follower ≠ "(" && follower ≠ "*" then
          let token ← ahead
          let key ← propertyName g
          head := { head with token, key := some key, isAsync := true }
          if token.isNamed "constructor" then failAt token .constructorIsAsync
      return head) (ClassMemberHead.Placed text) := by
    intro head hhead
    refine keeps_lineBreak.before fun _ => .ite ?_ (.pure hhead)
    refine keeps_ahead.bind fun _ _ => .ite ?_ (.pure hhead)
    refine keeps_ahead.bind fun t ht => (places_propertyName hg).bind fun key hkey => ?_
    exact .unless (keeps_failAt ht _) (.pure ⟨ht, by simpa using hkey⟩)
  refine (keeps_sees _).before fun _ => (places_propertyName hg).bind fun key hkey => ?_
  refine keeps_seesPropertyName.before fun _ => (keeps_sees _).before fun _ => .ite ?_ ?_
  · refine keeps_ahead.bind fun t ht => (keeps_sees _).before fun _ => ?_
    refine (keeps_accept _).before fun _ => .ite ?_ ?_
    · exact hasync _ ⟨ht, by simpa using hkey⟩
    · exact (places_propertyName hg).bind fun key hkey => hasync _ ⟨ht, by simpa using hkey⟩
  · exact hasync _ ⟨ht, by simpa using hkey⟩

theorem places_classMemberValue (hg : g.Placed text) {head : ClassMemberHead}
    (hhead : head.Placed text) : Keeps text (classMemberValue g head) fun found =>
      found.2.1.Placed text ∧ found.2.2.1.Placed text := by
  refine keeps_seesPropertyName.before fun _ => .ite ?_ (.ite ?_ (.ite ?_ ?_))
  · exact (places_accessor hg _).bind fun m hm => .pure ⟨hm.key, hm.value⟩
  · exact (places_accessor hg _).bind fun m hm => .pure ⟨hm.key, hm.value⟩
  · exact (places_generatorMember hg).bind fun m hm => .pure ⟨hm.key, hm.value⟩
  · split
    · next key hkey =>
        have hkey := hhead.key key hkey
        refine (keeps_sees _).before fun _ => .ite ?_ ?_
        · split
          · exact (places_asyncMethod hg).bind fun value hvalue => .pure ⟨hkey, hvalue⟩
          · exact (places_plainMethod hg).bind fun value hvalue => .pure ⟨hkey, hvalue⟩
        · exact keeps_unexpectedAhead
    · exact keeps_unexpectedAhead

theorem places_classMember (hg : g.Placed text) (hasConstructor : Bool) :
    Keeps text (classMember g hasConstructor) fun found => found.1.Placed text := by
  refine keeps_here.bind fun start hstart => ?_
  refine (places_classMemberHead hg).bind fun head hhead => ?_
  refine (places_classMemberValue hg hhead).bind fun ⟨kind, key, value, computed⟩ ⟨hkey, hvalue⟩ => ?_
  have hnode : ∀ isConstructor : Bool, Keeps text (do
      let member ← node start (.method computed head.isStatic)
        [key.withRole .key, value.withRole .value]
      return (member, isConstructor)) fun found => found.1.Placed text :=
    fun isConstructor => (keeps_node hstart (by simp_all)).bind fun n hn => .pure hn
  refine .unless (keeps_failAt hhead.token _) (.ite ?_ (hnode _))
  exact .unless (keeps_failAt hhead.token _) (.unless (keeps_failAt hhead.token _) (hnode _))

/-- The members of a class are placed.  A second constructor is reported at its token. -/
theorem places_classMembers (hg : g.Placed text) (fuel : Nat) :
    ∀ {hasConstructor : Bool} {reversed : List Node}, (∀ n ∈ reversed, n.Placed text) →
      Keeps text (classMembers g fuel hasConstructor reversed) fun list =>
        ∀ n ∈ list, n.Placed text := by
  induction fuel with
  | zero => exact fun _ => keeps_tooDeep
  | succ fuel ih =>
      intro hasConstructor reversed h
      refine (keeps_sees _).before fun _ => .ite ?_ ?_
      · exact .pure fun n hn => h n (List.mem_reverse.mp hn)
      refine (keeps_accept _).before fun _ => .ite (ih h) ?_
      exact (places_classMember hg _).bind fun found hfound =>
        ih (List.forall_mem_cons.mpr ⟨hfound, h⟩)

/-- A class is placed with its name, its parent and its members. -/
theorem places_classOf (hg : g.Placed text) (declared : Bool) {name : Parse (Option Node)}
    (hname : Keeps text name fun found => ∀ n ∈ found, n.Placed text) :
    Places text (classOf g declared name) := by
  refine keeps_here.bind fun start hstart => keeps_context.bind fun outer _ => ?_
  refine .before (keeps_adjust fun _ => rfl) fun _ => (keeps_expectKeyword _).before fun _ => ?_
  refine hname.bind fun id hid => (keeps_seesKeyword _).before fun _ => ?_
  have hbody : ∀ parent : Option Node, (∀ n ∈ parent, n.Placed text) → Places text (do
      let bodyStart ← here
      expect "\x7b"
      let members ← classMembers g (← budget) false []
      expect "\x7d"
      let body ← node bodyStart .classBody members
      modifyContext fun c => { c with strict := outer.strict }
      node start (.classLike declared) (id.toList ++ parent.toList ++ [body.withRole .body])) := by
    intro parent hparent
    refine keeps_here.bind fun bodyStart hbodyStart => (keeps_expect _).before fun _ => ?_
    refine keeps_budget.before fun _ => ?_
    refine (places_classMembers hg _ (by simp)).bind fun members hmembers => ?_
    refine (keeps_expect _).before fun _ => (keeps_node hbodyStart hmembers).bind fun body hbody => ?_
    refine .before (keeps_adjust fun _ => rfl) fun _ => keeps_node hstart ?_
    simpa [or_imp, forall_and, hbody] using ⟨hid, hparent⟩
  refine .ite ?_ (hbody none (by simp))
  exact keeps_advance.bind fun _ _ => hg.operand.isolate.bind fun n hn => hbody (some n) (by simpa)

theorem places_classDeclaration (hg : g.Placed text) : Places text (classDeclaration g) :=
  places_classOf hg _ ((places_bindingName none).bind fun n hn => .pure (by simpa))

theorem places_classExpression (hg : g.Placed text) : Places text (classExpression g) := by
  refine places_classOf hg _ (keeps_ahead.bind fun _ _ => .ite ?_ (.pure (by simp)))
  exact (places_bindingName none).bind fun n hn => .pure (by simpa)

end EditionSurvey.Script.Grammar
