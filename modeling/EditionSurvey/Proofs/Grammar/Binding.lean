/-
  Proofs/Grammar/Binding.lean --- what the productions for names, patterns and parameters add.
-/
import EditionSurvey.Proofs.Grammar.Lists

set_option autoImplicit false

namespace EditionSurvey.Script.Grammar

variable {source : List Char} {r later : Reading} {ns : List Node} {g : Productions}

/-! ## Names -/

/-- The production gives a name, which is accounted for. -/
def AddsName (source : List Char) (p : Parse Node) : Prop :=
  ∀ {r : Reading} {ns : List Node}, Accounted source r ns →
    Gives source p r fun n later =>
      Accounted source later (n :: ns) ∧ Past r later ∧ Whole r later n ∧
        n.stop? = some later.edge ∧ n.role = .part ∧ ¬n.Shows

theorem quiet_of_isName {lexeme : Lexeme} (h : lexeme.isName = true) : lexeme.Quiet := by
  cases lexeme <;> simp_all [Lexeme.isName, Lexeme.Quiet, Lexeme.newer]

/-- A token that is no regular expression and reads as one of the two words is quiet or a template. -/
theorem quiet_or_template_of_text {t : Token} {word : String} (h : t.lexeme.text = word)
    (hword : word = "let" ∨ word = "in") (hplain : t.NoPattern) :
    t.lexeme.Quiet ∨ ∃ head tail, t.lexeme = .template word head tail := by
  have hnumber : isPrefixedNumber word = false := by obtain rfl | rfl := hword <;> decide
  have harrow : word ≠ "=>" := by obtain rfl | rfl := hword <;> decide
  cases hlexeme : t.lexeme with
  | pattern spelling flags => exact absurd hlexeme (hplain spelling flags)
  | number spelling octal =>
      obtain rfl : spelling = word := by rwa [hlexeme] at h
      exact .inl ⟨hnumber, by simp⟩
  | template raw head tail =>
      obtain rfl : raw = word := by rwa [hlexeme] at h
      exact .inr ⟨head, tail, rfl⟩
  | punctuator mark =>
      obtain rfl : mark = word := by rwa [hlexeme] at h
      exact .inl ⟨rfl, by simpa using harrow⟩
  | _ => exact .inl ⟨rfl, by simp⟩

/-- A name of the token that was read spans it. -/
theorem Accounted.gives_name {start : Mark} {next : Token}
    (h : Accounted source (r.after next) ns) (name : String) (hr : r.Sound source)
    (hstart : start.offset = r.ahead.start) :
    Gives source (Grammar.node start (.identifier name) []) (r.after next) fun n later =>
      Accounted source later (n :: ns) ∧ Past r later ∧ Whole r later n ∧
        n.stop? = some later.edge ∧ n.role = .part ∧ ¬n.Shows := by
  refine gives_node fun span hspan hstop => ?_
  have hpast : Past r (r.after next) := .of_after hr (.refl _)
  refine ⟨h.leaf rfl, hpast, hpast.whole hr h.sound (hspan.trans hstart) hstop (by simp), ?_, rfl, ?_⟩
  · simp [Node.stop?, Node.span, hstop (r.after_read_ne_nil next)]
  · simp [Node.shows_mk, Form.newer]

theorem adds_propertyWord : AddsName source propertyWord := by
  intro r ns h
  unfold propertyWord
  refine .here_bind fun start hstart => ?_
  have hr := h.sound
  refine h.checked_bind (fun hloud _ => ?_) fun next hquiet h => ?_
  · split
    · exact (fails_unexpected _).bind _
    · rename_i hname
      exact absurd (quiet_of_isName (by simpa using hname)) hloud
  · split
    · exact .of_fails ((fails_unexpected _).bind _)
    · exact h.gives_name _ hr hstart

/-- A name that is bound: a word, or a template that is taken for the name `let`. -/
theorem gives_bindingName {kind : Option String} (h : Accounted source r ns)
    (hkind : MayBind kind r ns) :
    Gives source (bindingName kind) r fun n later =>
      Accounted source later (n :: ns) ∧ Past r later ∧ Whole r later n ∧
        n.stop? = some later.edge ∧ n.role = .part ∧ ¬n.Shows := by
  unfold bindingName
  refine .here_bind fun start hstart => ?_
  have hr := h.sound
  refine h.admitted_bind (fun hplain => ?_) fun next h => ?_
  · by_cases hquiet : r.ahead.lexeme.Quiet
    · exact .inr ⟨by simp [hquiet.1], hquiet.2⟩
    by_cases htemplate : kind = some "var" ∧ ∃ head tail, r.ahead.lexeme = .template "let" head tail
    · obtain ⟨hvar, head, tail, hahead⟩ := htemplate
      exact .inr ⟨fun _ => (hkind hvar).imp_left fun hbehind => hahead ▸ .name hbehind,
        by simp [hahead]⟩
    -- No other token passes the check: the words are quiet, and the rest is refused.
    refine .inl (.of_bind fun c => ?_)
    split
    case h_4 =>
      split
      · exact (fails_unexpected _).bind _
      · rename_i hnot
        obtain ⟨htext, hvar⟩ : r.ahead.lexeme.text = "let" ∧ kind = some "var" := by simp_all
        obtain h | h := quiet_or_template_of_text htext (.inl rfl) hplain
        · exact absurd h hquiet
        · exact absurd ⟨hvar, h⟩ htemplate
    all_goals
      rename_i hlexeme
      exact absurd (by rw [hlexeme]; exact ⟨rfl, by simp⟩) hquiet
  · refine .after_still still_context fun c => ?_
    have hnode := h.gives_name r.ahead.lexeme.text hr hstart
    split
    · exact .unless (fails_failAt _ _) fun _ => .unless (fails_unexpected _) fun _ => hnode
    · exact .unless (fails_unexpected _) fun _ => hnode
    · exact .unless (fails_failAt _ _) fun _ => .unless (fails_unexpected _) fun _ => hnode
    · exact .unless (fails_unexpected _) fun _ => hnode

/-- A name that is bound, but not by `var`. -/
theorem adds_bindingName : AddsName source (bindingName none) :=
  fun h => gives_bindingName h (mayBind_of_ne (by simp))

/-! ## Patterns -/

/-- A node is returned with the tokens of the names that it binds. -/
theorem Gives.bound {p : Parse Node} {tokens : List Token} {Q : Node → Reading → Prop}
    (hp : Gives source p r Q) :
    Gives source (do return (← p, tokens)) r fun bound later => Q bound.1 later :=
  hp.bind fun _ _ _ hn => .pure hn

theorem adds_bindingWithDefault (hg : g.Sound source) (kind : Option String) :
    AddsBound source kind (bindingWithDefault g kind) := by
  intro r ns h hkind
  unfold bindingWithDefault
  refine .ahead_bind ?_
  refine (hg.binding kind h hkind).bind fun bound mid hmid ⟨h, hstop⟩ => ?_
  refine h.accept_bind (by decide) (fun next _ h => ?_) fun _ => .pure ⟨h, hstop⟩
  refine .after_still still_context fun outer => .after_still (still_modifyContext _) fun _ => ?_
  refine (hg.assignment h).isolate.bind fun right later hlater ⟨h, _, _⟩ => ?_
  refine .after_still (still_modifyContext _) fun _ => ?_
  have hread := hlater.read_ne_nil (mid.after_read_ne_nil next)
  exact (h.gives_ended hread (by simp [SameTrees, or_left_comm]) rfl).bound

theorem adds_bindingRest (hg : g.Sound source) (kind : Option String) :
    AddsInner source (bindingRest g kind) := by
  intro r ns h hshows
  unfold bindingRest
  refine .here_bind fun start _ => ?_
  refine h.expect_bind (by decide) fun next _ h => ?_
  refine (hg.binding kind h (mayBind_of_shows hshows)).bind fun bound later hlater ⟨h, _⟩ => ?_
  have hread := hlater.read_ne_nil (r.after_read_ne_nil next)
  exact (h.gives_ended hread (by simp [SameTrees]) rfl).bound

/-- The elements of an array pattern are accounted for, while its pledge shows that it is one. -/
theorem gives_arrayBindingElements (hg : g.Sound source) (kind : Option String) (fuel : Nat) :
    ∀ (reversed : List Bound) {r : Reading},
      Accounted source r (reversed.map Prod.fst ++ pledge :: ns) →
      Gives source (arrayBindingElements g kind fuel reversed) r fun elements later =>
        Accounted source later (elements.map Prod.fst ++ pledge :: ns) := by
  induction fuel with
  | zero => exact fun _ _ _ => .of_fails (fails_interrupt _)
  | succ fuel ih =>
      intro reversed r h
      have hshows : ∃ n ∈ reversed.map Prod.fst ++ pledge :: ns, n.Shows :=
        ⟨pledge, by simp, shows_pledge⟩
      unfold arrayBindingElements
      refine .sees_bind (fun _ => .pure (h.regroup (by simp [SameTrees]))) fun _ => ?_
      refine h.accept_bind (by decide) (fun next _ h => ih reversed h) fun _ => ?_
      refine .sees_bind (fun _ => ?_) fun _ => ?_
      · refine (adds_bindingRest hg kind h hshows).bind ?_
        rintro bound later _ ⟨h, _⟩
        refine .pure ?_
        exact h.regroup (by simp [SameTrees, or_assoc, or_comm])
      · refine (adds_bindingWithDefault hg kind h (mayBind_of_shows hshows)).bind ?_
        rintro bound mid _ ⟨h, _⟩
        refine .sees_bind (fun _ => ih (bound :: reversed) h) fun _ => ?_
        exact h.expect_bind (by decide) fun next _ h => ih (bound :: reversed) h

theorem adds_arrayBinding (hg : g.Sound source) (kind : Option String) :
    AddsBound source kind (arrayBinding g kind) := by
  intro r ns h _
  unfold arrayBinding
  refine .here_bind fun start _ => ?_
  refine h.pledge.expect_bind (by decide) fun next _ h => ?_
  refine .after_still still_budget fun _ => ?_
  refine (gives_arrayBindingElements hg kind _ [] h).bind fun elements mid hmid h => ?_
  refine h.expect_bind (by decide) fun next' _ h => ?_
  have hread := mid.after_read_ne_nil next'
  exact (h.gives_redeemed hread (fun _ => Iff.rfl) rfl rfl).bound

theorem adds_propertyName (hg : g.Sound source) : Adds source (propertyName g) := by
  intro r ns h
  unfold propertyName
  refine .here_bind fun start _ => ?_
  by_cases hnumber : ∃ spelling octal, r.ahead.lexeme = .number spelling octal
  · obtain ⟨spelling, octal, hlexeme⟩ := hnumber
    refine h.leaf_bind (.literal spelling none) rfl (by rw [hlexeme]; exact id)
      (by simp [hlexeme]) fun next h => ?_
    rw [hlexeme]
    refine .after_still still_strict fun strict => .unless (fails_failAt _ _) fun _ => ?_
    exact gives_node fun _ _ _ => h _ _
  · refine h.checked_bind (fun hloud _ => ?_) fun next hquiet h => ?_
    · split
      case h_1 hlexeme | h_3 hlexeme => exact absurd (by rw [hlexeme]; exact ⟨rfl, by simp⟩) hloud
      case h_2 hlexeme => exact absurd ⟨_, _, hlexeme⟩ hnumber
      case h_4 =>
        split
        · exact (fails_unexpected _).bind _
        · rename_i hname
          exact absurd (quiet_of_isName (by simpa using hname)) hloud
    · split
      · refine .after_still still_strict fun strict => .unless (fails_failAt _ _) fun _ => ?_
        exact h.gives_plain (fun _ => Iff.rfl) rfl
      · rename_i hlexeme
        exact absurd ⟨_, _, hlexeme⟩ hnumber
      · refine (hg.assignment h).isolate.bind fun name later _ ⟨h, _, _⟩ => ?_
        exact h.expect_bind (by decide) fun next _ h => .pure h
      · exact .unless (fails_unexpected _) fun _ => h.gives_plain (fun _ => Iff.rfl) rfl

theorem adds_propertyBinding (hg : g.Sound source) (kind : Option String) :
    AddsInner source (propertyBinding g kind) := by
  intro r ns h hshows
  unfold propertyBinding
  refine .here_bind fun start _ => .ahead_bind ?_
  split
  · rename_i name _
    refine (adds_bindingName h).bind ?_
    rintro key mid _ ⟨h, hpast, _, _, _⟩
    have hshows : ∃ n ∈ key :: ns, n.Shows := List.exists_mem_cons_of_exists hshows
    refine .node_bind fun span => ?_
    -- The second node of the name is a part of the member unless a colon follows.
    refine h.accept_bind (by decide) (fun next _ h => ?_) fun _ => ?_
    · refine (hg.assignment h).bind ?_
      rintro right mid' hright ⟨h, _, _⟩
      refine .node_bind fun whole => ?_
      have hread := hright.read_ne_nil (mid.after_read_ne_nil next)
      have h : Accounted source mid' (.mk (.identifier name) .part (some span) [] :: _) := h.leaf rfl
      have h : Accounted source mid' (.mk .assignmentPattern .part (some whole)
          [.mk (.identifier name) .part (some span) [], right] :: key :: ns) :=
        h.plain (by simp [SameTrees, or_left_comm]) rfl
      exact (h.gives_ended hread (by simp [SameTrees, or_left_comm]) rfl).bound
    · refine .sees_bind (fun _ => ?_) fun _ => ?_
      · refine h.expect_bind (by decide) fun next _ h => ?_
        refine (adds_bindingWithDefault hg kind h (mayBind_of_shows hshows)).bind ?_
        rintro value later hlater ⟨h, _⟩
        have hread := hlater.read_ne_nil (mid.after_read_ne_nil next)
        exact (h.gives_ended hread (by simp [SameTrees, or_left_comm]) rfl).bound
      · have h : Accounted source mid (.mk (.identifier name) .part (some span) [] :: _) := h.leaf rfl
        exact (h.gives_ended hpast.read_ne_nil (by simp [SameTrees, or_left_comm]) rfl).bound
  · refine .after_still (still_sees _) fun computed => ?_
    refine (adds_propertyName hg h).bind fun key mid _ h => ?_
    have hshows : ∃ n ∈ key :: ns, n.Shows := List.exists_mem_cons_of_exists hshows
    refine h.expect_bind (by decide) fun next _ h => ?_
    refine (adds_bindingWithDefault hg kind h (mayBind_of_shows hshows)).bind ?_
    rintro value later hlater ⟨h, _⟩
    have hread := hlater.read_ne_nil (mid.after_read_ne_nil next)
    exact (h.gives_ended hread (by simp [SameTrees, or_left_comm]) rfl).bound

theorem adds_restProperty (hg : g.Sound source) (kind : Option String) :
    AddsInner source (restProperty g kind) := by
  intro r ns h hshows
  unfold restProperty
  refine .here_bind fun start _ => ?_
  refine h.expect_bind (by decide) fun next _ h => ?_
  refine (hg.binding kind h (mayBind_of_shows hshows)).bind fun bound later hlater ⟨h, _⟩ => ?_
  refine .after_still (still_sees _) fun _ => .unless (fails_failBehind _) fun _ => ?_
  refine .after_still (still_sees _) fun _ => .unless (fails_failBehind _) fun _ => ?_
  have hread := hlater.read_ne_nil (r.after_read_ne_nil next)
  exact (h.gives_ended hread (by simp [SameTrees]) rfl).bound

theorem adds_objectBinding (hg : g.Sound source) (kind : Option String) :
    AddsBound source kind (objectBinding g kind) := by
  intro r ns h _
  unfold objectBinding
  refine .here_bind fun start _ => ?_
  refine h.pledge.expect_bind (by decide) fun next _ h => ?_
  let I : List Bound → Reading → Prop := fun reversed later =>
    Accounted source later (reversed.map Prod.fst ++ pledge :: ns)
  refine (Gives.many (I := I) (J := I) (fun reversed r h => ?_) h).bind fun members mid hmid h => ?_
  · refine .sees_bind (fun _ => .pure h) fun _ => .after_still (still_sees _) fun spread => ?_
    have hcomma : ∀ (member : Bound) {r : Reading}, I (member :: reversed) r →
        Gives source (do
          if !(← sees "\x7d") then expect ","
          return some member) r (StepsTo I I reversed) := by
      intro member r h
      refine .sees_bind (fun _ => .pure h) fun _ => ?_
      exact h.expect_bind (by decide) fun next _ h => .pure h
    have hshows : ∃ n ∈ reversed.map Prod.fst ++ pledge :: ns, n.Shows :=
      ⟨pledge, by simp, shows_pledge⟩
    split
    · exact (adds_restProperty hg kind h hshows).bind fun member later _ ⟨h, _⟩ => hcomma member h
    · exact (adds_propertyBinding hg kind h hshows).bind fun member later _ ⟨h, _⟩ => hcomma member h
  · refine h.expect_bind (by decide) fun next' _ h => ?_
    have hread := mid.after_read_ne_nil next'
    refine (h.gives_redeemed hread ?_ rfl rfl).bound
    simp [SameTrees]

theorem adds_binding (hg : g.Sound source) (kind : Option String) :
    AddsBound source kind (binding g kind) := by
  intro r ns h hkind
  unfold binding
  refine .sees_bind (fun _ => adds_arrayBinding hg kind h hkind) fun _ => ?_
  refine .sees_bind (fun _ => adds_objectBinding hg kind h hkind) fun _ => ?_
  refine .ahead_bind (.after_still (still_seesKeyword _) fun _ => ?_)
  refine .unless (fails_failAt _ _) fun _ => ?_
  exact (gives_bindingName h hkind).bind fun n later _ ⟨h, _, _, hstop, _⟩ => .pure ⟨h, hstop⟩

/-! ## Parameters -/

theorem gives_restParameter (hg : g.Sound source) (h : Accounted source r ns) :
    Gives source (restParameter g) r fun bound later =>
      Accounted source later (bound.1 :: ns) ∧ bound.1.stop? = some later.edge := by
  unfold restParameter
  refine .here_bind fun start _ => ?_
  refine h.expect_bind (by decide) fun next _ h => ?_
  refine (hg.binding none h (mayBind_of_ne (by simp))).bind fun bound later hlater ⟨h, _⟩ => ?_
  refine .after_still (still_sees _) fun _ => .unless (fails_failBehind _) fun _ => ?_
  refine .after_still (still_sees _) fun _ => .unless (fails_failBehind _) fun _ => ?_
  have hread := hlater.read_ne_nil (r.after_read_ne_nil next)
  exact (h.gives_ended hread (by simp [SameTrees]) rfl).bound

theorem reversed_bind (ps : Parameters) (strict : Bool) (culprit : Culprit) (name : String) :
    (ps.bind strict culprit name).reversed = ps.reversed := by
  unfold Parameters.bind
  dsimp only
  repeat' split
  all_goals rfl

theorem reversed_foldl {α : Type} {f : Parameters → α → Parameters}
    (hf : ∀ ps a, (f ps a).reversed = ps.reversed) (ps : Parameters) (list : List α) :
    (list.foldl f ps).reversed = ps.reversed := by
  induction list generalizing ps with
  | nil => rfl
  | cons a list ih => rw [List.foldl_cons, ih, hf]

/-- One more parameter is read. -/
theorem gives_parameter (hg : g.Sound source) {ps : Parameters}
    (h : Accounted source r (ps.reversed ++ ns)) :
    Gives source (parameter g ps) r fun more later =>
      ∃ param, more.list = ps.list ++ [param] ∧ param.role = .param ∧
        param.stop? = some later.edge ∧ Accounted source later (more.reversed ++ ns) := by
  -- Noting the names of the parameter leaves the parameters as they are.
  have hnoted : ∀ (bound : Bound) (strict : Bool),
      (bound.2.foldl (fun (ps : Parameters) t => ps.bind strict ⟨some t⟩ t.lexeme.text) ps).reversed =
        ps.reversed :=
    fun bound strict => reversed_foldl (fun ps t => reversed_bind ps strict _ _) ps bound.2
  have hmore : ∀ (bound : Bound) {later : Reading} (more : Parameters),
      Accounted source later (bound.1 :: (ps.reversed ++ ns)) → bound.1.stop? = some later.edge →
      more.reversed = bound.1.withRole .param :: ps.reversed →
        ∃ param, more.list = ps.list ++ [param] ∧ param.role = .param ∧
          param.stop? = some later.edge ∧ Accounted source later (more.reversed ++ ns) := by
    rintro ⟨⟨form, role, span, parts⟩, tokens⟩ later more h hstop hreversed
    refine ⟨.mk form .param span parts, ?_, rfl, hstop, ?_⟩
    · simp [Parameters.list, hreversed, Node.withRole]
    · rw [hreversed]
      exact h.regroup (by simp [SameTrees])
  unfold parameter
  refine .after_still (still_sees _) fun spread => ?_
  split
  · refine (gives_restParameter hg h).bind fun bound later _ ⟨h, hstop⟩ => ?_
    refine .after_still still_strict fun strict => .pure (hmore bound _ h hstop ?_)
    exact congrArg (_ :: ·) (hnoted bound strict)
  · refine (adds_bindingWithDefault hg none h (mayBind_of_ne (by simp))).bind fun bound later _ ⟨h, hstop⟩ => ?_
    refine .after_still still_strict fun strict => .pure (hmore bound _ h hstop ?_)
    exact congrArg (_ :: ·) (hnoted bound strict)

/-- Parameters are read up to the closing parenthesis. -/
theorem gives_parametersRest (hg : g.Sound source) (fuel : Nat) :
    ∀ {ps : Parameters} {r : Reading}, Accounted source r (ps.reversed ++ ns) →
      Items r .param ps.list [] →
      Gives source (parametersRest g fuel ps) r fun ps later =>
        Accounted source later (ps.reversed ++ ns) ∧ Items later .param ps.list [")"] := by
  induction fuel with
  | zero => exact fun _ _ => .of_fails (fails_interrupt _)
  | succ fuel ih =>
      intro ps r h hitems
      unfold parametersRest
      refine .after_still (still_sees _) fun _ => .after_still still_seesEnd fun _ => ?_
      split
      · exact h.expect_bind (by decide) fun next hahead h' =>
          .pure ⟨h', hitems.after h.sound hahead next⟩
      · refine (gives_parameter hg h).bind fun ps mid _ ⟨param, hlist, hrole, hstop, h⟩ => ?_
        have hends : ∃ stop, param.stop? = some stop ∧ EndsAt mid stop :=
          ⟨mid.edge, hstop, endsAt_edge h.sound⟩
        refine .sees_bind (fun _ => ih h ?_) fun _ => ?_
        · rw [hlist]
          exact hitems.concat hrole hends
        · refine h.expect_bind (by decide) fun next hahead h' => ih h' ?_
          rw [hlist]
          exact hitems.concatComma hrole hends h.sound hahead next

theorem gives_parameters (hg : g.Sound source) (firstRestricted : Option Culprit)
    (h : Accounted source r ns) :
    Gives source (parameters g firstRestricted) r fun ps later =>
      Accounted source later (ps.reversed ++ ns) ∧ Items later .param ps.list [")"] := by
  unfold parameters
  refine h.expect_bind (by decide) fun next _ h => .after_still still_budget fun _ => ?_
  exact gives_parametersRest hg _ h .nil

end EditionSurvey.Script.Grammar
