/-
  Proofs/Grammar/Primary.lean --- what the productions for the operands of expressions add.
-/
import EditionSurvey.Proofs.Grammar.Member

set_option autoImplicit false

namespace EditionSurvey.Script.Grammar

variable {source : List Char} {r later : Reading} {ns : List Node} {g : Productions}

/-! ## Templates -/

/-- A piece of a template is read while its pledge shows a newer form. -/
theorem gives_quasi {first : Bool} (h : Accounted source r (pledge :: ns)) :
    Gives source (quasi first) r fun piece later =>
      Accounted source later (piece.1 :: pledge :: ns) ∧ Past r later := by
  have hr := h.sound
  unfold quasi
  refine .ahead_bind ?_
  split
  · rename_i raw head tail hahead
    refine .unless (fails_interrupt _) fun _ => .here_bind fun start _ => ?_
    refine h.advance_bind (fun _ => .inr ⟨pledge, by simp, shows_pledge⟩) (h.headless (by simp [hahead]))
      fun next h => ?_
    refine (h.gives_plain (fun _ => Iff.rfl) rfl).bind fun piece last hlast h => .pure ?_
    exact ⟨h, .of_after hr hlast⟩
  · exact .of_fails (fails_failBehind _)

theorem gives_substitutions (hg : g.Sound source) (fuel : Nat) :
    ∀ {pieces exprs : List Node} {r : Reading}, Accounted source r (pieces ++ exprs ++ pledge :: ns) →
      Gives source (substitutions g fuel pieces exprs) r fun parts later =>
        Accounted source later (parts.1 ++ parts.2 ++ pledge :: ns) := by
  induction fuel with
  | zero => exact fun _ => .of_fails (fails_interrupt _)
  | succ fuel ih =>
      intro pieces exprs r h
      unfold substitutions
      refine (adds_expression hg h).bind ?_
      rintro expr mid _ ⟨h, _, _⟩
      have h : Accounted source mid (pledge :: (pieces ++ expr :: exprs ++ ns)) :=
        h.regroup (by simp [SameTrees, or_left_comm])
      refine (gives_quasi h).bind ?_
      rintro piece later _ ⟨h, _⟩
      obtain ⟨piece, tail⟩ := piece
      have h : Accounted source later ((piece :: pieces) ++ (expr :: exprs) ++ pledge :: ns) :=
        h.regroup (by simp [SameTrees, or_left_comm])
      dsimp only
      split
      · exact .pure (h.regroup (by simp [SameTrees, or_left_comm]))
      · exact ih h

theorem adds_template (hg : g.Sound source) : AddsWhole source (template g) := by
  intro r ns h
  have hr := h.sound
  unfold template
  refine .here_bind fun start hstart => ?_
  refine (gives_quasi h.pledge).bind fun piece mid _ ⟨h, hpast⟩ => ?_
  obtain ⟨piece, tail⟩ := piece
  dsimp only at h ⊢
  have hredeem : ∀ {n : Node} {last : Reading},
      Accounted source last (n :: pledge :: ns) ∧ Past r last ∧ Whole r last n →
        n.Shows → Accounted source last (n :: ns) ∧ Past r last ∧ Whole r last n :=
    fun ⟨h, hn⟩ hshows => ⟨h.redeem hshows, hn⟩
  split
  · refine gives_node fun span hspan hstop => hredeem ⟨h.plain (by simp [SameTrees]) rfl, hpast, ?_⟩
      (Node.shows_mk.mpr (.inl rfl))
    exact hpast.whole hr h.sound (hspan.trans hstart) hstop (by simp)
  · refine .after_still still_budget fun _ => ?_
    refine (gives_substitutions hg _ h).bind fun parts later hlater h => ?_
    have hpast := hpast.trans hlater
    refine gives_node fun span hspan hstop => hredeem ⟨h.plain (fun _ => Iff.rfl) rfl, hpast, ?_⟩
      (Node.shows_mk.mpr (.inl rfl))
    exact hpast.whole hr h.sound (hspan.trans hstart) hstop (by simp)

theorem still_seesTemplateHead : Still seesTemplateHead := by
  refine still_ahead.bind fun t => ?_
  split <;> exact still_pure _

/-! ## Arrays -/

theorem adds_arrayLiteral (hg : g.Sound source) : AddsWhole source (arrayLiteral g) := by
  intro r ns h
  have hr := h.sound
  unfold arrayLiteral
  refine .here_bind fun start hstart => ?_
  refine h.expect_bind (by decide) fun next _ h => ?_
  refine (Gives.many_of_invariant
    (fun elements later => Accounted source later (elements.filterMap id ++ ns)) ?_ h).bind
    fun elements mid hmid h => ?_
  · intro elements r h
    refine .sees_bind (fun _ => .pure h) fun _ => ?_
    refine h.accept_bind (by decide) (fun next _ h => .pure h) fun _ => ?_
    refine .after_still (still_sees _) fun spreads => ?_
    split
    · refine (gives_spread hg h).bind fun element mid _ ⟨h, _⟩ => ?_
      refine .sees_bind (fun _ => .pure h) fun _ => ?_
      exact .after_still (still_modifyContext _) fun _ => h.expect_bind (by decide) fun _ _ h => .pure h
    · refine (hg.assignment h).inherit.bind fun element mid _ ⟨h, _, _⟩ => ?_
      exact .sees_bind (fun _ => .pure h) fun _ => h.expect_bind (by decide) fun _ _ h => .pure h
  have hsound := h.sound
  refine h.expect_bind (by decide) fun next' _ h => ?_
  refine h.gives_whole hr (.of_after hr (hmid.trans (hsound.extends_after next'))) hstart ?_ rfl (by simp)
  simp [SameTrees]

/-! ## Groups -/

/-- The parts of a node that shows nothing by itself may stand for it. -/
theorem Accounted.parts {form : Form} {role : Role} {span : Option Span} {parts : List Node}
    (h : Accounted source r (.mk form role span parts :: ns)) (hform : form.newer = false) :
    Accounted source r (parts ++ ns) := by
  refine h.exchange ?_ (fun n hn => ?_) fun hheadless n hn => ?_
  · rintro ⟨n, hn, hshows⟩
    obtain rfl | hn := List.mem_cons.mp hn
    · obtain ⟨part, hpart, hshows⟩ := (Node.shows_mk.mp hshows).resolve_left (by simp [hform])
      exact ⟨part, List.mem_append_left _ hpart, hshows⟩
    · exact ⟨n, List.mem_append_right _ hn, hshows⟩
  · obtain hn | hn := List.mem_append.mp hn
    · exact (Node.all_mk.mp (h.listed _ List.mem_cons_self)).2 n hn
    · exact h.listed n (List.mem_cons_of_mem _ hn)
  · obtain hn | hn := List.mem_append.mp hn
    · exact (Node.headless_mk.mp (hheadless _ List.mem_cons_self)).2 n hn
    · exact hheadless n (List.mem_cons_of_mem _ hn)

/-- Reading expressions as patterns leaves the last one at its place. -/
theorem stop?_getLast?_eachAsPattern {ps : List Node} {E : Nat → Prop}
    (h : ∀ last, ps.getLast? = some last → ∃ stop, last.stop? = some stop ∧ E stop) :
    ∀ last, (eachAsPattern ps).getLast? = some last → ∃ stop, last.stop? = some stop ∧ E stop := by
  intro last hlast
  rw [eachAsPattern_eq_map, List.getLast?_map, Option.map_eq_some_iff] at hlast
  obtain ⟨n, hn, rfl⟩ := hlast
  simpa [Node.stop?] using h n hn

/-- Patterns that a parenthesis closes become the parameters of an arrow function. -/
theorem Accounted.arrowHead {params : List Node} {next : Token}
    (h : Accounted source r (params ++ ns)) (hclose : r.ahead.lexeme = .punctuator ")")
    (hnext : (r.after next).Sound source)
    (hends : ∀ last, params.getLast? = some last →
      ∃ stop, last.stop? = some stop ∧ EndsList (r.after next) stop) :
    Accounted source (r.after next) (arrowHead false params :: ns) ∧
      Waits (r.after next) (Grammar.arrowHead false params) := by
  have hheadless := h.headless (by simp [hclose])
  have h := h.after hnext (by simp [hclose, Lexeme.newer]) hheadless
  exact ⟨h.plain (fun _ => Iff.rfl) rfl, false, params, rfl,
    fun n hn => hheadless n (List.mem_append_left _ hn), hends⟩

/-- The arrow behind parameters must be there. -/
theorem Gives.arrow_bind {β : Type} {p : Parse β} {Q : β → Reading → Prop}
    (k : r.ahead.lexeme = .punctuator "=>" → Gives source p r Q) :
    Gives source (do
      if !(← sees "=>") then expect "=>"
      p) r Q :=
  .sees_bind k fun hno => .expect_bind fun _ hyes => absurd hyes hno

/-- What is known of a group behind its first expression. -/
def GroupRead (source : List Char) (ns : List Node) : GroupRest → Reading → Prop
  | .expressions list, later => Accounted source later (list ++ ns) ∧
      ∀ last, list.getLast? = some last → ∃ stop, last.stop? = some stop ∧ EndsAt later stop
  | .params list, later =>
      Accounted source later (arrowHead false list :: ns) ∧ Waits later (arrowHead false list)

theorem gives_groupRest (hg : g.Sound source) (fuel : Nat) :
    ∀ {reversed : List Node} {r : Reading}, Accounted source r (reversed ++ ns) →
      (∀ last, reversed.head? = some last → ∃ stop, last.stop? = some stop ∧ EndsAt r stop) →
        Gives source (groupRest g fuel reversed) r (GroupRead source ns) := by
  induction fuel with
  | zero => exact fun _ _ => .of_fails (fails_interrupt _)
  | succ fuel ih =>
      intro reversed r h hends
      have hr := h.sound
      unfold groupRest
      refine h.accept_bind (by decide) (fun next hcomma h => ?_) fun _ => ?_
      · have hlist : Accounted source (r.after next) (reversed.reverse ++ ns) :=
          h.regroup (by simp [SameTrees])
        refine h.accept_bind (by decide) (fun next' hclose h' => ?_) fun _ => ?_
        · refine .pure ((Accounted.eachAsPattern _ hlist).arrowHead hclose h'.sound ?_)
          refine stop?_getLast?_eachAsPattern fun last hlast => ?_
          obtain ⟨stop, hstop, hle, n, hsince⟩ := hends last (by simpa using hlast)
          have hextends := hr.extends_after next
          refine ⟨stop, hstop, Nat.le_trans hle
            (hextends.trans (h.sound.extends_after next')).1, n, true, ?_⟩
          rw [since_after h.sound (Nat.le_trans hle hextends.1) hclose, since_after hr hle hcomma,
            hsince]
          simp [punctuators]
        · refine .sees_bind (fun _ => ?_) fun _ => ?_
          · refine .after_still still_context fun c => ?_
            split
            · exact .unexpectedAhead
            refine (gives_restParameter hg h).bind ?_
            rintro rest mid _ ⟨h, hstop⟩
            have hlist : Accounted source mid ((rest.1 :: reversed).reverse ++ ns) :=
              h.regroup (by simp [SameTrees, or_left_comm])
            refine h.expect_bind (by decide) fun next' hclose h' => .arrow_bind fun _ => ?_
            refine .after_still (still_modifyContext _) fun _ => ?_
            refine .pure ((Accounted.eachAsPattern _ hlist).arrowHead hclose h'.sound ?_)
            refine stop?_getLast?_eachAsPattern fun last hlast => ?_
            obtain rfl : rest.1 = last := by simpa using hlast
            exact ⟨mid.edge, hstop, ((endsAt_edge h.sound).after h.sound hclose next').endsList⟩
          · refine (hg.assignment h).inherit.bind ?_
            rintro n mid _ ⟨h, _, hn⟩
            refine ih h ?_
            intro last hlast
            obtain rfl : n = last := by simpa using hlast
            exact hn.stop
      · exact .pure ⟨h.regroup (by simp [SameTrees]), by simpa using hends⟩

/-- A group is closed: what was read in it stands for itself or, with an arrow ahead, for parameters. -/
theorem gives_closeGroup {expr : Node} {next : Token} {r₀ : Reading} (hr : r₀.Sound source)
    (hopen : r₀.ahead.lexeme = .punctuator "(") (hnext : (r₀.after next).Sound source)
    (hextends : (r₀.after next).Extends r) (h : Accounted source r (expr :: ns))
    (hexpr : Whole (r₀.after next) r expr) :
    Gives source (closeGroup expr) r fun n later =>
      Accounted source later (n :: ns) ∧ Reads r₀ later n := by
  unfold closeGroup
  refine h.expect_bind (by decide) fun next' hclose h' => ?_
  have hpast : Past r₀ (r.after next') := .of_after hr (hextends.trans (h.sound.extends_after next'))
  have hahead : r₀.ahead.lexeme ≠ .punctuator "=>" := by simp [hopen]
  have hdone : ∀ {n : Node}, Accounted source (r.after next') (n :: ns) →
      (Whole r₀ (r.after next') n ∨ Waits (r.after next') n) →
      Gives source (do
        modifyContext fun c => { c with isBinding := false }
        return n) (r.after next') fun n later =>
          Accounted source later (n :: ns) ∧ Reads r₀ later n :=
    fun h hn => .after_still (still_modifyContext _) fun _ => .pure ⟨h, hpast, hahead, hn⟩
  have hstop : ∀ {stop : Nat}, EndsAt r stop → EndsList (r.after next') stop :=
    fun hends => (hends.after h.sound hclose next').endsList
  have hsingle : ∀ {param : Node}, Accounted source r (param :: ns) → param.stop? = expr.stop? →
      Accounted source (r.after next') (arrowHead false [param] :: ns) ∧
        Waits (r.after next') (arrowHead false [param]) := by
    intro param h hparam
    refine Accounted.arrowHead h hclose h'.sound fun last hlast => ?_
    obtain rfl : param = last := by simpa using hlast
    obtain ⟨stop, hexpr_stop, hends⟩ := hexpr.stop
    exact ⟨stop, hparam.trans hexpr_stop, hstop hends⟩
  refine .sees_bind (fun _ => ?_) fun _ => hdone h' (.inl ?_)
  · dsimp only
    rw [if_pos rfl]
    split
    · obtain ⟨hhead, hwaits⟩ := hsingle h rfl
      exact hdone hhead (.inr hwaits)
    refine .after_still still_context fun c => ?_
    split
    · exact .unexpectedAhead
    split
    · rename_i role span parts hyield
      obtain ⟨hhead, hwaits⟩ := (Accounted.eachAsPattern parts (h.parts rfl)).arrowHead hclose
        h'.sound (stop?_getLast?_eachAsPattern fun last hlast => by
          obtain ⟨stop, hlast_stop, hends⟩ := hexpr.last rfl last hlast
          exact ⟨stop, hlast_stop, hstop hends⟩)
      exact hdone hhead (.inr hwaits)
    · obtain ⟨hhead, hwaits⟩ := hsingle h.asPattern (by simp [Node.stop?])
      exact hdone hhead (.inr hwaits)
  · exact hexpr.group hr hnext h.sound hextends hopen hclose

/-- An expression or parameters in parentheses. -/
theorem adds_parenthesised (hg : g.Sound source) : AddsOperand source (parenthesised g) := by
  intro r ns h
  have hr := h.sound
  unfold parenthesised
  refine h.expect_bind (by decide) fun next hopen h => ?_
  have hahead : r.ahead.lexeme ≠ .punctuator "=>" := by simp [hopen]
  have hwaiting : ∀ {n : Node} {later : Reading}, (r.after next).Extends later →
      Accounted source later (n :: ns) ∧ Waits later n →
        Accounted source later (n :: ns) ∧ Reads r later n :=
    fun hlater ⟨h, hwaits⟩ => ⟨h, .of_after hr hlater, hahead, .inr hwaits⟩
  have hnext := h.sound
  refine h.accept_bind (by decide) (fun next' hclose h' => .arrow_bind fun _ => .pure ?_) fun _ => ?_
  · exact hwaiting (hnext.extends_after next')
      (Accounted.arrowHead h hclose h'.sound (by simp))
  refine .ahead_bind (.sees_bind (fun _ => ?_) fun _ => ?_)
  · refine (gives_restParameter hg h).bind ?_
    rintro rest mid hmid ⟨h, hstop⟩
    refine h.expect_bind (by decide) fun next' hclose h' => .arrow_bind fun _ => .pure ?_
    refine hwaiting (hmid.trans (h.sound.extends_after next'))
      (Accounted.arrowHead h hclose h'.sound fun last hlast => ?_)
    obtain rfl : rest.1 = last := by simpa using hlast
    exact ⟨mid.edge, hstop, ((endsAt_edge h.sound).after h.sound hclose next').endsList⟩
  refine .after_still (still_modifyContext _) fun _ => ?_
  refine (hg.assignment h).inherit.bind ?_
  rintro first mid hmid ⟨h, hpast, hfirst⟩
  refine .sees_bind (fun _ => ?_) fun _ => gives_closeGroup hr hopen hnext hmid h hfirst
  refine .after_still (still_modifyContext _) fun _ => .after_still still_budget fun _ => ?_
  refine (gives_groupRest hg _ h (by simpa using hfirst.stop)).bind
    fun rest later hlater hrest => ?_
  cases rest with
  | params list => exact .pure (hwaiting (hmid.trans hlater) hrest)
  | expressions list =>
      obtain ⟨h, hlast⟩ := hrest
      have hpast := hpast.trans hlater
      have hsequence : Gives source (nodeFrom (r.after next).ahead .sequence list) later
          fun n last => Accounted source last (n :: ns) ∧ Whole (r.after next) last n := by
        refine gives_nodeFrom fun span hspan hstop => ⟨h.plain (fun _ => Iff.rfl) rfl, ?_⟩
        refine ⟨⟨span, rfl, ?_, ?_⟩, fun _ => hlast, by simp [Node.form], by simp [Node.form]⟩
        · rw [hspan]
          exact hpast.beginsAt hnext
        · rw [hstop hpast.read_ne_nil]
          exact endsAt_edge h.sound
      refine hsequence.bind ?_
      rintro n last hlast ⟨h, hn⟩
      exact gives_closeGroup hr hopen hnext ((hmid.trans hlater).trans hlast) h hn

/-! ## Operands -/

theorem AddsName.seals {p : Parse Node} (hp : AddsName source p) : AddsSealed source p :=
  fun h => (hp h).mono fun _ _ _ ⟨h, hpast, hn, _, _, hshows⟩ =>
    ⟨h, hpast, hn, headless_of_not_shows hshows⟩

/-- A node without parts for the token that was read. -/
theorem Accounted.gives_leaf {start : Mark} {form : Form} {next : Token}
    (h : Accounted source (r.after next) ns) (hr : r.Sound source)
    (hstart : start.offset = r.ahead.start) (hplain : form.isPlain = true) (hform : Spans form []) :
    Gives source (Grammar.node start form []) (r.after next) fun n later =>
      Accounted source later (n :: ns) ∧ Past r later ∧ Whole r later n ∧ n.Headless := by
  refine gives_node fun span hspan hstop => ?_
  have hpast : Past r (r.after next) := .of_after hr (.refl _)
  exact ⟨h.leaf hplain, hpast, hpast.whole hr h.sound (hspan.trans hstart) hstop hform,
    Node.headless_mk.mpr ⟨Form.ne_arrowHead_of_isPlain hplain, by simp⟩⟩

/-- What spans what was read is an operand. -/
theorem Gives.reads {p : Parse Node} {r₀ : Reading}
    (hp : Gives source p r fun n later =>
      Accounted source later (n :: ns) ∧ Past r₀ later ∧ Whole r₀ later n)
    (hahead : r₀.ahead.lexeme ≠ .punctuator "=>") :
    Gives source p r fun n later => Accounted source later (n :: ns) ∧ Reads r₀ later n :=
  hp.mono fun _ _ _ ⟨h, hpast, hn⟩ => ⟨h, hpast, hahead, .inl hn⟩

theorem still_seesImportCall : Still seesImportCall := by
  refine (still_seesKeyword _).bind fun _ => ?_
  split
  · exact still_pure _
  · exact still_peekBeyond.bind fun _ => still_pure _

/-- A literal: a number, or a token that shows nothing new. -/
theorem gives_literal {text : Option String} (h : Accounted source r ns)
    (hahead : (∃ spelling octal, r.ahead.lexeme = .number spelling octal) ∨ r.ahead.lexeme.Quiet) :
    Gives source (literal text) r fun n later =>
      Accounted source later (n :: ns) ∧ Past r later ∧ Whole r later n := by
  have hr := h.sound
  have hpast : ∀ next, Past r (r.after next) := fun next => .of_after hr (.refl _)
  unfold literal
  refine .here_bind fun start hstart => .after_still (still_modifyContext _) fun _ => ?_
  obtain ⟨spelling, octal, hahead⟩ | hquiet := hahead
  · refine h.leaf_bind (.literal spelling text) rfl ?_ ?_ fun next h => ?_
    · rw [hahead]
      exact id
    · simp [hahead]
    · rw [hahead]
      refine gives_node fun span hspan hstop => ⟨h _ _, hpast next, ?_⟩
      exact (hpast next).whole hr (h .part none).sound (hspan.trans hstart) hstop (by simp)
  · refine h.quiet_bind hquiet fun next h => ?_
    exact h.gives_whole hr (hpast next) hstart (fun _ => Iff.rfl) rfl (by simp)

/-- A regular expression is read in the place of the token ahead. -/
theorem gives_patternLiteral (h : Accounted source r ns)
    (hahead : r.ahead.lexeme ≠ .punctuator "=>") :
    Gives source patternLiteral r fun n later =>
      Accounted source later (n :: ns) ∧ Past r later ∧ Whole r later n := by
  have hr := h.sound
  unfold patternLiteral
  refine .here_bind fun start hstart => .after_still (still_modifyContext _) fun _ => ?_
  refine gives_advancePattern.bind fun t later _ ⟨ht, hsound, next, hlater⟩ => ?_
  subst hlater
  refine .of_sound fun hnext _ => ?_
  split
  · rename_i spelling flags hpattern
    have hpast : Past r ((r.withAhead t).after next) := ⟨t, next, ht, hsound.ahead_le, .refl _⟩
    have hleaf : Accounted source r (.mk (.pattern flags) .part none [] :: ns) := h.leaf rfl
    have hheadless := hleaf.headless hahead
    -- Only the token ahead is another one, and that is not read yet.
    have hleaf : Accounted source (r.withAhead t) (.mk (.pattern flags) .part none [] :: ns) :=
      { hleaf with sound := hsound, headed := .inl hheadless }
    have h := hleaf.after hnext (fun hnewer => .inr ⟨_, List.mem_cons_self, Node.shows_mk.mpr (.inl ?_)⟩)
      hheadless
    · exact gives_node fun span hspan hstop => ⟨h.moveLeaf rfl, hpast,
        hpast.whole hr hnext (hspan.trans hstart) hstop (by simp)⟩
    · rw [Reading.withAhead, hpattern] at hnewer
      exact hnewer
  · exact .of_fails (fails_unexpected _)

theorem adds_keywordOperand (hg : g.Sound source) : AddsSealed source (keywordOperand g) := by
  intro r ns h
  have hr := h.sound
  unfold keywordOperand
  refine .here_bind fun start hstart => .after_still still_context fun c => ?_
  refine .after_still (still_seesKeyword _) fun yields => ?_
  split
  · exact adds_propertyWord.seals h
  have hnode : ∀ {form : Form} {next : Token}, Accounted source (r.after next) ns →
      form.isPlain = true → Spans form [] → Gives source (node start form []) (r.after next)
        fun n later => Accounted source later (n :: ns) ∧ Past r later ∧ Whole r later n ∧ n.Headless :=
    fun h hplain hform => h.gives_leaf hr hstart hplain hform
  have hword : ∀ {word : String} {form : Form}, r.ahead.lexeme = .keyword word →
      form.isPlain = true → Spans form [] → Gives source (do
        let _ ← advance
        node start form []) r fun n later =>
          Accounted source later (n :: ns) ∧ Past r later ∧ Whole r later n ∧ n.Headless :=
    fun hahead hplain hform => h.quiet_bind (by rw [hahead]; exact ⟨rfl, by simp⟩)
      fun next h => hnode h hplain hform
  refine .seenKeyword_bind fun lets hlet => ?_
  split
  · rename_i hseen
    exact hword (hlet (Bool.and_eq_true_iff.mp hseen).2) rfl (by simp)
  refine .after_still (still_modifyContext _) fun _ => ?_
  refine .seesKeyword_bind (fun _ => adds_functionExpression hg h) fun _ => ?_
  refine .seesKeyword_bind (fun hthis => hword hthis rfl (by simp)) fun _ => ?_
  refine .seesKeyword_bind (fun _ => adds_classExpression hg h) fun _ => ?_
  refine .after_still still_seesImportCall fun imports => ?_
  split
  · exact h.expectKeyword_bind fun next _ h => hnode h rfl (by simp)
  · exact .of_fails (.of_bind fun t => fails_unexpected t)

/-- An operand that starts with a word. -/
theorem gives_wordOperand (hg : g.Sound source) (h : Accounted source r ns)
    (hahead : (∃ name, r.ahead.lexeme = .identifier name) ∨ ∃ word, r.ahead.lexeme = .keyword word) :
    Gives source (primary g) r fun n later =>
      Accounted source later (n :: ns) ∧ Past r later ∧ Whole r later n ∧ n.Headless := by
  have hr := h.sound
  unfold primary
  refine .here_bind fun start hstart => .ahead_bind ?_
  obtain ⟨name, hahead⟩ | ⟨word, hahead⟩ := hahead
  · rw [hahead]
    refine .after_still still_context fun c => .unless (fails_unexpected _) fun _ => ?_
    refine .after_still still_seesAsyncFunction fun functions => ?_
    split
    · exact adds_functionExpression hg h
    · exact h.quiet_bind (by rw [hahead]; exact ⟨rfl, by simp⟩)
        fun next h => h.gives_leaf hr hstart rfl (by simp)
  · rw [hahead]
    exact adds_keywordOperand hg h

theorem adds_primary (hg : g.Sound source) : AddsOperand source (primary g) := by
  intro r ns h
  by_cases hword :
      (∃ name, r.ahead.lexeme = .identifier name) ∨ ∃ word, r.ahead.lexeme = .keyword word
  · have hahead : r.ahead.lexeme ≠ .punctuator "=>" := by
      obtain ⟨name, hname⟩ | ⟨word, hname⟩ := hword <;> simp [hname]
    refine Gives.mono (gives_wordOperand hg h hword) fun n later _ ⟨h, hpast, hn, _⟩ => ?_
    exact ⟨h, hpast, hahead, .inl hn⟩
  have hquiet : ∀ {lexeme : Lexeme}, r.ahead.lexeme = lexeme → lexeme.Quiet → r.ahead.lexeme.Quiet :=
    fun heq hquiet => heq ▸ hquiet
  unfold primary
  refine .here_bind fun start hstart => .ahead_bind ?_
  split
  · rename_i name hahead
    exact absurd (.inl ⟨name, hahead⟩) hword
  · rename_i spelling octal hahead
    refine .after_still still_strict fun strict => .unless (fails_failAt _ _) fun _ => ?_
    exact (gives_literal h (.inl ⟨_, _, hahead⟩)).reads (by simp [hahead])
  · rename_i spelling value octal hahead
    refine .after_still still_strict fun strict => .unless (fails_failAt _ _) fun _ => ?_
    exact (gives_literal h (.inr (hquiet hahead ⟨rfl, by simp⟩))).reads (by simp [hahead])
  · rename_i word hahead
    exact (gives_literal h (.inr (hquiet hahead ⟨rfl, by simp⟩))).reads (by simp [hahead])
  · rename_i hahead
    exact (gives_literal h (.inr (hquiet hahead ⟨rfl, by simp⟩))).reads (by simp [hahead])
  · rename_i hahead
    exact (adds_template hg h).reads (by simp [hahead])
  · exact .after_still (still_modifyContext _) fun _ => (adds_parenthesised hg h).inherit
  · rename_i hahead
    exact (adds_arrayLiteral hg h).inherit.reads (by simp [hahead])
  · rename_i hahead
    exact (adds_objectLiteral hg h).inherit.reads (by simp [hahead])
  · rename_i hahead
    exact (gives_patternLiteral h (by simp [hahead])).reads (by simp [hahead])
  · rename_i hahead
    exact (gives_patternLiteral h (by simp [hahead])).reads (by simp [hahead])
  · rename_i word hahead
    exact absurd (.inr ⟨word, hahead⟩) hword
  · exact .of_fails (.of_bind fun t => fails_unexpected t)

/-! ## Members and calls -/

/-- Arguments up to the closing parenthesis.  Before that is read no head waits among them. -/
theorem gives_arguments (hg : g.Sound source) {argument : Parse Node}
    (hargument : AddsWhole source argument) (h : Accounted source r ns) :
    Gives source (arguments g argument) r fun args later =>
      Accounted source later (args ++ ns) ∧ Past r later ∧ Items later .argument args [")"] ∧
        ∀ arg ∈ args, arg.Headless := by
  have hr := h.sound
  unfold arguments
  refine h.expect_bind (by decide) fun next _ h => ?_
  let I (args : List Node) (later : Reading) : Prop :=
    Accounted source later (args ++ ns) ∧ Items later .argument args.reverse []
  refine (Gives.many_of_invariant I ?_ ⟨h, .nil⟩).bind ?_
  · rintro args r ⟨h, hitems⟩
    have hcomma : ∀ {arg : Node} {mid : Reading}, Accounted source mid (arg :: (args ++ ns)) →
        (∃ stop, arg.stop? = some stop ∧ EndsAt mid stop) →
        Gives source (do
          if !(← sees ")") then expect ","
          return some (arg.withRole .argument)) mid (StepsTo I I args) := by
      intro arg mid h hends
      have hends : ∃ stop, (arg.withRole .argument).stop? = some stop ∧ EndsAt mid stop := by
        simpa using hends
      refine .sees_bind (fun _ => .pure ⟨h.regroup (by simp [SameTrees]), ?_⟩) fun _ => ?_
      · rw [List.reverse_cons]
        exact hitems.concat (role_withRole _ _) hends
      · refine h.expect_bind (by decide) fun next hahead h' => .pure ⟨h'.regroup (by simp [SameTrees]), ?_⟩
        rw [List.reverse_cons]
        exact hitems.concatComma (role_withRole _ _) hends h.sound hahead next
    refine .sees_bind (fun _ => .pure ⟨h, hitems⟩) fun _ => .after_still (still_sees _) fun spreads => ?_
    split
    · refine (gives_spread hg h).bind ?_
      rintro arg mid _ ⟨h, hstop⟩
      exact hcomma h ⟨mid.edge, hstop, endsAt_edge h.sound⟩
    · refine (hargument h).isolate.bind ?_
      rintro arg mid _ ⟨h, _, harg⟩
      exact hcomma h harg.stop
  · rintro args mid hmid ⟨h, hitems⟩
    have hpast := fun next' => hmid.trans (h.sound.extends_after next')
    refine h.expect_bind (by decide) fun next' hclose h' => .pure ⟨h'.regroup ?_, ?_, ?_, ?_⟩
    · simp [SameTrees]
    · exact .of_after hr (hpast next')
    · have := hitems.after h.sound hclose next'
      rwa [List.reverse_reverse] at this
    · exact fun arg harg => h.headless (by simp [hclose]) arg (by simp [harg])

theorem adds_asyncArgument (hg : g.Sound source) : AddsWhole source (asyncArgument g) :=
  fun h => (hg.assignment h).bind fun _ _ _ hn => .after_still (still_modifyContext _) fun _ => .pure hn

/-- Behind an operand that began at the reading there is more of it. -/
theorem Reads.gives_nodeFrom {r₀ : Reading} {n : Node} {form : Form} {parts ms : List Node}
    (hn : Reads r₀ r n) (hr : r₀.Sound source) (hextends : r.Extends later)
    (h : Accounted source later ms) (hsame : SameTrees ms (parts ++ ns))
    (hplain : form.isPlain = true) (hform : Spans form parts) :
    Gives source (nodeFrom r₀.ahead form parts) later fun n later =>
      Accounted source later (n :: ns) ∧ Reads r₀ later n :=
  (h.gives_wholeFrom hr (hn.past.trans hextends) hsame hplain hform).mono
    fun _ _ _ ⟨h, hpast, hwhole⟩ => ⟨h, hpast, hn.ahead, .inl hwhole⟩

section Chains

variable {r₀ : Reading} {expr : Node}

theorem gives_dotMember (hr : r₀.Sound source) (h : Accounted source r (expr :: ns))
    (hexpr : Reads r₀ r expr) :
    Gives source (dotMember r₀.ahead expr) r fun n later =>
      Accounted source later (n :: ns) ∧ Reads r₀ later n := by
  have hsound := h.sound
  unfold dotMember
  refine .after_still (still_modifyContext _) fun _ => ?_
  refine h.expect_bind (by decide) fun next _ h => ?_
  refine (adds_propertyWord h).bind fun name later hlater ⟨h, _⟩ => ?_
  exact hexpr.gives_nodeFrom hr ((hsound.extends_after next).trans hlater) h
    (by simp [SameTrees, or_left_comm]) rfl (by simp)

theorem gives_bracketMember (hg : g.Sound source) (hr : r₀.Sound source)
    (h : Accounted source r (expr :: ns)) (hexpr : Reads r₀ r expr) :
    Gives source (bracketMember g r₀.ahead expr) r fun n later =>
      Accounted source later (n :: ns) ∧ Reads r₀ later n := by
  have hsound := h.sound
  unfold bracketMember
  refine .after_still (still_modifyContext _) fun _ => ?_
  refine h.expect_bind (by decide) fun next _ h => ?_
  refine (adds_expression hg h).isolate.bind fun name mid hmid ⟨h, _⟩ => ?_
  have hmid := ((hsound.extends_after next).trans hmid)
  have hsound := h.sound
  refine h.expect_bind (by decide) fun next' _ h => ?_
  exact hexpr.gives_nodeFrom hr (hmid.trans (hsound.extends_after next')) h
    (by simp [SameTrees, or_left_comm]) rfl (by simp)

theorem gives_taggedTemplate (hg : g.Sound source) (hr : r₀.Sound source)
    (h : Accounted source r (expr :: ns)) (hexpr : Reads r₀ r expr) :
    Gives source (taggedTemplate g r₀.ahead expr) r fun n later =>
      Accounted source later (n :: ns) ∧ Reads r₀ later n := by
  unfold taggedTemplate
  refine (adds_template hg h).bind fun quasi later hlater ⟨h, _⟩ => ?_
  exact hexpr.gives_nodeFrom hr hlater h (by simp [SameTrees, or_left_comm]) rfl (by simp)

theorem gives_memberChain (hg : g.Sound source) (hr : r₀.Sound source) (fuel : Nat) :
    ∀ {expr : Node} {r : Reading}, Accounted source r (expr :: ns) → Reads r₀ r expr →
      Gives source (memberChain g r₀.ahead fuel expr) r fun n later =>
        Accounted source later (n :: ns) ∧ Reads r₀ later n := by
  induction fuel with
  | zero => exact fun _ _ => .of_fails (fails_interrupt _)
  | succ fuel ih =>
      intro expr r h hexpr
      unfold memberChain
      refine .sees_bind (fun _ => ?_) fun _ => .sees_bind (fun _ => ?_) fun _ => ?_
      · exact (gives_bracketMember hg hr h hexpr).bind fun n mid _ ⟨h, hn⟩ => ih h hn
      · exact (gives_dotMember hr h hexpr).bind fun n mid _ ⟨h, hn⟩ => ih h hn
      · refine .after_still still_seesTemplateHead fun templates => ?_
        split
        · exact (gives_taggedTemplate hg hr h hexpr).bind fun n mid _ ⟨h, hn⟩ => ih h hn
        · exact .pure ⟨h, hexpr⟩

/-- The node of a call, or of `new`, lists the arguments. -/
theorem listed_arguments {form : Form} {span : Span} {callee : Node} {args : List Node}
    (hform : form = .call ∨ form = .new) (hitems : Items r .argument args [")"])
    (hstop : span.stop = r.edge) :
    Listed r (.mk form .part (some span) (callee.withRole .callee :: args)) := by
  have hargs :
      (callee.withRole .callee :: args).filter (fun part => part.role = .argument) = args := by
    rw [List.filter_cons_of_neg (by simp [role_withRole]), List.filter_eq_self]
    simpa using hitems.roles
  have hlisting : (Node.mk form .part (some span) (callee.withRole .callee :: args)).listing? =
      some ⟨args, some span.stop, .argumentComma⟩ := by
    obtain rfl | rfl := hform <;>
      simp only [Node.listing?, Node.form, Node.partsAs, Node.parts, hargs] <;> rfl
  exact hitems.listed (by obtain rfl | rfl := hform <;> rfl) hstop hlisting

theorem gives_call (hg : g.Sound source) (hr : r₀.Sound source) {mayBeArrow : Bool}
    (h : Accounted source r (expr :: ns)) (hexpr : Reads r₀ r expr) :
    Gives source (call g r₀.ahead mayBeArrow expr) r fun n later =>
      Accounted source later (n :: ns) ∧ Reads r₀ later n := by
  have hargument : AddsWhole source (if mayBeArrow then asyncArgument g else g.assignment) := by
    split
    · exact adds_asyncArgument hg
    · exact hg.assignment
  unfold call
  refine .after_still (still_modifyContext _) fun _ => ?_
  refine (gives_arguments hg hargument h).bind ?_
  rintro args mid hmid ⟨h, _, hitems, hheadless⟩
  have hpast := hexpr.past.trans hmid
  refine .unless (fails_failAhead _) fun _ => ?_
  have hcall : Gives source (nodeFrom r₀.ahead .call (expr.withRole .callee :: args)) mid
      fun n later => later = mid ∧ Accounted source mid (n :: ns) ∧ Whole r₀ mid n := by
    refine gives_nodeFrom fun span hspan hstop => ⟨rfl, h.node ?_ (by simp) ?_, ?_⟩
    · simp [SameTrees, or_left_comm]
    · exact listed_arguments (.inl rfl) hitems (hstop hpast.read_ne_nil)
    · exact hpast.whole hr h.sound hspan hstop (by simp)
  refine hcall.bind ?_
  rintro n later _ ⟨hlater, hn, hwhole⟩
  subst hlater
  refine .seen_bind fun arrow harrow => ?_
  split
  · rename_i hseen
    have hpatterns := Accounted.eachAsPattern args h
    refine .pure ⟨{ sound := h.sound, shown := fun _ => ?_, listed := ?_, headed := .inr ?_ },
      hpast, hexpr.ahead, .inr ⟨true, _, rfl, ?_, stop?_getLast?_eachAsPattern hitems.endsList⟩⟩
    · exact ⟨_, List.mem_cons_self, Node.shows_mk.mpr (.inl rfl)⟩
    · refine List.forall_mem_cons.mpr ⟨Node.all_mk.mpr ⟨fun _ hnone => (by cases hnone), ?_⟩, ?_⟩
      · exact fun part hpart => hpatterns.listed part (List.mem_append_left _ hpart)
      · exact fun n hn => h.listed n (by simp [hn])
    · exact harrow (Bool.and_eq_true_iff.mp hseen).2
    · exact all_eachAsPattern (fun _ _ _ _ _ _ _ hplain _ => Form.ne_arrowHead_of_isPlain hplain) hheadless
  · exact .pure ⟨hn, hpast, hexpr.ahead, .inl hwhole⟩

theorem gives_callChain (hg : g.Sound source) (hr : r₀.Sound source) {isAsync : Bool} (fuel : Nat) :
    ∀ {expr : Node} {r : Reading}, Accounted source r (expr :: ns) → Reads r₀ r expr →
      Gives source (callChain g r₀.ahead isAsync fuel expr) r fun n later =>
        Accounted source later (n :: ns) ∧ Reads r₀ later n := by
  induction fuel with
  | zero => exact fun _ _ => .of_fails (fails_interrupt _)
  | succ fuel ih =>
      intro expr r h hexpr
      unfold callChain
      refine .sees_bind (fun _ => ?_) fun _ => .sees_bind (fun _ => ?_) fun _ =>
        .sees_bind (fun _ => ?_) fun _ => ?_
      · exact (gives_dotMember hr h hexpr).bind fun n mid _ ⟨h, hn⟩ => ih h hn
      · refine .ahead_bind ?_
        exact (gives_call hg hr h hexpr).bind fun n mid _ ⟨h, hn⟩ => ih h hn
      · exact (gives_bracketMember hg hr h hexpr).bind fun n mid _ ⟨h, hn⟩ => ih h hn
      · refine .after_still still_seesTemplateHead fun templates => ?_
        split
        · exact (gives_taggedTemplate hg hr h hexpr).bind fun n mid _ ⟨h, hn⟩ => ih h hn
        · exact .pure ⟨h, hexpr⟩

end Chains

theorem adds_newExpression (hg : g.Sound source) : AddsWhole source (newExpression g) := by
  intro r ns h
  have hr := h.sound
  unfold newExpression
  refine .here_bind fun start hstart => ?_
  refine (adds_propertyWord h).bind ?_
  rintro word mid _ ⟨h, hpast, _, _, _, hword⟩
  have hsound := h.sound
  refine h.accept_bind (by decide) (fun next _ h => ?_) fun _ => ?_
  · have hpast := hpast.trans (hsound.extends_after next)
    refine .after_still still_context fun c => .after_still (still_seesName _) fun target => ?_
    split
    · refine (adds_propertyWord h).bind ?_
      rintro target later hlater ⟨h, _⟩
      exact h.gives_whole hr (hpast.trans hlater) hstart (by simp [SameTrees, or_left_comm]) rfl (by simp)
    · exact .of_fails (.of_bind fun t => fails_unexpected t)
  · refine .after_still (still_seesKeyword _) fun imports => ?_
    split
    · exact .of_fails (.of_bind fun t => fails_unexpected t)
    refine (hg.callee (h.forget hword)).isolate.bind fun callee mid' hmid' h => ?_
    have hpast := hpast.trans hmid'
    have hnew : ∀ {args : List Node} {later : Reading}, Past r later →
        Accounted source later (args ++ callee :: ns) → Items later .argument args [")"] →
        Gives source (do
          notPattern
          node start .new (callee.withRole .callee :: args)) later fun n last =>
            Accounted source last (n :: ns) ∧ Past r last ∧ Whole r last n := by
      intro args later hpast h hitems
      refine .after_still (still_modifyContext _) fun _ => gives_node fun span hspan hstop => ?_
      refine ⟨h.node (by simp [SameTrees, or_left_comm]) (by simp) ?_, hpast, ?_⟩
      · exact listed_arguments (.inr rfl) hitems (hstop hpast.read_ne_nil)
      · exact hpast.whole hr h.sound (hspan.trans hstart) hstop (by simp)
    refine .sees_bind (fun _ => ?_) fun _ => hnew hpast h .nil
    refine (gives_arguments hg hg.assignment h).bind ?_
    rintro args later hlater ⟨h, _, hitems, _⟩
    exact hnew (hpast.trans hlater) h hitems

theorem adds_superOperand (followers : List String) : AddsWhole source (superOperand followers) := by
  intro r ns h
  have hr := h.sound
  unfold superOperand
  refine .here_bind fun start hstart => h.expectKeyword_bind fun next _ h => ?_
  refine (h.gives_whole hr (.of_after hr (.refl _)) hstart (fun _ => Iff.rfl) rfl (by simp)).bind
    fun n later _ hn => ?_
  refine .after_still (still_seesAny _) fun followed => ?_
  split
  · exact .unexpectedAhead
  · exact .pure hn

theorem adds_chainHead (hg : g.Sound source) (followers : List String) :
    AddsOperand source (chainHead g followers) := by
  intro r ns h
  unfold chainHead
  refine .seenKeyword_bind fun super hsuper => .after_still still_context fun c => ?_
  split
  · rename_i hseen
    refine (adds_superOperand followers h).reads ?_
    simp [hsuper (Bool.and_eq_true_iff.mp hseen).1]
  refine .seesKeyword_bind (fun hnew => ?_) fun _ => (adds_primary hg h).inherit
  exact (adds_newExpression hg h).inherit.reads (by simp [hnew])

theorem adds_callee (hg : g.Sound source) : AddsOperand source (callee g) := by
  intro r ns h
  have hr := h.sound
  refine .ahead_bind (.after_still still_budget fun _ => ?_)
  exact (adds_chainHead hg _ h).bind fun expr mid _ ⟨h, hexpr⟩ => gives_memberChain hg hr _ h hexpr

theorem adds_operand (hg : g.Sound source) : AddsOperand source (operand g) := by
  intro r ns h
  have hr := h.sound
  refine .ahead_bind (.after_still (still_seesName _) fun isAsync => .withIn ?_)
  refine .after_still still_budget fun _ => ?_
  exact (adds_chainHead hg _ h).bind fun expr mid _ ⟨h, hexpr⟩ => gives_callChain hg hr _ h hexpr

end EditionSurvey.Script.Grammar
