/-
  Proofs/Grammar/Member.lean --- what the productions for members of objects and of classes add.
-/
import EditionSurvey.Proofs.Grammar.Function

set_option autoImplicit false

namespace EditionSurvey.Script.Grammar

variable {source : List Char} {r later : Reading} {ns : List Node} {g : Productions}

theorem still_seesPropertyName : Still seesPropertyName := still_ahead.bind fun _ => still_pure _

theorem still_seesAny (marks : List String) : Still (seesAny marks) := by
  refine still_ahead.bind fun t => ?_
  split <;> exact still_pure _

/-! ## Objects -/

theorem gives_spread (hg : g.Sound source) (h : Accounted source r ns) :
    Gives source (spread g) r fun n later =>
      Accounted source later (n :: ns) ∧ n.stop? = some later.edge := by
  unfold spread
  refine .here_bind fun start _ => ?_
  refine h.expect_bind (by decide) fun next _ h => ?_
  refine (hg.assignment h).inherit.bind fun argument later hlater ⟨h, _, _⟩ => ?_
  exact h.gives_ended (hlater.read_ne_nil (r.after_read_ne_nil next)) (by simp [SameTrees]) rfl

/-- The name and the value of a member are accounted for. -/
def MemberRead (source : List Char) (ns : List Node) (m : Member) (later : Reading) : Prop :=
  Accounted source later (m.value :: m.key :: ns)

theorem gives_memberNode {m : Member} {start : Mark} (h : MemberRead source ns m r)
    (hread : r.read ≠ []) :
    Gives source (m.node start) r fun n later =>
      Accounted source later (n :: ns) ∧ n.stop? = some later.edge :=
  h.gives_ended hread (by simp [SameTrees, or_left_comm]) rfl

theorem gives_shorthandMember (hg : g.Sound source) {start : Mark} {key : Node} {name : String}
    (h : Accounted source r (key :: ns)) :
    Gives source (shorthandMember g start key name) r (MemberRead source ns) := by
  unfold shorthandMember
  refine .node_bind fun span => ?_
  have h : Accounted source r (.mk (.identifier name) .part (some span) [] :: key :: ns) := h.leaf rfl
  refine .sees_bind (fun hahead => ?_) fun _ => .pure h
  refine .after_still still_ahead fun sign => .after_still (still_modifyContext _) fun _ => ?_
  refine h.quiet_bind (by rw [hahead]; exact ⟨rfl, by simp⟩) fun next h => ?_
  refine (hg.assignment h).isolate.bind fun right later _ ⟨h, _, _⟩ => ?_
  exact .node_bind fun whole => .pure (h.plain (by simp [SameTrees, or_left_comm]) rfl)

theorem gives_memberTail (hg : g.Sound source) {start : Mark} {token : Token} {key : Node}
    {computed isAsync hasProto : Bool} (h : Accounted source r (key :: ns)) :
    Gives source (memberTail g start token key computed isAsync hasProto) r
      (MemberRead source ns) := by
  unfold memberTail
  refine .seen_bind fun colon hcolon => ?_
  split
  · rename_i hseen
    have hahead := hcolon (Bool.and_eq_true_iff.mp hseen).1
    refine .unless (fails_failAhead _) fun _ => ?_
    refine h.quiet_bind (by rw [hahead]; exact ⟨rfl, by simp⟩) fun next h => ?_
    exact (hg.assignment h).inherit.bind fun value later _ ⟨h, _, _⟩ => .pure h
  · refine .sees_bind (fun _ => ?_) fun _ => ?_
    · cases isAsync with
      | true => exact (adds_asyncMethod hg h).bind fun value later _ h => .pure h
      | false => exact (adds_plainMethod hg h).bind fun value later _ h => .pure h
    · rw [if_neg Bool.false_ne_true]
      split
      · exact (gives_shorthandMember hg h).bind fun m later _ h => .pure h
      · exact .of_fails (.of_bind fun t => fails_unexpected t)

theorem gives_accessor (hg : g.Sound source) {kind : PropertyKind} (h : Accounted source r ns) :
    Gives source (accessor g kind) r (MemberRead source ns) := by
  unfold accessor
  refine .after_still (still_sees _) fun computed => ?_
  refine (adds_propertyName hg h).bind fun key mid _ h => ?_
  split
  · refine .after_still (still_modifyContext _) fun _ => ?_
    exact (adds_getter hg h).bind fun value later _ h => .pure h
  · exact (adds_setter hg h).bind fun value later _ h => .pure h

theorem gives_generatorMember (hg : g.Sound source) (h : Accounted source r ns) :
    Gives source (generatorMember g) r (MemberRead source ns) := by
  unfold generatorMember
  refine .after_still (still_sees _) fun computed => ?_
  refine (adds_propertyName hg h).bind fun key mid _ h => ?_
  exact (adds_generatorMethod hg h).bind fun value later _ h => .pure h

theorem gives_namedMember (hg : g.Sound source) {start : Mark} {token : Token} {name : String}
    {hasProto : Bool} (hahead : r.ahead.lexeme = .identifier name) (h : Accounted source r ns) :
    Gives source (namedMember g start token name hasProto) r (MemberRead source ns) := by
  unfold namedMember
  refine h.quiet_bind (by rw [hahead]; exact ⟨rfl, by simp⟩) fun next h => ?_
  refine .after_still (still_sees _) fun computed => .after_still still_lineBreak fun broken => ?_
  refine .after_still (still_seesAny _) fun followed => ?_
  dsimp only
  split
  · rename_i hasync
    rw [hasync]
    refine (adds_propertyName hg h).bind fun key mid _ h => ?_
    refine .after_still still_seesPropertyName fun nameFollows => ?_
    exact gives_memberTail hg h
  · rename_i hasync
    rw [Bool.not_eq_true] at hasync
    rw [hasync]
    refine .node_bind fun span => .after_still still_seesPropertyName fun nameFollows => ?_
    split
    · exact gives_accessor hg h
    split
    · exact gives_accessor hg h
    · exact gives_memberTail hg (h.leaf rfl)

/-- A member of an object, behind its opening brace. -/
theorem gives_objectMember (hg : g.Sound source) {hasProto : Bool} (hread : r.read ≠ [])
    (h : Accounted source r ns) :
    Gives source (objectMember g hasProto) r fun member later =>
      Accounted source later (member.1 :: ns) ∧ member.1.stop? = some later.edge := by
  unfold objectMember
  refine .here_bind fun start _ => .ahead_bind ?_
  have hnode : ∀ (m : Member) {later : Reading}, r.Extends later → MemberRead source ns m later →
      Gives source (do return (← m.node start, m.setsProto)) later fun member last =>
        Accounted source last (member.1 :: ns) ∧ member.1.stop? = some last.edge :=
    fun m later hlater h => (gives_memberNode h (hlater.read_ne_nil hread)).bind
      fun n last _ hn => .pure hn
  dsimp only
  split
  · rename_i hahead
    exact (gives_namedMember hg hahead h).bind hnode
  · rename_i hahead
    refine h.quiet_bind (by rw [hahead]; exact ⟨rfl, by simp⟩) fun next h' => ?_
    have hnext := h.sound.extends_after next
    refine .after_still still_seesPropertyName fun nameFollows => ?_
    split
    · exact (gives_generatorMember hg h').bind fun m later hlater hm =>
        hnode m (hnext.trans hlater) hm
    · exact .of_fails (.of_bind fun t => (fails_unexpected t).bind _)
  · refine .after_still (still_sees _) fun computed => ?_
    refine (adds_propertyName hg h).bind fun key mid hmid h => ?_
    exact (gives_memberTail hg h).bind fun m later hlater hm => hnode m (hmid.trans hlater) hm

theorem gives_objectMembers (hg : g.Sound source) (fuel : Nat) :
    ∀ {hasProto : Bool} (reversed : List Node) {r : Reading}, r.read ≠ [] →
      Accounted source r (reversed ++ ns) → Items r .property reversed.reverse [] →
        Gives source (objectMembers g fuel hasProto reversed) r fun members later =>
          Accounted source later (members ++ ns) ∧ Items later .property members [] ∧
            later.read ≠ [] := by
  induction fuel with
  | zero => exact fun _ _ _ _ _ => .of_fails (fails_interrupt _)
  | succ fuel ih =>
      intro hasProto reversed r hread h hitems
      unfold objectMembers
      refine .sees_bind (fun _ => .pure ⟨h.regroup (by simp [SameTrees]), hitems, hread⟩) fun _ => ?_
      have hcomma : ∀ (member : Node) {mid : Reading} {hasProto : Bool}, r.Extends mid →
          Accounted source mid (member :: (reversed ++ ns)) → member.stop? = some mid.edge →
          Gives source (do
            if !(← sees "\x7d") then expect ","
            objectMembers g fuel hasProto (member.withRole .property :: reversed)) mid
            fun members later => Accounted source later (members ++ ns) ∧
              Items later .property members [] ∧ later.read ≠ [] := by
        intro member mid hasProto hmid h hstop
        have hends : ∃ stop, (member.withRole .property).stop? = some stop ∧ EndsAt mid stop :=
          ⟨mid.edge, by simpa using hstop, endsAt_edge h.sound⟩
        have hread := hmid.read_ne_nil hread
        refine .sees_bind (fun _ => ih _ hread (h.regroup (by simp [SameTrees])) ?_) fun _ => ?_
        · rw [List.reverse_cons]
          exact hitems.concat (role_withRole _ _) hends
        · refine h.expect_bind (by decide) fun next hahead h' => ?_
          refine ih _ (mid.after_read_ne_nil next) (h'.regroup (by simp [SameTrees])) ?_
          rw [List.reverse_cons]
          exact hitems.concatComma (role_withRole _ _) hends h.sound hahead next
      refine .after_still (still_sees _) fun spread => ?_
      split
      · refine (gives_spread hg h).bind ?_
        rintro member mid hmid ⟨h, hstop⟩
        exact hcomma _ hmid h hstop
      · refine (gives_objectMember hg hread h).bind ?_
        rintro member mid hmid ⟨h, hstop⟩
        exact hcomma _ hmid h hstop

theorem adds_objectLiteral (hg : g.Sound source) : AddsWhole source (objectLiteral g) := by
  intro r ns h
  have hr := h.sound
  unfold objectLiteral
  refine .here_bind fun start hstart => ?_
  refine h.expect_bind (by decide) fun next _ h => .after_still still_budget fun _ => ?_
  refine (gives_objectMembers hg _ [] (r.after_read_ne_nil next) h .nil).bind
    fun members mid hmid ⟨h, hitems, _⟩ => ?_
  refine h.expect_bind (by decide) fun next' hahead h' => gives_node fun span hspan hstop => ?_
  have hstop := hstop (mid.after_read_ne_nil next')
  have hpast : Past r (mid.after next') := .of_after hr (hmid.trans (h.sound.extends_after next'))
  refine ⟨h'.node (fun _ => Iff.rfl) (by simp) ?_, hpast,
    hpast.whole hr h'.sound (hspan.trans hstart) (fun _ => hstop) (by simp)⟩
  have hlisting : (Node.mk .object .part (some span) members).listing? =
      some ⟨members, some span.stop, .objectComma⟩ := by
    simp [Node.listing?, Node.form, Node.partsAs, Node.parts, Node.stop?, Node.span]
    exact hitems.roles
  exact (hitems.after h.sound hahead next').listed rfl hstop hlisting

/-! ## Classes -/

/-- While a class is read its pledge shows a newer form, so names that are given up need no account. -/
theorem gives_classMemberHead (hg : g.Sound source) (h : Accounted source r (pledge :: ns)) :
    Gives source (classMemberHead g) r fun head later =>
      Accounted source later (head.key.toList ++ pledge :: ns) := by
  have hasync : ∀ (first : ClassMemberHead) {r : Reading},
      Accounted source r (first.key.toList ++ pledge :: ns) →
        Gives source (do
          let mut head := first
          if head.token.isNamed "async" && !(← lineBreak) then
            let follower := (← ahead).lexeme.text
            if follower ≠ ":" && follower ≠ "(" && follower ≠ "*" then
              let token ← ahead
              let key ← propertyName g
              head := { head with token, key := some key, isAsync := true }
              if token.isNamed "constructor" then failAt token .constructorIsAsync
          return head) r fun head later =>
            Accounted source later (head.key.toList ++ pledge :: ns) := by
    intro first r h
    refine .after_still still_lineBreak fun broken => ?_
    split
    · refine .after_still still_ahead fun follower => ?_
      dsimp only
      split
      · refine .after_still still_ahead fun token => ?_
        refine (adds_propertyName hg h).bind fun key mid _ h => ?_
        refine .unless (fails_failAt _ _) fun _ => .pure (h.drop ?_ ⟨_, ?_, shows_pledge⟩)
        · simp [List.subset_def]
          tauto
        · simp
      · exact .pure h
    · exact .pure h
  unfold classMemberHead
  refine .ahead_bind ?_
  refine h.accept_bind (by decide) (fun next _ h => .pure h) fun _ => ?_
  refine .after_still (still_sees _) fun computed => ?_
  refine (adds_propertyName hg h).bind fun key mid _ h => ?_
  refine .after_still still_seesPropertyName fun _ => .after_still (still_sees _) fun _ => ?_
  split
  · refine .after_still still_ahead fun token => .after_still (still_sees _) fun computed => ?_
    refine h.accept_bind (by decide) (fun next _ h => hasync _ h) fun _ => ?_
    refine (adds_propertyName hg h).bind fun key' mid' _ h => hasync _ (h.drop ?_ ⟨_, ?_, shows_pledge⟩)
    · simp [List.subset_def]
      tauto
    · simp
  · exact hasync _ h

theorem gives_classMemberValue (hg : g.Sound source) {head : ClassMemberHead}
    (h : Accounted source r (head.key.toList ++ pledge :: ns)) :
    Gives source (classMemberValue g head) r fun value later =>
      Accounted source later (value.2.2.1 :: value.2.1 :: pledge :: ns) := by
  -- A name that turns out to be a word before the real name is given up.
  have hdrop : ∀ {m : Member} {later : Reading},
      MemberRead source (head.key.toList ++ pledge :: ns) m later →
        Accounted source later (m.value :: m.key :: pledge :: ns) := by
    intro m later hm
    refine hm.drop ?_ ⟨pledge, by simp, shows_pledge⟩
    simp [List.subset_def]
    tauto
  unfold classMemberValue
  refine .after_still still_seesPropertyName fun nameFollows => ?_
  split
  · exact (gives_accessor hg h).bind fun m later _ hm => .pure (hdrop hm)
  split
  · exact (gives_accessor hg h).bind fun m later _ hm => .pure (hdrop hm)
  split
  · exact (gives_generatorMember hg h).bind fun m later _ hm => .pure (hdrop hm)
  split
  · rename_i key hkey
    rw [hkey] at h
    refine .sees_bind (fun _ => ?_) fun _ => .of_fails (.of_bind fun t => fails_unexpected t)
    cases hasync : head.isAsync with
    | true => exact (adds_asyncMethod hg h).bind fun value later _ h => .pure h
    | false => exact (adds_plainMethod hg h).bind fun value later _ h => .pure h
  · exact .of_fails (.of_bind fun t => fails_unexpected t)

theorem gives_classMember (hg : g.Sound source) {hasConstructor : Bool}
    (h : Accounted source r (pledge :: ns)) :
    Gives source (classMember g hasConstructor) r fun member later =>
      Accounted source later (member.1 :: pledge :: ns) := by
  unfold classMember
  refine .here_bind fun start _ => ?_
  refine (gives_classMemberHead hg h).bind fun head mid _ h => ?_
  refine (gives_classMemberValue hg h).bind fun value later _ h => ?_
  obtain ⟨kind, key, value, computed⟩ := value
  dsimp only at h ⊢
  refine .unless (fails_failAt _ _) fun _ => ?_
  have hnode : ∀ isConstructor : Bool, Gives source (do
      let member ← node start (.method computed head.isStatic)
        [key.withRole .key, value.withRole .value]
      return (member, isConstructor)) later fun member last =>
        Accounted source last (member.1 :: pledge :: ns) := fun isConstructor =>
    (h.gives_plain (by simp [SameTrees, or_left_comm]) rfl).bind fun n last _ hn => .pure hn
  split
  · refine .unless (fails_failAt _ _) fun _ => ?_
    refine .unless (fails_failAt _ _) fun _ => ?_
    exact hnode _
  · exact hnode _

theorem gives_classMembers (hg : g.Sound source) (fuel : Nat) :
    ∀ {hasConstructor : Bool} (reversed : List Node) {r : Reading},
      Accounted source r (reversed ++ pledge :: ns) →
        Gives source (classMembers g fuel hasConstructor reversed) r fun members later =>
          Accounted source later (members ++ pledge :: ns) := by
  induction fuel with
  | zero => exact fun _ _ _ => .of_fails (fails_interrupt _)
  | succ fuel ih =>
      intro hasConstructor reversed r h
      unfold classMembers
      refine .sees_bind (fun _ => .pure (h.regroup (by simp [SameTrees]))) fun _ => ?_
      refine h.accept_bind (by decide) (fun next _ h => ih reversed h) fun _ => ?_
      have h : Accounted source r (pledge :: (reversed ++ ns)) :=
        h.regroup (by simp [SameTrees, or_left_comm])
      refine (gives_classMember hg h).bind fun member mid _ h => ?_
      exact ih _ (h.regroup (by simp [SameTrees, or_left_comm]))

/-- What stands behind `extends` comes to the account of whatever follows. -/
theorem Accounted.parent_bind (hg : g.Sound source) {β : Type} {f : Option Node → Parse β}
    {Q : β → Reading → Prop} (h : Accounted source r ns)
    (k : ∀ (parent : Option Node) derived, r.Extends derived →
      Accounted source derived (parent.toList ++ ns) → Gives source (f parent) derived Q) :
    Gives source (do
      if ← seesKeyword "extends" then
        let _ ← advance
        let parent ← pure (some (← isolate g.operand))
        f parent
      else
        let parent ← pure none
        f parent) r Q := by
  refine .seesKeyword_bind (fun hahead => ?_) fun _ => k none r (.refl _) h
  refine h.quiet_bind (by rw [hahead]; exact ⟨rfl, by simp⟩) fun next h' => ?_
  refine (hg.operand h').isolate.bind fun parent derived hderived h' => ?_
  exact k (some parent) derived ((h.sound.extends_after next).trans hderived) h'

/-- The node of a class shows that it is one, whatever was read for it. -/
theorem gives_classOf (hg : g.Sound source) {declared : Bool} {name : Parse (Option Node)}
    (hname : ∀ {r ns}, Accounted source r ns → Gives source name r fun id later =>
      Accounted source later (id.toList ++ ns)) :
    AddsSealed source (classOf g declared name) := by
  intro r ns h
  have hr := h.sound
  unfold classOf
  refine .here_bind fun start hstart => .after_still still_context fun outer => ?_
  refine .after_still (still_modifyContext _) fun _ => ?_
  refine h.pledge.expectKeyword_bind fun next _ h => ?_
  have hpast : Past r (r.after next) := .of_after hr (.refl _)
  refine (hname h).bind fun id named hnamed h => ?_
  have hpast := hpast.trans hnamed
  refine h.parent_bind hg fun parent derived hderived h => .here_bind fun bodyStart _ => ?_
  have hpast := hpast.trans hderived
  have h : Accounted source derived (pledge :: (parent.toList ++ id.toList ++ ns)) :=
    h.regroup (by simp [SameTrees, or_left_comm])
  have hsound := h.sound
  refine h.expect_bind (by decide) fun next _ h => .after_still still_budget fun _ => ?_
  have hpast := hpast.trans (hsound.extends_after next)
  refine (gives_classMembers hg _ [] h).bind fun members mid hmid h => ?_
  have hpast := hpast.trans hmid
  have hsound := h.sound
  refine h.expect_bind (by decide) fun next hclose h' => ?_
  have hheadless := h.headless (by simp [hclose])
  have hpast := hpast.trans (hsound.extends_after next)
  refine .node_bind fun bodySpan => .after_still (still_modifyContext _) fun _ => ?_
  let body : Node := .mk .classBody .part (some bodySpan) members
  let outside : List Node := parent.toList ++ id.toList ++ ns
  have hbody : Accounted source (mid.after next) (body :: pledge :: outside) :=
    h'.plain (fun _ => Iff.rfl) rfl
  have hsealed : ∀ n ∈ body :: pledge :: outside, n.Headless :=
    List.forall_mem_cons.mpr ⟨headless_of_sameTrees (fun _ => Iff.rfl) hheadless (by simp),
      fun n hn => hheadless n (List.mem_append_right _ hn)⟩
  have hsame : SameTrees (body :: pledge :: outside)
      (id.toList ++ parent.toList ++ [body.withRole .body] ++ (pledge :: ns)) := by
    simp [SameTrees, outside, or_left_comm]
  refine gives_node fun span hspan hstop => ⟨?_, hpast, ?_, ?_⟩
  · exact .redeem (hbody.plain hsame rfl) (Node.shows_mk.mpr (.inl rfl))
  · exact hpast.whole hr hbody.sound (hspan.trans hstart) hstop (by simp)
  · exact headless_of_sameTrees hsame hsealed (by simp)

/-- The name of a class. -/
theorem gives_className (h : Accounted source r ns) :
    Gives source (do return some (← bindingName none)) r fun id later =>
      Accounted source later (id.toList ++ ns) := by
  refine (adds_bindingName h).bind fun id later _ h => .pure ?_
  exact h.1

theorem adds_classDeclaration (hg : g.Sound source) : AddsSealed source (classDeclaration g) :=
  gives_classOf hg gives_className

theorem adds_classExpression (hg : g.Sound source) : AddsSealed source (classExpression g) := by
  refine gives_classOf hg fun h => .ahead_bind ?_
  split
  · exact gives_className h
  · exact .pure h

end EditionSurvey.Script.Grammar
