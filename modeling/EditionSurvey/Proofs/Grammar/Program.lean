/-
  Proofs/Grammar/Program.lean --- what the nodes of a whole script account for.
-/
import EditionSurvey.Proofs.Grammar.Statement

set_option autoImplicit false

namespace EditionSurvey.Script.Grammar

variable {source : List Char} {r later : Reading} {ns : List Node} {g : Productions}

/-! ## Levels -/

/-- No production gives anything. -/
theorem sound_none : Productions.none.Sound source where
  assignment := fun _ => .of_fails (fails_interrupt _)
  unary := fun _ => .of_fails (fails_interrupt _)
  power := fun _ => .of_fails (fails_interrupt _)
  callee := fun _ => .of_fails (fails_interrupt _)
  operand := fun _ => .of_fails (fails_interrupt _)
  binding := fun _ _ _ _ _ => .of_fails (fails_interrupt _)
  statement := fun _ => .of_fails (fails_interrupt _)
  item := fun _ => .of_fails (fails_interrupt _)

/-- The productions one level up do what those of the level do. -/
theorem Productions.Sound.above (hg : g.Sound source) : g.above.Sound source where
  assignment := adds_assignment hg
  unary := AddsOperand.adds (adds_unary hg)
  power := AddsOperand.adds (adds_power hg)
  callee := AddsOperand.adds (adds_callee hg)
  operand := AddsOperand.adds (adds_operand hg)
  binding := adds_binding hg
  statement := adds_statement hg
  item := adds_item hg

theorem sound_productions (levels : Nat) : (productions levels).Sound source := by
  induction levels with
  | zero => exact sound_none
  | succ levels ih => exact ih.above

/-! ## Scripts -/

/-- The first token of the script is ahead. -/
theorem exists_fits_of_openSource {s : State} (h : openSource (State.start source) = .ok ((), s)) :
    ∃ first, Fits source s { read := [], ahead := first, edge := 0 } := by
  obtain ⟨t, mid, hadvance, h⟩ := bind_ok_iff.mp h
  have h' : Advances source (State.start source) t mid := advances rfl hadvance
  cases h
  refine ⟨mid.ahead, ?_⟩
  exact {
    cursor := h'.cursor
    aheadStart := h'.aheadStart
    read := rfl
    ahead := rfl
    start := h'.start
    stop := h'.stop
    behind := fun hread => absurd rfl hread
    sound := {
      stops := by simp
      edge := Nat.zero_le _
      tiled := ⟨h'.gap, h'.span, trivial⟩
      spelled := by simpa using h'.spelled }
    plain := h'.plain }

/-- A script is read up to its end. -/
theorem gives_program (hg : g.Sound source) (h : Accounted source r ns) :
    Gives source (program g) r fun tree later =>
      Accounted source later (tree :: ns) ∧ later.ahead.lexeme = .endOfSource := by
  unfold program
  refine .here_bind fun start _ => (gives_directivePrologue hg h).bind fun prologue mid _ h => ?_
  refine (Gives.many
    (I := fun items later => Accounted source later (items ++ (prologue ++ ns)))
    (J := fun items later => Accounted source later (items ++ (prologue ++ ns)) ∧
      later.ahead.lexeme = .endOfSource) ?_ h).bind fun items later _ ⟨h, hend⟩ => ?_
  · intro items r h
    refine .seesEnd_bind (fun hend => .pure ⟨h, hend⟩) fun _ => ?_
    exact (hg.item h).bind fun n later _ h => .pure h
  · exact gives_node fun _ _ _ => ⟨h.plain (by simp [SameTrees, or_left_comm]) rfl, hend⟩

/-- When a script was read, its tree accounts for all its tokens. -/
theorem accounted_of_parse {tree : Node} (h : parse source = .ok tree) :
    ∃ r : Reading, r.read = tokens source ∧ Accounted source r [tree] ∧
      r.ahead.lexeme = .endOfSource := by
  unfold parse at h
  split at h
  · rename_i found s hread
    cases h
    obtain ⟨⟨⟩, opened, hopen, hprogram⟩ := bind_ok_iff.mp hread
    obtain ⟨first, hfits⟩ := exists_fits_of_openSource hopen
    have hnothing : Accounted source { read := [], ahead := first, edge := 0 } [] :=
      { sound := hfits.sound
        shown := fun ⟨before, t, behind, hread, _⟩ => absurd hread.symm (by simp)
        listed := by simp
        headed := .inl (by simp) }
    obtain ⟨later, hlater, -, haccount, hend⟩ :=
      gives_program (sound_productions levelLimit) hnothing _ _ _ hfits hprogram
    refine ⟨later, ?_, haccount, hend⟩
    rw [tokens, hread]
    simp [hlater.read]
  · cases h

end EditionSurvey.Script.Grammar
