/-
  Proofs/NewerForms.lean --- the forms of tokens that came with the sixth edition.

  Templates, binary and octal numbers and two flags of regular expressions are forms of tokens, but the
  search for constructs that are too new looks at nodes only.  Each such token leaves a node that shows
  it (`Accounted.shown`), and a node that shows one depends on the sixth edition.  So a script that an
  earlier edition accepts has none of these forms, except where a template is taken for a word.

  A code point escape is such a form too.  It leaves no trace in the tree, and a script may be accepted
  that has one (`escapes_accepted`).
-/
import EditionSurvey.Proofs.Grammar.Program
import EditionSurvey.Script.Validate

set_option autoImplicit false

namespace EditionSurvey.Script

open Grammar

/-! ## Nodes that show a newer form -/

/-- A node of a newer form depends on the sixth edition, unless it still waits for an arrow. -/
theorem exists_feature_of_newer (source : Array Char) {node : Node}
    (hnewer : node.form.newer = true) (hhead : node.form ≠ .arrowHead true) :
    ∃ feature ∈ features source node, 6 ≤ feature.edition := by
  unfold features
  cases hform : node.form with
  | template => exact ⟨.templateLiteral, by simp, by decide⟩
  | arrayPattern => exact ⟨.arrayDestructuring, by simp, by decide⟩
  | objectPattern => exact ⟨.objectDestructuring, mem_given_of_true (by simp), by decide⟩
  | arrow => exact ⟨.arrowFunction, mem_given_of_true (by simp), by decide⟩
  | classLike declared =>
      refine ⟨_, List.mem_singleton.mpr rfl, ?_⟩
      cases declared <;> decide
  | literal raw text =>
      have hprefixed : isPrefixedNumber raw = true := by rwa [hform] at hnewer
      exact ⟨.prefixedNumber, mem_given_of_true (by simp [hprefixed]), by decide⟩
  | pattern flags =>
      have hflags : (flags.toList.contains 'u' || flags.toList.contains 'y') = true := by
        rwa [hform] at hnewer
      dsimp only
      split
      · exact ⟨.patternFlag 'u', by simp, by decide⟩
      · rename_i hflag
        rw [if_pos ((Bool.or_eq_true_iff.mp hflags).resolve_left hflag)]
        exact ⟨.patternFlag 'y', by simp, by decide⟩
  | arrowHead isAsync =>
      have hasync : isAsync = true := by rwa [hform] at hnewer
      exact absurd (hasync ▸ hform) hhead
  | _ =>
      rw [hform] at hnewer
      cases hnewer

/-- A tree that shows a newer form is not accepted before the sixth edition. -/
theorem checkTree_ne_ok_of_shows {source : Array Char} {edition : Int} {tree : Node}
    (hshows : tree.Shows) (hheadless : tree.Headless) (hedition : edition ≤ 5) :
    checkTree source edition tree ≠ .ok () := by
  obtain ⟨node, hnode, hnewer⟩ := hshows
  obtain ⟨feature, hfeature, hlate⟩ := exists_feature_of_newer source hnewer (hheadless node hnode)
  intro haccepted
  have hneeded := requiredEdition?_le_iff.mp (checkTree_eq_ok_iff.mp haccepted) feature.edition
    (mem_editionsOf.mpr ⟨node, hnode, feature, hfeature, rfl⟩)
  omega

/-! ## Tokens of a newer form -/

/-- The tokens of a script that is accepted before the sixth edition.  They take turns with gaps from
the start of the script to its end, and one that is a template, a binary or octal number or a regular
expression with the flag `u` or `y` is a template that is taken for a word. -/
theorem takenForWord_of_accepted {source : String} {edition : Int} (hedition : edition ≤ 5)
    (h : validate source edition = .ok ()) :
    (∃ stop : Token, stop.lexeme = .endOfSource ∧
        Tiled (commentInterpreterLine source.toList) 0
          (tokens (commentInterpreterLine source.toList) ++ [stop])) ∧
      ∀ before t behind, tokens (commentInterpreterLine source.toList) = before ++ t :: behind →
        t.lexeme.newer = true → TakenForWord (before.map Token.lexeme) t.lexeme := by
  cases hparse : parse (commentInterpreterLine source.toList) with
  | error interruption =>
      rw [validate_of_parse_error hparse] at h
      cases h
  | ok tree =>
      obtain ⟨r, hread, haccount, hend⟩ := accounted_of_parse hparse
      refine ⟨⟨r.ahead, hend, hread ▸ haccount.sound.tiled⟩, fun before t behind htokens hnewer => ?_⟩
      by_contra htaken
      have hshows : tree.Shows := by
        simpa using haccount.shown (hread ▸ ⟨before, t, behind, htokens, hnewer, htaken⟩)
      have hheadless : tree.Headless := haccount.headless (by simp [hend]) tree (by simp)
      rw [validate_of_parse_ok hparse] at h
      exact checkTree_ne_ok_of_shows hshows hheadless hedition h

/-- A variable whose name is written as a template. -/
def quotedName : String := "var \x60let\x60 = /x/g;"

/-- The fifth edition accepts the script, and the template in it is taken for the name. -/
theorem quotedName_takenForWord :
    (5 : Int) ≤ 5 ∧ validate quotedName 5 = .ok () ∧
      ∃ before t behind,
        tokens (commentInterpreterLine quotedName.toList) = before ++ t :: behind ∧
        t.lexeme = .template "let" true true ∧
        TakenForWord (before.map Token.lexeme) t.lexeme := by
  have haccepted : validate quotedName 5 = .ok () := by decide +kernel
  have htokens : tokens (commentInterpreterLine quotedName.toList) =
      [⟨.keyword "var", 0, 3, 1, 0⟩] ++ ⟨.template "let" true true, 4, 9, 1, 0⟩ ::
        [⟨.punctuator "=", 10, 11, 1, 0⟩, ⟨.pattern "/x/g" "g", 12, 16, 1, 0⟩,
          ⟨.punctuator ";", 16, 17, 1, 0⟩] := by decide +kernel
  exact ⟨by decide, haccepted, _, _, _, htokens, rfl,
    (takenForWord_of_accepted (by decide) haccepted).2 _ _ _ htokens rfl⟩

/-- The fifth edition accepts a string and a name that are written with code point escapes. -/
theorem escapes_accepted :
    (tokens "'\\u\x7b61\x7d';".toList).map Token.lexeme =
        [.string "'\\u\x7b61\x7d'" "a" false, .punctuator ";"] ∧
      validate "'\\u\x7b61\x7d';" 5 = .ok () ∧
      tokens "\\u\x7b61\x7d;".toList =
        [⟨.identifier "a", 0, 6, 1, 0⟩, ⟨.punctuator ";", 6, 7, 1, 0⟩] ∧
      validate "\\u\x7b61\x7d;" 5 = .ok () := by
  decide +kernel

end EditionSurvey.Script
