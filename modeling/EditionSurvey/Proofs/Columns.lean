/-
  Proofs/Columns.lean --- the lines and columns of diagnostics.

  A script is refused for a fault or for a construct that is too new, and the two are not counted
  alike.  The column of a fault counts from one (`Reported`).  The column of a construct counts from
  zero, from the start of the line on which its first token starts, unless that token goes over
  several lines (`Mark.Starts`).
-/
import EditionSurvey.Proofs.Places.Statement

set_option autoImplicit false

namespace EditionSurvey.Script

open Grammar

variable {text : List Char}

/-! ## Whole scripts -/

/-- The first token of a script with any text is ahead, and the script starts behind it. -/
theorem Grammar.ends_openSource (h : text ≠ []) :
    Ends text (fun _ s => s.Placed text) (openSource (State.start text)) := by
  have hcursor : (State.start text).scanner.cursor.On text :=
    { rest := rfl
      line := by simp [State.start, Scanner.start, h, lineAt]
      lineStart := rfl }
  have hcontext : (State.start text).context.Placed text := fun t ht => by cases ht
  refine (ends_advance hcursor (.inl rfl) (fun _ => .first) hcontext).bind ?_
  rintro t s ⟨-, hs, -⟩
  exact { hs with behind := Mark.on_ofCursor hs.cursor, edge := hs.edge_stop }

theorem Grammar.ends_readSource (h : text ≠ []) :
    Ends text (fun tree s => s.Placed text ∧ tree.Placed text) (readSource text) :=
  (ends_openSource h).bind fun _ s hs => places_program (placed_productions levelLimit) s hs

theorem parse_nil : parse [] = .ok (.mk .program .part (some ⟨0, 0, 0, 0⟩) []) := rfl

/-- A fault is reported at a place of the script. -/
theorem reported_of_parse {e : SyntaxError} (h : parse text = .error (.syntaxError e)) :
    Reported text e := by
  have hne : text ≠ [] := by
    rintro rfl
    rw [parse_nil] at h
    cases h
  have hends := ends_readSource hne
  unfold parse at h
  split at h
  · cases h
  · next hread =>
      cases h
      rwa [hread] at hends

/-- The nodes of a tree start where tokens of the script do. -/
theorem placed_of_parse {tree : Node} (hne : text ≠ []) (h : parse text = .ok tree) :
    tree.Placed text := by
  have hends := ends_readSource hne
  unfold parse at h
  split at h
  · next hread =>
      cases h
      rw [hread] at hends
      exact hends.2
  · cases h

/-- An empty script has nothing that could be too new. -/
theorem ne_nil_of_mem_features {tree node : Node} {source : Array Char} {feature : Feature}
    (h : parse text = .ok tree) (hnode : node ∈ tree.preorder)
    (hfeature : feature ∈ features source node) : text ≠ [] := by
  rintro rfl
  rw [parse_nil] at h
  cases h
  obtain rfl : node = _ := by simpa [Node.preorder, Node.preorder.preorders] using hnode
  simp [features, Node.form] at hfeature

/-! ## Diagnostics -/

/-- Where a script is refused. -/
inductive RefusedAt (text : List Char) (edition : Int) (d : Diagnostic) : Prop where
  /-- at a fault, with a column from one -/
  | fault (e : SyntaxError) (error : parse text = .error (.syntaxError e)) (eq : d = e.diagnostic)
      (place : Reported text e)
  /-- where a construct starts that is too new, with a column from zero -/
  | construct (tree node : Node) (feature : Feature) (span : Span) (ok : parse text = .ok tree)
      (mem : node ∈ tree.preorder) (depends : feature ∈ features text.toArray node)
      (late : edition < feature.edition) (eq : d = node.objection feature)
      (spans : node.span = some span)
      (place : Mark.Starts text ⟨span.start, span.line, span.column⟩)

/-- Whenever a script is refused, the diagnostic gives the line and the column of a fault or of the
start of a node, each counted in its own way. -/
theorem refusedAt_of_incompatible {script : String} {edition : Int} {d : Diagnostic}
    (h : validate script edition = .error (.incompatible d)) :
    RefusedAt (commentInterpreterLine script.toList) edition d := by
  obtain ⟨e, herror, heq⟩ | ⟨tree, node, feature, hparse, hnode, hfeature, hlate, heq⟩ :=
    incompatible_cases h
  · exact .fault e herror heq (reported_of_parse herror)
  · have hplaced := placed_of_parse (ne_nil_of_mem_features hparse hnode hfeature) hparse
    have hhead : ∀ isAsync, node.form ≠ .arrowHead isAsync := by
      intro isAsync hform
      simp [features, hform] at hfeature
    obtain ⟨span, hspan, hplace⟩ := hplaced node hnode hhead
    exact .construct tree node feature span hparse hnode hfeature hlate heq hspan hplace

/-- The first operand starts the power and ends on the second line, so that its column is counted
backwards from there. -/
theorem longOperand_refusedAt :
    validate "'a\\\nb' ** 2" 6 =
        .error (.incompatible ⟨"exponentiation operator requires ES2016", some 1, some (-4)⟩) ∧
      RefusedAt "'a\\\nb' ** 2".toList 6
        ⟨"exponentiation operator requires ES2016", some 1, some (-4)⟩ := by
  have h : validate "'a\\\nb' ** 2" 6 =
      .error (.incompatible ⟨"exponentiation operator requires ES2016", some 1, some (-4)⟩) := by
    decide +kernel
  exact ⟨h, refusedAt_of_incompatible h⟩

/-- A fault at the start of a script is in the first column, a construct in the column before it. -/
theorem parenthesis_column :
    validate ")" 5 = .error (.incompatible ⟨"Line 1: Unexpected token )", some 1, some 1⟩) ∧
      validate "let x" 5 =
        .error (.incompatible ⟨"'let' declaration requires ES2015", some 1, some 0⟩) := by
  decide +kernel

end EditionSurvey.Script
