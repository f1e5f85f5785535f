/-
  Text/Styles.lean --- sequences that style a text on a terminal.

  A sequence opens with an escape and a bracket and ends with a letter of ASCII; between them
  stand digits, semicolons and question marks.  A text that is not printed on a terminal is
  printed without them.
-/

set_option autoImplicit false

namespace EditionSurvey.Text

/-- The character that opens a sequence. -/
def escape : Char := '\x1b'

/-- A character between the bracket and the letter of a sequence. -/
def isStyleMark (c : Char) : Bool := c = ';' || c = '?' || c.isDigit

/-- The number of characters of a sequence behind its bracket, if there is one. -/
def lengthBehindBracket? : List Char → Option Nat
  | [] => none
  | c :: rest =>
      if isStyleMark c then (lengthBehindBracket? rest).map (· + 1)
      else if c.isAlpha then some 1
      else none

/-- The number of characters of a sequence behind its escape, if there is one. -/
def lengthBehindEscape? : List Char → Option Nat
  | '[' :: rest => (lengthBehindBracket? rest).map (· + 1)
  | _ => none

/-- A text without its first characters and without the sequences behind them. -/
def dropStyles : (skipped : Nat) → List Char → List Char
  | _, [] => []
  | skipped + 1, _ :: rest => dropStyles skipped rest
  | 0, c :: rest =>
      match if c = escape then lengthBehindEscape? rest else none with
      | some length => dropStyles length rest
      | none => c :: dropStyles 0 rest

/-- A text without the sequences that style it. -/
def withoutStyles (text : String) : String := String.ofList (dropStyles 0 text.toList)

/-- A text without an escape has no sequence that styles it. -/
theorem dropStyles_of_not_mem {text : List Char} (h : escape ∉ text) : dropStyles 0 text = text := by
  induction text with
  | nil => rfl
  | cons c rest ih =>
      obtain ⟨hc, hrest⟩ := not_or.mp (mt List.mem_cons.mpr h)
      rw [dropStyles, if_neg (Ne.symm hc)]
      simp only [ih hrest]

theorem withoutStyles_of_not_mem {text : String} (h : escape ∉ text.toList) :
    withoutStyles text = text := by
  rw [withoutStyles, dropStyles_of_not_mem h, String.ofList_toList]

example : dropStyles 0 "a\x1b[31;1mb\x1b[0m\x1b[c".toList = "ab".toList := by decide
example : dropStyles 0 "\x1b[3 \x1b]m".toList = "\x1b[3 \x1b]m".toList := by decide

end EditionSurvey.Text
