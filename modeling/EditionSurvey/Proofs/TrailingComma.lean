/-
  Proofs/TrailingComma.lean --- the comma behind the last argument, parameter or member.

  Whether such a comma is there is read off the text behind the last item, with comments left out by a
  reading of its own.  The tokens behind the item are known from the tree: they are the closing
  parentheses around the item, the comma or none, and what closes the list.  Where the text between
  those tokens is blank in the eyes of both readings, the comma is found exactly if it is a token.

  The two readings part at a comment that ends with its line: the text takes only a line feed for the
  end of a line, and the scanner any line terminator.
-/
import EditionSurvey.Proofs.Grammar.Program
import EditionSurvey.Script.Validate

set_option autoImplicit false

namespace EditionSurvey.Script

open Grammar

/-! ## Blank texts -/

/-- The text is nothing but white space, line ends, comments in brackets, and comments that open with
two slashes and end with a line feed, or a carriage return and a line feed. -/
inductive Blank : List Char → Prop where
  | nil : Blank []
  | blank {c : Char} {rest : List Char} :
      isWhiteSpace c = true ∨ isLineTerminator c = true → Blank rest → Blank (c :: rest)
  | bracketed {body rest : List Char} :
      ¬['*', '/'] <:+: body → Blank rest → Blank ('/' :: '*' :: body ++ '*' :: '/' :: rest)
  | line {body rest : List Char} :
      (∀ c ∈ body, isLineTerminator c = false) → Blank rest →
        Blank ('/' :: '/' :: body ++ '\n' :: rest)
  | returnedLine {body rest : List Char} :
      (∀ c ∈ body, isLineTerminator c = false) → Blank rest →
        Blank ('/' :: '/' :: body ++ '\r' :: '\n' :: rest)

theorem closesComment_append (body rest : List Char) :
    closesComment (body ++ '*' :: '/' :: rest) = true := by
  induction body with
  | nil => rfl
  | cons c body ih =>
      rw [List.cons_append]
      unfold closesComment
      split
      · simp_all
      · rfl
      · rename_i heq
        cases heq
        exact ih

theorem hasComma_block {body : List Char} (h : ¬['*', '/'] <:+: body) (rest : List Char) :
    hasComma .block (body ++ '*' :: '/' :: rest) = hasComma .outside rest := by
  induction body with
  | nil => rw [List.nil_append, hasComma]
  | cons c body ih =>
      have hbody : ¬['*', '/'] <:+: body := fun hin => h (hin.trans (List.suffix_cons c body).isInfix)
      rw [List.cons_append, hasComma, ih hbody]
      rintro more rfl hmore
      cases body with
      | nil => cases hmore
      | cons d body =>
          obtain ⟨rfl, -⟩ := List.cons.inj hmore
          exact h ⟨[], body, rfl⟩

theorem hasComma_line {body : List Char} (h : ∀ c ∈ body, c ≠ '\n') (rest : List Char) :
    hasComma .line (body ++ '\n' :: rest) = hasComma .outside rest := by
  induction body with
  | nil => rw [List.nil_append, hasComma]
  | cons c body ih =>
      obtain ⟨hc, hbody⟩ := List.forall_mem_cons.mp h
      rw [List.cons_append, hasComma, ih hbody]
      exact hc

theorem ne_lineFeed {body : List Char} (h : ∀ c ∈ body, isLineTerminator c = false) :
    ∀ c ∈ body, c ≠ '\n' := by
  rintro _ hc rfl
  exact absurd (h _ hc) (by decide)

/-- A blank text in front neither shows nor hides a comma. -/
theorem Blank.hasComma_append {text : List Char} (h : Blank text) (rest : List Char) :
    hasComma .outside (text ++ rest) = hasComma .outside rest := by
  induction h with
  | nil => rfl
  | blank hc _ ih =>
      rw [List.cons_append, hasComma, ih]
      · rintro rfl
        exact absurd hc (by decide)
      · rintro more rfl
        exact absurd hc (by decide)
      · rintro more rfl
        exact absurd hc (by decide)
  | bracketed hbody _ ih =>
      rw [List.append_assoc, List.cons_append, List.cons_append, List.cons_append, List.cons_append,
        hasComma, if_pos (closesComment_append _ _), hasComma_block hbody, ih]
  | line hbody _ ih =>
      rw [List.append_assoc, List.cons_append, List.cons_append, List.cons_append, hasComma,
        hasComma_line (ne_lineFeed hbody), ih]
  | @returnedLine body text hbody _ ih =>
      have hreturn : ∀ c ∈ body ++ ['\r'], c ≠ '\n' :=
        List.forall_mem_append.mpr ⟨ne_lineFeed hbody, by simp⟩
      have hline := hasComma_line hreturn (text ++ rest)
      rw [List.append_assoc, List.singleton_append] at hline
      rw [List.append_assoc, List.cons_append, List.cons_append, List.cons_append, List.cons_append,
        hasComma, hline, ih]

/-! ## Texts between offsets -/

theorem extract_append {source : List Char} {start mid stop : Nat} (hstart : start ≤ mid)
    (hstop : mid ≤ stop) :
    source.extract start stop = source.extract start mid ++ source.extract mid stop := by
  have hlength : stop - start = (mid - start) + (stop - mid) := by omega
  have hmid : start + (mid - start) = mid := by omega
  rw [List.extract_eq_take_drop, List.extract_eq_take_drop, List.extract_eq_take_drop, hlength,
    List.take_add, List.drop_drop, hmid]

/-- A punctuator is the text at its place. -/
theorem Token.Spelled.extract {source : List Char} {t : Token} {mark : String}
    (h : t.Spelled source) (hmark : t.lexeme = .punctuator mark) :
    source.extract t.start t.stop = mark.toList := by
  obtain ⟨-, hprefix, hstop⟩ := h mark hmark
  rw [List.extract_eq_take_drop, hstop, Nat.add_sub_cancel_left, ← String.length_toList]
  exact (List.prefix_iff_eq_take.mp hprefix).symm

/-- The texts before, between and behind the tokens are blank. -/
inductive BlankBetween (source : List Char) : Nat → List Token → Nat → Prop where
  | last {start stop : Nat} :
      Blank (source.extract start stop) → BlankBetween source start [] stop
  | more {start stop : Nat} {t : Token} {rest : List Token} :
      Blank (source.extract start t.start) → BlankBetween source t.stop rest stop →
        BlankBetween source start (t :: rest) stop

/-- A text with neither commas nor slashes is read over. -/
theorem hasComma_append_quiet {text : List Char} (h : ∀ c ∈ text, c ≠ ',' ∧ c ≠ '/')
    (rest : List Char) : hasComma .outside (text ++ rest) = hasComma .outside rest := by
  induction text with
  | nil => rfl
  | cons c text ih =>
      obtain ⟨⟨hcomma, hslash⟩, htext⟩ := List.forall_mem_cons.mp h
      rw [List.cons_append, hasComma, ih htext]
      · exact hcomma
      · exact fun _ heq => absurd heq hslash
      · exact fun _ heq => absurd heq hslash

/-- Of the punctuators behind a list only the comma reads as one. -/
def IsClosing (mark : String) : Prop := ∀ c ∈ mark.toList, c ≠ ',' ∧ c ≠ '/'

instance (mark : String) : Decidable (IsClosing mark) :=
  List.decidableBAll (fun c => c ≠ ',' ∧ c ≠ '/') mark.toList

/-- Over punctuators with blank text around them, a comma is found exactly if one of them is one. -/
theorem hasComma_extract {source : List Char} {start stop : Nat} {ts : List Token}
    {marks : List String} (hblank : BlankBetween source start ts stop)
    (hmarks : ts.map Token.lexeme = punctuators marks)
    (hclosing : ∀ mark ∈ marks, mark = "," ∨ IsClosing mark)
    (hts : ∀ t ∈ ts, t.Spelled source ∧ t.liesIn start stop = true)
    (hsorted : ts.Pairwise (fun t u => t.stop ≤ u.start)) :
    hasComma .outside (source.extract start stop) = true ↔ "," ∈ marks := by
  induction hblank generalizing marks with
  | last hblank =>
      obtain rfl : marks = [] := by simpa [punctuators] using hmarks.symm
      have := Blank.hasComma_append hblank []
      rw [List.append_nil] at this
      simp [this, hasComma]
  | @more start stop t rest hblank _ ih =>
      obtain ⟨mark, marks, rfl⟩ : ∃ mark more, marks = mark :: more := by
        cases marks with
        | nil => simp [punctuators] at hmarks
        | cons mark more => exact ⟨mark, more, rfl⟩
      obtain ⟨hmark, hmarks⟩ :
          t.lexeme = .punctuator mark ∧ rest.map Token.lexeme = punctuators marks := by
        simpa [punctuators] using hmarks
      obtain ⟨⟨hspelled, ht⟩, hts⟩ := List.forall_mem_cons.mp hts
      obtain ⟨hbehind, hsorted⟩ := List.pairwise_cons.mp hsorted
      obtain ⟨hclosing_mark, hclosing⟩ := List.forall_mem_cons.mp hclosing
      simp only [Token.liesIn, Bool.and_eq_true, decide_eq_true_eq] at ht
      have hrest := ih hmarks hclosing (fun u hu => ⟨(hts u hu).1, by
        have := hbehind u hu
        have := (hts u hu).2
        simp only [Token.liesIn, Bool.and_eq_true, decide_eq_true_eq] at this ⊢
        omega⟩) hsorted
      rw [extract_append ht.1.1 (by omega), hblank.hasComma_append, extract_append (by omega) ht.2,
        hspelled.extract hmark]
      obtain rfl | hclosing_mark := hclosing_mark
      · simp [hasComma]
      · rw [hasComma_append_quiet hclosing_mark, hrest, List.mem_cons, or_iff_right]
        rintro rfl
        exact absurd rfl (hclosing_mark ',' (by decide)).1

/-! ## Lists of a tree -/

theorem Tiled.sorted {source : List Char} :
    ∀ {tokens : List Token} {start : Nat}, Tiled source start tokens →
      (∀ t ∈ tokens, start ≤ t.start) ∧ tokens.Pairwise fun t u => t.stop ≤ u.start
  | [], _, _ => by simp
  | t :: rest, start, ⟨hgap, hspan, hrest⟩ => by
      obtain ⟨hbehind, hsorted⟩ := hrest.sorted
      have hle := hgap.le
      refine ⟨List.forall_mem_cons.mpr ⟨hle, fun u hu => ?_⟩, List.pairwise_cons.mpr ⟨hbehind, hsorted⟩⟩
      have := hbehind u hu
      omega

theorem isClosing_of_closes {form : Form} {closing : List String} (h : form.Closes closing) :
    ∀ mark ∈ closing, IsClosing mark := by
  have hparen : IsClosing ")" := by decide
  have hopen : ∀ n, ∀ mark ∈ List.replicate n "(", IsClosing mark := by
    intro n mark hmark
    obtain rfl := List.eq_of_mem_replicate hmark
    decide
  have harrow : ∀ n, ∀ mark ∈ "=>" :: List.replicate n "(", IsClosing mark := fun n =>
    List.forall_mem_cons.mpr ⟨by decide, hopen n⟩
  cases form with
  | call | new | function =>
      obtain rfl : closing = [")"] := h
      simpa using hparen
  | object =>
      obtain rfl : closing = ["\x7d"] := h
      exact List.forall_mem_singleton.mpr (by decide)
  | arrow =>
      obtain ⟨n, rfl | rfl⟩ := h
      · exact List.forall_mem_cons.mpr ⟨hparen, harrow n⟩
      · exact harrow n
  | _ => exact h.elim

/-- Among the punctuators behind an item there is a comma only as a trailing one. -/
theorem comma_mem_iff {form : Form} {own : Nat} {comma : Bool} {closing : List String}
    (h : form.Closes closing) :
    "," ∈ List.replicate own ")" ++ (if comma then [","] else []) ++ closing ↔ comma = true := by
  have hclosing : "," ∉ closing := fun hmem =>
    (isClosing_of_closes h "," hmem ',' (by decide)).1 rfl
  cases comma <;> simp [List.mem_replicate, hclosing]

/-- The node depends on its trailing comma if one is found behind its items. -/
theorem comma_mem_features_iff {source : Array Char} {node : Node} {listing : Listing}
    (h : node.listing? = some listing) :
    listing.comma ∈ features source node ↔ trailingComma source listing.items listing.stop = true := by
  unfold Node.listing? at h
  unfold features
  split at h <;> cases h <;> rename_i hform <;> rw [hform] <;>
    simp [given, hasArgumentComma, hasParameterComma]

/-- The comma behind the last item of a list.  In the tree of a script, take a call, a `new`, a
function, an arrow function or an object with a last argument, parameter or member.  The tokens behind
that item are the closing parentheses around it, a comma or none, and what closes the list.  Where the
text around those tokens is blank, the node depends on a trailing comma exactly if the comma is there. -/
theorem trailing_comma_found_iff {source : List Char} {tree node last : Node} {listing : Listing}
    (hparse : parse source = .ok tree) (hnode : node ∈ tree.preorder)
    (hlisting : node.listing? = some listing) (hlast : listing.items.getLast? = some last) :
    ∃ (start stop own : Nat) (comma : Bool) (closing : List String),
      last.stop? = some start ∧ listing.stop = some stop ∧ node.form.Closes closing ∧
      (between (tokens source) start stop).map Token.lexeme =
        punctuators (List.replicate own ")" ++ (if comma then [","] else []) ++ closing) ∧
      (BlankBetween source start (between (tokens source) start stop) stop →
        (listing.comma ∈ features source.toArray node ↔ comma = true)) := by
  obtain ⟨r, hread, haccount, -⟩ := accounted_of_parse hparse
  obtain ⟨start, stop, own, comma, closing, hstart, hstop, -, hcloses, htokens⟩ :=
    haccount.listed tree (by simp) node hnode listing hlisting last hlast
  rw [hread] at htokens
  refine ⟨start, stop, own, comma, closing, hstart, hstop, hcloses, htokens, fun hblank => ?_⟩
  have hclosing := isClosing_of_closes hcloses
  have hmarks : ∀ mark ∈ List.replicate own ")" ++ (if comma then [","] else []) ++ closing,
      mark = "," ∨ IsClosing mark := by
    intro mark hmark
    rw [List.mem_append, List.mem_append] at hmark
    obtain (hmark | hmark) | hmark := hmark
    · exact .inr (by rw [List.eq_of_mem_replicate hmark]; decide)
    · exact .inl (by cases comma <;> simp_all)
    · exact .inr (hclosing mark hmark)
  have hts : ∀ t ∈ between (tokens source) start stop,
      t.Spelled source ∧ t.liesIn start stop = true := by
    intro t ht
    obtain ⟨ht, hlies⟩ := List.mem_filter.mp ht
    exact ⟨haccount.sound.spelled t (by rw [hread]; simp [ht]), hlies⟩
  have hsorted : (between (tokens source) start stop).Pairwise fun t u => t.stop ≤ u.start := by
    rw [← hread]
    exact ((List.pairwise_append.mp haccount.sound.tiled.sorted.2).1).filter _
  have hfound := hasComma_extract hblank htokens hmarks hts hsorted
  have htext : trailingComma source.toArray listing.items listing.stop =
      hasComma .outside (source.extract start stop) := by
    simp [trailingComma, hlast, hstart, hstop]
  rw [comma_mem_features_iff hlisting, htext, hfound, comma_mem_iff hcloses]

/-- The lists of a script that are not empty: the node, what it lists, and the last item. -/
def lists (source : List Char) : List (Node × Listing × Node) :=
  match parse source with
  | .error _ => []
  | .ok tree => tree.preorder.filterMap fun node =>
      node.listing?.bind fun listing => listing.items.getLast?.map fun last => (node, listing, last)

theorem exists_of_mem_lists {source : List Char} {node last : Node} {listing : Listing}
    (h : (node, listing, last) ∈ lists source) :
    ∃ tree, parse source = .ok tree ∧ node ∈ tree.preorder ∧ node.listing? = some listing ∧
      listing.items.getLast? = some last := by
  unfold lists at h
  split at h
  · cases h
  · rename_i tree hparse
    obtain ⟨found, hfound, heq⟩ := List.mem_filterMap.mp h
    obtain ⟨listing, hlisting, heq⟩ := Option.bind_eq_some_iff.mp heq
    obtain ⟨last, hlast, heq⟩ := Option.map_eq_some_iff.mp heq
    cases heq
    exact ⟨tree, hparse, hfound, hlisting, hlast⟩

/-- Of a script with one list, that list. -/
theorem exists_of_lists {source : List Char} {start stop : Nat} {found : List Feature}
    (h : (lists source).map (fun l => (l.2.2.stop?, l.2.1.stop, features source.toArray l.1)) =
      [(some start, some stop, found)]) :
    ∃ node listing last, (node, listing, last) ∈ lists source ∧ last.stop? = some start ∧
      listing.stop = some stop ∧ features source.toArray node = found := by
  obtain ⟨⟨node, listing, last⟩, hone, heq⟩ := List.map_eq_singleton_iff.mp h
  obtain ⟨hstart, hstop, hfound⟩ : last.stop? = some start ∧ listing.stop = some stop ∧
      features source.toArray node = found := by simpa using heq
  exact ⟨node, listing, last, by simp [hone], hstart, hstop, hfound⟩

/-- A comma behind a grouped argument and behind a comment with a comma in it. -/
def groupedScript : List Char := "f((a)/*,*/,)".toList

theorem between_groupedScript : between (tokens groupedScript) 4 12 =
    [⟨.punctuator ")", 4, 5, 1, 0⟩, ⟨.punctuator ",", 10, 11, 1, 0⟩,
      ⟨.punctuator ")", 11, 12, 1, 0⟩] := by decide +kernel

theorem blankBetween_groupedScript :
    BlankBetween groupedScript 4 (between (tokens groupedScript) 4 12) 12 := by
  have hitem : groupedScript.extract 4 4 = [] := by decide +kernel
  have hcomment : groupedScript.extract 5 10 = '/' :: '*' :: [','] ++ '*' :: '/' :: [] := by
    decide +kernel
  have hmark : groupedScript.extract 11 11 = [] := by decide +kernel
  have hend : groupedScript.extract 12 12 = [] := by decide +kernel
  rw [between_groupedScript]
  exact .more (hitem ▸ .nil) (.more (hcomment ▸ .bracketed (by decide) .nil)
    (.more (hmark ▸ .nil) (.last (hend ▸ .nil))))

/-- The comma is found: the parenthesis before it belongs to the argument, and the comma in the
comment is none. -/
theorem groupedScript_comma_found :
    ∃ tree node listing last, parse groupedScript = .ok tree ∧ node ∈ tree.preorder ∧
      node.listing? = some listing ∧ listing.items.getLast? = some last ∧
      last.stop? = some 4 ∧ listing.stop = some 12 ∧
      BlankBetween groupedScript 4 (between (tokens groupedScript) 4 12) 12 ∧
      listing.comma ∈ features groupedScript.toArray node := by
  have hrun : (lists groupedScript).map
      (fun l => (l.2.2.stop?, l.2.1.stop, features groupedScript.toArray l.1)) =
        [(some 4, some 12, [.argumentComma])] := by decide +kernel
  obtain ⟨node, listing, last, hlists, hstart, hstop, -⟩ := exists_of_lists hrun
  obtain ⟨tree, hparse, hnode, hlisting, hlast⟩ := exists_of_mem_lists hlists
  obtain ⟨start, stop, own, comma, closing, hstart', hstop', hcloses, htokens, hfound⟩ :=
    trailing_comma_found_iff hparse hnode hlisting hlast
  obtain rfl : start = 4 := Option.some.inj (hstart'.symm.trans hstart)
  obtain rfl : stop = 12 := Option.some.inj (hstop'.symm.trans hstop)
  have hmem : Lexeme.punctuator "," ∈ (between (tokens groupedScript) 4 12).map Token.lexeme := by
    rw [between_groupedScript]
    simp
  rw [htokens] at hmem
  have hmarks : "," ∈ List.replicate own ")" ++ (if comma then [","] else []) ++ closing := by
    obtain ⟨mark, hmark, heq⟩ := List.mem_map.mp hmem
    obtain rfl := Lexeme.punctuator.inj heq
    exact hmark
  have hcomma : comma = true := (comma_mem_iff hcloses).mp hmarks
  exact ⟨tree, node, listing, last, hparse, hnode, hlisting, hlast, hstart, hstop,
    blankBetween_groupedScript, (hfound blankBetween_groupedScript).mpr hcomma⟩

/-- A comma behind a comment that a carriage return ends. -/
def returnedScript : List Char := "f(a//\r,\n)".toList

/-- The comma is the token right behind the argument, and the script is accepted for an edition that
has no trailing commas. -/
theorem returnedScript_comma_hidden :
    ∃ tree node listing last, parse returnedScript = .ok tree ∧ node ∈ tree.preorder ∧
      node.listing? = some listing ∧ listing.items.getLast? = some last ∧
      last.stop? = some 3 ∧ listing.stop = some 9 ∧
      (between (tokens returnedScript) 3 9).map Token.lexeme = punctuators [",", ")"] ∧
      listing.comma ∉ features returnedScript.toArray node ∧
      validate (String.ofList returnedScript) 5 = .ok () := by
  have hrun : (lists returnedScript).map
      (fun l => (l.2.2.stop?, l.2.1.stop, features returnedScript.toArray l.1)) =
        [(some 3, some 9, [])] := by decide +kernel
  obtain ⟨node, listing, last, hlists, hstart, hstop, hfound⟩ := exists_of_lists hrun
  obtain ⟨tree, hparse, hnode, hlisting, hlast⟩ := exists_of_mem_lists hlists
  refine ⟨tree, node, listing, last, hparse, hnode, hlisting, hlast, hstart, hstop, ?_, ?_, ?_⟩
  · decide +kernel
  · rw [hfound]
    exact List.not_mem_nil
  · decide +kernel

end EditionSurvey.Script
