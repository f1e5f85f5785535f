/-
  Proofs/Grammar/Account.lean --- what the nodes that are read so far account for.

  While a script is read, the nodes read so far stand beside the tokens read so far.  `Accounted` says
  what holds between them at every reading: a token of a form that came with the sixth edition leaves a
  node that shows it, unless it is taken for a word; behind the last argument, parameter or member that a
  node lists the tokens are as the grammar has them, up to the end of the list; and a parenthesised list
  that waits for the arrow of an async function has that arrow ahead.
-/
import EditionSurvey.Proofs.Grammar.Reading
import EditionSurvey.Proofs.Examination
import Mathlib.Data.List.Basic
import Mathlib.Tactic.Tauto

set_option autoImplicit false

namespace EditionSurvey.Script

/-! ## Newer forms -/

/-- The node of such a form depends on the sixth edition or a later one, whatever its parts are.  The
head of an async arrow function becomes one of them. -/
def Form.newer : Form → Bool
  | .template | .classLike _ | .arrow .. | .arrayPattern | .objectPattern => true
  | .arrowHead isAsync => isAsync
  | .literal raw _ => isPrefixedNumber raw
  | .pattern flags => flags.toList.contains 'u' || flags.toList.contains 'y'
  | _ => false

/-- The token is of a form that came with the sixth edition. -/
def Lexeme.newer : Lexeme → Bool
  | .number spelling _ => isPrefixedNumber spelling
  | .pattern _ flags => flags.toList.contains 'u' || flags.toList.contains 'y'
  | .template .. => true
  | _ => false

/-- Behind the tokens before it, a template is taken for the word that is its text: for the name `let`
where `var` declares one, or for `in` in the head of a loop behind `let` or `const` as a name. -/
inductive TakenForWord : List Lexeme → Lexeme → Prop where
  | name {before : List Lexeme} {head tail : Bool}
      (behind : before.getLast? = some (.keyword "var") ∨ before.getLast? = some (.punctuator ",")) :
      TakenForWord before (.template "let" head tail)
  | loop {before : List Lexeme} {head tail : Bool} {word : String}
      (named : word = "let" ∨ word = "const")
      (behind : [.keyword "for", .punctuator "(", .keyword word] <:+ before) :
      TakenForWord before (.template "in" head tail)

theorem TakenForWord.ne_arrow {before : List Lexeme} {lexeme : Lexeme}
    (h : TakenForWord before lexeme) : lexeme ≠ .punctuator "=>" := by
  cases h <;> simp

/-- Among the tokens is one of a newer form that is not taken for a word. -/
def HasNewer (tokens : List Token) : Prop :=
  ∃ before t behind, tokens = before ++ t :: behind ∧ t.lexeme.newer = true ∧
    ¬TakenForWord (before.map Token.lexeme) t.lexeme

/-- The token shows nothing new and is no arrow, so that reading it changes no account. -/
def Lexeme.Quiet (lexeme : Lexeme) : Prop :=
  lexeme.newer = false ∧ lexeme ≠ .punctuator "=>"

/-- A node of the form lists nothing and waits for no arrow. -/
def Form.isPlain : Form → Bool
  | .call | .new | .function .. | .arrow .. | .object => false
  | .arrowHead isAsync => !isAsync
  | _ => true

/-! ## Trees -/

/-- All nodes of the tree satisfy the predicate. -/
def Node.All (P : Node → Prop) (tree : Node) : Prop := ∀ node ∈ tree.preorder, P node

/-- Some node of the tree is of a newer form. -/
def Node.Shows (tree : Node) : Prop := ∃ node ∈ tree.preorder, node.form.newer = true

/-- No head of an async arrow function waits for its arrow in the tree. -/
def Node.Headless (tree : Node) : Prop := tree.All fun node => node.form ≠ .arrowHead true

theorem Node.mem_preorders_iff {node : Node} {trees : List Node} :
    node ∈ Node.preorder.preorders trees ↔ ∃ tree ∈ trees, node ∈ tree.preorder := by
  induction trees with
  | nil => simp [Node.preorder.preorders]
  | cons tree rest ih => simp [Node.preorder.preorders, ih]

theorem Node.mem_preorder_mk {node : Node} {form : Form} {role : Role} {span : Option Span}
    {parts : List Node} :
    node ∈ (Node.mk form role span parts).preorder ↔
      node = .mk form role span parts ∨ ∃ part ∈ parts, node ∈ part.preorder := by
  rw [Node.preorder, List.mem_cons, Node.mem_preorders_iff]

section Trees

variable {P : Node → Prop} {form : Form} {role : Role} {span : Option Span} {parts : List Node}

theorem Node.all_mk :
    (Node.mk form role span parts).All P ↔
      P (.mk form role span parts) ∧ ∀ part ∈ parts, part.All P := by
  simp only [Node.All, Node.mem_preorder_mk]
  constructor
  · intro h
    exact ⟨h _ (.inl rfl), fun part hpart node hnode => h node (.inr ⟨part, hpart, hnode⟩)⟩
  · rintro ⟨hroot, hparts⟩ node (rfl | ⟨part, hpart, hnode⟩)
    · exact hroot
    · exact hparts part hpart node hnode

theorem Node.shows_mk :
    (Node.mk form role span parts).Shows ↔ form.newer = true ∨ ∃ part ∈ parts, part.Shows := by
  simp only [Node.Shows, Node.mem_preorder_mk]
  constructor
  · rintro ⟨node, rfl | ⟨part, hpart, hnode⟩, hnewer⟩
    · exact .inl hnewer
    · exact .inr ⟨part, hpart, node, hnode, hnewer⟩
  · rintro (h | ⟨part, hpart, node, hnode, hnewer⟩)
    · exact ⟨_, .inl rfl, h⟩
    · exact ⟨node, .inr ⟨part, hpart, hnode⟩, hnewer⟩

theorem Node.headless_mk :
    (Node.mk form role span parts).Headless ↔
      form ≠ .arrowHead true ∧ ∀ part ∈ parts, part.Headless :=
  Node.all_mk

end Trees

/-! ## Lists that may end with a comma -/

/-- What a node lists. -/
structure Listing where
  /-- the arguments, parameters or members -/
  items : List Node
  /-- the offset up to which the list reaches -/
  stop : Option Nat
  /-- the construct that a comma behind the last of them is -/
  comma : Feature

/-- What the node lists, if it lists anything. -/
def Node.listing? (node : Node) : Option Listing :=
  match node.form with
  | .call | .new => some ⟨node.partsAs .argument, node.stop?, .argumentComma⟩
  | .function .. | .arrow .. =>
      some ⟨node.partsAs .param, (node.partsAs .body).head?.bind Node.start?, .parameterComma⟩
  | .object => some ⟨node.partsAs .property, node.stop?, .objectComma⟩
  | _ => none

/-- The punctuators that end the list of a node of the form, behind the comma if there is one.  The
list of an arrow function ends where its body begins, inside the parentheses around that. -/
def Form.Closes (form : Form) (marks : List String) : Prop :=
  match form with
  | .call | .new | .function .. => marks = [")"]
  | .object => marks = ["\x7d"]
  | .arrow .. => ∃ n, marks = ")" :: "=>" :: List.replicate n "(" ∨
      marks = "=>" :: List.replicate n "("
  | _ => False

/-- The token lies between the two offsets.  The empty token at the end of a source lies nowhere. -/
def Token.liesIn (start stop : Nat) (t : Token) : Bool :=
  start ≤ t.start && t.start < t.stop && t.stop ≤ stop

/-- The tokens that lie between the two offsets. -/
def between (tokens : List Token) (start stop : Nat) : List Token :=
  tokens.filter (·.liesIn start stop)

/-- Punctuators as lexemes. -/
def punctuators (marks : List String) : List Lexeme := marks.map .punctuator

namespace Grammar

variable {source : List Char} {r later : Reading} {ns ms : List Node} {n : Node}

/-- The lexemes of the tokens that were read. -/
def Reading.lexemes (r : Reading) : List Lexeme := r.read.map Token.lexeme

@[simp] theorem Reading.lexemes_after (r : Reading) (next : Token) :
    (r.after next).lexemes = r.lexemes ++ [r.ahead.lexeme] := by
  simp [Reading.lexemes]

/-- The lexemes of the tokens from the offset up to the edge. -/
def Reading.since (r : Reading) (start : Nat) : List Lexeme :=
  (between r.read start r.edge).map Token.lexeme

/-- If the node lists anything, then the tokens from the last item to the end of the list are read;
they are the closing parentheses around that item, a comma or none, and what closes the list. -/
def Listed (r : Reading) (node : Node) : Prop :=
  ∀ listing, node.listing? = some listing → ∀ last, listing.items.getLast? = some last →
    ∃ (start stop own : Nat) (comma : Bool) (closing : List String),
      last.stop? = some start ∧ listing.stop = some stop ∧ stop ≤ r.edge ∧
      node.form.Closes closing ∧
      (between r.read start stop).map Token.lexeme =
        punctuators (List.replicate own ")" ++ (if comma then [","] else []) ++ closing)

/-- What holds between the tokens that are read and the nodes that they have given so far. -/
structure Accounted (source : List Char) (r : Reading) (ns : List Node) : Prop where
  sound : r.Sound source
  shown : HasNewer r.read → ∃ n ∈ ns, n.Shows
  listed : ∀ n ∈ ns, n.All (Listed r)
  headed : (∀ n ∈ ns, n.Headless) ∨ r.ahead.lexeme = .punctuator "=>"

/-! ## Tokens between offsets -/

theorem between_append (xs ys : List Token) (start stop : Nat) :
    between (xs ++ ys) start stop = between xs start stop ++ between ys start stop :=
  List.filter_append ..

/-- Tokens behind the second offset do not lie before it. -/
theorem between_eq_nil_of_le {tokens : List Token} {start stop : Nat}
    (h : ∀ t ∈ tokens, stop ≤ t.start) : between tokens start stop = [] := by
  refine List.filter_eq_nil_iff.mpr fun t ht => ?_
  have := h t ht
  simp only [Token.liesIn, Bool.and_eq_true, decide_eq_true_eq, not_and, Nat.not_le]
  omega

/-- Tokens before the first offset do not lie behind it. -/
theorem between_eq_nil_of_ge {tokens : List Token} {start stop : Nat}
    (h : ∀ t ∈ tokens, t.stop ≤ start) : between tokens start stop = [] := by
  refine List.filter_eq_nil_iff.mpr fun t ht => ?_
  have := h t ht
  simp only [Token.liesIn, Bool.and_eq_true, decide_eq_true_eq, not_and, Nat.not_le]
  omega

theorem between_congr_stop {tokens : List Token} (start : Nat) {stop stop' : Nat}
    (h : ∀ t ∈ tokens, t.stop ≤ stop) (hle : stop ≤ stop') :
    between tokens start stop' = between tokens start stop := by
  refine List.filter_congr fun t ht => ?_
  have := h t ht
  simp only [Token.liesIn]
  have hstop : decide (t.stop ≤ stop') = decide (t.stop ≤ stop) := by
    simp only [decide_eq_decide]
    omega
  rw [hstop]

/-- More tokens do not change what lies before the edge. -/
theorem between_extends (h : r.Extends later) {start stop : Nat} (hstop : stop ≤ r.edge) :
    between later.read start stop = between r.read start stop := by
  obtain ⟨-, more, hread, hmore⟩ := h
  rw [hread, between_append, between_eq_nil_of_le (fun t ht => Nat.le_trans hstop (hmore t ht)),
    List.append_nil]

/-- The tokens up to an offset behind the edge are those up to the edge and those behind it. -/
theorem between_split (hsound : r.Sound source) (h : r.Extends later) {start stop : Nat}
    (hstart : start ≤ r.edge) (hstop : r.edge ≤ stop) :
    (between later.read start stop).map Token.lexeme =
      r.since start ++ (between later.read r.edge stop).map Token.lexeme := by
  obtain ⟨-, more, hread, hmore⟩ := h
  have hread_stop := between_congr_stop start hsound.stops hstop
  have hnone : between r.read r.edge stop = [] := between_eq_nil_of_ge hsound.stops
  have hmore_start : between more start stop = between more r.edge stop := by
    refine List.filter_congr fun t ht => ?_
    have := hmore t ht
    have hle : start ≤ t.start := by omega
    simp [Token.liesIn, this, hle]
  rw [hread, between_append, between_append, hread_stop, hnone, hmore_start, List.map_append,
    List.nil_append]
  rfl

/-- Nothing lies behind the edge. -/
theorem since_edge (hsound : r.Sound source) : r.since r.edge = [] := by
  rw [Reading.since, between_eq_nil_of_ge hsound.stops, List.map_nil]

/-- The token ahead comes to the tokens since an offset when it is read, if it is a punctuator. -/
theorem since_after (hsound : r.Sound source) {start : Nat} (hstart : start ≤ r.edge) {mark : String}
    (hmark : r.ahead.lexeme = .punctuator mark) (next : Token) :
    (r.after next).since start = r.since start ++ [.punctuator mark] := by
  have hspelled := hsound.spelled r.ahead (by simp) mark hmark
  have hlt : r.ahead.start < r.ahead.stop := by
    have : 0 < mark.length := by
      rw [← String.length_toList]
      exact List.length_pos_iff.mpr fun h => hspelled.1 (String.toList_eq_nil_iff.mp h)
    omega
  have hedge := hsound.edge
  have hahead : between [r.ahead] r.edge r.ahead.stop = [r.ahead] := by
    simp [between, Token.liesIn, hedge, hlt]
  have hstop : r.edge ≤ r.ahead.stop := by omega
  have := between_split hsound (hsound.extends_after next) hstart hstop
  rw [Reading.since, Reading.after_edge, this, Reading.after_read, between_append,
    between_eq_nil_of_ge hsound.stops, List.nil_append, hahead, List.map_singleton, hmark]

/-! ## Reading tokens -/

/-- A newer form among the tokens and one more is among the tokens, or it is that of the last one. -/
theorem hasNewer_concat {tokens : List Token} {last : Token} (h : HasNewer (tokens ++ [last])) :
    HasNewer tokens ∨
      last.lexeme.newer = true ∧ ¬TakenForWord (tokens.map Token.lexeme) last.lexeme := by
  obtain ⟨before, t, behind, htokens, ht⟩ := h
  obtain rfl | ⟨behind, u, rfl⟩ := behind.eq_nil_or_concat
  · obtain ⟨rfl, heq⟩ := List.append_inj' htokens rfl
    obtain rfl := List.singleton_inj.mp heq
    exact .inr ht
  · have hsplit : tokens ++ [last] = (before ++ t :: behind) ++ [u] := by simpa using htokens
    exact .inl ⟨before, t, behind, (List.append_inj' hsplit rfl).1, ht⟩

theorem Listed.mono {node : Node} (h : Listed r node) (hextends : r.Extends later) :
    Listed later node := by
  intro listing hlisting last hlast
  obtain ⟨start, stop, own, comma, closing, hstart, hstop, hle, hcloses, htokens⟩ :=
    h listing hlisting last hlast
  refine ⟨start, stop, own, comma, closing, hstart, hstop, Nat.le_trans hle hextends.1, hcloses, ?_⟩
  rw [between_extends hextends hle, htokens]

namespace Accounted

/-- Before another token is ahead of what was read, no head waits for an arrow. -/
theorem headless (h : Accounted source r ns) (hahead : r.ahead.lexeme ≠ .punctuator "=>") :
    ∀ n ∈ ns, n.Headless :=
  h.headed.resolve_right hahead

theorem after (h : Accounted source r ns) {next : Token} (hnext : (r.after next).Sound source)
    (hnewer : r.ahead.lexeme.newer = true →
      TakenForWord r.lexemes r.ahead.lexeme ∨ ∃ n ∈ ns, n.Shows)
    (hheadless : ∀ n ∈ ns, n.Headless) : Accounted source (r.after next) ns where
  sound := hnext
  shown hread := (hasNewer_concat hread).elim h.shown fun ⟨hahead, htaken⟩ =>
    (hnewer hahead).resolve_left htaken
  listed n hn node hnode := (h.listed n hn node hnode).mono (h.sound.extends_after next)
  headed := .inl hheadless

theorem settled (h : Accounted source r ns) : Accounted source r.settled ns where
  sound := h.sound.settled
  shown := h.shown
  listed n hn node hnode := (h.listed n hn node hnode).mono h.sound.extends_settled
  headed := h.headed

variable {β : Type} {Q : β → Reading → Prop}

theorem advance_bind {f : Token → Parse β} (h : Accounted source r ns)
    (hnewer : r.ahead.lexeme.newer = true →
      TakenForWord r.lexemes r.ahead.lexeme ∨ ∃ n ∈ ns, n.Shows)
    (hheadless : ∀ n ∈ ns, n.Headless)
    (k : ∀ next, Accounted source (r.after next) ns → Gives source (f r.ahead) (r.after next) Q) :
    Gives source (advance >>= f) r Q :=
  .advance_bind fun next => .of_sound fun hnext _ => k next (h.after hnext hnewer hheadless)

theorem quiet_bind {f : Token → Parse β} (h : Accounted source r ns)
    (hquiet : r.ahead.lexeme.Quiet)
    (k : ∀ next, Accounted source (r.after next) ns → Gives source (f r.ahead) (r.after next) Q) :
    Gives source (advance >>= f) r Q :=
  h.advance_bind (by simp [hquiet.1]) (h.headless hquiet.2) k

/-- A token is read that is quiet or taken for a word. -/
theorem word_bind {f : Token → Parse β} (h : Accounted source r ns)
    (hahead : r.ahead.lexeme.Quiet ∨ TakenForWord r.lexemes r.ahead.lexeme)
    (k : ∀ next, Accounted source (r.after next) ns → Gives source (f r.ahead) (r.after next) Q) :
    Gives source (advance >>= f) r Q := by
  obtain hquiet | htaken := hahead
  · exact h.quiet_bind hquiet k
  · exact h.advance_bind (fun _ => .inl htaken) (h.headless htaken.ne_arrow) k

/-- A token may be checked behind its reading, if any that is not quiet fails the check. -/
theorem checked_bind {f : Token → Parse β} (h : Accounted source r ns)
    (hfails : ¬r.ahead.lexeme.Quiet → r.ahead.NoPattern → Fails (f r.ahead))
    (k : ∀ next, r.ahead.lexeme.Quiet → Accounted source (r.after next) ns →
      Gives source (f r.ahead) (r.after next) Q) :
    Gives source (advance >>= f) r Q := by
  refine .of_sound fun _ hplain => ?_
  by_cases hquiet : r.ahead.lexeme.Quiet
  · exact h.quiet_bind hquiet fun next h => k next hquiet h
  · exact .advance_bind fun next => .of_fails (hfails hquiet hplain)

/-- A token may be checked behind its reading, if any that neither shows nor is taken for a word fails
the check. -/
theorem admitted_bind {f : Token → Parse β} (h : Accounted source r ns)
    (hadmits : r.ahead.NoPattern → Fails (f r.ahead) ∨
      (r.ahead.lexeme.newer = true → TakenForWord r.lexemes r.ahead.lexeme ∨ ∃ n ∈ ns, n.Shows) ∧
        r.ahead.lexeme ≠ .punctuator "=>")
    (k : ∀ next, Accounted source (r.after next) ns → Gives source (f r.ahead) (r.after next) Q) :
    Gives source (advance >>= f) r Q := by
  refine .of_sound fun _ hplain => ?_
  obtain hfails | ⟨hnewer, harrow⟩ := hadmits hplain
  · exact .advance_bind fun next => .of_fails hfails
  · exact h.advance_bind hnewer (h.headless harrow) k

theorem expect_bind {mark : String} {f : Unit → Parse β} (h : Accounted source r ns)
    (hmark : mark ≠ "=>")
    (k : ∀ next, r.ahead.lexeme = .punctuator mark → Accounted source (r.after next) ns →
      Gives source (f ()) (r.after next) Q) :
    Gives source (expect mark >>= f) r Q := by
  refine .expect_bind fun next hahead => .of_sound fun hnext _ => k next hahead ?_
  exact h.after hnext (by simp [hahead, Lexeme.newer]) (h.headless (by simpa [hahead] using hmark))

theorem expectKeyword_bind {word : String} {f : Unit → Parse β} (h : Accounted source r ns)
    (k : ∀ next, r.ahead.lexeme = .keyword word → Accounted source (r.after next) ns →
      Gives source (f ()) (r.after next) Q) :
    Gives source (expectKeyword word >>= f) r Q := by
  refine .expectKeyword_bind fun next hahead => .of_sound fun hnext _ => k next hahead ?_
  exact h.after hnext (by simp [hahead, Lexeme.newer]) (h.headless (by simp [hahead]))

theorem accept_bind {mark : String} {f : Bool → Parse β} (h : Accounted source r ns)
    (hmark : mark ≠ "=>")
    (yes : ∀ next, r.ahead.lexeme = .punctuator mark → Accounted source (r.after next) ns →
      Gives source (f true) (r.after next) Q)
    (no : r.ahead.lexeme ≠ .punctuator mark → Gives source (f false) r Q) :
    Gives source (accept mark >>= f) r Q := by
  refine .accept_bind (fun next hahead => .of_sound fun hnext _ => yes next hahead ?_) no
  exact h.after hnext (by simp [hahead, Lexeme.newer]) (h.headless (by simpa [hahead] using hmark))

theorem endStatement_bind {f : Unit → Parse β} (h : Accounted source r ns)
    (k : ∀ later, Accounted source later ns → Gives source (f ()) later Q) :
    Gives source (endStatement >>= f) r Q := by
  refine gives_endStatement.bind fun _ later _ hlater => .of_sound fun hsound _ => ?_
  obtain ⟨hahead, next, rfl⟩ | rfl | rfl := hlater
  · refine k _ (h.after hsound (by simp [hahead, Lexeme.newer]) (h.headless (by simp [hahead])))
  · exact k _ h
  · exact k _ h.settled

end Accounted

/-! ## Nodes -/

/-- A tree without the role that it plays in its parent. -/
def bare (n : Node) : Node := n.withRole .part

/-- The trees of one list are those of the other, up to their roles. -/
def SameTrees (ms ns : List Node) : Prop := ∀ n, n ∈ ms.map bare ↔ n ∈ ns.map bare

@[simp] theorem bare_withRole (n : Node) (role : Role) : bare (n.withRole role) = bare n := by
  cases n
  rfl

theorem listing?_of_isPlain {form : Form} {role : Role} {span : Option Span} {parts : List Node}
    (h : form.isPlain = true) : (Node.mk form role span parts).listing? = none := by
  cases form <;> first | rfl | cases h

theorem Form.ne_arrowHead_of_isPlain {form : Form} (h : form.isPlain = true) :
    form ≠ .arrowHead true := by
  rintro rfl
  cases h

theorem listed_of_isPlain {form : Form} {role : Role} {span : Option Span} {parts : List Node}
    (h : form.isPlain = true) : Listed r (.mk form role span parts) := by
  intro listing hlisting
  rw [listing?_of_isPlain h] at hlisting
  cases hlisting

theorem shows_bare : (bare n).Shows ↔ n.Shows := by
  cases n
  exact Node.shows_mk.trans Node.shows_mk.symm

theorem headless_bare : (bare n).Headless ↔ n.Headless := by
  cases n
  exact Node.headless_mk.trans Node.headless_mk.symm

theorem all_listed_bare : (bare n).All (Listed r) ↔ n.All (Listed r) := by
  obtain ⟨form, role, span, parts⟩ := n
  have hrole : Listed r (.mk form .part span parts) ↔ Listed r (.mk form role span parts) := Iff.rfl
  exact Node.all_mk.trans ((and_congr_left' hrole).trans Node.all_mk.symm)

theorem all_withRole {P : Node → Prop} {role : Role}
    (hrole : ∀ n role, P n → P (n.withRole role)) (h : n.All P) : (n.withRole role).All P := by
  obtain ⟨form, own, span, parts⟩ := n
  obtain ⟨hn, hparts⟩ := Node.all_mk.mp h
  exact Node.all_mk.mpr ⟨hrole _ role hn, hparts⟩

/-- No head waits in a node if none waits in its parts. -/
theorem headless_of_sameTrees {form : Form} {role : Role} {span : Option Span} {parts : List Node}
    (hsame : SameTrees ms (parts ++ ns)) (h : ∀ n ∈ ms, n.Headless)
    (hform : form ≠ .arrowHead true) : (Node.mk form role span parts).Headless := by
  refine Node.headless_mk.mpr ⟨hform, fun part hpart => ?_⟩
  obtain ⟨m, hm, heq⟩ := List.mem_map.mp
    ((hsame (bare part)).mpr (List.mem_map_of_mem (List.mem_append_left _ hpart)))
  exact headless_bare.mp (heq ▸ headless_bare.mpr (h m hm))

/-- What shows nothing newer waits for no arrow. -/
theorem headless_of_not_shows (h : ¬n.Shows) : n.Headless :=
  fun node hnode heq => h ⟨node, hnode, by rw [heq]; rfl⟩

namespace Accounted

/-- The trees that are accounted for may be exchanged for trees that show what they show, list what
is read and wait for no arrow. -/
theorem exchange (h : Accounted source r ms) (hshown : (∃ n ∈ ms, n.Shows) → ∃ n ∈ ns, n.Shows)
    (hlisted : ∀ n ∈ ns, n.All (Listed r))
    (hheadless : (∀ n ∈ ms, n.Headless) → ∀ n ∈ ns, n.Headless) : Accounted source r ns where
  sound := h.sound
  shown hnewer := hshown (h.shown hnewer)
  listed := hlisted
  headed := h.headed.imp_left hheadless

/-- The order of the trees and their roles do not matter. -/
theorem regroup (h : Accounted source r ms) (hsame : SameTrees ms ns) : Accounted source r ns := by
  have hfind : ∀ n ∈ ns, ∃ m ∈ ms, bare m = bare n := fun n hn =>
    List.mem_map.mp ((hsame (bare n)).mpr (List.mem_map_of_mem hn))
  refine h.exchange ?_ (fun n hn => ?_) fun hheadless n hn => ?_
  · rintro ⟨m, hm, hshows⟩
    obtain ⟨n, hn, heq⟩ := List.mem_map.mp ((hsame (bare m)).mp (List.mem_map_of_mem hm))
    exact ⟨n, hn, shows_bare.mp (heq ▸ shows_bare.mpr hshows)⟩
  · obtain ⟨m, hm, heq⟩ := hfind n hn
    exact all_listed_bare.mp (heq ▸ all_listed_bare.mpr (h.listed m hm))
  · obtain ⟨m, hm, heq⟩ := hfind n hn
    exact headless_bare.mp (heq ▸ headless_bare.mpr (hheadless m hm))

variable {form : Form} {role : Role} {span : Option Span} {parts : List Node}

/-- Trees become the parts of a node that lists what is read. -/
theorem node (h : Accounted source r ms) (hsame : SameTrees ms (parts ++ ns))
    (hform : form ≠ .arrowHead true) (hlisted : Listed r (.mk form role span parts)) :
    Accounted source r (.mk form role span parts :: ns) := by
  have h := h.regroup hsame
  refine h.exchange ?_ (fun n hn => ?_) fun hheadless n hn => ?_
  · rintro ⟨n, hn, hshows⟩
    obtain hn | hn := List.mem_append.mp hn
    · exact ⟨_, List.mem_cons_self, Node.shows_mk.mpr (.inr ⟨n, hn, hshows⟩)⟩
    · exact ⟨n, List.mem_cons_of_mem _ hn, hshows⟩
  · obtain rfl | hn := List.mem_cons.mp hn
    · exact Node.all_mk.mpr ⟨hlisted, fun part hpart => h.listed part (List.mem_append_left _ hpart)⟩
    · exact h.listed n (List.mem_append_right _ hn)
  · obtain rfl | hn := List.mem_cons.mp hn
    · exact Node.headless_mk.mpr
        ⟨hform, fun part hpart => hheadless part (List.mem_append_left _ hpart)⟩
    · exact hheadless n (List.mem_append_right _ hn)

/-- Trees become the parts of a node that lists nothing. -/
theorem plain (h : Accounted source r ms) (hsame : SameTrees ms (parts ++ ns))
    (hform : form.isPlain = true) : Accounted source r (.mk form role span parts :: ns) :=
  h.node hsame (Form.ne_arrowHead_of_isPlain hform) (listed_of_isPlain hform)

/-- A node without parts comes to the trees. -/
theorem leaf (h : Accounted source r ns) (hform : form.isPlain = true) :
    Accounted source r (.mk form role span [] :: ns) :=
  h.plain (fun _ => Iff.rfl) hform

/-- Trees may be left out if what is left shows a newer form. -/
theorem drop (h : Accounted source r ms) (hsub : ns ⊆ ms) (hshows : ∃ n ∈ ns, n.Shows) :
    Accounted source r ns :=
  h.exchange (fun _ => hshows) (fun n hn => h.listed n (hsub hn))
    fun hheadless n hn => hheadless n (hsub hn)

/-- A tree that shows no newer form may be left out. -/
theorem forget (h : Accounted source r (n :: ns)) (hn : ¬n.Shows) : Accounted source r ns := by
  refine h.exchange ?_ (fun m hm => h.listed m (List.mem_cons_of_mem _ hm))
    fun hheadless m hm => hheadless m (List.mem_cons_of_mem _ hm)
  rintro ⟨m, hm, hshows⟩
  obtain rfl | hm := List.mem_cons.mp hm
  · exact absurd hshows hn
  · exact ⟨m, hm, hshows⟩

/-- A node without parts may be put at another place. -/
theorem moveLeaf {role' : Role} {span' : Option Span}
    (h : Accounted source r (.mk form role span [] :: ns)) (hform : form.isPlain = true) :
    Accounted source r (.mk form role' span' [] :: ns) := by
  refine h.exchange ?_ (fun n hn => ?_) fun hheadless n hn => ?_
  · rintro ⟨n, hn, hshows⟩
    obtain rfl | hn := List.mem_cons.mp hn
    · exact ⟨_, List.mem_cons_self, Node.shows_mk.mpr (Node.shows_mk.mp hshows)⟩
    · exact ⟨n, List.mem_cons_of_mem _ hn, hshows⟩
  · obtain rfl | hn := List.mem_cons.mp hn
    · exact Node.all_mk.mpr ⟨listed_of_isPlain hform, by simp⟩
    · exact h.listed n (List.mem_cons_of_mem _ hn)
  · obtain rfl | hn := List.mem_cons.mp hn
    · exact Node.headless_mk.mpr ⟨Form.ne_arrowHead_of_isPlain hform, by simp⟩
    · exact hheadless n (List.mem_cons_of_mem _ hn)

end Accounted

/-- A node that stands for one of a newer form that is still being read. -/
def pledge : Node := .mk .template .part none []

theorem shows_pledge : pledge.Shows := Node.shows_mk.mpr (.inl rfl)

namespace Accounted

theorem pledge (h : Accounted source r ns) : Accounted source r (pledge :: ns) :=
  h.leaf rfl

/-- A node of a newer form takes the place of its pledge. -/
theorem redeem (h : Accounted source r (n :: Grammar.pledge :: ns)) (hn : n.Shows) :
    Accounted source r (n :: ns) :=
  h.drop (List.cons_subset_cons n (List.subset_cons_self _ _)) ⟨n, List.mem_cons_self, hn⟩

/-- A token is read for a node of its own, which shows what the token shows. -/
theorem leaf_bind {β : Type} {Q : β → Reading → Prop} {f : Token → Parse β}
    (h : Accounted source r ns) (form : Form) (hplain : form.isPlain = true)
    (hnewer : r.ahead.lexeme.newer = true → form.newer = true)
    (harrow : r.ahead.lexeme ≠ .punctuator "=>")
    (k : ∀ next, (∀ role span, Accounted source (r.after next) (.mk form role span [] :: ns)) →
      Gives source (f r.ahead) (r.after next) Q) :
    Gives source (advance >>= f) r Q := by
  have hleaf : Accounted source r (.mk form .part none [] :: ns) := h.leaf hplain
  refine hleaf.advance_bind (fun hahead => .inr ⟨_, List.mem_cons_self, ?_⟩) (hleaf.headless harrow)
    fun next h => k next fun role span => h.moveLeaf hplain
  exact Node.shows_mk.mpr (.inl (hnewer hahead))

end Accounted

/-! ## Expressions as patterns -/

section Patterns

variable {P : Node → Prop}

mutual

/-- Reading a tree as a pattern keeps what holds of all its nodes, if it holds of a plain form with the
same span. -/
theorem all_asPattern
    (hkeeps : ∀ form form' role span parts parts', (∀ isAsync, form ≠ .arrowHead isAsync) →
      form'.isPlain = true → P (.mk form role span parts) → P (.mk form' role span parts')) :
    ∀ {n : Node}, n.All P → (asPattern n).All P
  | .mk form role span parts, h => by
      obtain ⟨hself, hparts⟩ := Node.all_mk.mp h
      unfold asPattern
      split
      case h_1 heq | h_2 heq =>
        cases heq
        exact Node.all_mk.mpr ⟨hkeeps _ _ _ _ _ _ (by simp) rfl hself, all_eachAsPattern hkeeps hparts⟩
      case h_3 heq =>
        cases heq
        exact Node.all_mk.mpr ⟨hkeeps _ _ _ _ _ _ (by simp) rfl hself, all_membersAsPattern hkeeps hparts⟩
      case h_4 heq =>
        cases heq
        exact Node.all_mk.mpr ⟨hkeeps _ _ _ _ _ _ (by simp) rfl hself, all_firstAsPattern hkeeps hparts⟩
      case h_5 => exact h

theorem all_eachAsPattern
    (hkeeps : ∀ form form' role span parts parts', (∀ isAsync, form ≠ .arrowHead isAsync) →
      form'.isPlain = true → P (.mk form role span parts) → P (.mk form' role span parts')) :
    ∀ {ns : List Node}, (∀ n ∈ ns, n.All P) → ∀ n ∈ eachAsPattern ns, n.All P
  | [], _ => by simp [eachAsPattern]
  | first :: rest, h => by
      obtain ⟨hfirst, hrest⟩ := List.forall_mem_cons.mp h
      rw [eachAsPattern]
      exact List.forall_mem_cons.mpr ⟨all_asPattern hkeeps hfirst, all_eachAsPattern hkeeps hrest⟩

theorem all_firstAsPattern
    (hkeeps : ∀ form form' role span parts parts', (∀ isAsync, form ≠ .arrowHead isAsync) →
      form'.isPlain = true → P (.mk form role span parts) → P (.mk form' role span parts')) :
    ∀ {ns : List Node}, (∀ n ∈ ns, n.All P) → ∀ n ∈ firstAsPattern ns, n.All P
  | [], _ => by simp [firstAsPattern]
  | first :: rest, h => by
      obtain ⟨hfirst, hrest⟩ := List.forall_mem_cons.mp h
      rw [firstAsPattern]
      exact List.forall_mem_cons.mpr ⟨all_asPattern hkeeps hfirst, hrest⟩

theorem all_membersAsPattern
    (hkeeps : ∀ form form' role span parts parts', (∀ isAsync, form ≠ .arrowHead isAsync) →
      form'.isPlain = true → P (.mk form role span parts) → P (.mk form' role span parts')) :
    ∀ {ns : List Node}, (∀ n ∈ ns, n.All P) → ∀ n ∈ membersAsPattern ns, n.All P
  | [], _ => by simp [membersAsPattern]
  | .mk form role span parts :: rest, h => by
      obtain ⟨hfirst, hrest⟩ := List.forall_mem_cons.mp h
      obtain ⟨hself, hparts⟩ := Node.all_mk.mp hfirst
      unfold membersAsPattern
      split
      case h_1 heq => cases heq
      case h_2 heq =>
        cases heq
        exact List.forall_mem_cons.mpr
          ⟨Node.all_mk.mpr ⟨hkeeps _ _ _ _ _ _ (by simp) rfl hself, all_valueAsPattern hkeeps hparts⟩,
            all_membersAsPattern hkeeps hrest⟩
      case h_3 heq =>
        cases heq
        exact List.forall_mem_cons.mpr
          ⟨all_asPattern hkeeps hfirst, all_membersAsPattern hkeeps hrest⟩

theorem all_valueAsPattern
    (hkeeps : ∀ form form' role span parts parts', (∀ isAsync, form ≠ .arrowHead isAsync) →
      form'.isPlain = true → P (.mk form role span parts) → P (.mk form' role span parts')) :
    ∀ {ns : List Node}, (∀ n ∈ ns, n.All P) → ∀ n ∈ valueAsPattern ns, n.All P
  | [], _ => by simp [valueAsPattern]
  | first :: rest, h => by
      obtain ⟨hfirst, hrest⟩ := List.forall_mem_cons.mp h
      rw [valueAsPattern]
      refine List.forall_mem_cons.mpr ⟨?_, all_valueAsPattern hkeeps hrest⟩
      split
      · exact all_asPattern hkeeps hfirst
      · exact hfirst

end

mutual

/-- Reading a tree as a pattern keeps the newer forms in it. -/
theorem shows_asPattern : ∀ {n : Node}, n.Shows → (asPattern n).Shows
  | .mk form role span parts, h => by
      have hparts := Node.shows_mk.mp h
      unfold asPattern
      split
      case h_1 heq =>
        cases heq
        exact Node.shows_mk.mpr (.inr (shows_eachAsPattern (hparts.resolve_left (by simp [Form.newer]))))
      case h_2 heq | h_3 heq =>
        cases heq
        exact Node.shows_mk.mpr (.inl rfl)
      case h_4 heq =>
        cases heq
        exact Node.shows_mk.mpr (.inr (shows_firstAsPattern (hparts.resolve_left (by simp [Form.newer]))))
      case h_5 => exact h

theorem shows_eachAsPattern :
    ∀ {ns : List Node}, (∃ n ∈ ns, n.Shows) → ∃ n ∈ eachAsPattern ns, n.Shows
  | [], h => by simp at h
  | first :: rest, h => by
      rw [eachAsPattern]
      rw [List.exists_mem_cons_iff] at h ⊢
      exact h.imp (fun h => shows_asPattern h) fun h => shows_eachAsPattern h

theorem shows_firstAsPattern :
    ∀ {ns : List Node}, (∃ n ∈ ns, n.Shows) → ∃ n ∈ firstAsPattern ns, n.Shows
  | [], h => by simp at h
  | first :: rest, h => by
      rw [firstAsPattern]
      rw [List.exists_mem_cons_iff] at h ⊢
      exact h.imp_left fun h => shows_asPattern h

theorem shows_membersAsPattern :
    ∀ {ns : List Node}, (∃ n ∈ ns, n.Shows) → ∃ n ∈ membersAsPattern ns, n.Shows
  | [], h => by simp at h
  | .mk form role span parts :: rest, h => by
      rw [List.exists_mem_cons_iff] at h
      unfold membersAsPattern
      split
      case h_1 heq => cases heq
      case h_2 heq =>
        cases heq
        rw [List.exists_mem_cons_iff]
        refine h.imp (fun h => ?_) fun h => shows_membersAsPattern h
        have hparts := Node.shows_mk.mp h
        exact Node.shows_mk.mpr (.inr (shows_valueAsPattern (hparts.resolve_left (by simp [Form.newer]))))
      case h_3 heq =>
        cases heq
        rw [List.exists_mem_cons_iff]
        exact h.imp (fun h => shows_asPattern h) fun h => shows_membersAsPattern h

theorem shows_valueAsPattern :
    ∀ {ns : List Node}, (∃ n ∈ ns, n.Shows) → ∃ n ∈ valueAsPattern ns, n.Shows
  | [], h => by simp at h
  | first :: rest, h => by
      rw [valueAsPattern]
      rw [List.exists_mem_cons_iff] at h ⊢
      refine h.imp (fun h => ?_) fun h => shows_valueAsPattern h
      split
      · exact shows_asPattern h
      · exact h

end

theorem eachAsPattern_eq_map (ns : List Node) : eachAsPattern ns = ns.map asPattern := by
  induction ns with
  | nil => rfl
  | cons n ns ih => rw [eachAsPattern, ih, List.map_cons]

@[simp] theorem span_asPattern (n : Node) : (asPattern n).span = n.span := by
  unfold asPattern
  split <;> rfl

/-- Trees may be read as patterns. -/
theorem Accounted.eachAsPattern (ms : List Node) (h : Accounted source r (ms ++ ns)) :
    Accounted source r (eachAsPattern ms ++ ns) := by
  refine h.exchange ?_ (fun n hn => ?_) fun hheadless n hn => ?_
  · rintro ⟨n, hn, hshows⟩
    obtain hn | hn := List.mem_append.mp hn
    · obtain ⟨m, hm, hshows⟩ := shows_eachAsPattern ⟨n, hn, hshows⟩
      exact ⟨m, List.mem_append_left _ hm, hshows⟩
    · exact ⟨n, List.mem_append_right _ hn, hshows⟩
  · obtain hn | hn := List.mem_append.mp hn
    · exact all_eachAsPattern (fun _ _ _ _ _ _ _ hplain _ => listed_of_isPlain hplain)
        (fun m hm => h.listed m (List.mem_append_left _ hm)) n hn
    · exact h.listed n (List.mem_append_right _ hn)
  · obtain hn | hn := List.mem_append.mp hn
    · exact all_eachAsPattern (fun _ _ _ _ _ _ _ hplain _ => Form.ne_arrowHead_of_isPlain hplain)
        (fun m hm => hheadless m (List.mem_append_left _ hm)) n hn
    · exact hheadless n (List.mem_append_right _ hn)

theorem Accounted.asPattern (h : Accounted source r (n :: ns)) :
    Accounted source r (asPattern n :: ns) :=
  Accounted.eachAsPattern [n] h

end Patterns

end Grammar

end EditionSurvey.Script
