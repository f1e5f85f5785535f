/-
  Proofs/Grammar/Lists.lean --- lists of arguments, parameters and members, while they are read.

  `Items` says where the last item of a list stands among the tokens read so far: behind it there are
  the closing parentheses around it, a comma or none, and the punctuators that have closed the list.
  The nodes that hold lists are then built from lists that are closed.
-/
import EditionSurvey.Proofs.Grammar.Extent

set_option autoImplicit false

namespace EditionSurvey.Script.Grammar

variable {source : List Char} {r later : Reading} {role : Role} {items : List Node}
  {closing : List String} {n : Node}

/-- The items have their role, and the tokens behind the last one are as said. -/
structure Items (r : Reading) (role : Role) (items : List Node) (closing : List String) : Prop where
  roles : ∀ item ∈ items, item.role = role
  last : ∀ last, items.getLast? = some last →
    ∃ (stop own : Nat) (comma : Bool), last.stop? = some stop ∧ stop ≤ r.edge ∧
      r.since stop =
        punctuators (List.replicate own ")" ++ (if comma then [","] else []) ++ closing)

namespace Items

theorem nil : Items r role [] closing where
  roles := by simp
  last := by simp

/-- A punctuator behind the list. -/
theorem after (h : Items r role items closing) (hr : r.Sound source) {mark : String}
    (hahead : r.ahead.lexeme = .punctuator mark) (next : Token) :
    Items (r.after next) role items (closing ++ [mark]) where
  roles := h.roles
  last last hlast := by
    obtain ⟨stop, own, comma, hstop, hle, hsince⟩ := h.last last hlast
    refine ⟨stop, own, comma, hstop, Nat.le_trans hle (hr.extends_after next).1, ?_⟩
    rw [since_after hr hle hahead, hsince]
    simp [punctuators]

/-- One more item, with nothing behind it but closing parentheses. -/
theorem concat {r₀ : Reading} (h : Items r₀ role items closing) (hrole : n.role = role)
    (hn : ∃ stop, n.stop? = some stop ∧ EndsAt r stop) : Items r role (items ++ [n]) [] where
  roles item hitem := by
    obtain hitem | hitem := List.mem_append.mp hitem
    · exact h.roles item hitem
    · rwa [List.mem_singleton.mp hitem]
  last last hlast := by
    obtain rfl : n = last := by simpa using hlast
    obtain ⟨stop, hstop, hle, own, hsince⟩ := hn
    exact ⟨stop, own, false, hstop, hle, by simpa using hsince⟩

/-- One more item, with a comma behind it. -/
theorem concatComma {r₀ : Reading} (h : Items r₀ role items closing) (hrole : n.role = role)
    (hn : ∃ stop, n.stop? = some stop ∧ EndsAt r stop) (hr : r.Sound source)
    (hahead : r.ahead.lexeme = .punctuator ",") (next : Token) :
    Items (r.after next) role (items ++ [n]) [] where
  roles := (h.concat hrole hn).roles
  last last hlast := by
    obtain rfl : n = last := by simpa using hlast
    obtain ⟨stop, hstop, hle, own, hsince⟩ := hn
    refine ⟨stop, own, true, hstop, Nat.le_trans hle (hr.extends_after next).1, ?_⟩
    rw [since_after hr hle hahead, hsince]
    simp [punctuators]

/-- A list that a parenthesis closes. -/
theorem endsList (h : Items r role items [")"]) :
    ∀ last, items.getLast? = some last → ∃ stop, last.stop? = some stop ∧ EndsList r stop := by
  intro last hlast
  obtain ⟨stop, own, comma, hstop, hle, hsince⟩ := h.last last hlast
  refine ⟨stop, hstop, hle, ?_⟩
  cases comma with
  | true => exact ⟨own, true, by simpa using hsince⟩
  | false => exact ⟨own + 1, false, by simpa [List.replicate_succ'] using hsince⟩

/-- A list that a parenthesis closes behind a comma, or that ends before closing parentheses. -/
theorem of_endsList (hroles : ∀ item ∈ items, item.role = role)
    (hends : ∀ last, items.getLast? = some last →
      ∃ stop, last.stop? = some stop ∧ EndsList r stop) :
    ∃ closing, (closing = [] ∨ closing = [")"]) ∧ Items r role items closing := by
  cases hlast : items.getLast? with
  | none => exact ⟨[], .inl rfl, hroles, by simp [hlast]⟩
  | some last =>
      obtain ⟨stop, hstop, hle, own, comma, hsince⟩ := hends last hlast
      refine ⟨if comma then [")"] else [], by cases comma <;> simp, hroles, ?_⟩
      rintro _ heq
      obtain rfl := Option.some.inj (hlast.symm.trans heq)
      exact ⟨stop, own, comma, hstop, hle, by cases comma <;> simpa using hsince⟩

end Items

/-! ## Nodes with lists -/

theorem filter_role_eq {before items after : List Node} (hbefore : ∀ n ∈ before, n.role ≠ role)
    (hitems : ∀ n ∈ items, n.role = role) (hafter : ∀ n ∈ after, n.role ≠ role) :
    (before ++ items ++ after).filter (fun part => part.role = role) = items := by
  rw [List.filter_append, List.filter_append, List.filter_eq_nil_iff.mpr (by simpa using hbefore),
    List.filter_eq_self.mpr (by simpa using hitems),
    List.filter_eq_nil_iff.mpr (by simpa using hafter), List.nil_append, List.append_nil]

theorem role_withRole (n : Node) (role : Role) : (n.withRole role).role = role := by
  cases n
  rfl

@[simp] theorem start?_withRole (n : Node) (role : Role) : (n.withRole role).start? = n.start? := by
  cases n
  rfl

@[simp] theorem stop?_withRole (n : Node) (role : Role) : (n.withRole role).stop? = n.stop? := by
  cases n
  rfl

/-- The parameters and the body among the parts of a function. -/
theorem parts_of_function {names params : List Node} (body : Node)
    (hnames : ∀ n ∈ names, n.role = .part) (hparams : ∀ n ∈ params, n.role = .param) :
    (names ++ params ++ [body.withRole .body]).filter (fun part => part.role = .param) = params ∧
      (names ++ params ++ [body.withRole .body]).filter (fun part => part.role = .body) =
        [body.withRole .body] := by
  constructor
  · refine filter_role_eq (fun n hn => by simp [hnames n hn]) hparams ?_
    simp [role_withRole]
  · rw [← List.append_nil (names ++ params ++ _)]
    refine filter_role_eq (fun n hn => ?_) (by simp [role_withRole]) (by simp)
    obtain hn | hn := List.mem_append.mp hn
    · simp [hnames n hn]
    · simp [hparams n hn]

/-- A node that ends where its list is closed. -/
theorem Items.listed {form : Form} {own : Role} {span : Span} {parts : List Node} {comma : Feature}
    (h : Items r role items closing) (hcloses : form.Closes closing) (hstop : span.stop = r.edge)
    (hlisting : (Node.mk form own (some span) parts).listing? = some ⟨items, some span.stop, comma⟩) :
    Listed r (.mk form own (some span) parts) := by
  intro listing hlisting' last hlast
  rw [hlisting] at hlisting'
  cases hlisting'
  obtain ⟨stop, own, comma, hlast_stop, hle, hsince⟩ := h.last last hlast
  exact ⟨stop, span.stop, own, comma, closing, hlast_stop, rfl, Nat.le_of_eq hstop, hcloses,
    hstop ▸ hsince⟩

/-- A node whose list ends where its body begins. -/
theorem Items.listedUpTo {form : Form} {own : Role} {span : Option Span} {parts : List Node}
    {comma : Feature} {start : Nat} (h : Items r role items closing) (more : List String)
    (hcloses : form.Closes (closing ++ more)) (hr : r.Sound source) (hextends : r.Extends later)
    (hstart : r.edge ≤ start) (hstart' : start ≤ later.edge)
    (hmore : (between later.read r.edge start).map Token.lexeme = punctuators more)
    (hlisting : (Node.mk form own span parts).listing? = some ⟨items, some start, comma⟩) :
    Listed later (.mk form own span parts) := by
  intro listing hlisting' last hlast
  rw [hlisting] at hlisting'
  cases hlisting'
  obtain ⟨stop, own, comma, hlast_stop, hle, hsince⟩ := h.last last hlast
  refine ⟨stop, start, own, comma, closing ++ more, hlast_stop, rfl, hstart', hcloses, ?_⟩
  rw [between_split hr hextends hle hstart, hsince, hmore]
  simp [punctuators]

end EditionSurvey.Script.Grammar
