/-
  Proofs/Printing.lean --- what is printed to a data file is read back.

  A plain value has no other numbers than whole ones and no object with two members of one name.
  Its text is read as the value again: every character of a text by the escape that it was
  printed with, lists and objects past the line breaks and the indentation.  The reader refuses
  whole numbers with too many digits; it reads in the order of the text, so the first one that is
  too long is the one it names (`readFile_toFile`).

  A report is a plain value.  The same limit holds for writing, so whatever is written of it is read
  back (`readFile_of_written_json`).
-/
import EditionSurvey.Proofs.Readable
import EditionSurvey.Report.Format

set_option autoImplicit false

namespace EditionSurvey

open Reader

/-! ## Texts -/

section

variable {opening done tail more : List Char} {fuel : Nat}

/-- A control character is read by the four digits of its number. -/
theorem readUnit_hexText {n : Nat} (hn : n ≤ 0x1F) (htail : tail ≠ []) :
    readUnit (hexText 4 n ++ tail) = .ok (Char.ofNat n, tail) := by
  have hdigits : ∀ n < 0x20,
      hexText 4 n = ['0', '0', Nat.digitChar (n / 16), Nat.digitChar (n % 16)] ∧
        hexNumber? '0' '0' (Nat.digitChar (n / 16)) (Nat.digitChar (n % 16)) = some n := by decide
  obtain ⟨hhex, hnumber⟩ := hdigits n (by omega)
  obtain ⟨next, rest, rfl⟩ := List.exists_cons_of_ne_nil htail
  have hhigh : isHighUnit n = false := by
    simp only [isHighUnit, Bool.and_eq_false_iff, decide_eq_false_iff_not]
    omega
  have hchar : charOfUnit n = Char.ofNat n := by
    have hunit : (0xD800 ≤ n && n ≤ 0xDFFF) = false := by
      simp only [Bool.and_eq_false_iff, decide_eq_false_iff_not]
      omega
    rw [charOfUnit, hunit]
    rfl
  simp [hhex, readUnit, hnumber, hhigh, hchar]

/-- A character is read by what it was printed as. -/
theorem readText_printedChar (c : Char) (htail : tail ≠ []) :
    readText opening (fuel + 1) done (printedChar c ++ tail) =
      readText opening fuel (c :: done) tail := by
  obtain ⟨next, rest, rfl⟩ := List.exists_cons_of_ne_nil htail
  unfold printedChar
  split
  · next h => subst h; rfl
  split
  · next h => subst h; rfl
  split
  · next h => subst h; rfl
  split
  · next h => subst h; rfl
  split
  · next h => subst h; rfl
  split
  · next h => subst h; rfl
  split
  · next h => subst h; rfl
  split
  · next hcontrol =>
      rw [List.cons_append, List.cons_append, readText, readUnit_hexText hcontrol htail,
        Char.ofNat_toNat]
  · next hquote hbackslash _ _ _ _ _ hcontrol =>
      rw [List.singleton_append]
      simp [readText, hbackslash, hcontrol]

theorem readText_printed (cs : List Char) (hfuel : cs.length < fuel) :
    readText opening fuel done (cs.flatMap printedChar ++ '"' :: more) =
      .ok (String.ofList (done.reverse ++ cs), more) := by
  induction cs generalizing fuel done with
  | nil =>
      obtain ⟨fuel, rfl⟩ := Nat.exists_eq_add_of_lt hfuel
      simp [readText]
  | cons c cs ih =>
      obtain ⟨fuel, rfl⟩ : ∃ rest, fuel = rest + 1 := ⟨fuel - 1, by simp at hfuel; omega⟩
      rw [List.flatMap_cons, List.append_assoc, readText_printedChar c (by simp),
        ih (by simpa using hfuel)]
      simp

theorem length_le_length_printed (cs : List Char) :
    cs.length ≤ (cs.flatMap printedChar).length := by
  induction cs with
  | nil => exact Nat.zero_le _
  | cons c cs ih =>
      have hc : 0 < (printedChar c).length := by
        unfold printedChar
        repeat' split
        all_goals exact Nat.succ_pos _
      rw [List.flatMap_cons, List.length_append, List.length_cons]
      omega

end

/-! ## Whole numbers -/

/-- What comes of reading something with these whole numbers: the first one with too many digits
is refused. -/
def unlessTooLong {α : Type} (numbers : List Int) (a : α) : Except ReadingFault α :=
  match (numbers.map digitCount).find? fun digits => digitLimit < digits with
  | some digits => .error (.numberTooLong digits)
  | none => .ok a

theorem unlessTooLong_of_le {α : Type} {numbers : List Int} {a : α}
    (h : ∀ n ∈ numbers, digitCount n ≤ digitLimit) : unlessTooLong numbers a = .ok a := by
  have hnone : ((numbers.map digitCount).find? fun digits => digitLimit < digits) = none := by
    simpa [List.find?_eq_none] using h
  rw [unlessTooLong, hnone]

/-- A power of ten has a digit more than its exponent says. -/
theorem digitCount_tenTo (k : Nat) : digitCount (Decimal.tenTo k) = k + 1 := by
  have hle : (Nat.toDigits 10 (Nat.pow 10 k)).length ≤ k + 1 :=
    (Nat.length_toDigits_le_iff (by decide) (Nat.succ_pos k)).mpr
      (Nat.pow_lt_pow_right (by decide) (Nat.lt_succ_self k))
  have hlt : k < (Nat.toDigits 10 (Nat.pow 10 k)).length := by
    cases k with
    | zero => decide
    | succ k =>
        refine Nat.lt_of_not_le fun hshort => ?_
        exact Nat.lt_irrefl _ ((Nat.length_toDigits_le_iff (by decide) (Nat.succ_pos k)).mp hshort)
  have hvalue : (Decimal.tenTo k).natAbs = Nat.pow 10 k := Int.natAbs_pow 10 k
  rw [digitCount, hvalue]
  omega

theorem toInt?_ofInt (n : Int) : (Decimal.ofInt n).toInt? = some n := by
  simp [Decimal.ofInt, Decimal.toInt?, Decimal.tenTo, Int.pow]

theorem text_ofInt (n : Int) : (Decimal.ofInt n).text = toString n := by
  rw [Decimal.text, toInt?_ofInt]

theorem digitsValue_toDigits (n : Nat) : digitsValue (Nat.toDigits 10 n) = n := by
  have hvalue := Nat.ofDigitChars_ten_toDigits (n := n)
  rw [Nat.ofDigitChars_eq_foldl] at hvalue
  simpa [digitsValue, Nat.mul_comm] using hvalue

/-- Only zero is written with a zero in front. -/
theorem exists_head_toDigits {n : Nat} (hn : 0 < n) :
    ∃ c rest, Nat.toDigits 10 n = c :: rest ∧ c ≠ '0' := by
  induction n using Nat.strongRecOn with
  | ind n ih =>
      rw [Nat.toDigits_eq_if (by decide)]
      split
      · next hlt =>
          have hdigit : ∀ d < 10, 0 < d → Nat.digitChar d ≠ '0' := by decide
          exact ⟨_, [], rfl, hdigit n hlt hn⟩
      · next hge =>
          obtain ⟨c, rest, heq, hc⟩ := ih (n / 10) (by omega) (by omega)
          exact ⟨c, _, by rw [heq]; rfl, hc⟩

section

variable {more : List Char}

theorem isDigit_of_mem_toDigits_ten {n : Nat} : ∀ c ∈ Nat.toDigits 10 n, c.isDigit = true :=
  fun _ hc => Nat.isDigit_of_mem_toDigits (by decide) (by decide) hc

theorem readWhole?_toDigits (hmore : Delimited more) (n : Nat) :
    readWhole? (Nat.toDigits 10 n ++ more) = some (Nat.toDigits 10 n, more) := by
  obtain rfl | hn := Nat.eq_zero_or_pos n
  · rfl
  obtain ⟨c, rest, heq, hc⟩ := exists_head_toDigits hn
  have hdigits := isDigit_of_mem_toDigits_ten (n := n)
  rw [heq] at hdigits ⊢
  rw [List.cons_append, readWhole?_of_ne hc, if_pos (hdigits c List.mem_cons_self),
    ← List.cons_append, hmore.span_isDigit, span_isDigit_self hdigits]
  rfl

theorem readUnsigned_toDigits (start : List Char) (hmore : Delimited more) (negative : Bool)
    (n : Nat) :
    readUnsigned start negative (Nat.toDigits 10 n ++ more) =
      unlessTooLong [if negative then -(n : Int) else n]
        (Value.int (if negative then -(n : Int) else n), more) := by
  have hfraction : readFraction more = ([], more) := readFraction_append hmore []
  have hexponent : readExponent? more = none := readExponent?_append hmore []
  have hcount : digitCount (if negative then -(n : Int) else n) = (Nat.toDigits 10 n).length := by
    cases negative <;> simp [digitCount]
  simp only [readUnsigned, readWhole?_toDigits hmore, hfraction, hexponent, unlessTooLong,
    List.map_singleton, hcount, List.find?_singleton, List.append_nil, digitsValue_toDigits]
  by_cases hlong : digitLimit < (Nat.toDigits 10 n).length
  · simp [hlong]
  · simp [hlong, Value.int, Decimal.ofInt]

theorem toList_toString_negSucc (k : Nat) :
    (toString (Int.negSucc k)).toList = '-' :: Nat.toDigits 10 (k + 1) := by
  have hsplit : toString (Int.negSucc k) = "-" ++ toString (k + 1) := rfl
  rw [hsplit, String.toList_append]
  exact congrArg ('-' :: ·) Nat.toList_repr

theorem exists_digit_toDigits (k : Nat) :
    ∃ c rest, Nat.toDigits 10 k = c :: rest ∧ c.isDigit = true := by
  obtain ⟨c, rest, heq⟩ := List.exists_cons_of_ne_nil (Nat.toDigits_ne_nil (n := k) (b := 10))
  exact ⟨c, rest, heq, isDigit_of_mem_toDigits_ten c (heq ▸ List.mem_cons_self)⟩

/-- A whole number is read as it was printed, unless it has too many digits. -/
theorem readAtom_int (hmore : Delimited more) (n : Int) :
    readAtom ((toString n).toList ++ more) = unlessTooLong [n] (Value.int n, more) := by
  cases n with
  | ofNat k =>
      have htext : (toString (Int.ofNat k)).toList = Nat.toDigits 10 k := Nat.toList_repr
      obtain ⟨c, rest, heq, hc⟩ := exists_digit_toDigits k
      have hminus : c ≠ '-' := by rintro rfl; revert hc; decide
      have hread := readUnsigned_toDigits (Nat.toDigits 10 k ++ more) hmore false k
      rw [htext, heq, List.cons_append, (readAtom_of_digit hc).1, readNumber_of_ne hminus,
        ← List.cons_append, ← heq, hread]
      rfl
  | negSucc k =>
      obtain ⟨c, rest, heq, hc⟩ := exists_digit_toDigits (k + 1)
      have hread := readUnsigned_toDigits ('-' :: (Nat.toDigits 10 (k + 1) ++ more)) hmore true (k + 1)
      rw [toList_toString_negSucc, heq, List.cons_append, List.cons_append, (readAtom_of_digit hc).2,
        readNumber, ← List.cons_append, ← heq, hread]
      rfl

end

/-- What may stand at the beginning of a value that is neither a text, a list nor an object. -/
def StartsAtom (c : Char) : Prop :=
  isBlank c = false ∧ c ≠ '\ufeff' ∧ c ∉ ['"', '[', ']', '\x7b', '\x7d']

instance (c : Char) : Decidable (StartsAtom c) :=
  inferInstanceAs (Decidable (_ ∧ _ ∧ _))

theorem startsAtom_of_isDigit {c : Char} (h : c.isDigit = true) : StartsAtom c := by
  refine ⟨Bool.eq_false_iff.mpr fun hblank => ?_, ?_, fun hmem => ?_⟩
  · simp only [isBlank, Bool.or_eq_true, decide_eq_true_eq] at hblank
    rcases hblank with ((rfl | rfl) | rfl) | rfl <;> exact absurd h (by decide)
  · rintro rfl
    exact absurd h (by decide)
  · simp only [List.mem_cons, List.not_mem_nil, or_false] at hmem
    rcases hmem with rfl | rfl | rfl | rfl | rfl <;> exact absurd h (by decide)

theorem exists_start_toString (n : Int) :
    ∃ c rest, (toString n).toList = c :: rest ∧ StartsAtom c := by
  cases n with
  | ofNat k =>
      obtain ⟨c, rest, heq, hc⟩ := exists_digit_toDigits k
      exact ⟨c, rest, Nat.toList_repr.trans heq, startsAtom_of_isDigit hc⟩
  | negSucc k => exact ⟨'-', _, toList_toString_negSucc k, by decide⟩

/-- Of two parts of a text the first one is refused first. -/
theorem unlessTooLong_bind {α β : Type} {numbers others : List Int} {a : α} {b : β}
    {next : α → Except ReadingFault β} (h : next a = unlessTooLong others b) :
    (unlessTooLong numbers a).bind next = unlessTooLong (numbers ++ others) b := by
  have happend : unlessTooLong (numbers ++ others) b =
      (unlessTooLong numbers a).bind fun _ => unlessTooLong others b := by
    unfold unlessTooLong
    rw [List.map_append, List.find?_append]
    cases (numbers.map digitCount).find? fun digits => digitLimit < digits <;> rfl
  rw [happend]
  cases hfirst : unlessTooLong numbers a with
  | error fault => rfl
  | ok found =>
      have hfound : found = a := by
        unfold unlessTooLong at hfirst
        split at hfirst
        · cases hfirst
        · exact (Except.ok.inj hfirst).symm
      rw [hfound]
      exact h

/-! ## Values -/

mutual

/-- The whole numbers of a value, in the order of its text. -/
def Value.wholeNumbers : Value → List Int
  | .number n => n.toInt?.toList
  | .list items => numbersOfItems items
  | .object members => numbersOfMembers members
  | _ => []

/-- The whole numbers of items. -/
def numbersOfItems : List Value → List Int
  | [] => []
  | item :: rest => item.wholeNumbers ++ numbersOfItems rest

/-- The whole numbers of members. -/
def numbersOfMembers : List (String × Value) → List Int
  | [] => []
  | (_, value) :: rest => value.wholeNumbers ++ numbersOfMembers rest

end

theorem wholeNumbers_int (n : Int) : (Value.int n).wholeNumbers = [n] := by
  simp [Value.int, Value.wholeNumbers, toInt?_ofInt]

/-- A value without fractions, that nests at most so deep, and in which no object has two members
of one name. -/
inductive Value.Plain : Nat → Value → Prop where
  | null {levels : Nat} : Plain levels .null
  | bool {levels : Nat} (b : Bool) : Plain levels (.bool b)
  | int {levels : Nat} (n : Int) : Plain levels (.int n)
  | string {levels : Nat} (s : String) : Plain levels (.string s)
  | list {levels : Nat} {items : List Value} (plain : ∀ v ∈ items, Plain levels v) :
      Plain (levels + 1) (.list items)
  | object {levels : Nat} {members : List (String × Value)}
      (distinct : (members.map Prod.fst).Nodup) (plain : ∀ m ∈ members, Plain levels m.2) :
      Plain (levels + 1) (.object members)

/-- The value is read back from its text, given enough steps. -/
def ReadsPrinted (levels : Nat) (v : Value) : Prop :=
  ∀ (depth fuel : Nat) (more : List Char), Delimited more →
    2 * (v.printed depth ++ more).length + 2 ≤ fuel →
      readValue fuel levels (v.printed depth ++ more) = unlessTooLong v.wholeNumbers (v, more)

/-- The text of a value starts with a visible character, and not as the end of a list. -/
theorem Value.Plain.exists_start {levels : Nat} {v : Value} (h : v.Plain levels) (depth : Nat) :
    ∃ c rest, v.printed depth = c :: rest ∧ isBlank c = false ∧ c ≠ ']' ∧ c ≠ '\ufeff' := by
  cases h with
  | null => exact ⟨'n', _, rfl, by decide⟩
  | bool b =>
      cases b with
      | false => exact ⟨'f', _, rfl, by decide⟩
      | true => exact ⟨'t', _, rfl, by decide⟩
  | int n =>
      obtain ⟨c, rest, heq, hstart⟩ := exists_start_toString n
      have htext : (Value.int n).printed depth = c :: rest :=
        (congrArg String.toList (text_ofInt n)).trans heq
      exact ⟨c, rest, htext, hstart.1, fun hclose => hstart.2.2 (by simp [hclose]), hstart.2.1⟩
  | string s => exact ⟨'"', _, rfl, by decide⟩
  | @list _ items => cases items <;> exact ⟨'[', _, rfl, by decide⟩
  | @object _ members => cases members <;> exact ⟨'\x7b', _, rfl, by decide⟩

theorem skipBlanks_newLine (depth : Nat) (cs : List Char) :
    skipBlanks (newLine depth ++ cs) = skipBlanks cs := by
  refine skipBlanks_append (fun c hc => ?_) cs
  obtain rfl | hc := List.mem_cons.mp hc
  · rfl
  · rw [List.eq_of_mem_replicate hc]
    rfl

theorem Value.Plain.skipBlanks_printed {levels : Nat} {v : Value} (h : v.Plain levels)
    (depth : Nat) (more : List Char) :
    skipBlanks (v.printed depth ++ more) = v.printed depth ++ more := by
  obtain ⟨c, rest, heq, hblank, -⟩ := h.exists_start depth
  rw [heq]
  exact skipBlanks_cons hblank

section

variable {levels fuel depth outer : Nat} {more : List Char}

theorem delimited_newLine (cs : List Char) : Delimited (newLine depth ++ cs) := by
  intro c hc
  obtain rfl : '\n' = c := by simpa [newLine] using hc
  exact .inl rfl

theorem delimited_printedItems (items : List Value) (cs : List Char) :
    Delimited (printedItems depth items ++ (newLine outer ++ cs)) := by
  cases items with
  | nil => exact delimited_newLine cs
  | cons item rest =>
      intro c hc
      obtain rfl : ',' = c := by simpa [printedItems] using hc
      exact .inr (.inl rfl)

theorem delimited_printedMembers (members : List (String × Value)) (cs : List Char) :
    Delimited (printedMembers depth members ++ (newLine outer ++ cs)) := by
  cases members with
  | nil => exact delimited_newLine cs
  | cons member rest =>
      intro c hc
      obtain rfl : ',' = c := by simpa [printedMembers] using hc
      exact .inr (.inl rfl)

/-- An item is read, and then what follows it. -/
theorem readItems_item (done : List Value) (cs : List Char) :
    readItems (fuel + 1) levels done cs = (readValue fuel levels cs).bind fun found =>
      match skipBlanks found.2 with
      | ']' :: rest => .ok (.list (found.1 :: done).reverse, rest)
      | ',' :: rest => readItems fuel levels (found.1 :: done) (skipBlanks rest)
      | other => refuse .comma other := by
  rw [readItems]
  cases readValue fuel levels cs <;> rfl

/-- The items of a list are read up to its bracket. -/
theorem readItems_printed {item : Value} {rest done : List Value}
    (hplain : ∀ v ∈ item :: rest, v.Plain levels)
    (hread : ∀ v ∈ item :: rest, ReadsPrinted levels v)
    (hfuel : 2 * (item.printed depth ++
      (printedItems depth rest ++ (newLine outer ++ ']' :: more))).length + 3 ≤ fuel) :
    readItems fuel levels done (item.printed depth ++
        (printedItems depth rest ++ (newLine outer ++ ']' :: more))) =
      unlessTooLong (numbersOfItems (item :: rest))
        (.list (done.reverse ++ item :: rest), more) := by
  induction rest generalizing item done fuel with
  | nil =>
      obtain ⟨fuel, rfl⟩ : ∃ f, fuel = f + 1 := ⟨fuel - 1, by omega⟩
      have hskip : skipBlanks (printedItems depth [] ++ (newLine outer ++ ']' :: more)) =
          ']' :: more := skipBlanks_newLine outer _
      rw [readItems_item, hread item List.mem_cons_self depth fuel _ (delimited_printedItems _ _)
        (by omega)]
      exact unlessTooLong_bind (by simp [hskip, numbersOfItems, unlessTooLong])
  | cons next rest ih =>
      obtain ⟨_, hplain⟩ := List.forall_mem_cons.mp hplain
      obtain ⟨hitem, hread⟩ := List.forall_mem_cons.mp hread
      obtain ⟨fuel, rfl⟩ : ∃ f, fuel = f + 1 := ⟨fuel - 1, by omega⟩
      have hskip : skipBlanks (printedItems depth (next :: rest) ++ (newLine outer ++ ']' :: more)) =
          ',' :: (newLine depth ++ (next.printed depth ++
            (printedItems depth rest ++ (newLine outer ++ ']' :: more)))) := by
        rw [printedItems, List.cons_append, skipBlanks_cons (by decide)]
        simp only [List.append_assoc]
      have hlater := @ih fuel next (item :: done) hplain hread (by
        simp only [printedItems, List.length_append, List.length_cons] at hfuel ⊢
        omega)
      rw [readItems_item, hitem depth fuel _ (delimited_printedItems _ _) (by omega)]
      refine unlessTooLong_bind ?_
      simp only [hskip, skipBlanks_newLine, (hplain next List.mem_cons_self).skipBlanks_printed]
      rw [hlater, List.reverse_cons, List.append_assoc, List.singleton_append]

theorem readText_printedText (opening : List Char) (name : String) (more : List Char) :
    readText opening ((name.toList.flatMap printedChar ++ '"' :: more).length + 1) []
      (name.toList.flatMap printedChar ++ '"' :: more) = .ok (name, more) := by
  have hlength := length_le_length_printed name.toList
  rw [readText_printed name.toList (by rw [List.length_append]; omega)]
  simp

/-- The name of a member is read, and then its value and what follows it. -/
theorem readMembers_member {done : List (String × Value)} {name : String} {value : Value}
    (hplain : value.Plain levels) (hnew : name ∉ done.map Prod.fst) (tail : List Char) :
    readMembers (fuel + 1) levels done
        (printedText name ++ ([':', ' '] ++ (value.printed depth ++ tail))) =
      (readValue fuel levels (value.printed depth ++ tail)).bind fun found =>
        match skipBlanks found.2 with
        | '\x7d' :: behind => .ok (.object (done ++ [(name, found.1)]), behind)
        | ',' :: behind =>
            readMembers fuel levels (done ++ [(name, found.1)]) (skipBlanks behind)
        | other => refuse .comma other := by
  have htext : printedText name ++ ([':', ' '] ++ (value.printed depth ++ tail)) =
      '"' :: (name.toList.flatMap printedChar ++
        '"' :: (':' :: ' ' :: (value.printed depth ++ tail))) := by
    simp [printedText]
  have hcolon : skipBlanks (':' :: ' ' :: (value.printed depth ++ tail)) =
      ':' :: ' ' :: (value.printed depth ++ tail) := skipBlanks_cons (by decide)
  have hblank : skipBlanks (' ' :: (value.printed depth ++ tail)) = value.printed depth ++ tail :=
    hplain.skipBlanks_printed depth tail
  rw [htext, readMembers, readText_printedText]
  simp only [hcolon, hblank, setMember_of_new hnew]
  cases readValue fuel levels (value.printed depth ++ tail) <;> rfl

/-- Steps that are enough for a member are enough for its value. -/
theorem fuel_of_member {name : String} {tail : List Char}
    (h : 2 * (printedText name ++ ([':', ' '] ++ tail)).length + 3 ≤ fuel + 1) :
    2 * tail.length + 2 ≤ fuel := by
  simp only [List.length_append] at h
  omega

/-- The members of an object are read up to its brace. -/
theorem readMembers_printed {name : String} {value : Value} {rest done : List (String × Value)}
    (hplain : ∀ m ∈ (name, value) :: rest, m.2.Plain levels)
    (hread : ∀ m ∈ (name, value) :: rest, ReadsPrinted levels m.2)
    (hdistinct : ((done ++ (name, value) :: rest).map Prod.fst).Nodup)
    (hfuel : 2 * (printedText name ++ ([':', ' '] ++ (value.printed depth ++
      (printedMembers depth rest ++ (newLine outer ++ '\x7d' :: more))))).length + 3 ≤ fuel) :
    readMembers fuel levels done (printedText name ++ ([':', ' '] ++ (value.printed depth ++
        (printedMembers depth rest ++ (newLine outer ++ '\x7d' :: more))))) =
      unlessTooLong (numbersOfMembers ((name, value) :: rest))
        (.object (done ++ (name, value) :: rest), more) := by
  induction rest generalizing name value done fuel with
  | nil =>
      obtain ⟨fuel, rfl⟩ : ∃ f, fuel = f + 1 := ⟨fuel - 1, by omega⟩
      have hskip : skipBlanks (printedMembers depth [] ++ (newLine outer ++ '\x7d' :: more)) =
          '\x7d' :: more := skipBlanks_newLine outer _
      rw [readMembers_member (hplain _ List.mem_cons_self) (name_not_mem_of_nodup hdistinct),
        hread _ List.mem_cons_self depth fuel _ (delimited_printedMembers _ _)
          (fuel_of_member hfuel)]
      exact unlessTooLong_bind (by simp [hskip, numbersOfMembers, unlessTooLong])
  | cons next rest ih =>
      obtain ⟨following, other⟩ := next
      obtain ⟨hvalue, hplain⟩ := List.forall_mem_cons.mp hplain
      obtain ⟨hread_value, hread⟩ := List.forall_mem_cons.mp hread
      obtain ⟨fuel, rfl⟩ : ∃ f, fuel = f + 1 := ⟨fuel - 1, by omega⟩
      have hskip : skipBlanks (printedMembers depth ((following, other) :: rest) ++
          (newLine outer ++ '\x7d' :: more)) =
            ',' :: (newLine depth ++ (printedText following ++ ([':', ' '] ++ (other.printed depth ++
              (printedMembers depth rest ++ (newLine outer ++ '\x7d' :: more)))))) := by
        rw [printedMembers, List.cons_append, skipBlanks_cons (by decide)]
        simp only [List.append_assoc]
      have hquote : ∀ cs, skipBlanks (printedText following ++ cs) = printedText following ++ cs :=
        fun cs => skipBlanks_cons (by decide)
      have hnames : (((done ++ [(name, value)]) ++ (following, other) :: rest).map Prod.fst).Nodup := by
        simpa using hdistinct
      have hlater := @ih fuel following other (done ++ [(name, value)]) hplain hread hnames (by
        simp only [printedMembers, List.length_append, List.length_cons] at hfuel ⊢
        omega)
      rw [readMembers_member hvalue (name_not_mem_of_nodup hdistinct),
        hread_value depth fuel _ (delimited_printedMembers _ _) (fuel_of_member hfuel)]
      refine unlessTooLong_bind ?_
      simp only [hskip, skipBlanks_newLine, hquote]
      rw [hlater, List.append_assoc, List.singleton_append]

theorem readsPrinted_atom {v : Value} {text : List Char} (hprinted : ∀ depth, v.printed depth = text)
    (hstart : ∃ c rest, text = c :: rest ∧ StartsAtom c)
    (hread : ∀ more, Delimited more → readAtom (text ++ more) = unlessTooLong v.wholeNumbers (v, more)) :
    ReadsPrinted levels v := by
  intro depth fuel more hmore hfuel
  obtain ⟨fuel, rfl⟩ : ∃ f, fuel = f + 1 := ⟨fuel - 1, by omega⟩
  obtain ⟨c, rest, rfl, hc⟩ := hstart
  rw [hprinted, List.cons_append, readValue_of_ne hc.2.2]
  exact hread more hmore

theorem readsPrinted_word {v : Value} (word : String) (hword : (word, v) ∈ words)
    (hprinted : ∀ depth, v.printed depth = word.toList)
    (hstart : ∃ c rest, word.toList = c :: rest ∧ StartsAtom c) (hnumbers : v.wholeNumbers = []) :
    ReadsPrinted levels v :=
  readsPrinted_atom hprinted hstart fun more _ => by
    rw [readAtom_of_word hword, hnumbers]
    rfl

theorem readValue_list {cs rest : List Char} {c : Char} (hskip : skipBlanks cs = c :: rest)
    (hc : c ≠ ']') :
    readValue (fuel + 1) (levels + 1) ('[' :: cs) = readItems fuel levels [] (skipBlanks cs) := by
  rw [readValue, hskip]
  split
  · next heq => exact absurd (List.cons.inj heq).1 hc
  · rfl

theorem readValue_object {cs rest : List Char} {c : Char} (hskip : skipBlanks cs = c :: rest)
    (hc : c ≠ '\x7d') :
    readValue (fuel + 1) (levels + 1) ('\x7b' :: cs) =
      readMembers fuel levels [] (skipBlanks cs) := by
  rw [readValue, hskip]
  split
  · next heq => exact absurd (List.cons.inj heq).1 hc
  · rfl

/-- The text of a list that has items, with what follows it. -/
theorem printed_list (depth : Nat) (item : Value) (rest : List Value) (more : List Char) :
    (Value.list (item :: rest)).printed depth ++ more =
      '[' :: (newLine (depth + 1) ++ (item.printed (depth + 1) ++
        (printedItems (depth + 1) rest ++ (newLine depth ++ ']' :: more)))) := by
  show '[' :: (newLine (depth + 1) ++ item.printed (depth + 1) ++
    printedItems (depth + 1) rest ++ newLine depth ++ [']']) ++ more = _
  simp

/-- The text of an object that has members, with what follows it. -/
theorem printed_object (depth : Nat) (name : String) (value : Value) (rest : List (String × Value))
    (more : List Char) :
    (Value.object ((name, value) :: rest)).printed depth ++ more =
      '\x7b' :: (newLine (depth + 1) ++ (printedText name ++ ([':', ' '] ++
        (value.printed (depth + 1) ++ (printedMembers (depth + 1) rest ++
          (newLine depth ++ '\x7d' :: more)))))) := by
  show '\x7b' :: (newLine (depth + 1) ++ printedText name ++ [':', ' '] ++
    value.printed (depth + 1) ++ printedMembers (depth + 1) rest ++ newLine depth ++
      ['\x7d']) ++ more = _
  simp

/-- A plain value is read back from its text, unless it has a number that is too long. -/
theorem Value.Plain.readsPrinted {v : Value} (h : v.Plain levels) : ReadsPrinted levels v := by
  induction h with
  | null =>
      exact readsPrinted_word "null" (by simp [words]) (fun _ => rfl)
        ⟨'n', _, rfl, by decide⟩ rfl
  | bool b =>
      cases b with
      | false =>
          exact readsPrinted_word "false" (by simp [words]) (fun _ => rfl)
            ⟨'f', _, rfl, by decide⟩ rfl
      | true =>
          exact readsPrinted_word "true" (by simp [words]) (fun _ => rfl)
            ⟨'t', _, rfl, by decide⟩ rfl
  | int n =>
      refine readsPrinted_atom (fun depth => congrArg String.toList (text_ofInt n))
        (exists_start_toString n) fun more hmore => ?_
      rw [readAtom_int hmore, wholeNumbers_int]
  | string s =>
      intro depth fuel more _ hfuel
      obtain ⟨fuel, rfl⟩ : ∃ f, fuel = f + 1 := ⟨fuel - 1, by omega⟩
      have htext : (Value.string s).printed depth ++ more =
          '"' :: (s.toList.flatMap printedChar ++ '"' :: more) := by
        show printedText s ++ more = _
        simp [printedText]
      rw [htext, readValue, readText_printedText]
      rfl
  | @list levels items plain ih =>
      intro depth fuel more _ hfuel
      obtain ⟨fuel, rfl⟩ : ∃ f, fuel = f + 1 := ⟨fuel - 1, by omega⟩
      cases items with
      | nil => rfl
      | cons item rest =>
          have hitem := plain item List.mem_cons_self
          have hskip := (skipBlanks_newLine (depth + 1) _).trans (hitem.skipBlanks_printed (depth + 1)
            (printedItems (depth + 1) rest ++ (newLine depth ++ ']' :: more)))
          obtain ⟨c, text, hstart, -, hc, -⟩ := hitem.exists_start (depth + 1)
          rw [printed_list] at hfuel ⊢
          rw [readValue_list (by rw [hskip, hstart, List.cons_append]) hc, hskip]
          exact readItems_printed plain ih (by
            simp only [List.length_cons, List.length_append] at hfuel ⊢
            omega)
  | @object levels members distinct plain ih =>
      intro depth fuel more _ hfuel
      obtain ⟨fuel, rfl⟩ : ∃ f, fuel = f + 1 := ⟨fuel - 1, by omega⟩
      cases members with
      | nil => rfl
      | cons member rest =>
          obtain ⟨name, value⟩ := member
          have hskip : ∀ cs, skipBlanks (newLine (depth + 1) ++ (printedText name ++ cs)) =
              printedText name ++ cs := fun cs =>
            (skipBlanks_newLine _ _).trans (skipBlanks_cons (by decide))
          rw [printed_object] at hfuel ⊢
          rw [readValue_object ((hskip _).trans rfl) (by decide : '"' ≠ '\x7d'), hskip]
          have hnames : (([] ++ (name, value) :: rest).map Prod.fst).Nodup := distinct
          exact readMembers_printed plain ih hnames (by
            simp only [List.length_cons, List.length_append] at hfuel ⊢
            omega)

end

/-- A plain value is read back from its file, unless it has a number that is too long. -/
theorem readFile_toFile {v : Value} (h : v.Plain nestingLimit) :
    readFile v.toFile.toList = unlessTooLong v.wholeNumbers v := by
  have hread := h.readsPrinted 0 (2 * (v.printed 0).length + 2) [] (by simp [Delimited])
    (Nat.le_of_eq (by rw [List.append_nil]))
  have hskip := h.skipBlanks_printed 0 []
  obtain ⟨c, rest, hstart, -, -, hmark⟩ := h.exists_start 0
  rw [List.append_nil] at hread hskip
  rw [Value.toFile, String.toList_ofList, readFile]
  · rw [hskip, hread]
    unfold unlessTooLong
    cases (v.wholeNumbers.map digitCount).find? fun digits => digitLimit < digits <;> rfl
  · rw [hstart]
    exact fun _ heq => hmark (List.cons.inj heq).1

/-! ## Reports -/

namespace Report

theorem plain_ofNames {levels : Nat} (names : List String) :
    (Value.ofNames names).Plain (levels + 1) :=
  .list fun v hv => by
    obtain ⟨name, -, rfl⟩ := List.mem_map.mp hv
    exact .string name

theorem plain_ofInt? {levels : Nat} (n : Option Int) : (Value.ofInt? n).Plain levels := by
  cases n with
  | none => exact .null
  | some n => exact .int n

theorem plain_ofDiagnostic? {levels : Nat} (d : Option Diagnostic) :
    (Value.ofDiagnostic? d).Plain (levels + 1) := by
  cases d with
  | none => exact .null
  | some d =>
      refine .object (by simp) ?_
      simp only [List.forall_mem_cons]
      exact ⟨.string _, plain_ofInt? _, plain_ofInt? _, by simp⟩

theorem plain_offender {levels : Nat} (showError : Bool) (offender : Offender) :
    (offender.toValue showError).Plain (levels + 2) := by
  refine .object (by cases showError <;> simp) (List.forall_mem_append.mpr ⟨?_, ?_⟩)
  · simp only [List.forall_mem_cons]
    exact ⟨.string _, .string _, by simp⟩
  · split
    · exact List.forall_mem_singleton.mpr (plain_ofDiagnostic? _)
    · simp

theorem plain_toValue {levels : Nat} (report : Report) (showError : Bool) :
    (report.toValue showError).Plain (levels + 4) := by
  refine .object (by simp) ?_
  simp only [List.forall_mem_cons]
  refine ⟨.int _, plain_ofNames _, plain_ofNames _, .list fun v hv => ?_, plain_ofNames _, .bool _,
    by simp⟩
  obtain ⟨offender, -, rfl⟩ := List.mem_map.mp hv
  exact plain_offender showError offender

theorem wholeNumbers_ofNames (names : List String) : (Value.ofNames names).wholeNumbers = [] := by
  rw [Value.ofNames, Value.wholeNumbers]
  induction names with
  | nil => rfl
  | cons name names ih => exact ih

theorem wholeNumbers_ofInt? (n : Option Int) : (Value.ofInt? n).wholeNumbers = n.toList := by
  cases n with
  | none => rfl
  | some n => exact wholeNumbers_int n

theorem wholeNumbers_ofDiagnostic? (d : Option Diagnostic) :
    (Value.ofDiagnostic? d).wholeNumbers =
      d.toList.flatMap fun d => d.line.toList ++ d.column.toList := by
  cases d with
  | none => rfl
  | some d =>
      simp [Value.ofDiagnostic?, Diagnostic.toValue, Value.wholeNumbers, numbersOfMembers,
        wholeNumbers_ofInt?]

theorem wholeNumbers_toValue (report : Report) (showError : Bool) :
    (report.toValue showError).wholeNumbers = report.numbers .json showError := by
  have hoffenders : ∀ offenders : List Offender,
      numbersOfItems (offenders.map (Offender.toValue showError)) =
        if showError then offenders.flatMap fun offender =>
          offender.diagnostic.toList.flatMap fun d => d.line.toList ++ d.column.toList else [] := by
    intro offenders
    induction offenders with
    | nil => cases showError <;> rfl
    | cons offender offenders ih =>
        rw [List.map_cons, numbersOfItems, ih]
        cases showError <;>
          simp [Offender.toValue, Value.wholeNumbers, numbersOfMembers, wholeNumbers_ofDiagnostic?]
  simp [toValue, Value.wholeNumbers, numbersOfMembers, wholeNumbers_int, wholeNumbers_ofNames,
    hoffenders, numbers, diagnosticNumbers]

theorem readFile_json (report : Report) (showError : Bool) :
    readFile (report.json showError).toList =
      unlessTooLong (report.numbers .json showError) (report.toValue showError) := by
  rw [json, readFile_toFile (report.plain_toValue showError), wholeNumbers_toValue]

/-- The value of a report, member by member. -/
theorem toValue_eq (report : Report) (showError : Bool) :
    report.toValue showError = .object
      [("es_version", .int report.edition),
        ("compatible", .list (report.compatible.map .string)),
        ("non_source", .list (report.nonSource.map .string)),
        ("incompatible", .list (report.incompatible.map fun offender => .object
          ([("name", .string offender.name), ("state", .string offender.state.text)] ++
            if showError then [("diagnostic",
              offender.diagnostic.elim .null fun d => .object
                [("message", .string d.message), ("line", d.line.elim .null .int),
                  ("column", d.column.elim .null .int)])] else []))),
        ("unreadable", .list (report.unreadable.map .string)),
        ("passed", .bool report.incompatible.isEmpty)] := by
  have hint : ∀ n : Option Int, Value.ofInt? n = n.elim .null .int := fun n => by cases n <;> rfl
  have hdiagnostic : ∀ d : Option Diagnostic, Value.ofDiagnostic? d = d.elim .null fun d => .object
      [("message", .string d.message), ("line", d.line.elim .null .int),
        ("column", d.column.elim .null .int)] := by
    intro d
    cases d with
    | none => rfl
    | some d => simp only [Value.ofDiagnostic?, Diagnostic.toValue, hint, Option.elim_some]
  have hoffender : Offender.toValue showError = fun offender => .object
      ([("name", .string offender.name), ("state", .string offender.state.text)] ++
        if showError then [("diagnostic", offender.diagnostic.elim .null fun d => .object
          [("message", .string d.message), ("line", d.line.elim .null .int),
            ("column", d.column.elim .null .int)])] else []) := by
    funext offender
    rw [Offender.toValue, hdiagnostic]
  rw [toValue, hoffender]
  rfl

/-- A report is written as a JSON file that is read back as the data of the report: the edition, the
four lists in order, each package that does not conform with its name, its state and, on demand,
what was found in its script, and whether the survey passes.  Only a number with too many digits
may stand in the way, and then the report is not written. -/
theorem readFile_of_written_json (report : Report) (showError : Bool) :
    ((∀ n ∈ report.numbers .json showError, digitCount n ≤ digitLimit) ∧
        ∃ text, report.written .json showError = .ok text ∧
          readFile text.toList = .ok (.object
            [("es_version", .int report.edition),
              ("compatible", .list (report.compatible.map .string)),
              ("non_source", .list (report.nonSource.map .string)),
              ("incompatible", .list (report.incompatible.map fun offender => .object
                ([("name", .string offender.name), ("state", .string offender.state.text)] ++
                  if showError then [("diagnostic",
                    offender.diagnostic.elim .null fun d => .object
                      [("message", .string d.message), ("line", d.line.elim .null .int),
                        ("column", d.column.elim .null .int)])] else []))),
              ("unreadable", .list (report.unreadable.map .string)),
              ("passed", .bool report.incompatible.isEmpty)])) ∨
      (∃ n ∈ report.numbers .json showError, digitLimit < digitCount n) ∧
        report.written .json showError = .error .numberUnwritable := by
  by_cases hwritable : report.Writable .json showError
  · refine .inl ⟨hwritable, report.json showError, written_eq_ok_iff.mpr ⟨hwritable, rfl⟩, ?_⟩
    rw [readFile_json, unlessTooLong_of_le hwritable, toValue_eq]
  · refine .inr ⟨by simpa [Writable] using hwritable, ?_⟩
    rw [written, if_neg hwritable]

/-- A report on an edition with one digit more than is written. -/
def longReport : Report where
  edition := Decimal.tenTo digitLimit
  compatible := []
  nonSource := []
  incompatible := []
  unreadable := []

/-- The report is not written, and the text that it is laid out as would not be read. -/
theorem longReport_unwritten :
    longReport.written .json false = .error .numberUnwritable ∧
      readFile (longReport.render .json false).toList = .error (.numberTooLong 4301) := by
  have hcount : digitCount longReport.edition = 4301 := digitCount_tenTo digitLimit
  have hnumbers : longReport.numbers .json false = [longReport.edition] := rfl
  constructor
  · have hlong : ¬longReport.Writable .json false := by
      rw [Writable, hnumbers, List.forall_mem_singleton, hcount]
      decide
    rw [written, if_neg hlong]
  · show readFile (longReport.json false).toList = _
    rw [readFile_json, hnumbers, unlessTooLong, List.map_singleton, hcount]
    rfl

end Report

end EditionSurvey
