/-
  Proofs/Encoding.lean --- the bytes that are decoded are the encodings of texts.

  A character is encoded in one to four bytes, and each of the four shapes is what the decoder
  looks for at a first byte (`encode_one_iff` to `encode_four_iff`).  So one step of the decoder
  takes a character exactly if its encoding comes first, and the decoder takes bytes exactly if
  they are the encoding of the text that it yields (`decode?_eq_ok_iff`).
-/
import EditionSurvey.Text.Utf8
import Mathlib.Tactic.SplitIfs

set_option autoImplicit false

namespace EditionSurvey.Text

/-- A text in UTF-8. -/
def encode (text : List Char) : List UInt8 := text.flatMap String.utf8EncodeChar

theorem toList_loop_eq (bytes : ByteArray) (start : Nat) (done : List UInt8) :
    ByteArray.toList.loop bytes start done = done.reverse ++ bytes.data.toList.drop start := by
  fun_induction ByteArray.toList.loop bytes start done with
  | case1 start done hstart ih =>
      have hlength : start < bytes.data.toList.length := by simpa using hstart
      rw [ih, List.drop_eq_getElem_cons hlength]
      simp [ByteArray.get!, hstart]
  | case2 start done hstart =>
      have hlength : bytes.data.toList.length ≤ start := by simpa using Nat.le_of_not_lt hstart
      rw [List.drop_eq_nil_of_le hlength, List.append_nil]

/-- The bytes of a text are its encoding. -/
theorem toList_toUTF8 (s : String) : s.toUTF8.toList = encode s.toList := by
  have hbytes : s.toUTF8 = s.toList.utf8Encode := by
    rw [String.toUTF8_eq_toByteArray, ← String.toByteArray_ofList, String.ofList_toList]
  rw [hbytes, ByteArray.toList, toList_loop_eq]
  exact List.toList_data_toByteArray

/-! ## Bytes as numbers -/

theorem isContinuation_iff {b : UInt8} :
    isContinuation b = true ↔ 128 ≤ b.toNat ∧ b.toNat ≤ 191 := by
  simp [isContinuation, UInt8.le_iff_toNat_le]

theorem mayFollow_iff {a b : UInt8} :
    mayFollow a b = true ↔
      (128 ≤ b.toNat ∧ b.toNat ≤ 191) ∧ (a.toNat = 224 → 160 ≤ b.toNat) ∧
        (a.toNat = 237 → b.toNat ≤ 159) ∧ (a.toNat = 240 → 144 ≤ b.toNat) ∧
        (a.toNat = 244 → b.toNat ≤ 143) := by
  simp only [mayFollow, ← UInt8.toNat_inj]
  grind [isContinuation_iff, UInt8.le_iff_toNat_le]

theorem lengthOfFirst_iff (a : UInt8) :
    (lengthOfFirst a = 1 ↔ a.toNat ≤ 127) ∧
      (lengthOfFirst a = 2 ↔ 194 ≤ a.toNat ∧ a.toNat ≤ 223) ∧
      (lengthOfFirst a = 3 ↔ 224 ≤ a.toNat ∧ a.toNat ≤ 239) ∧
      (lengthOfFirst a = 4 ↔ 240 ≤ a.toNat ∧ a.toNat ≤ 244) := by
  simp only [lengthOfFirst, UInt8.le_iff_toNat_le, UInt8.lt_iff_toNat_lt, UInt8.reduceToNat]
  refine ⟨?_, ?_, ?_, ?_⟩ <;> split_ifs <;> simp <;> omega

/-- The numbers of characters. -/
theorem toNat_valid (c : Char) : c.toNat < 0xD800 ∨ 0xDFFF < c.toNat ∧ c.toNat < 0x110000 :=
  c.valid

theorem eq_ofNat_iff {c : Char} {n : Nat} (h : n < 0xD800 ∨ 0xDFFF < n ∧ n < 0x110000) :
    c = Char.ofNat n ↔ c.toNat = n := by
  constructor
  · rintro rfl
    have hvalid : n.isValidChar := h
    rw [Char.ofNat, dif_pos hvalid]
    rfl
  · rintro rfl
    exact (Char.ofNat_toNat c).symm

/-! ## The encodings of one character -/

section

variable {c : Char} {a b d e : UInt8}

theorem encode_one_iff :
    String.utf8EncodeChar c = [a] ↔ lengthOfFirst a = 1 ∧ c = Char.ofNat a.toNat := by
  have hvalid := toNat_valid c
  have ha := a.toNat_lt
  rw [(lengthOfFirst_iff a).1, eq_ofNat_iff (by omega)]
  simp only [String.utf8EncodeChar, Char.toNat_val]
  split_ifs <;> simp [← UInt8.toNat_inj] <;> omega

theorem encode_two_iff :
    String.utf8EncodeChar c = [a, b] ↔
      lengthOfFirst a = 2 ∧ isContinuation b = true ∧
        c = Char.ofNat (a.toNat % 32 * 64 + lowBits b) := by
  have hvalid := toNat_valid c
  have ha := a.toNat_lt
  rw [(lengthOfFirst_iff a).2.1, isContinuation_iff, lowBits, eq_ofNat_iff (by omega)]
  simp only [String.utf8EncodeChar, Char.toNat_val]
  split_ifs <;> simp [← UInt8.toNat_inj] <;> omega

theorem encode_three_iff :
    String.utf8EncodeChar c = [a, b, d] ↔
      lengthOfFirst a = 3 ∧ mayFollow a b = true ∧ isContinuation d = true ∧
        c = Char.ofNat ((a.toNat % 16 * 64 + lowBits b) * 64 + lowBits d) := by
  have hvalid := toNat_valid c
  have ha := a.toNat_lt
  rw [(lengthOfFirst_iff a).2.2.1, isContinuation_iff, mayFollow_iff, lowBits, lowBits]
  simp only [String.utf8EncodeChar, Char.toNat_val]
  constructor
  · intro h
    split_ifs at h <;> simp [← UInt8.toNat_inj] at h
    rw [eq_ofNat_iff (by omega)]
    omega
  · rintro ⟨ha, hb, hd, hc⟩
    -- only now the number is known to be that of a character
    rw [eq_ofNat_iff (by omega)] at hc
    split_ifs <;> simp [← UInt8.toNat_inj] <;> omega

theorem encode_four_iff :
    String.utf8EncodeChar c = [a, b, d, e] ↔
      lengthOfFirst a = 4 ∧ mayFollow a b = true ∧ isContinuation d = true ∧
        isContinuation e = true ∧
        c = Char.ofNat (((a.toNat % 8 * 64 + lowBits b) * 64 + lowBits d) * 64 + lowBits e) := by
  have hvalid := toNat_valid c
  have ha := a.toNat_lt
  rw [(lengthOfFirst_iff a).2.2.2, isContinuation_iff, isContinuation_iff, mayFollow_iff, lowBits,
    lowBits, lowBits]
  simp only [String.utf8EncodeChar, Char.toNat_val]
  constructor
  · intro h
    split_ifs at h <;> simp [← UInt8.toNat_inj] at h
    rw [eq_ofNat_iff (by omega)]
    omega
  · rintro ⟨ha, hb, hd, he, hc⟩
    rw [eq_ofNat_iff (by omega)] at hc
    split_ifs <;> simp [← UInt8.toNat_inj] <;> omega

theorem encode_cases (c : Char) :
    (∃ a, String.utf8EncodeChar c = [a]) ∨ (∃ a b, String.utf8EncodeChar c = [a, b]) ∨
      (∃ a b d, String.utf8EncodeChar c = [a, b, d]) ∨
      ∃ a b d e, String.utf8EncodeChar c = [a, b, d, e] := by
  simp only [String.utf8EncodeChar]
  split_ifs <;> simp

end

/-! ## Steps of the decoder -/

section

variable {a : UInt8} {rest more : List UInt8} {c : Char} {n : Nat}

theorem encode_append_of_stepThree (hlength : lengthOfFirst a = 3)
    (h : stepThree a rest = .char c n) :
    a :: rest = String.utf8EncodeChar c ++ rest.drop (n - 1) := by
  match rest with
  | [] => cases h
  | [b] =>
      simp only [stepThree] at h
      split at h <;> cases h
  | b :: d :: tail =>
      simp only [stepThree] at h
      split at h
      · cases h
      · split at h
        · cases h
        · next hb hd =>
            obtain ⟨rfl, rfl⟩ := Utf8Step.char.inj h
            rw [encode_three_iff.mpr ⟨hlength, by simpa using hb, by simpa using hd, rfl⟩]
            rfl

theorem encode_append_of_stepFour (hlength : lengthOfFirst a = 4)
    (h : stepFour a rest = .char c n) :
    a :: rest = String.utf8EncodeChar c ++ rest.drop (n - 1) := by
  match rest with
  | [] => cases h
  | [b] =>
      simp only [stepFour] at h
      split at h <;> cases h
  | [b, d] =>
      simp only [stepFour] at h
      split at h
      · cases h
      · split at h <;> cases h
  | b :: d :: e :: tail =>
      simp only [stepFour] at h
      split at h
      · cases h
      · split at h
        · cases h
        · split at h
          · cases h
          · next hb hd he =>
              obtain ⟨rfl, rfl⟩ := Utf8Step.char.inj h
              rw [encode_four_iff.mpr
                ⟨hlength, by simpa using hb, by simpa using hd, by simpa using he, rfl⟩]
              rfl

/-- A step that takes a character takes its encoding. -/
theorem encode_append_of_utf8Step (h : utf8Step a rest = .char c n) :
    a :: rest = String.utf8EncodeChar c ++ rest.drop (n - 1) := by
  unfold utf8Step at h
  split at h
  · next hlength =>
      obtain ⟨rfl, rfl⟩ := Utf8Step.char.inj h
      rw [encode_one_iff.mpr ⟨hlength, rfl⟩]
      rfl
  · next hlength =>
      split at h
      · cases h
      · split at h
        · next hb =>
            obtain ⟨rfl, rfl⟩ := Utf8Step.char.inj h
            rw [encode_two_iff.mpr ⟨hlength, hb, rfl⟩]
            rfl
        · cases h
  · next hlength => exact encode_append_of_stepThree hlength h
  · next hlength => exact encode_append_of_stepFour hlength h
  · cases h

/-- Where the encoding of a character comes first, a step takes it. -/
theorem utf8Step_of_encode_append (h : a :: rest = String.utf8EncodeChar c ++ more) :
    ∃ n, utf8Step a rest = .char c n ∧ rest.drop (n - 1) = more := by
  obtain ⟨_, hcode⟩ | ⟨_, b, hcode⟩ | ⟨_, b, d, hcode⟩ | ⟨_, b, d, e, hcode⟩ := encode_cases c
  all_goals
    rw [hcode] at h
    obtain ⟨rfl, rfl⟩ := List.cons.inj h
  · obtain ⟨hlength, rfl⟩ := encode_one_iff.mp hcode
    exact ⟨1, by simp [utf8Step, hlength], rfl⟩
  · obtain ⟨hlength, hb, rfl⟩ := encode_two_iff.mp hcode
    exact ⟨2, by simp [utf8Step, hlength, hb], rfl⟩
  · obtain ⟨hlength, hb, hd, rfl⟩ := encode_three_iff.mp hcode
    exact ⟨3, by simp [utf8Step, stepThree, hlength, hb, hd], rfl⟩
  · obtain ⟨hlength, hb, hd, he, rfl⟩ := encode_four_iff.mp hcode
    exact ⟨4, by simp [utf8Step, stepFour, hlength, hb, hd, he], rfl⟩

end

/-! ## The decoder -/

theorem encode_cons (c : Char) (text : List Char) :
    encode (c :: text) = String.utf8EncodeChar c ++ encode text := rfl

theorem encode_cons_ne_nil (c : Char) (text : List Char) : encode (c :: text) ≠ [] := by
  rw [encode_cons]
  obtain ⟨_, h⟩ | ⟨_, _, h⟩ | ⟨_, _, _, h⟩ | ⟨_, _, _, _, h⟩ := encode_cases c <;> simp [h]

theorem decodeFrom_eq_ok_iff {bytes : List UInt8} {done text : List Char} {position : Nat} :
    decodeFrom done position bytes = .ok text ↔
      ∃ more, text = done.reverse ++ more ∧ bytes = encode more := by
  fun_induction decodeFrom done position bytes with
  | case1 done position =>
      constructor
      · intro h
        exact ⟨[], by simpa using (Except.ok.inj h).symm, rfl⟩
      · rintro ⟨more, rfl, hmore⟩
        cases more with
        | nil => simp
        | cons c more => exact absurd hmore.symm (encode_cons_ne_nil c more)
  | case2 done position a rest c n hstep ih =>
      rw [ih]
      constructor
      · rintro ⟨more, rfl, hmore⟩
        refine ⟨c :: more, by simp, ?_⟩
        rw [encode_append_of_utf8Step hstep, hmore, encode_cons]
      · rintro ⟨more, rfl, hmore⟩
        cases more with
        | nil => cases hmore
        | cons first more =>
            obtain ⟨m, hfirst, hdrop⟩ := utf8Step_of_encode_append (hmore.trans (encode_cons _ _))
            obtain ⟨rfl, rfl⟩ := Utf8Step.char.inj (hstep.symm.trans hfirst)
            exact ⟨more, by simp, hdrop⟩
  | case3 done position a rest flaw n hstep =>
      constructor
      · intro h
        cases h
      · rintro ⟨more, rfl, hmore⟩
        cases more with
        | nil => cases hmore
        | cons first more =>
            obtain ⟨m, hfirst, _⟩ := utf8Step_of_encode_append (hmore.trans (encode_cons _ _))
            cases hstep.symm.trans hfirst

/-- Bytes are decoded exactly if they are the encoding of a text, and then to this text. -/
theorem decode?_eq_ok_iff {bytes : List UInt8} {text : List Char} :
    decode? bytes = .ok text ↔ bytes = encode text := by
  simp [decode?, decodeFrom_eq_ok_iff]

/-- Bytes are refused exactly if they are the encoding of no text. -/
theorem exists_decode?_eq_error_iff {bytes : List UInt8} :
    (∃ fault, decode? bytes = .error fault) ↔ ∀ text, bytes ≠ encode text := by
  constructor
  · rintro ⟨fault, hfault⟩ text rfl
    rw [decode?_eq_ok_iff.mpr rfl] at hfault
    cases hfault
  · intro h
    cases hdecode : decode? bytes with
    | error fault => exact ⟨fault, rfl⟩
    | ok text => exact absurd (decode?_eq_ok_iff.mp hdecode) (h text)

end EditionSurvey.Text
