import Readiness.Number.Decimal
import Readiness.Proofs.Json.Numerals

namespace Readiness.Decimal

/-! # Decimal numerals

Which texts are numerals of a number: digits, zeros in front included, which one plus sign may
precede. A reader with a limit accepts exactly the numerals of numbers up to it, since a number
that is once above the limit stays above it.
-/

/-- The characters of digits. -/
def digitText (digits : List (Fin 10)) : List Char := digits.map fun d => Nat.digitChar d.val

/-- A text is a numeral of a number. -/
inductive IsNumeral : List Char → Nat → Prop where
  | unsigned {digits : List (Fin 10)} : digits ≠ [] →
      IsNumeral (digitText digits) (Numeral.value digits)
  | signed {digits : List (Fin 10)} : digits ≠ [] →
      IsNumeral ('+' :: digitText digits) (Numeral.value digits)

variable {limit start n : Nat} {text : List Char}

/-! ## Digits -/

theorem toNat_digitChar (d : Fin 10) : (Nat.digitChar d.val).toNat = '0'.toNat + d.val := by
  rw [Nat.toNat_digitChar_of_lt_ten d.isLt]
  rfl

theorem isDigit_digitChar (d : Fin 10) : (Nat.digitChar d.val).isDigit = true := by
  revert d
  decide

theorem exists_digitChar_of_isDigit {c : Char} (h : c.isDigit = true) :
    ∃ d : Fin 10, c = Nat.digitChar d.val := by
  have hzero : '0'.toNat = 48 := rfl
  have hrange : 48 ≤ c.toNat ∧ c.toNat ≤ 57 := by
    simpa [Char.isDigit, UInt32.le_iff_toNat_le] using h
  refine ⟨⟨c.toNat - 48, by omega⟩, ?_⟩
  apply Char.toNat_inj.mp
  rw [toNat_digitChar]
  simp only
  omega

/-! ## Reading -/

/-- Digits that continue a number within the limit are read if the whole is within it. -/
theorem readDigits_eq_ok_iff (hstart : start ≤ limit) :
    readDigits limit start text = .ok n ↔
      ∃ digits, text = digitText digits ∧ n = Numeral.valueFrom start digits ∧ n ≤ limit := by
  induction text generalizing start with
  | nil =>
    rw [readDigits]
    constructor
    · rintro ⟨⟩
      exact ⟨[], rfl, rfl, hstart⟩
    · rintro ⟨digits, hnil, rfl, -⟩
      rcases List.map_eq_nil_iff.mp hnil.symm with rfl
      rfl
  | cons c text ih =>
    rw [readDigits]
    constructor
    · intro h
      split at h
      · next hc =>
        rcases exists_digitChar_of_isDigit hc with ⟨d, rfl⟩
        rw [toNat_digitChar, Nat.add_sub_cancel_left] at h
        split at h
        · next hle =>
          rcases (ih hle).mp h with ⟨digits, rfl, hn, hlimit⟩
          exact ⟨d :: digits, rfl, hn, hlimit⟩
        · cases h
      · cases h
    · rintro ⟨digits, htext, hn, hlimit⟩
      cases digits with
      | nil => cases htext
      | cons d digits =>
        rcases List.cons.inj htext with ⟨rfl, rfl⟩
        -- what was read so far is never more than the whole number
        have hle : 10 * start + d.val ≤ limit := by
          have hmore := Json.le_valueFrom (10 * start + d.val) digits
          rw [Numeral.valueFrom, List.foldl_cons, ← Numeral.valueFrom] at hn
          omega
        rw [if_pos (isDigit_digitChar d), toNat_digitChar, Nat.add_sub_cancel_left, if_pos hle]
        exact (ih hle).mpr ⟨digits, rfl, hn, hlimit⟩

theorem readDigits_zero_eq_ok_iff :
    readDigits limit 0 text = .ok n ↔
      ∃ digits, text = digitText digits ∧ n = Numeral.value digits ∧ n ≤ limit :=
  readDigits_eq_ok_iff (Nat.zero_le limit)

/-- No digit is a sign. -/
theorem digitText_ne_plus (digits : List (Fin 10)) (rest : List Char) :
    digitText digits ≠ '+' :: rest := by
  intro h
  cases digits with
  | nil => cases h
  | cons d digits =>
    have hplus : Nat.digitChar d.val = '+' := (List.cons.inj h).1
    have hdigit := isDigit_digitChar d
    rw [hplus] at hdigit
    cases hdigit

theorem isNumeral_plus_iff :
    IsNumeral ('+' :: text) n ↔
      ∃ digits, digits ≠ [] ∧ text = digitText digits ∧ n = Numeral.value digits := by
  constructor
  · intro h
    generalize hwhole : '+' :: text = whole at h
    cases h with
    | unsigned => exact absurd hwhole.symm (digitText_ne_plus _ _)
    | signed hne => exact ⟨_, hne, (List.cons.inj hwhole).2, rfl⟩
  · rintro ⟨digits, hne, rfl, rfl⟩
    exact .signed hne

theorem isNumeral_iff_of_ne_plus (h : ∀ rest, text ≠ '+' :: rest) :
    IsNumeral text n ↔
      ∃ digits, digits ≠ [] ∧ text = digitText digits ∧ n = Numeral.value digits := by
  constructor
  · intro hnumeral
    cases hnumeral with
    | unsigned hne => exact ⟨_, hne, rfl, rfl⟩
    | signed => exact absurd rfl (h _)
  · rintro ⟨digits, hne, rfl, rfl⟩
    exact .unsigned hne

/-- A text is read as a number exactly if it is a numeral of it and the limit allows it. -/
theorem read_eq_ok_iff : read limit text = .ok n ↔ IsNumeral text n ∧ n ≤ limit := by
  unfold read
  split
  · rw [isNumeral_iff_of_ne_plus (by simp)]
    constructor
    · intro h
      cases h
    · rintro ⟨⟨digits, hne, hnil, -⟩, -⟩
      exact absurd (List.map_eq_nil_iff.mp hnil.symm) hne
  · rw [isNumeral_plus_iff]
    constructor
    · intro h
      cases h
    · rintro ⟨⟨digits, hne, hnil, -⟩, -⟩
      exact absurd (List.map_eq_nil_iff.mp hnil.symm) hne
  · next digits hsome =>
    rw [isNumeral_plus_iff, readDigits_zero_eq_ok_iff]
    constructor
    · rintro ⟨run, rfl, hn, hle⟩
      refine ⟨⟨run, ?_, rfl, hn⟩, hle⟩
      rintro rfl
      exact hsome rfl
    · rintro ⟨⟨run, -, htext, hn⟩, hle⟩
      exact ⟨run, htext, hn, hle⟩
  · next hempty hplus hsigned =>
    rw [isNumeral_iff_of_ne_plus hsigned, readDigits_zero_eq_ok_iff]
    constructor
    · rintro ⟨run, rfl, hn, hle⟩
      refine ⟨⟨run, ?_, rfl, hn⟩, hle⟩
      rintro rfl
      exact hempty rfl
    · rintro ⟨⟨run, -, htext, hn⟩, hle⟩
      exact ⟨run, htext, hn, hle⟩

/-! ## What is wrong with a text -/

/-- The text behind one plus sign. A plus sign alone is not a sign of anything. -/
def unsigned : List Char → List Char
  | '+' :: c :: text => c :: text
  | text => text

/-- The digits that a text begins with, as many as there are. -/
def IsRun (text : List Char) (digits : List (Fin 10)) : Prop :=
  ∃ rest, text = digitText digits ++ rest ∧ ∀ c, rest.head? = some c → c.isDigit = false

theorem exists_isRun (text : List Char) : ∃ digits, IsRun text digits := by
  induction text with
  | nil => exact ⟨[], [], rfl, by simp⟩
  | cons c text ih =>
    by_cases hc : c.isDigit = true
    · rcases exists_digitChar_of_isDigit hc with ⟨d, rfl⟩
      rcases ih with ⟨digits, rest, rfl, hrest⟩
      exact ⟨d :: digits, rest, rfl, hrest⟩
    · refine ⟨[], c :: text, rfl, ?_⟩
      intro c' hhead
      rw [List.head?_cons, Option.some.injEq] at hhead
      rwa [hhead, Bool.not_eq_true] at hc

/-- What is wrong with a text that is no numeral of a number within a limit, told by the digits that
it begins with. What stands behind digits that are too many does not matter. -/
structure IsFault (limit : Nat) (text : List Char) (digits : List (Fin 10)) (fault : Fault) :
    Prop where
  empty : fault = .empty ↔ text = []
  tooLarge : fault = .tooLarge ↔ text ≠ [] ∧ limit < Numeral.value digits
  invalidDigit : fault = .invalidDigit ↔ text ≠ [] ∧ Numeral.value digits ≤ limit

theorem unsigned_of_ne_plus (h : ∀ rest, text ≠ '+' :: rest) : unsigned text = text := by
  unfold unsigned
  split
  · exact absurd rfl (h _)
  · rfl

theorem read_of_ne_nil (h : text ≠ []) : read limit text = readDigits limit 0 (unsigned text) := by
  unfold read
  split
  · exact absurd rfl h
  · -- a plus sign alone is no digit either
    rfl
  · next digits hsome =>
    cases digits with
    | nil => exact absurd rfl hsome
    | cons c digits => rfl
  · next hplus => rw [unsigned_of_ne_plus hplus]

/-- Digits run past the limit, or something that is no digit follows before they do. -/
theorem readDigits_eq_error {digits : List (Fin 10)} {fault : Fault} (hstart : start ≤ limit)
    (hrun : IsRun text digits) (h : readDigits limit start text = .error fault) :
    (limit < Numeral.valueFrom start digits ∧ fault = .tooLarge) ∨
      (Numeral.valueFrom start digits ≤ limit ∧ fault = .invalidDigit) := by
  rcases hrun with ⟨rest, rfl, hrest⟩
  induction digits generalizing start with
  | nil =>
    cases rest with
    | nil => cases h
    | cons c rest =>
      have hc : ¬ c.isDigit = true := by simp [hrest c rfl]
      rw [digitText, List.map_nil, List.nil_append, readDigits, if_neg hc] at h
      cases h
      exact .inr ⟨hstart, rfl⟩
  | cons d digits ih =>
    have hvalue : Numeral.valueFrom start (d :: digits) =
        Numeral.valueFrom (10 * start + d.val) digits := rfl
    rw [digitText, List.map_cons, ← digitText, List.cons_append, readDigits,
      if_pos (isDigit_digitChar d), toNat_digitChar, Nat.add_sub_cancel_left] at h
    rw [hvalue]
    split at h
    · next hle => exact ih hle h
    · next hgt =>
      -- a number above the limit stays above it, whatever digits follow
      have hmore := Json.le_valueFrom (10 * start + d.val) digits
      cases h
      exact .inl ⟨by omega, rfl⟩

theorem isFault_of_read {digits : List (Fin 10)} {fault : Fault}
    (hrun : IsRun (unsigned text) digits) (h : read limit text = .error fault) :
    IsFault limit text digits fault := by
  by_cases hne : text = []
  · subst hne
    cases h
    exact ⟨by simp, by simp, by simp⟩
  · rw [read_of_ne_nil hne] at h
    rcases readDigits_eq_error (Nat.zero_le limit) hrun h with ⟨hgt, rfl⟩ | ⟨hle, rfl⟩
    · rw [← Numeral.value] at hgt
      exact ⟨by simp [hne], by simp [hne, hgt], by simp [hgt]⟩
    · rw [← Numeral.value] at hle
      exact ⟨by simp [hne], by simp [hle], by simp [hne, hle]⟩

/-! ## Numbers that were written -/

theorem le_ofDigitChars (start : Nat) (text : List Char) :
    start ≤ Nat.ofDigitChars 10 text start := by
  induction text generalizing start with
  | nil => exact Nat.le_refl start
  | cons c text ih =>
    have hmore := ih (10 * start + (c.toNat - '0'.toNat))
    rw [Nat.ofDigitChars_cons]
    omega

theorem readDigits_of_isDigit (hdigit : ∀ c ∈ text, c.isDigit = true)
    (hle : Nat.ofDigitChars 10 text start ≤ limit) :
    readDigits limit start text = .ok (Nat.ofDigitChars 10 text start) := by
  induction text generalizing start with
  | nil => rfl
  | cons c text ih =>
    rw [List.forall_mem_cons] at hdigit
    rw [Nat.ofDigitChars_cons] at hle ⊢
    have hnext := Nat.le_trans (le_ofDigitChars _ text) hle
    rw [readDigits, if_pos hdigit.1, if_pos hnext]
    exact ih hdigit.2 hle

/-- The digits of a number are read as that number. -/
theorem readDigits_toDigits (h : n ≤ limit) :
    readDigits limit 0 (Nat.toDigits 10 n) = .ok n := by
  have hvalue : Nat.ofDigitChars 10 (Nat.toDigits 10 n) 0 = n := Nat.ofDigitChars_ten_toDigits
  have hdigit : ∀ c ∈ Nat.toDigits 10 n, c.isDigit = true := by
    intro c hc
    exact Nat.isDigit_of_mem_toDigits (by decide) (by decide) hc
  rw [readDigits_of_isDigit hdigit (by rwa [hvalue]), hvalue]

theorem isDigit_of_readDigits_eq_ok (h : readDigits limit 0 text = .ok n) :
    ∀ c ∈ text, c.isDigit = true := by
  rcases readDigits_zero_eq_ok_iff.mp h with ⟨digits, rfl, -⟩
  intro c hc
  rcases List.mem_map.mp hc with ⟨d, -, rfl⟩
  exact isDigit_digitChar d

end Readiness.Decimal
