import Mathlib.Data.List.DropRight
import Mathlib.Tactic.FieldSimp
import Mathlib.Tactic.Ring
import Readiness.Proofs.Number.Decimal
import Readiness.Proofs.Text.Delimited

namespace Readiness.Decimal

/-! # Places behind a point

A number of small units is written in a larger one by putting a point in front of its last digits.
Nothing is rounded: what stands in front of the point and behind it is the number exactly, and the
zeros that end the places add nothing to it.
-/

/-- The number that a numeral with these digits in front of its point and behind it stands for. -/
def rational (whole places : List (Fin 10)) : ℚ :=
  Numeral.value whole + Numeral.value places / 10 ^ places.length

/-- The text of the numeral. There is no point without places behind it. -/
def pointText (whole places : List (Fin 10)) : List Char :=
  digitText whole ++ if places = [] then [] else '.' :: digitText places

variable {digits places : List (Fin 10)} {count n : Nat}

theorem digitText_concat (digits : List (Fin 10)) (d : Fin 10) :
    digitText (digits ++ [d]) = digitText digits ++ [Nat.digitChar d.val] := by
  rw [digitText, digitText, List.map_append, List.map_singleton]

theorem value_concat (digits : List (Fin 10)) (d : Fin 10) :
    Numeral.value (digits ++ [d]) = 10 * Numeral.value digits + d.val :=
  Json.valueFrom_concat 0 digits d

/-! ## In front of the point -/

/-- A number is written with digits that may stand in front of a point, and that are worth it. -/
theorem exists_isWhole (n : Nat) :
    ∃ digits, Nat.toDigits 10 n = digitText digits ∧ Json.IsWhole digits ∧
      Numeral.value digits = n := by
  induction n using Nat.strongRecOn with
  | ind n ih =>
    rw [Nat.toDigits_eq_if (by decide)]
    by_cases hlt : n < 10
    · -- a single digit may be zero
      refine ⟨[⟨n, hlt⟩], if_pos hlt, ⟨by simp, ?_⟩, by simp [Numeral.value, Numeral.valueFrom]⟩
      intro hhead
      simpa using hhead
    · rcases ih (n / 10) (Nat.div_lt_self (by omega) (by decide)) with
        ⟨front, htext, hwhole, hvalue⟩
      refine ⟨front ++ [⟨n % 10, Nat.mod_lt n (by decide)⟩], ?_, ⟨by simp, ?_⟩, ?_⟩
      · rw [if_neg hlt, htext, digitText_concat]
      · intro hhead
        exfalso
        rw [List.head?_append_of_ne_nil _ hwhole.1] at hhead
        -- what stands in front of the last digit is not zero
        have hzero : n / 10 = 0 := by
          rw [← hvalue, hwhole.2 hhead]
          rfl
        omega
      · rw [value_concat, hvalue]
        exact Nat.div_add_mod n 10

/-! ## Behind the point -/

theorem exists_lastDigits (count n : Nat) :
    ∃ digits, lastDigits count n = digitText digits ∧ digits.length = count ∧
      Numeral.value digits = n % 10 ^ count := by
  induction count generalizing n with
  | zero => exact ⟨[], rfl, rfl, by simp [Numeral.value, Numeral.valueFrom, Nat.mod_one]⟩
  | succ count ih =>
    rcases ih (n / 10) with ⟨digits, htext, hlength, hvalue⟩
    refine ⟨digits ++ [⟨n % 10, Nat.mod_lt n (by decide)⟩], ?_, by simp [hlength], ?_⟩
    · rw [lastDigits, htext, digitText_concat]
    · rw [value_concat, hvalue, Nat.pow_succ, Nat.mul_comm (10 ^ count), Nat.mod_mul, Nat.add_comm]

/-- Zeros at the end count ten times each. -/
theorem value_append_zeros (digits : List (Fin 10)) (count : Nat) :
    Numeral.value (digits ++ List.replicate count Numeral.zeroDigit) =
      Numeral.value digits * 10 ^ count := by
  induction count with
  | zero => simp
  | succ count ih =>
    have hzero : Numeral.zeroDigit.val = 0 := rfl
    rw [List.replicate_succ', ← List.append_assoc, value_concat, ih, hzero, Nat.pow_succ]
    ring

theorem digitChar_eq_zero_iff {d : Fin 10} : Nat.digitChar d.val = '0' ↔ d = Numeral.zeroDigit := by
  revert d
  decide

/-- What is left without the zeros at the end does not end with a zero. -/
theorem exists_trimZeros (digits : List (Fin 10)) :
    ∃ places count, digits = places ++ List.replicate count Numeral.zeroDigit ∧
      trimZeros (digitText digits) = digitText places ∧
      places.getLast? ≠ some Numeral.zeroDigit := by
  induction digits using List.reverseRecOn with
  | nil => exact ⟨[], 0, rfl, rfl, by simp⟩
  | append_singleton digits d ih =>
    have htrim : trimZeros (digitText digits ++ [Nat.digitChar d.val]) =
        (digitText digits ++ [Nat.digitChar d.val]).rdropWhile (· == '0') := rfl
    rw [digitText_concat, htrim, List.rdropWhile_concat]
    by_cases hd : d = Numeral.zeroDigit
    · rcases ih with ⟨places, count, rfl, htrimmed, hlast⟩
      refine ⟨places, count + 1, ?_, ?_, hlast⟩
      · rw [hd, List.replicate_succ', List.append_assoc]
      · rw [if_pos (beq_iff_eq.mpr (digitChar_eq_zero_iff.mpr hd))]
        exact htrimmed
    · have hkept : ¬ (Nat.digitChar d.val == '0') = true := by
        rwa [beq_iff_eq, digitChar_eq_zero_iff]
      refine ⟨digits ++ [d], 0, by simp, ?_, ?_⟩
      · rw [if_neg hkept, digitText_concat]
      · simpa using hd

/-! ## Numerals with a point -/

theorem digitText_inj {digits digits' : List (Fin 10)} (h : digitText digits = digitText digits') :
    digits = digits' := by
  have hinjective : ∀ d d' : Fin 10, Nat.digitChar d.val = Nat.digitChar d'.val → d = d' := by decide
  exact List.map_injective_iff.mpr hinjective h

/-- What follows a numeral does not go on with it. -/
def IsBehindNumeral (rest : List Char) : Prop :=
  ∀ c, rest.head? = some c → c.isDigit = false ∧ c ≠ '.'

theorem IsBehindNumeral.ne_point {rest : List Char} (h : IsBehindNumeral rest) (rest' : List Char) :
    rest ≠ '.' :: rest' := by
  rintro rfl
  exact (h _ rfl).2 rfl

theorem isDigit_of_mem_digitText {digits : List (Fin 10)} :
    ∀ c ∈ digitText digits, c.isDigit = true := by
  intro c hc
  rcases List.mem_map.mp hc with ⟨d, -, rfl⟩
  exact isDigit_digitChar d

/-- Behind the first digits there is the point, or what follows the numeral. -/
theorem not_isDigit_behind_whole {rest : List Char} (hrest : IsBehindNumeral rest) :
    ∀ c, ((if places = [] then [] else '.' :: digitText places) ++ rest).head? = some c →
      c.isDigit = false := by
  intro c hc
  cases places with
  | nil => exact (hrest c hc).1
  | cons d places =>
    cases hc
    rfl

/-- A numeral is told from what follows, and it tells the digits around its point. -/
theorem pointText_append_inj {whole whole' places' : List (Fin 10)} {rest rest' : List Char}
    (hrest : IsBehindNumeral rest) (hrest' : IsBehindNumeral rest')
    (h : pointText whole places ++ rest = pointText whole' places' ++ rest') :
    whole = whole' ∧ places = places' ∧ rest = rest' := by
  rw [pointText, pointText, List.append_assoc, List.append_assoc] at h
  rcases Text.eq_of_append_eq isDigit_of_mem_digitText isDigit_of_mem_digitText
    (not_isDigit_behind_whole hrest) (not_isDigit_behind_whole hrest') h with ⟨hwhole, hplaces⟩
  refine ⟨digitText_inj hwhole, ?_⟩
  -- a point on one side only would be what follows on the other
  cases places with
  | nil =>
    cases places' with
    | nil => exact ⟨rfl, hplaces⟩
    | cons d' places' =>
      rw [if_pos rfl, if_neg (List.cons_ne_nil d' places'), List.nil_append] at hplaces
      exact absurd hplaces (hrest.ne_point _)
  | cons d places =>
    rw [if_neg (List.cons_ne_nil d places)] at hplaces
    cases places' with
    | nil =>
      rw [if_pos rfl, List.nil_append] at hplaces
      exact absurd hplaces.symm (hrest'.ne_point _)
    | cons d' places' =>
      rw [if_neg (List.cons_ne_nil d' places')] at hplaces
      rcases Text.eq_of_append_eq isDigit_of_mem_digitText isDigit_of_mem_digitText
        (fun c hc => (hrest c hc).1) (fun c hc => (hrest' c hc).1)
        (List.cons.inj hplaces).2 with ⟨hdigit, hsame⟩
      exact ⟨digitText_inj hdigit, hsame⟩

/-- Nothing is lost by the point: the digits around it are worth the whole number. -/
theorem rational_eq {whole : List (Fin 10)} {zeros : Nat}
    (hwhole : Numeral.value whole = n / 10 ^ count)
    (hlength : (places ++ List.replicate zeros Numeral.zeroDigit).length = count)
    (hplaces : Numeral.value (places ++ List.replicate zeros Numeral.zeroDigit) = n % 10 ^ count) :
    rational whole places * 10 ^ count = n := by
  rw [value_append_zeros] at hplaces
  rw [List.length_append, List.length_replicate] at hlength
  have hn : n = Numeral.value whole * 10 ^ count + Numeral.value places * 10 ^ zeros := by
    rw [hwhole, hplaces]
    exact (Nat.div_add_mod' n (10 ^ count)).symm
  have hpower : (10 : ℚ) ^ count = 10 ^ places.length * 10 ^ zeros := by
    rw [← hlength, pow_add]
  rw [rational, hn, hpower]
  push_cast
  rw [hpower]
  field_simp

end Readiness.Decimal
