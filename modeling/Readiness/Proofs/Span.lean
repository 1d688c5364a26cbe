import Mathlib.Data.List.Nodup
import Readiness.ProbeError
import Readiness.Proofs.Number.Places
import Readiness.Settings

namespace Readiness.Span

/-! # Spans as they are shown

The text of a span is worth the span: a numeral and a unit, multiplied, are its seconds and
nanoseconds to the last one, however long it is. The unit is the largest that the span reaches, and
no digit of the numeral could be left out.
-/

/-- The units of time, in nanoseconds: each is a thousand of the one before it. -/
def timeUnits : List TimeUnit := [⟨0, "ns"⟩, ⟨3, "µs"⟩, ⟨6, "ms"⟩, ⟨9, "s"⟩]

/-- The unit that suits a span: the largest that the span reaches, so that there is at least one of
it, and nanoseconds for an empty span. -/
structure Suits (span : Span) (unit : TimeUnit) : Prop where
  mem : unit ∈ timeUnits
  reached : 10 ^ unit.exponent ≤ span.total ∨ span.total = 0 ∧ unit.symbol = "ns"
  largest : ∀ other ∈ timeUnits, 10 ^ other.exponent ≤ span.total → other.exponent ≤ unit.exponent

/-- A text shows a span in a unit, with these digits in front of the point and behind it. -/
structure Shows (span : Span) (text : String) (whole places : List (Fin 10)) (unit : TimeUnit) :
    Prop where
  text : text = String.ofList (Decimal.pointText whole places) ++ unit.symbol
  exact : Decimal.rational whole places * 10 ^ unit.exponent =
    span.seconds * 10 ^ 9 + span.nanoseconds.val
  unit : Suits span unit
  whole : Json.IsWhole whole
  places : places.getLast? ≠ some Numeral.zeroDigit

variable {span : Span}

/-! ## Units -/

theorem timeUnit_cases (span : Span) :
    (span.timeUnit = ⟨9, "s"⟩ ∧ 10 ^ 9 ≤ span.total) ∨
      (span.timeUnit = ⟨6, "ms"⟩ ∧ 10 ^ 6 ≤ span.total ∧ span.total < 10 ^ 9) ∨
      (span.timeUnit = ⟨3, "µs"⟩ ∧ 10 ^ 3 ≤ span.total ∧ span.total < 10 ^ 6) ∨
      (span.timeUnit = ⟨0, "ns"⟩ ∧ span.total < 10 ^ 3) := by
  unfold timeUnit
  split
  · next hseconds => exact .inl ⟨rfl, hseconds⟩
  · next hseconds =>
    split
    · next hmillis => exact .inr (.inl ⟨rfl, hmillis, Nat.lt_of_not_le hseconds⟩)
    · next hmillis =>
      split
      · next hmicros => exact .inr (.inr (.inl ⟨rfl, hmicros, Nat.lt_of_not_le hmillis⟩))
      · next hmicros => exact .inr (.inr (.inr ⟨rfl, Nat.lt_of_not_le hmicros⟩))

theorem suits_timeUnit (span : Span) : Suits span span.timeUnit := by
  have hlargest : ∀ count, (∀ other ∈ timeUnits, other.exponent ≤ count ∨
      span.total < 10 ^ other.exponent) → ∀ other ∈ timeUnits, 10 ^ other.exponent ≤ span.total →
      other.exponent ≤ count := by
    intro count hunits other hmem hreached
    rcases hunits other hmem with hle | hlt
    · exact hle
    · exact absurd hreached (Nat.not_le_of_lt hlt)
  rcases timeUnit_cases span with ⟨hunit, hle⟩ | ⟨hunit, hle, hlt⟩ | ⟨hunit, hle, hlt⟩ | ⟨hunit, hlt⟩
  all_goals rw [hunit]
  · exact ⟨by simp [timeUnits], .inl hle, hlargest 9 (by simp [timeUnits])⟩
  · exact ⟨by simp [timeUnits], .inl hle, hlargest 6 (by simp [timeUnits]; omega)⟩
  · exact ⟨by simp [timeUnits], .inl hle, hlargest 3 (by simp [timeUnits]; omega)⟩
  · refine ⟨by simp [timeUnits], ?_, hlargest 0 (by simp [timeUnits]; omega)⟩
    rcases Nat.eq_zero_or_pos span.total with hzero | hpos
    · exact .inr ⟨hzero, rfl⟩
    · exact .inl hpos

/-! ## Texts -/

theorem total_eq (span : Span) :
    (span.total : ℚ) = span.seconds * 10 ^ 9 + span.nanoseconds.val := by
  rw [total]
  push_cast
  norm_num

theorem numeral_eq {count n : Nat} {whole places : List (Fin 10)}
    (hwhole : Nat.toDigits 10 (n / 10 ^ count) = Decimal.digitText whole)
    (hplaces : Decimal.trimZeros (Decimal.lastDigits count (n % 10 ^ count)) =
      Decimal.digitText places) :
    numeral count n = String.ofList (Decimal.pointText whole places) := by
  have hpower : Decimal.power count = 10 ^ count := rfl
  simp only [numeral, hpower, hplaces]
  rw [Nat.toString_eq_ofList_toDigits, hwhole, Decimal.pointText, String.ofList_append]
  cases places with
  | nil => rfl
  | cons d places =>
    have hempty : (Decimal.digitText (d :: places)).isEmpty = false := rfl
    rw [hempty, if_neg Bool.false_ne_true, if_neg (List.cons_ne_nil d places), String.ofList_cons]
    rfl

/-- The text of a span shows it. -/
theorem exists_shows (span : Span) :
    ∃ whole places, Shows span span.text whole places span.timeUnit := by
  rcases Decimal.exists_isWhole (span.total / 10 ^ span.timeUnit.exponent) with
    ⟨whole, hfront, hwhole, hvalue⟩
  rcases Decimal.exists_lastDigits span.timeUnit.exponent
    (span.total % 10 ^ span.timeUnit.exponent) with ⟨digits, hdigits, hlength, hrest⟩
  rcases Decimal.exists_trimZeros digits with ⟨places, zeros, rfl, htrimmed, hlast⟩
  rw [← hdigits] at htrimmed
  rw [Nat.mod_mod] at hrest
  refine ⟨whole, places, ?_, ?_, suits_timeUnit span, hwhole, hlast⟩
  · rw [text, numeral_eq hfront htrimmed]
  · rw [← total_eq]
    exact Decimal.rational_eq hvalue hlength hrest

/-- The time that a probe waited for an answer, and the time that settings allow for one, are shown
exactly. -/
theorem text_is_exact (span : Span) :
    ∃ text whole places unit, Shows span text whole places unit ∧
      (ProbeError.timeout span).message = "GraphQL request timed out after " ++ text ∧
      ∀ host port deployment, ∃ front, (Settings.mk host port deployment span).description =
        front ++ ", timeout: " ++ text ++ " \x7d" := by
  rcases exists_shows span with ⟨whole, places, hshows⟩
  exact ⟨span.text, whole, places, span.timeUnit, hshows, rfl, fun _ _ _ => ⟨_, rfl⟩⟩

/-- The longest span that 64 bits of seconds can hold. -/
example : text ⟨18446744073709551615, 999999999⟩ = "18446744073709551615.999999999s" := by
  decide +kernel

/-! ## Spans told apart -/

theorem isBehindNumeral_symbol {unit : TimeUnit} (h : unit ∈ timeUnits) :
    Decimal.IsBehindNumeral unit.symbol.toList := by
  have hall : ∀ unit ∈ timeUnits, (unit.symbol.toList.head?.all fun c =>
      !c.isDigit && c != '.') = true := by decide
  intro c hc
  have hunit := hall unit h
  rw [hc] at hunit
  simpa using hunit

theorem eq_of_symbol_eq {unit unit' : TimeUnit} (h : unit ∈ timeUnits) (h' : unit' ∈ timeUnits)
    (hsymbol : unit.symbol = unit'.symbol) : unit = unit' := by
  have hnodup : (timeUnits.map TimeUnit.symbol).Nodup := by decide
  exact List.inj_on_of_nodup_map hnodup h h' hsymbol

theorem eq_of_total_eq {span' : Span} (h : span.total = span'.total) : span = span' := by
  rcases span with ⟨seconds, nanoseconds⟩
  rcases span' with ⟨seconds', nanoseconds'⟩
  have hlt := nanoseconds.isLt
  have hlt' := nanoseconds'.isLt
  simp only [total] at h
  rw [mk.injEq, Fin.ext_iff]
  omega

/-- A text shows one span only. -/
theorem Shows.eq {span' : Span} {text : String} {whole whole' places places' : List (Fin 10)}
    {unit unit' : TimeUnit} (h : Shows span text whole places unit)
    (h' : Shows span' text whole' places' unit') : span = span' := by
  have hlists := congrArg String.toList (h.text.symm.trans h'.text)
  rw [String.toList_append, String.toList_append, String.toList_ofList, String.toList_ofList]
    at hlists
  rcases Decimal.pointText_append_inj (isBehindNumeral_symbol h.unit.mem)
    (isBehindNumeral_symbol h'.unit.mem) hlists with ⟨rfl, rfl, hsymbol⟩
  rcases eq_of_symbol_eq h.unit.mem h'.unit.mem (String.toList_inj.mp hsymbol) with rfl
  apply eq_of_total_eq
  have htotal := h.exact.symm.trans h'.exact
  rw [← total_eq, ← total_eq] at htotal
  exact_mod_cast htotal

theorem text_inj {span' : Span} : span.text = span'.text ↔ span = span' := by
  constructor
  · intro h
    rcases exists_shows span with ⟨_, _, hshows⟩
    rcases exists_shows span' with ⟨_, _, hshows'⟩
    rw [h] at hshows
    exact hshows.eq hshows'
  · rintro rfl
    rfl

end Readiness.Span
