import Readiness.Proofs.Json.Run

namespace Readiness.Json

/-! # Numbers

A literal is read digit by digit, and whether it is over shows only at the character behind it.
An exponent that is too large is refused at the digit that makes it so; since an exponent only
grows, that never happens in a literal that is in range.
-/

variable {stack : List Frame} {digits next : Digits} {b : UInt8}

theorem step_numeral_of_push (h : digits.push (Char.ofUInt8 b) = .ok (some next)) :
    State.step ⟨stack, .numeral digits⟩ b = .ok ⟨stack, .numeral next⟩ := by
  rw [State.step]
  simp only [h]

theorem digit?_digitByte (d : Fin 10) :
    digit? (Char.ofUInt8 (digitByte d)) = some d :=
  digit?_ofUInt8_eq_some_iff.mpr rfl

/-! ## Exponents -/

theorem le_valueFrom (start : Nat) (run : List (Fin 10)) : start ≤ Numeral.valueFrom start run := by
  induction run generalizing start with
  | nil => exact Nat.le_refl start
  | cons d run ih =>
    have hmore := ih (10 * start + d.val)
    rw [Numeral.valueFrom, List.foldl_cons, ← Numeral.valueFrom]
    omega

theorem valueFrom_append (start : Nat) (run more : List (Fin 10)) :
    Numeral.valueFrom start (run ++ more) = Numeral.valueFrom (Numeral.valueFrom start run) more :=
  List.foldl_append

theorem valueFrom_concat (start : Nat) (run : List (Fin 10)) (d : Fin 10) :
    Numeral.valueFrom start (run ++ [d]) = 10 * Numeral.valueFrom start run + d.val :=
  valueFrom_append start run [d]

/-- An exponent part that does not put the number out of range could have ended earlier. -/
theorem exponentOverflows_mono {mantissa : Numeral} {negative : Bool} {small large : Nat}
    (hle : small ≤ large)
    (h : (Digits.withExponent mantissa negative large).exponentOverflows = false) :
    (Digits.withExponent mantissa negative small).exponentOverflows = false := by
  simp only [Digits.withExponent, Numeral.exponentOverflows, Option.getD_some, Numeral.isZero,
    Bool.and_eq_false_iff] at h ⊢
  rcases h with h | h
  · left
    -- a negative exponent is below the limit whatever it is
    have hlarge := of_decide_eq_false h
    apply decide_eq_false
    cases negative with
    | false =>
      simp only [Bool.false_eq_true, if_false] at hlarge ⊢
      omega
    | true =>
      simp only [if_true, Numeral.exponentLimit]
      omega
  · exact .inr h

theorem pushExponent_of_not_overflows {mantissa : Numeral} {negative : Bool} {n : Nat}
    (h : (Digits.withExponent mantissa negative n).exponentOverflows = false) :
    Digits.pushExponent mantissa negative n = .ok (.exponent mantissa negative n) := by
  rw [Digits.pushExponent, h]
  rfl

theorem exponentOverflows_of_overflows {numeral : Numeral} (h : numeral.overflows = false) :
    numeral.exponentOverflows = false := by
  rw [Numeral.overflows, Bool.or_eq_false_iff] at h
  exact h.1

/-! ## Reading a spelling -/

/-- Digits are read one after the other as long as each of them is taken. -/
theorem reaches_digits (read : List (Fin 10) → Digits) {run : List (Fin 10)}
    (h : ∀ before d after, run = before ++ d :: after →
      (read before).push (Char.ofUInt8 (digitByte d)) =
        .ok (some (read (before ++ [d])))) :
    Reaches ⟨stack, .numeral (read [])⟩ (digitBytes run) ⟨stack, .numeral (read run)⟩ := by
  induction run generalizing read with
  | nil => exact .refl _
  | cons d run ih =>
    refine .step (step_numeral_of_push (h [] d run rfl)) ?_
    -- what is read later is read behind this digit
    apply ih fun later => read (d :: later)
    intro before e after hrun
    exact h (d :: before) e after (by rw [hrun, List.cons_append])

theorem reaches_whole {negative : Bool} {first : Fin 10} {run : List (Fin 10)}
    (h : IsWhole (first :: run)) :
    Reaches ⟨stack, .numeral (.whole negative [first])⟩ (digitBytes run)
      ⟨stack, .numeral (.whole negative (first :: run).reverse)⟩ := by
  apply reaches_digits fun before => .whole negative (first :: before).reverse
  intro before d after hd
  -- a zero in front would have to be the only digit
  have hzero : (first :: before).reverse ≠ [Numeral.zeroDigit] := by
    intro hone
    have hfirst : first = Numeral.zeroDigit ∧ before = [] := by
      rw [List.reverse_eq_iff] at hone
      simpa using hone
    have hrun := h.2 (by rw [List.head?_cons, hfirst.1])
    simp [hd, hfirst.2] at hrun
  simp only [Digits.push, digit?_digitByte, if_neg hzero, ← List.cons_append,
    List.reverse_append, List.reverse_singleton, List.singleton_append]

/-- The mark of an exponent may follow wherever a number without one could end. -/
theorem push_mark {mantissa : Numeral} {mark : UInt8} (hm : digits.numeral? = some mantissa)
    (hnone : mantissa.exponent = none) (hmark : mark = byte 'e' ∨ mark = byte 'E') :
    digits.push (Char.ofUInt8 mark) = .ok (some (.mark mantissa)) := by
  cases digits with
  | sign | point | mark | markSign => simp [Digits.numeral?] at hm
  | whole | fraction =>
    cases hm
    rcases hmark with rfl | rfl <;> rfl
  | exponent =>
    cases hm
    simp [Digits.withExponent] at hnone

theorem reaches_fraction (stack : List Frame) (negative : Bool) (whole : List (Fin 10))
    {fraction : List (Fin 10)} {behind : List UInt8} (h : FractionSpelling fraction behind) :
    ∃ last, Reaches ⟨stack, .numeral (.whole negative whole.reverse)⟩ behind
        ⟨stack, .numeral last⟩ ∧
      last.numeral? = some ⟨negative, whole, fraction, none⟩ := by
  cases h with
  | absent =>
    refine ⟨_, .refl _, ?_⟩
    rw [Digits.numeral?, List.reverse_reverse]
  | present hne =>
    rcases List.exists_cons_of_ne_nil hne with ⟨first, run, rfl⟩
    have hpoint : (Digits.whole negative whole.reverse).push (Char.ofUInt8 (byte '.')) =
        .ok (some (.point negative whole)) := by
      have h : (Digits.whole negative whole.reverse).push (Char.ofUInt8 (byte '.')) =
          .ok (some (.point negative whole.reverse.reverse)) := rfl
      rwa [List.reverse_reverse] at h
    have hfirst : (Digits.point negative whole).push
        (Char.ofUInt8 (digitByte first)) =
          .ok (some (.fraction negative whole [first])) := by
      simp only [Digits.push, digit?_digitByte]
    have hrun : Reaches ⟨stack, .numeral (.fraction negative whole [first])⟩ (digitBytes run)
        ⟨stack, .numeral (.fraction negative whole (first :: run).reverse)⟩ := by
      apply reaches_digits fun before => .fraction negative whole (first :: before).reverse
      intro before d after hd
      simp only [Digits.push, digit?_digitByte, ← List.cons_append, List.reverse_append,
        List.reverse_singleton, List.singleton_append]
    refine ⟨_, .step (step_numeral_of_push hpoint) (.step (step_numeral_of_push hfirst) hrun), ?_⟩
    rw [Digits.numeral?, List.reverse_reverse]

theorem reaches_exponentSign (stack : List Frame) (mantissa : Numeral) {negative : Bool}
    {sign : List UInt8} (h : ExponentSignSpelling negative sign) :
    ∃ last, Reaches ⟨stack, .numeral (.mark mantissa)⟩ sign ⟨stack, .numeral last⟩ ∧
      ∀ d : Fin 10, last.push (Char.ofUInt8 (digitByte d)) =
        (Digits.pushExponent mantissa negative d.val).map some := by
  cases h with
  | unsigned =>
    refine ⟨_, .refl _, ?_⟩
    intro d
    simp only [Digits.push, digit?_digitByte]
  | positive =>
    refine ⟨.markSign mantissa false, .single (step_numeral_of_push rfl), ?_⟩
    intro d
    simp only [Digits.push, digit?_digitByte]
  | negative =>
    refine ⟨.markSign mantissa true, .single (step_numeral_of_push rfl), ?_⟩
    intro d
    simp only [Digits.push, digit?_digitByte]

theorem reaches_exponent (stack : List Frame) {mantissa : Numeral} {negative : Bool}
    {first : Fin 10} {run : List (Fin 10)} {sign : List UInt8} {mark : UInt8}
    (hm : digits.numeral? = some mantissa) (hnone : mantissa.exponent = none)
    (hmark : mark = byte 'e' ∨ mark = byte 'E') (hsign : ExponentSignSpelling negative sign)
    (h : (Digits.withExponent mantissa negative
      (Numeral.value (first :: run))).exponentOverflows = false) :
    Reaches ⟨stack, .numeral digits⟩ (mark :: (sign ++ digitBytes (first :: run)))
      ⟨stack, .numeral (.exponent mantissa negative (Numeral.value (first :: run)))⟩ := by
  have hvalue : Numeral.value (first :: run) = Numeral.valueFrom first.val run := by
    simp [Numeral.value, Numeral.valueFrom]
  rw [hvalue] at h ⊢
  rcases reaches_exponentSign stack mantissa hsign with ⟨last, hrun, hlast⟩
  -- what was read of the digits is never more than all of them
  have hpush : ∀ before after, run = before ++ after →
      Digits.pushExponent mantissa negative (Numeral.valueFrom first.val before) =
        .ok (.exponent mantissa negative (Numeral.valueFrom first.val before)) := by
    intro before after hbefore
    refine pushExponent_of_not_overflows (exponentOverflows_mono ?_ h)
    rw [hbefore, valueFrom_append]
    exact le_valueFrom _ after
  have hfirst : last.push (Char.ofUInt8 (digitByte first)) =
      .ok (some (.exponent mantissa negative (Numeral.valueFrom first.val []))) := by
    rw [hlast]
    exact congrArg (Except.map some) (hpush [] run rfl)
  have hmore : Reaches ⟨stack, .numeral (.exponent mantissa negative first.val)⟩ (digitBytes run)
      ⟨stack, .numeral (.exponent mantissa negative (Numeral.valueFrom first.val run))⟩ := by
    apply reaches_digits fun before =>
      .exponent mantissa negative (Numeral.valueFrom first.val before)
    intro before d after hd
    have hnext := hpush (before ++ [d]) after (by rw [hd, List.append_assoc]; rfl)
    simp only [Digits.push, digit?_digitByte, ← valueFrom_concat, hnext]
    rfl
  exact .step (step_numeral_of_push (push_mark hm hnone hmark))
    (hrun.trans (.step (step_numeral_of_push hfirst) hmore))

theorem startValue_of_digit? {c : Char} {d : Fin 10} (h : digit? c = some d) :
    startValue stack c = .ok ⟨stack, .numeral (.whole false [d])⟩ := by
  unfold startValue
  split
  case h_8 => rw [h]
  -- every other character that starts a value is no digit
  all_goals cases h

/-- The state behind the first digit of a number. -/
theorem reaches_sign (stack : List Frame) (first : Fin 10) {negative : Bool}
    {sign : List UInt8} (h : SignSpelling negative sign) :
    ∃ b rest start, sign ++ [digitByte first] = b :: rest ∧
      startValue stack (Char.ofUInt8 b) = .ok start ∧
      Reaches start rest ⟨stack, .numeral (.whole negative [first])⟩ := by
  cases h with
  | positive =>
    exact ⟨digitByte first, [], _, rfl, startValue_of_digit? (digit?_digitByte first), .refl _⟩
  | negative =>
    refine ⟨byte '-', [digitByte first], _, rfl, rfl, .single (step_numeral_of_push ?_)⟩
    simp only [Digits.push, digit?_digitByte]

/-- A number literal is read as its numeral, unless its exponent alone is too large. -/
theorem reaches_numeral (stack : List Frame) {numeral : Numeral} {bytes : List UInt8}
    (h : NumeralSpelling numeral bytes) (hrange : numeral.exponentOverflows = false) :
    ∃ b rest start last, bytes = b :: rest ∧ startValue stack (Char.ofUInt8 b) = .ok start ∧
      Reaches start rest ⟨stack, .numeral last⟩ ∧ last.numeral? = some numeral := by
  cases h with
  | @mk negative whole fraction exponent sign behind power hsign hwhole hfraction hexponent =>
    rcases List.exists_cons_of_ne_nil hwhole.1 with ⟨first, run, rfl⟩
    rcases reaches_sign stack first hsign with ⟨b, rest, start, hfirst, hstart, hreach⟩
    rcases reaches_fraction stack negative (first :: run) hfraction with ⟨last, hbehind, hlast⟩
    have hmantissa := hreach.trans ((reaches_whole hwhole).trans hbehind)
    have hbytes : sign ++ digitBytes (first :: run) ++ behind =
        b :: (rest ++ (digitBytes run ++ behind)) := by
      rw [← List.cons_append, ← hfirst]
      simp [digitBytes]
    rw [hbytes, List.cons_append]
    cases hexponent with
    | absent => exact ⟨b, _, start, last, rfl, hstart, by rwa [List.append_nil], hlast⟩
    | @present mark negative' sign' digits' hmark hsign' hne =>
      rcases List.exists_cons_of_ne_nil hne with ⟨first', run', rfl⟩
      have hexponent := reaches_exponent stack hlast rfl hmark hsign' hrange
      exact ⟨b, _, start, _, rfl, hstart, hmantissa.trans hexponent, rfl⟩

theorem finish_of_numeral? {numeral : Numeral} (h : digits.numeral? = some numeral)
    (hrange : numeral.overflows = false) : digits.finish = .ok (.number numeral) := by
  simp [Digits.finish, h, hrange]

theorem numeral?_of_finish {value : Json} (h : digits.finish = .ok value) :
    ∃ numeral, digits.numeral? = some numeral ∧ numeral.overflows = false ∧
      value = .number numeral := by
  rw [Digits.finish] at h
  split at h
  · simp at h
  · next numeral hn =>
    split at h
    · simp at h
    · next hrange =>
      cases h
      exact ⟨numeral, hn, by simpa using hrange, rfl⟩

/-! ## What was read -/

/-- The bytes of a literal as far as it was read. -/
inductive NumeralRead : Digits → List UInt8 → Prop where
  | sign : NumeralRead .sign [byte '-']
  | whole {negative : Bool} {digits : List (Fin 10)} {sign : List UInt8} :
      SignSpelling negative sign → IsWhole digits.reverse →
      NumeralRead (.whole negative digits) (sign ++ digitBytes digits.reverse)
  | point {negative : Bool} {before : List (Fin 10)} {sign : List UInt8} :
      SignSpelling negative sign → IsWhole before →
      NumeralRead (.point negative before) (sign ++ digitBytes before ++ [byte '.'])
  | fraction {negative : Bool} {before digits : List (Fin 10)} {sign : List UInt8} :
      SignSpelling negative sign → IsWhole before → digits ≠ [] →
      NumeralRead (.fraction negative before digits)
        (sign ++ digitBytes before ++ byte '.' :: digitBytes digits.reverse)
  | mark {mantissa : Numeral} {bytes : List UInt8} {mark : UInt8} :
      NumeralSpelling mantissa bytes → mantissa.exponent = none →
      mark = byte 'e' ∨ mark = byte 'E' → NumeralRead (.mark mantissa) (bytes ++ [mark])
  | markSign {mantissa : Numeral} {negative : Bool} {bytes sign : List UInt8} {mark : UInt8} :
      NumeralSpelling mantissa bytes → mantissa.exponent = none →
      mark = byte 'e' ∨ mark = byte 'E' → ExponentSignSpelling negative sign →
      NumeralRead (.markSign mantissa negative) (bytes ++ mark :: sign)
  | exponent {mantissa : Numeral} {negative : Bool} {bytes sign : List UInt8} {mark : UInt8}
      {digits : List (Fin 10)} :
      NumeralSpelling mantissa bytes → mantissa.exponent = none →
      mark = byte 'e' ∨ mark = byte 'E' → ExponentSignSpelling negative sign → digits ≠ [] →
      NumeralRead (.exponent mantissa negative (Numeral.value digits))
        (bytes ++ mark :: (sign ++ digitBytes digits))

theorem digitBytes_concat (run : List (Fin 10)) (d : Fin 10) :
    digitBytes (run ++ [d]) = digitBytes run ++ [digitByte d] := by
  simp [digitBytes]

/-- A mantissa with an exponent part behind it. -/
theorem NumeralSpelling.withExponent {mantissa : Numeral} {exponent : Option Int}
    {bytes power : List UInt8} (h : NumeralSpelling mantissa bytes)
    (hnone : mantissa.exponent = none) (hexponent : ExponentSpelling exponent power) :
    NumeralSpelling { mantissa with exponent } (bytes ++ power) := by
  cases h with
  | mk hsign hwhole hfraction hnothing =>
    cases hnone
    cases hnothing
    rw [List.append_nil]
    exact .mk hsign hwhole hfraction hexponent

/-- A literal that may end here is spelled by what was read. -/
theorem NumeralRead.spelling {source : List UInt8} {numeral : Numeral}
    (h : NumeralRead digits source) (hn : digits.numeral? = some numeral) :
    NumeralSpelling numeral source := by
  cases h with
  | sign | point | mark | markSign => simp [Digits.numeral?] at hn
  | whole hsign hwhole =>
    cases hn
    have hspelling := NumeralSpelling.mk hsign hwhole .absent .absent
    rwa [List.append_nil, List.append_nil] at hspelling
  | fraction hsign hwhole hne =>
    cases hn
    have hspelling := NumeralSpelling.mk hsign hwhole
      (.present (List.reverse_eq_nil_iff.not.mpr hne)) .absent
    rwa [List.append_nil] at hspelling
  | exponent hspelling hnone hmark hsign hne =>
    cases hn
    exact hspelling.withExponent hnone (.present hmark hsign hne)

theorem IsWhole.concat {run : List (Fin 10)} (h : IsWhole run.reverse)
    (hzero : run ≠ [Numeral.zeroDigit]) (d : Fin 10) : IsWhole (d :: run).reverse := by
  rw [List.reverse_cons]
  refine ⟨by simp, ?_⟩
  intro hhead
  -- a zero in front of the new digit was in front before, so it was alone
  have hfirst : run.reverse.head? = some Numeral.zeroDigit := by
    rw [List.head?_append, Option.or_eq_some_iff] at hhead
    rcases hhead with hhead | ⟨hnone, -⟩
    · exact hhead
    · exact absurd (List.head?_eq_none_iff.mp hnone) h.1
  have hone := h.2 hfirst
  rw [List.reverse_eq_iff] at hone
  exact absurd hone hzero

/-- The mark of an exponent is only taken behind a number without one. -/
theorem NumeralRead.pushMark {source : List UInt8} {mantissa : Numeral}
    (h : NumeralRead digits source) (hm : digits.numeral? = some mantissa)
    (hnone : mantissa.exponent = none)
    (hmark : Char.ofUInt8 b = 'e' ∨ Char.ofUInt8 b = 'E') :
    NumeralRead (.mark mantissa) (source ++ [b]) := by
  exact .mark (h.spelling hm) hnone (hmark.imp eq_byte_of_ofUInt8 eq_byte_of_ofUInt8)

theorem pushExponent_eq_ok {mantissa : Numeral} {negative : Bool} {n : Nat}
    (h : (Digits.pushExponent mantissa negative n).map some = .ok (some next)) :
    next = .exponent mantissa negative n := by
  rw [Digits.pushExponent] at h
  split at h
  · simp [Except.map] at h
  · simpa [Except.map, eq_comm] using h

/-- One more byte of a literal. -/
theorem NumeralRead.push {source : List UInt8} (h : NumeralRead digits source)
    (hp : digits.push (Char.ofUInt8 b) = .ok (some next)) : NumeralRead next (source ++ [b]) := by
  have hread := h
  cases h with
  | sign =>
    rw [Digits.push] at hp
    split at hp
    · next d hd =>
      cases hp
      rcases digit?_ofUInt8_eq_some_iff.mp hd with rfl
      have hone : IsWhole [d].reverse := ⟨by simp, by simp⟩
      exact .whole .negative hone
    · simp at hp
  | whole hsign hwhole =>
    rw [Digits.push] at hp
    split at hp
    · next d hd =>
      rw [digit?_ofUInt8_eq_some_iff] at hd
      split at hp
      · simp at hp
      · next hzero =>
        cases hp
        subst hd
        have hmore := NumeralRead.whole hsign (hwhole.concat hzero d)
        rwa [List.reverse_cons, digitBytes_concat, ← List.append_assoc] at hmore
    · split at hp
      · next hpoint =>
        cases hp
        rcases eq_byte_of_ofUInt8 hpoint with rfl
        exact .point hsign hwhole
      · split at hp
        · next hmark =>
          cases hp
          exact hread.pushMark rfl rfl hmark
        · simp at hp
  | point hsign hwhole =>
    rw [Digits.push] at hp
    split at hp
    · next d hd =>
      cases hp
      rcases digit?_ofUInt8_eq_some_iff.mp hd with rfl
      rw [List.append_assoc]
      exact .fraction hsign hwhole (List.cons_ne_nil d [])
    · simp at hp
  | @fraction negative before digits sign hsign hwhole hne =>
    rw [Digits.push] at hp
    split at hp
    · next d hd =>
      cases hp
      rcases digit?_ofUInt8_eq_some_iff.mp hd with rfl
      have hmore := NumeralRead.fraction hsign hwhole (List.cons_ne_nil d digits)
      rw [List.reverse_cons, digitBytes_concat, ← List.cons_append, ← List.append_assoc] at hmore
      exact hmore
    · split at hp
      · next hmark =>
        cases hp
        exact hread.pushMark rfl rfl hmark
      · simp at hp
  | mark hspelling hnone hmark =>
    rw [Digits.push] at hp
    rw [List.append_assoc]
    split at hp
    · next d hd =>
      cases pushExponent_eq_ok hp
      rcases digit?_ofUInt8_eq_some_iff.mp hd with rfl
      have hvalue : d.val = Numeral.value [d] := by simp [Numeral.value, Numeral.valueFrom]
      rw [hvalue]
      exact .exponent hspelling hnone hmark .unsigned (List.cons_ne_nil d [])
    · split at hp
      · next hplus =>
        cases hp
        rcases eq_byte_of_ofUInt8 hplus with rfl
        exact .markSign hspelling hnone hmark .positive
      · split at hp
        · next hminus =>
          cases hp
          rcases eq_byte_of_ofUInt8 hminus with rfl
          exact .markSign hspelling hnone hmark .negative
        · simp at hp
  | markSign hspelling hnone hmark hsign =>
    rw [Digits.push] at hp
    rw [List.append_assoc]
    split at hp
    · next d hd =>
      cases pushExponent_eq_ok hp
      rcases digit?_ofUInt8_eq_some_iff.mp hd with rfl
      have hvalue : d.val = Numeral.value [d] := by simp [Numeral.value, Numeral.valueFrom]
      rw [hvalue]
      exact .exponent hspelling hnone hmark hsign (List.cons_ne_nil d [])
    · simp at hp
  | exponent hspelling hnone hmark hsign hne =>
    rw [Digits.push] at hp
    rw [List.append_assoc, List.cons_append, List.append_assoc]
    split at hp
    · next d hd =>
      cases pushExponent_eq_ok hp
      rcases digit?_ofUInt8_eq_some_iff.mp hd with rfl
      rw [← digitBytes_concat, Numeral.value, ← valueFrom_concat]
      exact .exponent hspelling hnone hmark hsign (by simp)
    · simp at hp

/-- The first byte of a number literal. -/
theorem numeralRead_of_digit? {d : Fin 10} (h : digit? (Char.ofUInt8 b) = some d) :
    NumeralRead (.whole false [d]) [b] := by
  rw [digit?_ofUInt8_eq_some_iff] at h
  subst h
  have hone : IsWhole [d].reverse := ⟨by simp, by simp⟩
  exact .whole .positive hone

end Readiness.Json
