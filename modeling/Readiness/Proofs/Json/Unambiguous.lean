import Readiness.Proofs.Json.Completeness
import Readiness.Proofs.Json.Soundness

namespace Readiness.Json

/-! # One text, one document

A text that is read spells no other document than the one that is found in it. The induction
follows the grammar along a run that is already there: whatever is spelled next was read next, so
every bracket of the document was opened while there was room, and every number was found to be in
range where it ended.
-/

variable {state next last : State} {stack : List Frame} {value : Json} {bytes : List UInt8}
  {numeral : Numeral} {room : Nat} {b : UInt8}

/-! ## Numbers that end -/

/-- A number that ends here is in range. -/
def State.Closes (state : State) : Prop :=
  ∀ digits numeral, state.phase = .numeral digits → digits.numeral? = some numeral →
    numeral.overflows = false

theorem overflows_of_finish {digits : Digits} (h : digits.finish = .ok value)
    (hn : digits.numeral? = some numeral) : numeral.overflows = false := by
  rcases numeral?_of_finish h with ⟨numeral', hn', hrange, -⟩
  rw [hn', Option.some.injEq] at hn
  rwa [← hn]

/-- What follows a number and is no part of it ends the number. -/
theorem closes_of_step (hs : state.step b = .ok next) (hb : Delimits (Char.ofUInt8 b)) :
    state.Closes := by
  rcases state with ⟨stack, phase⟩
  rintro digits numeral hphase hn
  simp only at hphase
  subst hphase
  simp only [State.step, push_of_delimits hb hn, closeNumeral] at hs
  split at hs
  · cases hs
  · next hfinish => exact overflows_of_finish hfinish hn

theorem closes_of_finish (h : state.finish = .ok value) : state.Closes := by
  rintro digits numeral hphase hn
  rcases finish_eq_ok h with rfl | ⟨digits', rfl, hfinish⟩
  · cases hphase
  · cases hphase
    exact overflows_of_finish hfinish hn

/-- Blanks behind a value end it, and without any it ends where they would be. -/
theorem closes_of_blanks {blanks : List UInt8} (hblanks : IsBlanks blanks)
    (hrun : Reaches state blanks last) (hlast : last.Closes) : state.Closes := by
  cases hrun with
  | refl _ => exact hlast
  | step hs _ =>
    have hb := (isBlanks_cons_iff.mp hblanks).1
    rw [isBlanks_singleton_iff] at hb
    exact closes_of_step hs (delimits_of_isBlank hb)

/-! ## Numbers that were read -/

/-- A digit that an exponent took does not make it too large. -/
theorem exponent_of_step {mantissa : Numeral} {negative : Bool} {n : Nat} {digits : Digits}
    (hpush : digits.push (Char.ofUInt8 b) = (Digits.pushExponent mantissa negative n).map some)
    (hs : State.step ⟨stack, .numeral digits⟩ b = .ok next) :
    (Digits.withExponent mantissa negative n).exponentOverflows = false ∧
      next = ⟨stack, .numeral (.exponent mantissa negative n)⟩ := by
  by_cases hover : (Digits.withExponent mantissa negative n).exponentOverflows = true
  · simp [State.step, hpush, Digits.pushExponent, hover, Except.map] at hs
  · rw [Bool.not_eq_true] at hover
    rw [pushExponent_of_not_overflows hover] at hpush
    rw [step_numeral_of_push hpush, Except.ok.injEq] at hs
    exact ⟨hover, hs.symm⟩

theorem exponentOverflows_of_reaches_digits {mantissa : Numeral} {negative : Bool} {start : Nat}
    {digits : Digits} {first : Fin 10} {run : List (Fin 10)}
    (hpush : ∀ d : Fin 10, digits.push (Char.ofUInt8 (digitByte d)) =
      (Digits.pushExponent mantissa negative (10 * start + d.val)).map some)
    (hrun : Reaches ⟨stack, .numeral digits⟩ (digitBytes (first :: run)) last) :
    (Digits.withExponent mantissa negative
      (Numeral.valueFrom start (first :: run))).exponentOverflows = false := by
  induction run generalizing start digits first with
  | nil =>
    cases hrun with
    | step hs _ => exact (exponent_of_step (hpush first) hs).1
  | cons second run ih =>
    cases hrun with
    | step hs hrest =>
      rcases exponent_of_step (hpush first) hs with ⟨-, rfl⟩
      refine ih ?_ hrest
      intro d
      simp only [Digits.push, digit?_digitByte]

theorem Expects.reaches_numeral (h : Expects state stack) (hnumeral : NumeralSpelling numeral bytes)
    (hrange : numeral.exponentOverflows = false) :
    ∃ digits, Reaches state bytes ⟨stack, .numeral digits⟩ ∧ digits.numeral? = some numeral := by
  rcases Json.reaches_numeral stack hnumeral hrange with
    ⟨b, rest, start, digits, rfl, hstart, hrun, hn⟩
  exact ⟨digits, .step (h.step_start hstart) hrun, hn⟩

/-- The exponent of a number that was read is not too large. -/
theorem exponentOverflows_of_reaches (h : Expects state stack)
    (hnumeral : NumeralSpelling numeral bytes) (hrun : Reaches state bytes last) :
    numeral.exponentOverflows = false := by
  cases hnumeral with
  | @mk negative whole fraction exponent sign behind power hsign hwhole hfraction hexponent =>
    cases hexponent with
    | absent => rfl
    | @present mark negative' sign' digits' hmark hsign' hne =>
      have hmantissa : NumeralSpelling ⟨negative, whole, fraction, none⟩
          (sign ++ digitBytes whole ++ behind) := by
        simpa using NumeralSpelling.mk hsign hwhole hfraction .absent
      rcases h.reaches_numeral hmantissa rfl with ⟨digits, hbefore, hn⟩
      rcases List.exists_cons_of_ne_nil hne with ⟨first, more, rfl⟩
      cases hbefore.rest hrun with
      | step hs hpower =>
        rw [step_numeral_of_push (push_mark hn rfl hmark), Except.ok.injEq] at hs
        subst hs
        rcases reaches_exponentSign stack ⟨negative, whole, fraction, none⟩ hsign' with
          ⟨signed, hsigned, hpush⟩
        have hstart : ∀ d : Fin 10, signed.push (Char.ofUInt8 (digitByte d)) =
            (Digits.pushExponent ⟨negative, whole, fraction, none⟩ negative'
              (10 * 0 + d.val)).map some := by
          intro d
          rw [hpush, Nat.mul_zero, Nat.zero_add]
        exact exponentOverflows_of_reaches_digits hstart (hsigned.rest hpower)

/-- A number that was read up to its end is in range. -/
theorem overflows_of_reaches (h : Expects state stack) (hnumeral : NumeralSpelling numeral bytes)
    (hrun : Reaches state bytes last) (hlast : last.Closes) : numeral.overflows = false := by
  rcases h.reaches_numeral hnumeral (exponentOverflows_of_reaches h hnumeral hrun) with
    ⟨digits, hdigits, hn⟩
  exact hlast digits numeral (by rw [← hdigits.eq hrun]) hn

/-! ## Documents that were read -/

/-- A bracket that was opened had room to be opened. -/
theorem Expects.of_step_bracket {phase : Phase} (h : Expects state stack)
    (hb : isBlank (Char.ofUInt8 b) = false ∧ Char.ofUInt8 b ≠ ']')
    (hopen : startValue stack (Char.ofUInt8 b) = openBracket stack phase)
    (hs : state.step b = .ok next) : stack.length < depthLimit ∧ next = ⟨stack, phase⟩ := by
  rw [h.step_eq hb.1 hb.2, hopen, atByte_eq_ok_iff] at hs
  exact openBracket_eq_ok hs

/-- A value that fits leaves itself behind wherever it was read. -/
theorem holds_of_reaches_text (h : TextSpelling value bytes) (hexpects : Expects state stack)
    (hroom : stack.length + room = depthLimit) (hfits : Fits room value)
    (hrun : Reaches state bytes last) : Holds last stack value := by
  rcases reaches_text h hexpects (Nat.le_of_eq hroom) hfits with ⟨last', hrun', hholds⟩
  rwa [← hrun'.eq hrun]

mutual

/-- A value that was read fits the room that it was read in. -/
theorem fits_of_reaches {state last : State} {stack : List Frame} {value : Json}
    {bytes : List UInt8} {room : Nat} (h : Spelling value bytes) (hexpects : Expects state stack)
    (hroom : stack.length + room = depthLimit) (hrun : Reaches state bytes last)
    (hlast : last.Closes) : Fits room value := by
  match h with
  | .null | .true | .false | .string _ => exact fits_leaf rfl rfl
  | @Spelling.number numeral _ h =>
    refine ⟨Nat.zero_le room, ?_⟩
    intro numeral' hmem
    rw [numerals, List.mem_singleton] at hmem
    subst hmem
    exact overflows_of_reaches hexpects h hrun hlast
  | .emptyArray _ =>
    cases hrun with
    | step hs _ =>
      have hlt := (hexpects.of_step_bracket (by decide) rfl hs).1
      exact fits_array.mpr ⟨by omega, by simp⟩
  | .array h =>
    cases hrun with
    | step hs hrest =>
      -- the bracket was opened, so there was room for one more
      rcases hexpects.of_step_bracket (by decide) rfl hs with ⟨hlt, rfl⟩
      exact fits_array.mpr ⟨by omega, fits_of_reaches_items h .firstItem (by omega) hrest⟩
  | .emptyObject _ =>
    cases hrun with
    | step hs _ =>
      have hlt := (hexpects.of_step_bracket (by decide) rfl hs).1
      exact fits_object.mpr ⟨by omega, by simp⟩
  | .object h =>
    cases hrun with
    | step hs hrest =>
      rcases hexpects.of_step_bracket (by decide) rfl hs with ⟨hlt, rfl⟩
      exact fits_object.mpr ⟨by omega, fits_of_reaches_members h .first (by omega) hrest⟩

/-- A value with blanks around it. -/
theorem fits_of_reaches_text {state last : State} {stack : List Frame} {value : Json}
    {bytes : List UInt8} {room : Nat} (h : TextSpelling value bytes)
    (hexpects : Expects state stack) (hroom : stack.length + room = depthLimit)
    (hrun : Reaches state bytes last) (hlast : last.Closes) : Fits room value := by
  match h with
  | .mk hbefore hvalue hafter =>
    rcases hrun.split with ⟨middle, hfront, hback⟩
    exact fits_of_reaches hvalue hexpects hroom ((hexpects.reaches_blanks hbefore).rest hfront)
      (closes_of_blanks hafter hback hlast)

/-- The items that are left of an array, up to its end. -/
theorem fits_of_reaches_items {state last : State} {stack : List Frame} {items done : List Json}
    {bytes : List UInt8} {room : Nat} (h : ItemsSpelling items bytes)
    (hexpects : Expects state (.array done :: stack))
    (hroom : stack.length + 1 + room = depthLimit)
    (hrun : Reaches state (bytes ++ [byte ']']) last) : ∀ item ∈ items, Fits room item := by
  match h with
  | @ItemsSpelling.last item _ h =>
    rcases hrun.split with ⟨middle, hitem, hrest⟩
    cases hrest with
    | step hs _ =>
      have hfits := fits_of_reaches_text h hexpects hroom hitem (closes_of_step hs (by decide))
      exact List.forall_mem_singleton.mpr hfits
  | @ItemsSpelling.more item items _ _ h h' =>
    rw [List.append_assoc] at hrun
    rcases hrun.split with ⟨middle, hitem, hrest⟩
    cases hrest with
    | step hs hmore =>
      have hfits := fits_of_reaches_text h hexpects hroom hitem (closes_of_step hs (by decide))
      have hholds := holds_of_reaches_text h hexpects hroom hfits hitem
      -- only now it is known where the comma leads
      rw [hholds.step_eq (by decide)] at hs
      cases hs
      exact List.forall_mem_cons.mpr ⟨hfits, fits_of_reaches_items h' .nextItem hroom hmore⟩

/-- The members that are left of an object, up to its end. -/
theorem fits_of_reaches_members {state last : State} {outer : List Frame}
    {members done : List (String × Json)} {bytes : List UInt8} {room : Nat}
    (h : MembersSpelling members bytes) (hexpects : ExpectsKey state outer done)
    (hroom : outer.length + 1 + room = depthLimit)
    (hrun : Reaches state (bytes ++ [byte '}']) last) :
    ∀ member ∈ members, Fits room member.2 := by
  match h with
  | @MembersSpelling.last key value name bytes hkey hvalue =>
    have hvalued : Expects ⟨.object done key :: outer, .value⟩ _ := .value
    rw [List.append_assoc, List.cons_append, List.append_cons] at hrun
    rcases ((hexpects.reaches_key hkey).rest hrun).split with ⟨middle, hread, hrest⟩
    cases hrest with
    | step hs _ =>
      have hfits := fits_of_reaches_text hvalue hvalued hroom hread
        (closes_of_step hs (by decide))
      exact List.forall_mem_singleton.mpr hfits
  | @MembersSpelling.more key value members name bytes rest hkey hvalue hmembers =>
    have hvalued : Expects ⟨.object done key :: outer, .value⟩ _ := .value
    simp only [List.append_assoc, List.cons_append] at hrun
    rw [List.append_cons] at hrun
    rcases ((hexpects.reaches_key hkey).rest hrun).split with ⟨middle, hread, hrest⟩
    cases hrest with
    | step hs hmore =>
      have hfits := fits_of_reaches_text hvalue hvalued hroom hread
        (closes_of_step hs (by decide))
      have hholds := holds_of_reaches_text hvalue hvalued hroom hfits hread
      rw [hholds.step_eq (by decide)] at hs
      cases hs
      exact List.forall_mem_cons.mpr
        ⟨hfits, fits_of_reaches_members hmembers .next hroom hmore⟩

end

/-- A document fits if a text that spells it is read. -/
theorem fits_of_read {document found : Json} (h : TextSpelling document bytes)
    (hread : read bytes = .ok found) : Fits depthLimit document := by
  have hinitial : Expects .initial [] := .value
  rcases read_eq_ok_iff.mp hread with ⟨last, hrun, hfinish⟩
  exact fits_of_reaches_text h hinitial (Nat.zero_add depthLimit) hrun (closes_of_finish hfinish)

/-- A text that spells a document is read as no other document. -/
theorem eq_of_read {document found : Json} (h : TextSpelling document bytes)
    (hread : read bytes = .ok found) : found = document := by
  rw [read_of_spelling h (fits_of_read h hread), Except.ok.injEq] at hread
  exact hread.symm

end Readiness.Json
