import Readiness.Proofs.Json.Numerals
import Readiness.Proofs.Json.Strings

namespace Readiness.Json

/-! # Every spelling is read

Each spelling of a document that fits is read as that document. The induction follows the
grammar. A value is read the same way wherever it may start, and whatever follows it, so the
hypotheses speak of where a value is expected and of a value that is complete, not of phases.
-/

variable {state : State} {stack : List Frame} {value : Json}

/-! ## Where values start and end -/

/-- A value may start here, over this stack. -/
inductive Expects : State → List Frame → Prop where
  | value {stack : List Frame} : Expects ⟨stack, .value⟩ stack
  | firstItem {stack : List Frame} : Expects ⟨stack, .firstItem⟩ (.array [] :: stack)
  | nextItem {stack : List Frame} : Expects ⟨stack, .nextItem⟩ stack

/-- A value is complete over this stack. A number is complete without knowing it. -/
inductive Holds : State → List Frame → Json → Prop where
  | after {stack : List Frame} {value : Json} : Holds ⟨stack, .after value⟩ stack value
  | numeral {stack : List Frame} {value : Json} {digits : Digits} :
      digits.finish = .ok value → Holds ⟨stack, .numeral digits⟩ stack value

/-- What starts a value is no blank, and closes no array. -/
theorem not_blank_of_startValue {c : Char} {start : State}
    (h : startValue stack c = .ok start) : isBlank c = false ∧ c ≠ ']' := by
  constructor
  · by_contra hblank
    simp only [isBlank, Bool.not_eq_false, Bool.or_eq_true, beq_iff_eq] at hblank
    rcases hblank with ((rfl | rfl) | rfl) | rfl <;> cases h
  · rintro rfl
    cases h

/-- A byte that is no blank and closes no array starts the value. -/
theorem Expects.step_eq {b : UInt8} (h : Expects state stack)
    (hblank : isBlank (Char.ofUInt8 b) = false) (hclose : Char.ofUInt8 b ≠ ']') :
    state.step b = atByte (startValue stack (Char.ofUInt8 b)) := by
  cases h with
  | value => simp [State.step, stepBetween, hblank]
  | firstItem => simp [State.step, stepBetween, hblank, hclose]
  | nextItem => simp [State.step, stepBetween, hblank, hclose]

theorem Expects.step_start {b : UInt8} {start : State} (h : Expects state stack)
    (hstart : startValue stack (Char.ofUInt8 b) = .ok start) : state.step b = .ok start := by
  rcases not_blank_of_startValue hstart with ⟨hblank, hclose⟩
  rw [h.step_eq hblank hclose, hstart]
  rfl

/-- Blanks in front of a value change nothing. -/
theorem Expects.reaches_blanks {blanks : List UInt8} (h : Expects state stack)
    (hblanks : IsBlanks blanks) : Reaches state blanks state := by
  apply Reaches.of_stays
  intro b hb
  have hblank := isBlanks_iff.mp hblanks b hb
  cases h <;> simp [State.step, stepBetween, hblank, atByte, Except.mapError]

/-- A character that no number goes on with. -/
def Delimits (c : Char) : Prop := digit? c = none ∧ c ≠ '.' ∧ c ≠ 'e' ∧ c ≠ 'E'

instance (c : Char) : Decidable (Delimits c) :=
  inferInstanceAs (Decidable (digit? c = none ∧ c ≠ '.' ∧ c ≠ 'e' ∧ c ≠ 'E'))

theorem delimits_of_isBlank {c : Char} (h : isBlank c = true) : Delimits c := by
  simp only [isBlank, Bool.or_eq_true, beq_iff_eq] at h
  rcases h with ((rfl | rfl) | rfl) | rfl <;> decide

theorem push_of_delimits {digits : Digits} {numeral : Numeral} {c : Char} (hc : Delimits c)
    (h : digits.numeral? = some numeral) : digits.push c = .ok none := by
  rcases hc with ⟨hdigit, hpoint, hmark, hmark'⟩
  cases digits with
  | sign | point | mark | markSign => simp [Digits.numeral?] at h
  | whole | fraction | exponent => simp [Digits.push, hdigit, hpoint, hmark, hmark']

/-- Behind a complete value it does not matter how it was completed. -/
theorem Holds.step_eq {b : UInt8} (h : Holds state stack value)
    (hb : Delimits (Char.ofUInt8 b)) :
    state.step b = atByte (stepAfter stack value (Char.ofUInt8 b)) := by
  cases h with
  | after => rfl
  | numeral hfinish =>
    -- the byte is not part of the literal, so it closes the literal first
    rcases numeral?_of_finish hfinish with ⟨numeral, hn, -, -⟩
    simp only [State.step, push_of_delimits hb hn, closeNumeral, hfinish]

theorem stepAfter_of_isBlank {c : Char} (h : isBlank c = true) :
    stepAfter stack value c = .ok ⟨stack, .after value⟩ := by
  unfold stepAfter
  rw [if_pos h]

theorem Holds.reaches_blanks {blanks : List UInt8} (h : Holds state stack value)
    (hblanks : IsBlanks blanks) :
    ∃ last, Reaches state blanks last ∧ Holds last stack value := by
  induction blanks generalizing state with
  | nil => exact ⟨state, .refl state, h⟩
  | cons b blanks ih =>
    rcases isBlanks_cons_iff.mp hblanks with ⟨hb, hrest⟩
    rw [isBlanks_singleton_iff] at hb
    have hstep : state.step b = .ok ⟨stack, .after value⟩ := by
      rw [h.step_eq (delimits_of_isBlank hb), stepAfter_of_isBlank hb]
      rfl
    rcases ih .after hrest with ⟨last, hrun, hlast⟩
    exact ⟨last, .step hstep hrun, hlast⟩

theorem Holds.finish (h : Holds state [] value) : state.finish = .ok value := by
  generalize hstack : ([] : List Frame) = stack at h
  cases h with
  | after =>
    subst hstack
    rfl
  | numeral hfinish =>
    subst hstack
    simp only [State.finish, hfinish]
    rfl

/-! ## Keys -/

/-- The next key of an object may start here. -/
inductive ExpectsKey : State → List Frame → List (String × Json) → Prop where
  | first {outer : List Frame} : ExpectsKey ⟨outer, .firstKey⟩ outer []
  | next {outer : List Frame} {members : List (String × Json)} :
      ExpectsKey ⟨outer, .nextKey members⟩ outer members

theorem ExpectsKey.reaches_blanks {outer : List Frame} {members : List (String × Json)}
    {blanks : List UInt8} (h : ExpectsKey state outer members) (hblanks : IsBlanks blanks) :
    Reaches state blanks state := by
  apply Reaches.of_stays
  intro b hb
  have hblank := isBlanks_iff.mp hblanks b hb
  cases h <;> simp [State.step, stepBetween, hblank, atByte, Except.mapError]

/-- A key and its colon lead to where the value is expected. -/
theorem ExpectsKey.reaches_key {outer : List Frame} {members : List (String × Json)}
    {key : String} {name : List UInt8} (h : ExpectsKey state outer members)
    (hname : KeySpelling key name) :
    Reaches state (name ++ [byte ':']) ⟨.object members key :: outer, .value⟩ := by
  cases hname with
  | @mk _ bytes after hbefore hstring hafter =>
    rcases hstring with ⟨hchars⟩
    have hopen : state.step (byte '"') = .ok ⟨outer, .text (.key members) [] .plain⟩ := by
      cases h <;> rfl
    have hcolon : Reaches ⟨outer, .colon members key⟩ after ⟨outer, .colon members key⟩ := by
      apply Reaches.of_stays
      intro b hb
      simp [State.step, stepBetween, isBlanks_iff.mp hafter b hb, atByte, Except.mapError]
    have hall := (h.reaches_blanks hbefore).trans
      (.step hopen ((reaches_string hchars).trans (hcolon.snoc (b := byte ':') rfl)))
    simpa using hall

/-! ## Documents -/

/-- What a value leaves behind, read from its first byte on. -/
def IsRead (stack : List Frame) (value : Json) (bytes : List UInt8) : Prop :=
  ∃ b rest start last, bytes = b :: rest ∧ startValue stack (Char.ofUInt8 b) = .ok start ∧
    Reaches start rest last ∧ Holds last stack value

theorem isRead_array (hroom : stack.length < depthLimit) {bytes : List UInt8} {items : List Json}
    (h : Reaches ⟨stack, .firstItem⟩ (bytes ++ [byte ']']) ⟨stack, .after (.array items)⟩) :
    IsRead stack (.array items) (byte '[' :: bytes ++ [byte ']']) := by
  refine ⟨byte '[', bytes ++ [byte ']'], ⟨stack, .firstItem⟩, _, by rw [List.cons_append], ?_, h,
    .after⟩
  show openBracket stack .firstItem = _
  rw [openBracket, if_pos hroom]

theorem isRead_object (hroom : stack.length < depthLimit) {bytes : List UInt8}
    {members : List (String × Json)}
    (h : Reaches ⟨stack, .firstKey⟩ (bytes ++ [byte '}']) ⟨stack, .after (.object members)⟩) :
    IsRead stack (.object members) (byte '{' :: bytes ++ [byte '}']) := by
  refine ⟨byte '{', bytes ++ [byte '}'], ⟨stack, .firstKey⟩, _, by rw [List.cons_append], ?_, h,
    .after⟩
  show openBracket stack .firstKey = _
  rw [openBracket, if_pos hroom]

mutual

/-- A value is read from its first byte on, over any stack that leaves room for it. -/
theorem isRead_of_spelling {stack : List Frame} {value : Json} {bytes : List UInt8} {room : Nat}
    (h : Spelling value bytes) (hroom : stack.length + room ≤ depthLimit)
    (hfits : Fits room value) : IsRead stack value bytes := by
  match h with
  | .null =>
    exact ⟨byte 'n', [byte 'u', byte 'l', byte 'l'], ⟨stack, .name ['u', 'l', 'l'] .null⟩, _,
      rfl, rfl, .step rfl (.step rfl (.single rfl)), .after⟩
  | .true =>
    exact ⟨byte 't', [byte 'r', byte 'u', byte 'e'],
      ⟨stack, .name ['r', 'u', 'e'] (.bool true)⟩, _,
      rfl, rfl, .step rfl (.step rfl (.single rfl)), .after⟩
  | .false =>
    exact ⟨byte 'f', [byte 'a', byte 'l', byte 's', byte 'e'],
      ⟨stack, .name ['a', 'l', 's', 'e'] (.bool false)⟩, _,
      rfl, rfl, .step rfl (.step rfl (.step rfl (.single rfl))), .after⟩
  | @Spelling.number numeral _ h =>
    have hrange := hfits.numerals numeral (by simp [numerals])
    rcases reaches_numeral stack h (exponentOverflows_of_overflows hrange) with
      ⟨b, rest, start, last, rfl, hstart, hrun, hlast⟩
    exact ⟨b, rest, start, _, rfl, hstart, hrun, .numeral (finish_of_numeral? hlast hrange)⟩
  | .string (.mk h) =>
    exact ⟨byte '"', _, ⟨stack, .text .value [] .plain⟩, _, rfl, rfl, reaches_string h, .after⟩
  | .emptyArray h =>
    have hpos := (fits_array.mp hfits).1
    have hexpects : Expects ⟨stack, .firstItem⟩ (.array [] :: stack) := .firstItem
    have hblanks := hexpects.reaches_blanks h
    exact isRead_array (by omega) (hblanks.snoc rfl)
  | .array h =>
    rcases fits_array.mp hfits with ⟨hpos, hitems⟩
    exact isRead_array (by omega) (reaches_items h .firstItem (by omega) hitems)
  | .emptyObject h =>
    have hpos := (fits_object.mp hfits).1
    exact isRead_object (by omega) ((ExpectsKey.first.reaches_blanks h).snoc rfl)
  | .object h =>
    rcases fits_object.mp hfits with ⟨hpos, hmembers⟩
    exact isRead_object (by omega) (reaches_members h .first (by omega) hmembers)

/-- A value with blanks around it is read wherever a value may start. -/
theorem reaches_text {state : State} {stack : List Frame} {value : Json} {bytes : List UInt8}
    {room : Nat} (h : TextSpelling value bytes)
    (hexpects : Expects state stack) (hroom : stack.length + room ≤ depthLimit)
    (hfits : Fits room value) :
    ∃ last, Reaches state bytes last ∧ Holds last stack value := by
  match h with
  | .mk hbefore hvalue hafter =>
    rcases isRead_of_spelling hvalue hroom hfits with
      ⟨b, rest, start, middle, rfl, hstart, hrest, hmiddle⟩
    rcases hmiddle.reaches_blanks hafter with ⟨last, hblanks, hlast⟩
    have hread := Reaches.step (hexpects.step_start hstart) hrest
    exact ⟨last, ((hexpects.reaches_blanks hbefore).trans hread).trans hblanks, hlast⟩

/-- The items that are left of an array, and its end. -/
theorem reaches_items {state : State} {stack : List Frame} {items done : List Json}
    {bytes : List UInt8} {room : Nat}
    (h : ItemsSpelling items bytes) (hexpects : Expects state (.array done :: stack))
    (hroom : stack.length + 1 + room ≤ depthLimit) (hfits : ∀ item ∈ items, Fits room item) :
    Reaches state (bytes ++ [byte ']']) ⟨stack, .after (.array (done.reverse ++ items))⟩ := by
  match h with
  | @ItemsSpelling.last item _ h =>
    rcases reaches_text h hexpects hroom (hfits item List.mem_cons_self) with ⟨last, hrun, hlast⟩
    refine hrun.snoc ?_
    rw [hlast.step_eq (by decide), ← List.reverse_cons]
    rfl
  | @ItemsSpelling.more item items _ _ h h' =>
    rcases reaches_text h hexpects hroom (hfits item List.mem_cons_self) with ⟨last, hrun, hlast⟩
    have hcomma : last.step (byte ',') = .ok ⟨.array (item :: done) :: stack, .nextItem⟩ := by
      rw [hlast.step_eq (by decide)]
      rfl
    have hrest : ∀ item' ∈ items, Fits room item' := by
      intro item' hitem
      exact hfits item' (List.mem_cons_of_mem item hitem)
    have hmore : Reaches ⟨.array (item :: done) :: stack, .nextItem⟩ _ _ :=
      reaches_items h' .nextItem hroom hrest
    rw [List.reverse_cons, List.append_assoc] at hmore
    rw [List.append_assoc]
    exact hrun.trans (.step hcomma hmore)

/-- The members that are left of an object, and its end. -/
theorem reaches_members {state : State} {outer : List Frame}
    {members done : List (String × Json)} {bytes : List UInt8} {room : Nat}
    (h : MembersSpelling members bytes) (hexpects : ExpectsKey state outer done)
    (hroom : outer.length + 1 + room ≤ depthLimit)
    (hfits : ∀ member ∈ members, Fits room member.2) :
    Reaches state (bytes ++ [byte '}']) ⟨outer, .after (.object (done.reverse ++ members))⟩ := by
  match h with
  | @MembersSpelling.last key value _ _ hkey hvalue =>
    have hvalued : Expects ⟨.object done key :: outer, .value⟩ _ := .value
    rcases reaches_text hvalue hvalued hroom (hfits (key, value) List.mem_cons_self) with
      ⟨last, hrun, hlast⟩
    have hclose : last.step (byte '}') =
        .ok ⟨outer, .after (.object ((key, value) :: done).reverse)⟩ := by
      rw [hlast.step_eq (by decide)]
      rfl
    rw [List.reverse_cons] at hclose
    have hall := (hexpects.reaches_key hkey).trans (hrun.snoc hclose)
    simpa using hall
  | @MembersSpelling.more key value members _ _ _ hkey hvalue hmore =>
    have hvalued : Expects ⟨.object done key :: outer, .value⟩ _ := .value
    rcases reaches_text hvalue hvalued hroom (hfits (key, value) List.mem_cons_self) with
      ⟨last, hrun, hlast⟩
    have hcomma : last.step (byte ',') = .ok ⟨outer, .nextKey ((key, value) :: done)⟩ := by
      rw [hlast.step_eq (by decide)]
      rfl
    have hfits' : ∀ member ∈ members, Fits room member.2 := by
      intro member hmember
      exact hfits member (List.mem_cons_of_mem _ hmember)
    have hrest : Reaches ⟨outer, .nextKey ((key, value) :: done)⟩ _ _ :=
      reaches_members hmore .next hroom hfits'
    rw [List.reverse_cons, List.append_assoc] at hrest
    have hall := (hexpects.reaches_key hkey).trans (hrun.trans (.step hcomma hrest))
    simpa using hall

end

/-- Every spelling of a document that fits is read as the document. -/
theorem read_of_spelling {document : Json} {bytes : List UInt8} (h : TextSpelling document bytes)
    (hfits : Fits depthLimit document) : read bytes = .ok document := by
  have hinitial : Expects .initial [] := .value
  rcases reaches_text h hinitial (Nat.le_of_eq (Nat.zero_add depthLimit)) hfits with
    ⟨last, hrun, hlast⟩
  exact read_eq_ok_iff.mpr ⟨last, hrun, hlast.finish⟩

end Readiness.Json
