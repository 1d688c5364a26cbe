import Readiness.Json.Reader
import Readiness.Proofs.Json.Grammar
import Readiness.Proofs.Text.Utf8

namespace Readiness.Json

/-! # Runs of the reader

A run reads bytes one after the other without a fault. Reading a whole text succeeds exactly
if there is a run over it whose last state can finish.
-/

/-- The reader gets from one state to another over these bytes. -/
inductive Reaches : State → List UInt8 → State → Prop where
  | refl (state : State) : Reaches state [] state
  | step {state next last : State} {b : UInt8} {bytes : List UInt8} :
      state.step b = .ok next → Reaches next bytes last → Reaches state (b :: bytes) last

namespace Reaches

variable {state next last : State} {first second : List UInt8} {b : UInt8}

/-- Runs compose. -/
theorem trans (h : Reaches state first next) (h' : Reaches next second last) :
    Reaches state (first ++ second) last := by
  induction h with
  | refl _ => exact h'
  | step hs _ ih => exact .step hs (ih h')

theorem single (h : state.step b = .ok next) : Reaches state [b] next := .step h (.refl next)

theorem snoc (h : Reaches state first next) (hs : next.step b = .ok last) :
    Reaches state (first ++ [b]) last :=
  h.trans (single hs)

/-- Bytes that change nothing. -/
theorem of_stays {bytes : List UInt8} (h : ∀ b ∈ bytes, state.step b = .ok state) :
    Reaches state bytes state := by
  induction bytes with
  | nil => exact .refl state
  | cons b bytes ih =>
    have hrest : ∀ b' ∈ bytes, state.step b' = .ok state := by
      intro b' hb
      exact h b' (List.mem_cons_of_mem b hb)
    exact .step (h b List.mem_cons_self) (ih hrest)

/-- A run comes by a state at every point of what it reads. -/
theorem split (h : Reaches state (first ++ second) last) :
    ∃ middle, Reaches state first middle ∧ Reaches middle second last := by
  induction first generalizing state with
  | nil => exact ⟨state, .refl state, h⟩
  | cons b first ih =>
    cases h with
    | step hs hrest =>
      rcases ih hrest with ⟨middle, hfirst, hsecond⟩
      exact ⟨middle, .step hs hfirst, hsecond⟩

/-- Where a run ends is determined by where it starts and what it reads. -/
theorem eq (h : Reaches state first next) (h' : Reaches state first last) : next = last := by
  induction h with
  | refl _ =>
    cases h'
    rfl
  | step hs _ ih =>
    cases h' with
    | step hs' hrest =>
      rw [hs, Except.ok.injEq] at hs'
      subst hs'
      exact ih hrest

/-- What is left of a run behind a part that is known. -/
theorem rest (h : Reaches state first next) (h' : Reaches state (first ++ second) last) :
    Reaches next second last := by
  rcases h'.split with ⟨middle, hfirst, hsecond⟩
  rwa [h.eq hfirst]

end Reaches

/-- Behind a run, reading goes on from its last state. -/
theorem readFrom_of_reaches {state next : State} {first rest : List UInt8} (offset : Nat)
    (h : Reaches state first next) :
    readFrom state offset (first ++ rest) = readFrom next (offset + first.length) rest := by
  induction h generalizing offset with
  | refl _ => rfl
  | step hs _ ih =>
    rw [List.cons_append, readFrom, hs]
    simp only
    rw [ih, List.length_cons, Nat.add_assoc, Nat.add_comm 1]

theorem readFrom_eq_ok_iff {state : State} {offset : Nat} {bytes : List UInt8} {document : Json} :
    readFrom state offset bytes = .ok document ↔
      ∃ last, Reaches state bytes last ∧ last.finish = .ok document := by
  induction bytes generalizing state offset with
  | nil =>
    rw [readFrom]
    constructor
    · intro h
      refine ⟨state, .refl state, ?_⟩
      cases hf : state.finish with
      | ok value => simpa [hf, Except.mapError] using h
      | error cause => simp [hf, Except.mapError] at h
    · rintro ⟨last, hrun, hf⟩
      cases hrun
      rw [hf]
      rfl
  | cons b bytes ih =>
    rw [readFrom]
    constructor
    · intro h
      cases hs : state.step b with
      | error refusal => simp [hs] at h
      | ok next =>
        rw [hs] at h
        rcases ih.mp h with ⟨last, hrun, hf⟩
        exact ⟨last, .step hs hrun, hf⟩
    · rintro ⟨last, hrun, hf⟩
      cases hrun with
      | step hs hrun =>
        rw [hs]
        exact ih.mpr ⟨last, hrun, hf⟩

/-- A text is read exactly if a run over it ends in a state that can finish. -/
theorem read_eq_ok_iff {bytes : List UInt8} {document : Json} :
    read bytes = .ok document ↔
      ∃ last, Reaches .initial bytes last ∧ last.finish = .ok document := by
  -- the offset only says where a fault is, so any will do
  have hfrom : readFrom .initial 0 bytes = .ok document ↔ _ := readFrom_eq_ok_iff
  rw [← hfrom, read]
  cases readFrom .initial 0 bytes <;> simp [Except.mapError]

/-- A text that ends in a state that cannot finish has its fault at the end. -/
theorem read_of_finish_eq_error {bytes : List UInt8} {last : State} {cause : Cause}
    (hrun : Reaches .initial bytes last) (hfinish : last.finish = .error cause) :
    read bytes = .error ⟨cause, Position.after bytes⟩ := by
  have hfault : readFrom .initial 0 bytes = .error (cause, bytes.length) := by
    rw [← List.append_nil bytes, readFrom_of_reaches 0 hrun, readFrom, hfinish, List.append_nil,
      Nat.zero_add]
    rfl
  rw [read, hfault, Except.mapError]
  simp only [List.take_length]

theorem take_behind (front rest : List UInt8) (b : UInt8) :
    (front ++ b :: rest).take (front.length + 1) = front ++ [b] := by
  rw [List.take_length_add_append, List.take_succ_cons, List.take_zero]

/-- A byte that is refused is the fault of every text that begins so. -/
theorem read_of_refusal {bytes rest : List UInt8} {state : State} {b : UInt8} {refusal : Refusal}
    (hrun : Reaches .initial bytes state) (hstep : state.step b = .error refusal) :
    read (bytes ++ b :: rest) = .error ⟨refusal.cause,
      Position.after ((bytes ++ [b]).take (bytes.length + 1 - refusal.back))⟩ := by
  have hfault : readFrom .initial 0 (bytes ++ b :: rest) =
      .error (refusal.cause, bytes.length + 1 - refusal.back) := by
    rw [readFrom_of_reaches 0 hrun, readFrom, hstep, Nat.zero_add]
  -- the place of the fault is not behind the byte
  have htake : (bytes ++ b :: rest).take (bytes.length + 1 - refusal.back) =
      (bytes ++ [b]).take (bytes.length + 1 - refusal.back) := by
    rw [← take_behind bytes rest b, List.take_take, Nat.min_eq_left (Nat.sub_le _ _)]
  rw [read, hfault, Except.mapError]
  simp only [htake]

/-- If it is refused in its place, the place of the fault is behind it. -/
theorem read_of_step_eq_error {bytes rest : List UInt8} {state : State} {b : UInt8} {cause : Cause}
    (hrun : Reaches .initial bytes state) (hstep : state.step b = .error ⟨cause, 0⟩) :
    read (bytes ++ b :: rest) = .error ⟨cause, Position.after (bytes ++ [b])⟩ := by
  have htake : (bytes ++ [b]).take (bytes.length + 1) = bytes ++ [b] :=
    List.take_of_length_le (by simp)
  rw [read_of_refusal hrun hstep]
  simp only [Nat.sub_zero, htake]

/-- A text that is not read has a run over it whose last state cannot finish, or one of its bytes
is refused. -/
theorem readFrom_eq_error {state : State} {offset place : Nat} {bytes : List UInt8} {cause : Cause}
    (h : readFrom state offset bytes = .error (cause, place)) :
    (∃ last, Reaches state bytes last ∧ last.finish = .error cause) ∨
      ∃ front b rest middle refusal, bytes = front ++ b :: rest ∧ Reaches state front middle ∧
        middle.step b = .error refusal := by
  induction bytes generalizing state offset with
  | nil =>
    rw [readFrom] at h
    cases hfinish : state.finish with
    | ok document =>
      rw [hfinish] at h
      cases h
    | error cause' =>
      rw [hfinish] at h
      cases h
      exact .inl ⟨state, .refl state, hfinish⟩
  | cons b bytes ih =>
    rw [readFrom] at h
    cases hs : state.step b with
    | error refusal => exact .inr ⟨[], b, bytes, state, refusal, rfl, .refl state, hs⟩
    | ok next =>
      rw [hs] at h
      rcases ih h with ⟨last, hrun, hfinish⟩ | ⟨front, b', rest, middle, refusal, rfl, hrun, hstep⟩
      · exact .inl ⟨last, .step hs hrun, hfinish⟩
      · exact .inr ⟨b :: front, b', rest, middle, refusal, rfl, .step hs hrun, hstep⟩

theorem exists_of_read_eq_error {text : List UInt8} {fault : Fault} (h : read text = .error fault) :
    (∃ last, Reaches .initial text last ∧ last.finish = .error fault.cause) ∨
      ∃ front b rest middle refusal, text = front ++ b :: rest ∧ Reaches .initial front middle ∧
        middle.step b = .error refusal := by
  rw [read] at h
  cases hfrom : readFrom .initial 0 text with
  | ok document =>
    rw [hfrom] at h
    cases h
  | error found =>
    rw [hfrom] at h
    cases h
    exact readFrom_eq_error hfrom

/-! ## Bytes as characters -/

theorem toNat_ofUInt8 (b : UInt8) : (Char.ofUInt8 b).toNat = b.toNat := rfl

theorem toNat_byte {c : Char} (h : c.toNat < 256) : (byte c).toNat = c.toNat := by
  simp only [byte, Char.toUInt8, UInt32.toNat_toUInt8]
  exact Nat.mod_eq_of_lt h

theorem byte_ofUInt8 (b : UInt8) : byte (Char.ofUInt8 b) = b := by
  apply UInt8.toNat_inj.mp
  rw [toNat_byte (toNat_ofUInt8 b ▸ b.toNat_lt), toNat_ofUInt8]

/-- A byte is told by the character that it is. -/
theorem eq_byte_of_ofUInt8 {b : UInt8} {c : Char} (h : Char.ofUInt8 b = c) : b = byte c := by
  rw [← h, byte_ofUInt8]

theorem isBlanks_iff {bytes : List UInt8} :
    IsBlanks bytes ↔ ∀ b ∈ bytes, isBlank (Char.ofUInt8 b) = true := by
  constructor
  · intro h b hb
    rcases h b hb with rfl | rfl | rfl | rfl <;> rfl
  · intro h b hb
    have hblank := h b hb
    simp only [isBlank, Bool.or_eq_true, beq_iff_eq] at hblank
    rcases hblank with ((hc | hc) | hc) | hc <;> rcases eq_byte_of_ofUInt8 hc with rfl <;> simp

theorem isBlanks_nil : IsBlanks [] := by
  intro b hb
  cases hb

theorem isBlanks_singleton_iff {b : UInt8} : IsBlanks [b] ↔ isBlank (Char.ofUInt8 b) = true := by
  rw [isBlanks_iff, List.forall_mem_singleton]

theorem isBlanks_cons_iff {b : UInt8} {bytes : List UInt8} :
    IsBlanks (b :: bytes) ↔ IsBlanks [b] ∧ IsBlanks bytes := by
  rw [isBlanks_iff, List.forall_mem_cons, isBlanks_singleton_iff, isBlanks_iff]

theorem digit?_ofUInt8_eq_some_iff {b : UInt8} {d : Fin 10} :
    digit? (Char.ofUInt8 b) = some d ↔ b = digitByte d := by
  have hzero : '0'.toNat = 48 := rfl
  have hd := d.isLt
  have hb := Text.toNat_ofNat_of_lt (n := '0'.toNat + d.val) (by omega)
  have hchar := toNat_ofUInt8 b
  rw [← UInt8.toNat_inj, digitByte, hb, digit?]
  split
  · rw [Option.some.injEq, Fin.ext_iff]
    simp only
    omega
  · simp only [reduceCtorEq, false_iff]
    omega

/-- A byte in a range of characters is the first of them, and so many more. -/
theorem eq_ofNat_add_of_mem_range {b : UInt8} {first last : Char} (hfirst : first ≤ Char.ofUInt8 b)
    (hlast : Char.ofUInt8 b ≤ last) :
    ∃ k, k ≤ last.toNat - first.toNat ∧ b.toNat - first.toNat = k ∧
      b = UInt8.ofNat (first.toNat + k) := by
  have hle : first.toNat ≤ b.toNat := hfirst
  have hge : b.toNat ≤ last.toNat := hlast
  refine ⟨b.toNat - first.toNat, by omega, rfl, ?_⟩
  rw [Nat.add_sub_cancel' hle, UInt8.ofNat_toNat]

theorem hexDigit?_ofUInt8_eq_some_iff {b : UInt8} {n : Nat} :
    Text.hexDigit? (Char.ofUInt8 b) = some n ↔ HexDigit b n := by
  constructor
  · intro h
    simp only [Text.hexDigit?, toNat_ofUInt8] at h
    split at h
    · next hr =>
      rcases eq_ofNat_add_of_mem_range hr.1 hr.2 with ⟨k, hk, hsub, rfl⟩
      rw [hsub, Option.some.injEq] at h
      subst h
      exact .decimal (Nat.lt_succ_of_le hk)
    · split at h
      · next hr =>
        rcases eq_ofNat_add_of_mem_range hr.1 hr.2 with ⟨k, hk, hsub, rfl⟩
        rw [hsub, Option.some.injEq, Nat.add_comm] at h
        subst h
        exact .lower (Nat.lt_succ_of_le hk)
      · split at h
        · next hr =>
          rcases eq_ofNat_add_of_mem_range hr.1 hr.2 with ⟨k, hk, hsub, rfl⟩
          rw [hsub, Option.some.injEq, Nat.add_comm] at h
          subst h
          exact .upper (Nat.lt_succ_of_le hk)
        · simp at h
  · intro h
    -- the digits of one kind are few enough to look at each
    cases h with
    | decimal h =>
      revert h n
      decide
    | @lower n h =>
      revert h n
      decide
    | @upper n h =>
      revert h n
      decide

end Readiness.Json
