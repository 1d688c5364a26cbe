import Readiness.Proofs.Json.Extent

namespace Readiness.Json

/-! # Where a fault shows

A fault is told with a place in the text. Most faults show where they are raised, behind the byte
that is refused, and then the bytes up to there decide: a text that goes on in another way has the
same fault. What is no character in a string literal is told where it begins, but only the closing
quote raises it. The end of a text and a number that is out of range are told where the text or
the number ends.
-/

variable {state : State} {stack : List Frame} {text : List UInt8} {b : UInt8} {cause : Cause}
  {refusal : Refusal}

/-! ## Refused bytes -/

/-- What is wrong with a byte in its place is told behind that byte. -/
theorem back_of_atByte {α : Type} {result : Except Cause α} (h : atByte result = .error refusal) :
    refusal.back = 0 := by
  cases result with
  | ok _ => cases h
  | error cause =>
    cases h
    rfl

/-- The only fault of a closing quote is in what it closes. -/
theorem cause_of_closeText {purpose : Purpose} {content : List UInt8}
    (h : closeText stack purpose content = .error refusal) : refusal.cause = .invalidCodePoint := by
  unfold closeText at h
  split at h
  · cases h
  · cases h
    rfl

/-- A number literal is told where it ends only if it may not end there, or is out of range. -/
theorem cause_of_closeNumeral {digits : Digits} {c : Char}
    (h : closeNumeral stack digits c = .error refusal) :
    refusal.back = 0 ∨ refusal.cause.IsEnd ∨ refusal.cause = .numberOutOfRange := by
  unfold closeNumeral at h
  split at h
  · next hfinish =>
    cases h
    exact .inr (cause_of_finish_eq_error hfinish)
  · exact .inl (back_of_atByte h)

/-- A refused byte is told behind itself, but for three kinds of fault. -/
theorem back_of_step (h : state.step b = .error refusal) :
    refusal.back = 0 ∨ refusal.cause.IsEnd ∨ refusal.cause = .numberOutOfRange ∨
      refusal.cause = .invalidCodePoint ∧ b = byte '"' := by
  rcases state with ⟨stack, phase⟩
  cases phase with
  | value | firstItem | nextItem | firstKey | nextKey | colon | after =>
    exact .inl (back_of_atByte h)
  | name left value =>
    simp only [State.step] at h
    split at h
    · exact .inl (back_of_atByte h)
    · split at h
      · cases h
      · cases h
        exact .inl rfl
  | numeral digits =>
    simp only [State.step] at h
    split at h
    · cases h
      exact .inl rfl
    · cases h
    · rcases cause_of_closeNumeral h with hback | hend | hrange
      · exact .inl hback
      · exact .inr (.inl hend)
      · exact .inr (.inr (.inl hrange))
  | text purpose content place =>
    simp only [State.step] at h
    split at h
    · next hcloses =>
      have hquote : b = byte '"' := (closesText_eq_true hcloses).2
      exact .inr (.inr (.inr ⟨cause_of_closeText h, hquote⟩))
    · exact .inl (back_of_atByte h)

/-! ## Places -/

/-- So many bytes of a text raise its fault, however the text goes on. -/
def Raises (text : List UInt8) (count : Nat) (fault : Fault) : Prop :=
  count ≤ text.length ∧ ∀ other, other.take count = text.take count → read other = .error fault

theorem raises_of_refusal {front rest : List UInt8} {fault : Fault}
    (h : ∀ rest, read (front ++ b :: rest) = .error fault) :
    Raises (front ++ b :: rest) (front.length + 1) fault := by
  refine ⟨by simp, ?_⟩
  intro other hother
  rw [take_behind] at hother
  rw [← List.take_append_drop (front.length + 1) other, hother, List.append_assoc,
    List.singleton_append]
  exact h _

/-- A fault shows within the text. Unless it is in the end of the text or of a number, the bytes up
to its place raise it, or those up to the closing quote behind its place. -/
theorem place_of_read_eq_error {fault : Fault} (h : read text = .error fault) :
    ∃ shown, shown ≤ text.length ∧ fault.position = Position.after (text.take shown) ∧
      (fault.cause.IsEnd ∨ fault.cause = .numberOutOfRange ∨
        ∃ count, shown ≤ count ∧ Raises text count fault ∧
          (count = shown ∨ fault.cause = .invalidCodePoint ∧
            (text.take count).getLast? = some (byte '"'))) := by
  rcases exists_of_read_eq_error h with
    ⟨last, hrun, hfinish⟩ | ⟨front, b, rest, middle, refusal, rfl, hrun, hstep⟩
  · -- the text ends too early, so its fault is in its end
    rw [read_of_finish_eq_error hrun hfinish, Except.error.injEq] at h
    refine ⟨text.length, Nat.le_refl _, ?_, ?_⟩
    · rw [← h, List.take_length]
    · rcases finish_eq_error hfinish with hend | ⟨hrange, -⟩
      · exact .inl hend
      · exact .inr (.inl hrange)
  · rw [read_of_refusal hrun hstep, Except.error.injEq] at h
    subst h
    have hraises : Raises (front ++ b :: rest) (front.length + 1) _ :=
      raises_of_refusal fun _ => read_of_refusal hrun hstep
    have hshown : front.length + 1 - refusal.back ≤ front.length + 1 := Nat.sub_le _ _
    refine ⟨front.length + 1 - refusal.back, Nat.le_trans hshown hraises.1, ?_, ?_⟩
    · rw [← take_behind front rest b, List.take_take, Nat.min_eq_left hshown]
    · rcases back_of_step hstep with hback | hend | hrange | ⟨hpoint, rfl⟩
      · exact .inr (.inr ⟨_, hshown, hraises, .inl (by rw [hback, Nat.sub_zero])⟩)
      · exact .inl hend
      · exact .inr (.inl hrange)
      · refine .inr (.inr ⟨_, hshown, hraises, .inr ⟨hpoint, ?_⟩⟩)
        rw [take_behind, List.getLast?_concat]

end Readiness.Json
