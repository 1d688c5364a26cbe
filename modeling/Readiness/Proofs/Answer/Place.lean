import Readiness.Proofs.Answer.Verdict
import Readiness.Proofs.Json.Place

namespace Readiness.Answer

/-! # The place that a fault names

What is told of a body that is not JSON ends with a line and a column, and both belong to the body.
Most of these faults are decided there: whatever else had followed, the fault would be the same.
What is not text in a string literal is told where it begins, but it is only found out at the
closing quote, and until then the string might still have become text.
-/

open Json (IsCounted Position)

variable {body : List UInt8} {text : String} {fault : Json.Fault}

/-- A text begins with these words. -/
def BeginsWith (words text : String) : Prop := words.toList <+: text.toList

instance (words text : String) : Decidable (BeginsWith words text) :=
  inferInstanceAs (Decidable (_ <+: _))

theorem message_eq (fault : Json.Fault) :
    fault.message = fault.cause.message ++ " at line " ++ toString fault.position.line ++
      " column " ++ toString fault.position.column :=
  rfl

/-- What is told of a fault begins with the words for its cause. -/
theorem beginsWith_message {words : String} (h : BeginsWith words fault.cause.message) :
    BeginsWith words fault.message := by
  have hwords : fault.cause.message.toList <+: fault.message.toList := by
    simp only [message_eq, String.toList_append, List.append_assoc]
    exact List.prefix_append _ _
  exact List.IsPrefix.trans h hwords

theorem beginsWith_of_isEnd {cause : Json.Cause} (h : cause.IsEnd) :
    BeginsWith "EOF while parsing" cause.message := by
  cases h <;> decide

theorem read_of_invalidJson (h : evaluate body = .error (.invalidJson text)) :
    ∃ fault, Json.read body = .error fault ∧ text = fault.message := by
  unfold evaluate at h
  split at h
  · next fault hread =>
    cases h
    exact ⟨fault, hread, rfl⟩
  · exact absurd h (judge_ne_invalidJson _ _)

/-- The place that a fault names is in the body. What stands behind it has no say in the fault, unless
the body or a number ends there, or a string literal is not text: that is decided at the closing
quote. -/
theorem place_of_fault (body : List UInt8) (text : String)
    (h : evaluate body = .error (.invalidJson text)) :
    ∃ shown line column words, shown ≤ body.length ∧ IsCounted (body.take shown) line column ∧
      text = words ++ " at line " ++ toString line ++ " column " ++ toString column ∧
      (¬ BeginsWith "EOF while parsing" text → ¬ BeginsWith "number out of range" text →
        ∃ count, shown ≤ count ∧ count ≤ body.length ∧
          (∀ other, other.take count = body.take count →
            evaluate other = .error (.invalidJson text)) ∧
          (count = shown ∨ BeginsWith "invalid unicode code point" text ∧
            (body.take count).getLast? = some (Json.byte '"'))) := by
  rcases read_of_invalidJson h with ⟨fault, hread, rfl⟩
  rcases Json.place_of_read_eq_error hread with ⟨shown, hshown, hposition, hfault⟩
  have hcounted := Json.isCounted_after (body.take shown)
  rw [← hposition] at hcounted
  refine ⟨shown, _, _, fault.cause.message, hshown, hcounted, message_eq fault, ?_⟩
  intro hend hrange
  rcases hfault with hcause | hcause | ⟨count, hle, hraises, hcount⟩
  · exact absurd (beginsWith_message (beginsWith_of_isEnd hcause)) hend
  · have hwords : BeginsWith "number out of range" fault.cause.message := by
      rw [hcause]
      exact List.prefix_rfl
    exact absurd (beginsWith_message hwords) hrange
  · refine ⟨count, hle, hraises.1, ?_, ?_⟩
    · intro other hother
      rw [evaluate, hraises.2 other hother]
    · rcases hcount with hcount | ⟨hcause, hquote⟩
      · exact .inl hcount
      · have hwords : BeginsWith "invalid unicode code point" fault.cause.message := by
          rw [hcause]
          exact List.prefix_rfl
        exact .inr ⟨beginsWith_message hwords, hquote⟩

/-- A list with a comma missing in its second line. -/
def brokenList : List UInt8 := Text.toBytes "[1,\n2 3]"

/-- The fault of a body of two lines is in its second line, and the bytes before decide it. -/
theorem place_of_brokenList :
    evaluate brokenList = .error (.invalidJson "expected `,` or `]` at line 2 column 3") ∧
    ∃ count, count ≤ brokenList.length ∧ ∀ other, other.take count = brokenList.take count →
      evaluate other = .error (.invalidJson "expected `,` or `]` at line 2 column 3") := by
  have hfault : evaluate brokenList =
      .error (.invalidJson "expected `,` or `]` at line 2 column 3") := by cbv
  have hend : ¬ BeginsWith "EOF while parsing" "expected `,` or `]` at line 2 column 3" := by decide
  have hrange : ¬ BeginsWith "number out of range" "expected `,` or `]` at line 2 column 3" := by
    decide
  rcases place_of_fault brokenList _ hfault with ⟨shown, _, _, _, -, -, -, hdecided⟩
  rcases hdecided hend hrange with ⟨count, -, hcount, hdecides, -⟩
  exact ⟨hfault, count, hcount, hdecides⟩

/-- An answer whose text is broken off inside a character. -/
def brokenText : List UInt8 := Text.toBytes "\x7b\"data\":\"" ++ [0xe2, 0x82] ++ Text.toBytes "\"\x7d"

/-- The answer with the whole character. -/
def mendedText : List UInt8 := Text.toBytes "\x7b\"data\":\"€\"\x7d"

/-- What stands behind the place of a fault may make an answer of the body. -/
theorem place_departs :
    evaluate brokenText = .error (.invalidJson "invalid unicode code point at line 1 column 10") ∧
    ∀ shown, IsCounted (brokenText.take shown) 1 10 →
      mendedText.take shown = brokenText.take shown ∧ evaluate mendedText = .ok ⟨none⟩ := by
  have hfault : evaluate brokenText =
      .error (.invalidJson "invalid unicode code point at line 1 column 10") := by cbv
  have hready : evaluate mendedText = .ok ⟨none⟩ := by cbv
  have hlines : Json.lineFeed ∉ brokenText := by decide
  refine ⟨hfault, ?_⟩
  intro shown hcounted
  -- without line feeds, the column tells how many bytes there are up to the place
  have hcolumn := hcounted.column_eq fun hmem => hlines (List.mem_of_mem_take hmem)
  rw [List.length_take] at hcolumn
  have hlength : brokenText.length = 13 := rfl
  have hshown : shown = 10 := by omega
  subst hshown
  exact ⟨by decide, hready⟩

end Readiness.Answer
