import Readiness.Proofs.Answer.Verdict
import Readiness.Proofs.Json.Extent

namespace Readiness.Answer

/-! # Only whole bodies are answers

A connection may break off in the middle of an answer, and a server may send more than one. The
beginning of an answer is no answer, not even one without data, and neither is an answer with
more behind it. Blanks at the end do not count.
-/

open Json (IsBlanks IsCore IsPlace MeetInLiteral)

variable {body cut rest : List UInt8}

/-- The body is an answer, with data or without. -/
def IsAnswer (body : List UInt8) : Prop :=
  (∃ progress, evaluate body = .ok progress) ∨ ∃ errors, evaluate body = .error (.noData errors)

/-- An answer is an object. -/
theorem IsAnswer.exists_members (h : IsAnswer body) :
    ∃ members, Json.read body = .ok (.object members) := by
  have hvalid : ∀ reason, evaluate body ≠ .error (.invalidJson reason) := by
    intro reason hreason
    rcases h with ⟨progress, h⟩ | ⟨errors, h⟩ <;> simp [hreason] at h
  rcases read_of_evaluate hvalid with ⟨document, hread⟩
  rw [IsAnswer, evaluate, hread] at h
  rcases h with ⟨progress, h⟩ | ⟨errors, h⟩
  · rcases judge_eq_ok_iff.mp h with ⟨members, -, rfl, -⟩
    exact ⟨members, hread⟩
  · rcases judge_eq_noData_iff.mp h with ⟨members, rfl, -⟩
    exact ⟨members, hread⟩

theorem evaluate_of_read_eq_error {fault : Json.Fault} (h : Json.read body = .error fault) :
    evaluate body = .error (.invalidJson fault.message) := by
  rw [evaluate, h]

theorem evaluate_of_cut (h : IsAnswer (cut ++ rest)) (hrest : ¬ IsBlanks rest) :
    ∃ text, evaluate cut = .error (.invalidJson text) ∧
      ((∃ more, text = "EOF while parsing" ++ more) ∨
        (∃ more, text = "number out of range" ++ more) ∧ MeetInLiteral cut rest) := by
  rcases h.exists_members with ⟨members, hread⟩
  rcases Json.read_of_cut hread hrest with ⟨cause, hfault, hcause⟩
  refine ⟨_, evaluate_of_read_eq_error hfault, ?_⟩
  simp only [Json.Fault.message, String.append_assoc]
  rcases hcause with hend | ⟨rfl, hmeet⟩
  · rcases hend.message with ⟨more, hmore⟩
    rw [hmore, String.append_assoc]
    exact .inl ⟨_, rfl⟩
  · exact .inr ⟨⟨_, rfl⟩, hmeet⟩

theorem evaluate_append_blanks (h : IsAnswer body) (hrest : IsBlanks rest) :
    evaluate (body ++ rest) = evaluate body := by
  rcases h.exists_members with ⟨members, hread⟩
  rw [evaluate, evaluate, Json.read_append_blanks hread hrest, hread]

theorem message_trailingCharacters (position : Json.Position) :
    Json.Fault.message ⟨.trailingCharacters, position⟩ = "trailing characters at line " ++
      toString position.line ++ " column " ++ toString position.column := by
  have hwords : "trailing characters" ++ " at line " = "trailing characters at line " := rfl
  rw [← hwords]
  rfl

theorem evaluate_append_of_not_isBlanks {blanks : List UInt8} {b : UInt8} (h : IsAnswer body)
    (hblanks : IsBlanks blanks) (hb : ¬ IsBlanks [b]) :
    ∃ line column, IsPlace (body ++ blanks) line column ∧
      evaluate (body ++ (blanks ++ b :: rest)) = .error (.invalidJson
        ("trailing characters at line " ++ toString line ++ " column " ++ toString column)) := by
  rcases h.exists_members with ⟨members, hread⟩
  have hline : b ≠ Json.lineFeed := by
    rintro rfl
    exact hb (Json.isBlanks_singleton_iff.mpr rfl)
  refine ⟨_, _, Json.isPlace_after hline, ?_⟩
  rw [← message_trailingCharacters]
  exact evaluate_of_read_eq_error (Json.read_append_of_not_isBlanks hread hblanks hb)

/-- An answer is no answer any more when anything but blanks is cut off its end, and when
anything but blanks is put behind it. -/
theorem answer_is_whole (body : List UInt8) (h : IsAnswer body) :
    (∃ core, IsCore body core ∧ ∀ cut, cut <+: core → cut ≠ core →
      ∃ text, evaluate cut = .error (.invalidJson text) ∧
        ((∃ more, text = "EOF while parsing" ++ more) ∨
          (∃ more, text = "number out of range" ++ more) ∧
            ∃ rest, body = cut ++ rest ∧ MeetInLiteral cut rest)) ∧
    (∀ blanks, IsBlanks blanks → evaluate (body ++ blanks) = evaluate body) ∧
    ∀ suffix, ¬ IsBlanks suffix → ∃ blanks b rest line column,
      suffix = blanks ++ b :: rest ∧ IsBlanks blanks ∧ ¬ IsBlanks [b] ∧
      IsPlace (body ++ blanks) line column ∧
      evaluate (body ++ suffix) = .error (.invalidJson
        ("trailing characters at line " ++ toString line ++ " column " ++ toString column)) := by
  refine ⟨?_, fun blanks => evaluate_append_blanks h, ?_⟩
  · rcases Json.exists_isCore body with ⟨core, hcore⟩
    refine ⟨core, hcore, ?_⟩
    intro cut hcut hne
    rcases hcore.exists_rest hcut hne with ⟨rest, rfl, hrest⟩
    rcases evaluate_of_cut h hrest with ⟨text, htext, hend | ⟨hrange, hmeet⟩⟩
    · exact ⟨text, htext, .inl hend⟩
    · exact ⟨text, htext, .inr ⟨hrange, rest, rfl, hmeet⟩⟩
  · intro suffix hsuffix
    rcases Json.exists_first_of_not_isBlanks hsuffix with ⟨blanks, b, rest, rfl, hblanks, hb⟩
    rcases evaluate_append_of_not_isBlanks h hblanks hb with ⟨line, column, hplace, hevaluate⟩
    exact ⟨blanks, b, rest, line, column, rfl, hblanks, hb, hplace, hevaluate⟩

/-- Twice the same answer is none. -/
theorem amendedBody_is_whole :
    IsAnswer amendedBody ∧
      (∃ core, IsCore amendedBody core ∧ ∀ cut, cut <+: core → cut ≠ core →
        ∃ text, evaluate cut = .error (.invalidJson text)) ∧
      ∃ text, evaluate (amendedBody ++ amendedBody) = .error (.invalidJson text) := by
  have h : IsAnswer amendedBody := by
    refine .inl ⟨⟨none⟩, ?_⟩
    cbv
  have hsuffix : ¬ IsBlanks amendedBody := by
    intro hblanks
    exact absurd (hblanks (Json.byte '\x7b') (by decide)) (by decide)
  rcases answer_is_whole amendedBody h with ⟨⟨core, hcore, hcut⟩, -, hbehind⟩
  refine ⟨h, ⟨core, hcore, ?_⟩, ?_⟩
  · intro cut hprefixed hne
    rcases hcut cut hprefixed hne with ⟨text, htext, -⟩
    exact ⟨text, htext⟩
  · rcases hbehind amendedBody hsuffix with ⟨_, _, _, _, _, -, -, -, -, htext⟩
    exact ⟨_, htext⟩

end Readiness.Answer
