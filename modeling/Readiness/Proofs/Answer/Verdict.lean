import Mathlib
import Readiness.Answer
import Readiness.Proofs.Json.Completeness
import Readiness.Proofs.Json.Encoding
import Readiness.Proofs.Json.Soundness

namespace Readiness

/-! # The verdict on a body

A body gets a verdict exactly if it spells a document, and the verdict is one on the document:
how it is spelled has no say in it.
-/

namespace Json

/-- The last member with this key has this value. -/
def IsLast (key : String) (value : Json) (members : List (String × Json)) : Prop :=
  ∃ before after, members = before ++ (key, value) :: after ∧ ∀ member ∈ after, member.1 ≠ key

variable {key : String} {value : Json} {members : List (String × Json)}

theorem lastMember_eq_some_iff :
    lastMember key members = some value ↔ IsLast key value members := by
  -- the look-up takes the first match of the members from the last one back
  rw [lastMember, List.lookup_eq_some_iff]
  constructor
  · rintro ⟨after, before, hmembers, hafter⟩
    refine ⟨before.reverse, after.reverse, ?_, ?_⟩
    · rw [← List.reverse_reverse members, hmembers]
      simp
    · intro member hmember
      exact (bne_iff_ne.mp (hafter member (List.mem_reverse.mp hmember))).symm
  · rintro ⟨before, after, rfl, hafter⟩
    refine ⟨after.reverse, before.reverse, by simp, ?_⟩
    intro member hmember
    exact bne_iff_ne.mpr (hafter member (List.mem_reverse.mp hmember)).symm

theorem lastMember_eq_none_iff :
    lastMember key members = none ↔ ∀ value, (key, value) ∉ members := by
  rw [lastMember, List.lookup_eq_none_iff]
  constructor
  · intro h value hvalue
    simpa using h (key, value) (List.mem_reverse.mpr hvalue)
  · rintro h ⟨name, value⟩ hmember
    rw [bne_iff_ne]
    rintro rfl
    exact h value (List.mem_reverse.mp hmember)

end Json

namespace Answer

open Json (IsLast TextSpelling Fits depthLimit lastMember lastMember_eq_some_iff
  lastMember_eq_none_iff)

variable {document : Json} {body : List UInt8}

/-! ## The verdict on a document -/

theorem judge_ne_invalidJson (document : Json) (reason : String) :
    judge document ≠ .error (.invalidJson reason) := by
  intro h
  unfold judge at h
  split at h
  · split at h <;> cases h
  · cases h

theorem judge_eq_unexpectedShape_iff :
    judge document = .error .unexpectedShape ↔ ∀ members, document ≠ .object members := by
  constructor
  · rintro h members rfl
    rw [judge] at h
    split at h <;> cases h
  · intro h
    cases document with
    | object members => exact absurd rfl (h members)
    | null | bool | number | string | array => rfl

/-- Ready means data, and tells the number that is found in it. -/
theorem judge_eq_ok_iff {progress : Progress} :
    judge document = .ok progress ↔ ∃ members data, document = .object members ∧
      IsLast "data" data members ∧ data ≠ .null ∧
      progress = ⟨(data.at? blockPath).bind Json.natural?⟩ := by
  constructor
  · intro h
    unfold judge at h
    split at h
    · next members =>
      split at h
      · cases h
      · cases h
      · next data hnull hdata =>
        cases h
        exact ⟨members, data, rfl, lastMember_eq_some_iff.mp hdata, hnull, rfl⟩
    · cases h
  · rintro ⟨members, data, rfl, hlast, hne, rfl⟩
    rw [← lastMember_eq_some_iff] at hlast
    simp only [judge]
    split
    · next hnone => simp [hlast] at hnone
    · next hnull =>
      rw [hlast, Option.some.injEq] at hnull
      exact absurd hnull hne
    · next data' _ hdata =>
      rw [hlast, Option.some.injEq] at hdata
      rw [hdata]

/-- No data means that there is none, or that it is null in the end. -/
theorem judge_eq_noData_iff {errors : List String} :
    judge document = .error (.noData errors) ↔ ∃ members, document = .object members ∧
      ((∀ data, ("data", data) ∉ members) ∨ IsLast "data" .null members) ∧
      errors = messages (lastMember "errors" members) := by
  constructor
  · intro h
    unfold judge at h
    split at h
    · next members =>
      split at h
      · next hnone =>
        cases h
        exact ⟨members, rfl, .inl (lastMember_eq_none_iff.mp hnone), rfl⟩
      · next hnull =>
        cases h
        exact ⟨members, rfl, .inr (lastMember_eq_some_iff.mp hnull), rfl⟩
      · cases h
    · cases h
  · rintro ⟨members, rfl, hnone | hnull, rfl⟩
    · rw [← lastMember_eq_none_iff] at hnone
      simp only [judge, hnone]
    · rw [← lastMember_eq_some_iff] at hnull
      simp only [judge, hnull]

/-! ## The verdict on a spelling -/

theorem evaluate_eq_judge (h : TextSpelling document body) (hfits : Fits depthLimit document) :
    evaluate body = judge document := by
  rw [evaluate, Json.read_of_spelling h hfits]

/-- Every spelling of a document has the verdict of the document. Of all its members only the
last one for the data decides. -/
theorem verdict_of_spelling (document : Json) (hdepth : document.depth ≤ 127)
    (hrange : ∀ numeral ∈ document.numerals, numeral.overflows = false) (body : List UInt8)
    (hbody : TextSpelling document body) :
    (∀ reason, evaluate body ≠ .error (.invalidJson reason)) ∧
    (∀ body', TextSpelling document body' → evaluate body' = evaluate body) ∧
    (evaluate body = .error .unexpectedShape ↔ ∀ members, document ≠ .object members) ∧
    ((∃ progress, evaluate body = .ok progress) ↔
      ∃ members data, document = .object members ∧ IsLast "data" data members ∧ data ≠ .null) ∧
    ((∃ errors, evaluate body = .error (.noData errors)) ↔
      ∃ members, document = .object members ∧
        ((∀ data, ("data", data) ∉ members) ∨ IsLast "data" .null members)) := by
  have hfits : Fits depthLimit document := ⟨hdepth, hrange⟩
  rw [evaluate_eq_judge hbody hfits]
  refine ⟨judge_ne_invalidJson document, ?_, judge_eq_unexpectedShape_iff, ?_, ?_⟩
  · intro body' hbody'
    exact evaluate_eq_judge hbody' hfits
  · constructor
    · rintro ⟨progress, h⟩
      rcases judge_eq_ok_iff.mp h with ⟨members, data, hobject, hlast, hne, -⟩
      exact ⟨members, data, hobject, hlast, hne⟩
    · rintro ⟨members, data, hobject, hlast, hne⟩
      exact ⟨_, judge_eq_ok_iff.mpr ⟨members, data, hobject, hlast, hne, rfl⟩⟩
  · constructor
    · rintro ⟨errors, h⟩
      rcases judge_eq_noData_iff.mp h with ⟨members, hobject, hnone, -⟩
      exact ⟨members, hobject, hnone⟩
    · rintro ⟨members, hobject, hnone⟩
      exact ⟨_, judge_eq_noData_iff.mpr ⟨members, hobject, hnone, rfl⟩⟩

/-- A document whose data is null at first, and a spelling that escapes the key of its last
data. -/
def amendedDocument : Json :=
  .object [("data", .null), ("errors", .array [.string "😀"]), ("data", .bool true)]

def amendedBody : List UInt8 :=
  Text.toBytes
    "\t\x7b\"data\":null, \"errors\" :[ \"\\uD83d\\ude00\"],\"\\u0064at\\u0061\":true\x7d\n"

theorem verdict_of_amendedBody :
    amendedDocument.depth ≤ 127 ∧ (∀ numeral ∈ amendedDocument.numerals,
      numeral.overflows = false) ∧ TextSpelling amendedDocument amendedBody ∧
      ∃ progress, evaluate amendedBody = .ok progress := by
  have hread : Json.read amendedBody = .ok amendedDocument := by cbv
  rcases Json.spelling_of_read hread with ⟨htext, hdepth, hrange⟩
  rcases verdict_of_spelling amendedDocument hdepth hrange amendedBody htext with
    ⟨-, -, -, hready, -⟩
  refine ⟨hdepth, hrange, htext, hready.mpr ⟨_, .bool true, rfl, ?_, by simp⟩⟩
  exact ⟨[("data", .null), ("errors", .array [.string "😀"])], [], rfl, by simp⟩

/-! ## Bodies without a verdict -/

theorem read_of_evaluate (h : ∀ reason, evaluate body ≠ .error (.invalidJson reason)) :
    ∃ document, Json.read body = .ok document := by
  cases hread : Json.read body with
  | ok document => exact ⟨document, rfl⟩
  | error fault =>
    refine absurd ?_ (h fault.message)
    rw [evaluate, hread]

/-- The bytes of a byte order mark. -/
def byteOrderMark : List UInt8 := [0xEF, 0xBB, 0xBF]

/-- A body that gets a verdict spells a document, with nothing before or behind it. -/
theorem spelling_of_verdict (body : List UInt8)
    (h : ∀ reason, evaluate body ≠ .error (.invalidJson reason)) :
    (∃ document, TextSpelling document body ∧ document.depth ≤ 127 ∧
      ∀ numeral ∈ document.numerals, numeral.overflows = false) ∧
    (∃ text, Text.ofBytes? body = some text) ∧ ¬ byteOrderMark <+: body := by
  rcases read_of_evaluate h with ⟨document, hread⟩
  rcases Json.spelling_of_read hread with ⟨htext, hdepth, hrange⟩
  refine ⟨⟨document, htext, hdepth, hrange⟩, ?_, ?_⟩
  · obtain ⟨text, hencoded⟩ := Json.isEncoded_of_text htext
    refine ⟨String.ofList text, ?_⟩
    rw [Text.ofBytes?, Text.decode_eq_iff.mpr hencoded]
  · rintro ⟨rest, rfl⟩
    -- the mark begins with a byte that is not ASCII
    rcases Json.exists_isAscii_of_text htext with ⟨b, _, hhead, hascii⟩
    rw [byteOrderMark, List.cons_append, List.cons.injEq] at hhead
    rw [← hhead.1, Json.IsAscii] at hascii
    exact absurd hascii (by decide)

theorem spelling_of_verdict_on_amendedBody :
    (∀ reason, evaluate amendedBody ≠ .error (.invalidJson reason)) ∧
      ∃ document, TextSpelling document amendedBody := by
  have hready : evaluate amendedBody = .ok ⟨none⟩ := by cbv
  have h : ∀ reason, evaluate amendedBody ≠ .error (.invalidJson reason) := by
    intro reason
    rw [hready]
    simp
  rcases spelling_of_verdict amendedBody h with ⟨⟨document, htext, -⟩, -⟩
  exact ⟨h, document, htext⟩

end Answer
end Readiness
