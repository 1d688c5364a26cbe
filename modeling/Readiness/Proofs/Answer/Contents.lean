import Mathlib.Data.List.Forall2
import Readiness.Proofs.Answer.Verdict
import Readiness.Proofs.Json.Unambiguous

namespace Readiness

/-! # What an answer tells

An answer may tell the number of the latest block, and the messages of errors in place of data.
Both are told exactly as the document has them, and left out unless all of it is understood.
-/

namespace Json

/-- A path of keys leads through objects only, by the last member with each key. -/
inductive LeadsTo : Json → List String → Json → Prop where
  | here {json : Json} : LeadsTo json [] json
  | through {members : List (String × Json)} {key : String} {path : List String}
      {inner found : Json} :
      IsLast key inner members → LeadsTo inner path found →
      LeadsTo (.object members) (key :: path) found

theorem get?_eq_some_iff {json inner : Json} {key : String} :
    json.get? key = some inner ↔ ∃ members, json = .object members ∧ IsLast key inner members := by
  constructor
  · intro h
    unfold get? at h
    split at h
    · next members => exact ⟨members, rfl, lastMember_eq_some_iff.mp h⟩
    · cases h
  · rintro ⟨members, rfl, hlast⟩
    exact lastMember_eq_some_iff.mpr hlast

theorem at?_eq_some_iff {json found : Json} {path : List String} :
    json.at? path = some found ↔ LeadsTo json path found := by
  induction path generalizing json with
  | nil =>
    rw [at?, Option.some.injEq]
    constructor
    · rintro rfl
      exact .here
    · rintro ⟨⟩
      rfl
  | cons key path ih =>
    rw [at?, Option.bind_eq_some_iff]
    constructor
    · rintro ⟨inner, hinner, hpath⟩
      rcases get?_eq_some_iff.mp hinner with ⟨members, rfl, hlast⟩
      exact .through hlast (ih.mp hpath)
    · intro h
      cases h with
      | through hlast hpath => exact ⟨_, lastMember_eq_some_iff.mpr hlast, ih.mpr hpath⟩

theorem natural?_eq_some_iff {json : Json} {n : Nat} :
    json.natural? = some n ↔ ∃ digits, json = .number ⟨false, digits, [], none⟩ ∧
      n = Numeral.value digits ∧ n ≤ 18446744073709551615 := by
  cases json with
  | null | bool | string | array | object => simp [natural?]
  | number numeral =>
    rcases numeral with ⟨negative, whole, fraction, exponent⟩
    have hlimit : Numeral.naturalLimit = 18446744073709551615 := rfl
    simp only [natural?, Numeral.natural?, hlimit]
    constructor
    · intro h
      split at h
      · next hnatural =>
        cases h
        simp only [Bool.and_eq_true, Bool.not_eq_true', List.isEmpty_iff, Option.isNone_iff_eq_none,
          decide_eq_true_eq] at hnatural
        rcases hnatural with ⟨⟨⟨rfl, rfl⟩, rfl⟩, hle⟩
        exact ⟨whole, rfl, rfl, hle⟩
      · cases h
    · rintro ⟨digits, hnumber, rfl, hle⟩
      cases hnumber
      simp [hle]

end Json

namespace Answer

open Json (IsLast LeadsTo TextSpelling lastMember lastMember_eq_some_iff)

variable {document : Json} {body : List UInt8} {members : List (String × Json)}
  {items : List Json} {errors : List String}

/-- A body that gets a verdict gets that of the document it spells. -/
theorem evaluate_of_spelling (hbody : TextSpelling document body)
    (hvalid : ∀ reason, evaluate body ≠ .error (.invalidJson reason)) :
    evaluate body = judge document := by
  rcases read_of_evaluate hvalid with ⟨found, hread⟩
  rw [evaluate, hread, Json.eq_of_read hbody hread]

/-! ## The block -/

/-- The data say that this is the number of the block, in digits alone. -/
def IsBlock (data : Json) (n : Nat) : Prop :=
  ∃ digits, LeadsTo data ["_meta", "block", "number"] (.number ⟨false, digits, [], none⟩) ∧
    n = Numeral.value digits ∧ n ≤ 18446744073709551615

theorem block_eq_some_iff {data : Json} {n : Nat} :
    (data.at? blockPath).bind Json.natural? = some n ↔ IsBlock data n := by
  rw [Option.bind_eq_some_iff]
  constructor
  · rintro ⟨found, hfound, hnatural⟩
    rcases Json.natural?_eq_some_iff.mp hnatural with ⟨digits, rfl, hn, hle⟩
    exact ⟨digits, Json.at?_eq_some_iff.mp hfound, hn, hle⟩
  · rintro ⟨digits, hpath, hn, hle⟩
    exact ⟨_, Json.at?_eq_some_iff.mpr hpath, Json.natural?_eq_some_iff.mpr ⟨digits, rfl, hn, hle⟩⟩

/-- A body says that the deployment is ready exactly if it has data, and tells the number of the
block exactly if the data have one. -/
theorem block_of_ready (document : Json) (body : List UInt8) (hbody : TextSpelling document body)
    (hvalid : ∀ reason, evaluate body ≠ .error (.invalidJson reason)) (progress : Progress) :
    evaluate body = .ok progress ↔ ∃ members data, document = .object members ∧
      IsLast "data" data members ∧ data ≠ .null ∧
      ∀ n, progress.block = some n ↔ IsBlock data n := by
  rw [evaluate_of_spelling hbody hvalid, judge_eq_ok_iff]
  constructor
  · rintro ⟨members, data, hobject, hlast, hne, rfl⟩
    exact ⟨members, data, hobject, hlast, hne, fun n => block_eq_some_iff⟩
  · rintro ⟨members, data, hobject, hlast, hne, hblock⟩
    refine ⟨members, data, hobject, hlast, hne, ?_⟩
    rcases progress with ⟨block⟩
    rw [Progress.mk.injEq]
    apply Option.ext
    intro n
    rw [block_eq_some_iff]
    exact hblock n

/-- A body whose data are told twice, with this number behind an escaped key. -/
def bodyWithBlock (number : String) : List UInt8 :=
  Text.toBytes
    ("\x7b\"data\":null,\"data\" : \x7b\"_meta\":\x7b\"block\":[7],\"bl\\u006fck\":\x7b\"number\":" ++
      number ++ "\x7d\x7d\x7d\x7d")

/-- The largest number that is told, and the smallest that is not. -/
theorem block_of_ready_at_limit :
    (∃ document members data, TextSpelling document (bodyWithBlock "18446744073709551615") ∧
      document = .object members ∧ IsLast "data" data members ∧
      IsBlock data 18446744073709551615) ∧
    ∃ document members data, TextSpelling document (bodyWithBlock "18446744073709551616") ∧
      document = .object members ∧ IsLast "data" data members ∧ data ≠ .null ∧
      ∀ n, ¬ IsBlock data n := by
  have htold : evaluate (bodyWithBlock "18446744073709551615") =
      .ok ⟨some 18446744073709551615⟩ := by decide +kernel
  have huntold : evaluate (bodyWithBlock "18446744073709551616") = .ok ⟨none⟩ := by decide +kernel
  constructor
  · have hvalid : ∀ reason, evaluate (bodyWithBlock "18446744073709551615") ≠
        .error (.invalidJson reason) := by simp [htold]
    rcases spelling_of_verdict _ hvalid with ⟨⟨document, hbody, -⟩, -⟩
    rcases (block_of_ready document _ hbody hvalid _).mp htold with
      ⟨members, data, hobject, hlast, -, hblock⟩
    exact ⟨document, members, data, hbody, hobject, hlast, (hblock _).mp rfl⟩
  · have hvalid : ∀ reason, evaluate (bodyWithBlock "18446744073709551616") ≠
        .error (.invalidJson reason) := by simp [huntold]
    rcases spelling_of_verdict _ hvalid with ⟨⟨document, hbody, -⟩, -⟩
    rcases (block_of_ready document _ hbody hvalid _).mp huntold with
      ⟨members, data, hobject, hlast, hne, hblock⟩
    refine ⟨document, members, data, hbody, hobject, hlast, hne, ?_⟩
    intro n hn
    cases (hblock n).mpr hn

/-! ## Reported errors -/

/-- The message of a reported error: the last member of that name, or the only item of a list. -/
inductive IsMessage : Json → String → Prop where
  | member {members : List (String × Json)} {text : String} :
      IsLast "message" (.string text) members → IsMessage (.object members) text
  | only {text : String} : IsMessage (.array [.string text]) text

theorem message?_eq_some_iff {item : Json} {text : String} :
    message? item = some text ↔ IsMessage item text := by
  constructor
  · intro h
    unfold message? at h
    split at h
    · split at h
      · next hlast =>
        cases h
        exact .member (lastMember_eq_some_iff.mp hlast)
      · cases h
    · cases h
      exact .only
    · cases h
  · intro h
    cases h with
    | member hlast =>
      rw [← lastMember_eq_some_iff] at hlast
      simp only [message?, hlast]
    | only => rfl

/-- All messages are understood, or none is kept. -/
theorem mapM_message?_eq_some_iff :
    items.mapM message? = some errors ↔ List.Forall₂ IsMessage items errors := by
  induction items generalizing errors with
  | nil => simp [eq_comm]
  | cons item items ih =>
    rw [List.mapM_cons, List.forall₂_cons_left_iff]
    simp only [Option.bind_eq_bind, Option.bind_eq_some_iff, Option.pure_def, Option.some.injEq,
      message?_eq_some_iff, ih]
    constructor
    · rintro ⟨text, htext, texts, htexts, rfl⟩
      exact ⟨text, texts, htext, htexts, rfl⟩
    · rintro ⟨text, texts, htext, htexts, rfl⟩
      exact ⟨text, htext, texts, htexts, rfl⟩

theorem exists_forall₂_iff :
    (∃ errors, List.Forall₂ IsMessage items errors) ↔
      ∀ item ∈ items, ∃ text, IsMessage item text := by
  induction items with
  | nil => simp
  | cons item items ih =>
    rw [List.forall_mem_cons, ← ih]
    constructor
    · rintro ⟨errors, h⟩
      cases h with
      | cons htext htexts => exact ⟨⟨_, htext⟩, ⟨_, htexts⟩⟩
    · rintro ⟨⟨text, htext⟩, texts, htexts⟩
      exact ⟨text :: texts, .cons htext htexts⟩

/-- These are the errors that the members report: all messages in order if every one of them is
understood, and nothing otherwise. -/
structure IsReport (members : List (String × Json)) (errors : List String) : Prop where
  understood : ∀ items, IsLast "errors" (.array items) members →
    (∀ item ∈ items, ∃ text, IsMessage item text) → List.Forall₂ IsMessage items errors
  otherwise : (¬ ∃ items, IsLast "errors" (.array items) members ∧
    ∀ item ∈ items, ∃ text, IsMessage item text) → errors = []

theorem messages_of_forall₂ (hlast : IsLast "errors" (.array items) members)
    (h : List.Forall₂ IsMessage items errors) :
    messages (lastMember "errors" members) = errors := by
  rw [lastMember_eq_some_iff.mpr hlast, messages, mapM_message?_eq_some_iff.mpr h,
    Option.getD_some]

theorem messages_of_not_understood (h : ¬ ∃ items, IsLast "errors" (.array items) members ∧
    ∀ item ∈ items, ∃ text, IsMessage item text) :
    messages (lastMember "errors" members) = [] := by
  unfold messages
  split
  · next items hlast =>
    cases hmap : items.mapM message? with
    | none => rfl
    | some errors =>
      have hall := exists_forall₂_iff.mp ⟨errors, mapM_message?_eq_some_iff.mp hmap⟩
      exact absurd ⟨items, lastMember_eq_some_iff.mp hlast, hall⟩ h
  · rfl

theorem isReport_iff :
    IsReport members errors ↔ errors = messages (lastMember "errors" members) := by
  constructor
  · intro h
    by_cases hall : ∃ items, IsLast "errors" (.array items) members ∧
        ∀ item ∈ items, ∃ text, IsMessage item text
    · rcases hall with ⟨items, hlast, hitems⟩
      exact (messages_of_forall₂ hlast (h.understood items hlast hitems)).symm
    · rw [h.otherwise hall, messages_of_not_understood hall]
  · rintro rfl
    constructor
    case understood =>
      intro items hlast hitems
      rcases exists_forall₂_iff.mpr hitems with ⟨errors, herrors⟩
      rwa [messages_of_forall₂ hlast herrors]
    case otherwise => exact messages_of_not_understood

/-- A body without data says so, with the errors that it reports in full or with none. -/
theorem errors_of_noData (document : Json) (body : List UInt8)
    (hbody : TextSpelling document body)
    (hvalid : ∀ reason, evaluate body ≠ .error (.invalidJson reason)) (errors : List String) :
    evaluate body = .error (.noData errors) ↔ ∃ members, document = .object members ∧
      ((∀ data, ("data", data) ∉ members) ∨ IsLast "data" .null members) ∧
      IsReport members errors := by
  rw [evaluate_of_spelling hbody hvalid, judge_eq_noData_iff]
  simp only [isReport_iff]

/-- A body without data that reports two errors, in both shapes, and this one behind them. -/
def bodyWithErrors (more : String) : List UInt8 :=
  Text.toBytes
    ("\x7b\"errors\":[\x7b\"message\":1,\"m\\u0065ssage\":\"\\ud83D\\uDE00 \\\"no\\\"\"\x7d," ++
      "[\"caf\\u00E9\"]" ++ more ++ "]\x7d")

/-- Two messages are told as they are, and none when a list with two of them follows. -/
theorem errors_of_two_shapes :
    (∃ members, TextSpelling (.object members) (bodyWithErrors "") ∧
      IsReport members ["😀 \"no\"", "café"]) ∧
    ∃ members, TextSpelling (.object members) (bodyWithErrors ",[\"a\",\"b\"]") ∧
      IsReport members [] := by
  have htold : evaluate (bodyWithErrors "") =
      .error (.noData ["😀 \"no\"", "café"]) := by decide +kernel
  have huntold : evaluate (bodyWithErrors ",[\"a\",\"b\"]") = .error (.noData []) := by decide +kernel
  constructor
  · have hvalid : ∀ reason, evaluate (bodyWithErrors "") ≠ .error (.invalidJson reason) := by
      simp [htold]
    rcases spelling_of_verdict _ hvalid with ⟨⟨document, hbody, -⟩, -⟩
    rcases (errors_of_noData document _ hbody hvalid _).mp htold with
      ⟨members, rfl, -, hreport⟩
    exact ⟨members, hbody, hreport⟩
  · have hvalid : ∀ reason, evaluate (bodyWithErrors ",[\"a\",\"b\"]") ≠
        .error (.invalidJson reason) := by simp [huntold]
    rcases spelling_of_verdict _ hvalid with ⟨⟨document, hbody, -⟩, -⟩
    rcases (errors_of_noData document _ hbody hvalid _).mp huntold with
      ⟨members, rfl, -, hreport⟩
    exact ⟨members, hbody, hreport⟩

end Answer
end Readiness
