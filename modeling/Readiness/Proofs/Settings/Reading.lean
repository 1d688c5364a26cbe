import Readiness.Proofs.Number.Decimal
import Readiness.Proofs.Text.Blank
import Readiness.Settings

namespace Readiness.Settings

/-! # Reading the settings

Which variables hold settings, which settings they are, and what is reported when they hold
none. Three of the four variables can stand in the way, and they are looked at in a fixed order:
the error is about the first that does, and nothing behind it has any influence.
-/

variable {lookup : Variable → Option String} {text : String} {settings : Settings}

/-! ## Single variables -/

/-- White space around it aside, a text is a numeral of a number. -/
def HoldsNumber (text : String) (n : Nat) : Prop :=
  ∃ inner, Text.IsTrimmed text.toList inner ∧ Decimal.IsNumeral inner n

/-- A text holds a port number. -/
def HoldsPort (text : String) : Prop := ∃ n, HoldsNumber text n ∧ n ≤ 65535

/-- A text holds a timeout: at least one second, and no more than 64 bits can count. -/
def HoldsTimeout (text : String) : Prop :=
  ∃ n, HoldsNumber text n ∧ 1 ≤ n ∧ n ≤ 18446744073709551615

theorem read_trim_eq_ok_iff {limit n : Nat} :
    Decimal.read limit (Text.trim text.toList) = .ok n ↔ HoldsNumber text n ∧ n ≤ limit := by
  rw [Decimal.read_eq_ok_iff]
  constructor
  · rintro ⟨hnumeral, hle⟩
    exact ⟨⟨_, Text.isTrimmed_trim text.toList, hnumeral⟩, hle⟩
  · rintro ⟨⟨inner, htrimmed, hnumeral⟩, hle⟩
    rw [htrimmed.eq_trim] at hnumeral
    exact ⟨hnumeral, hle⟩

theorem readPort_eq_ok {port : UInt16} (h : readPort text = .ok port) :
    HoldsNumber text port.toNat := by
  unfold readPort at h
  split at h
  · next n hread =>
    cases h
    rcases read_trim_eq_ok_iff.mp hread with ⟨hnumber, hle⟩
    rwa [UInt16.toNat_ofNat_of_lt' (Nat.lt_succ_of_le hle)]
  · cases h

theorem holdsPort_iff : HoldsPort text ↔ ∃ port, readPort text = .ok port := by
  constructor
  · rintro ⟨n, hnumber⟩
    rw [← read_trim_eq_ok_iff] at hnumber
    exact ⟨UInt16.ofNat n, by simp only [readPort, hnumber]⟩
  · rintro ⟨port, h⟩
    exact ⟨port.toNat, readPort_eq_ok h, Nat.le_of_lt_succ port.toNat_lt⟩

theorem readPort_eq_error {error : SettingsError} (h : readPort text = .error error) :
    ¬ HoldsPort text ∧ ∃ cause, error = .invalidPort text cause := by
  constructor
  · rw [holdsPort_iff, h]
    rintro ⟨port, ⟨⟩⟩
  · unfold readPort at h
    split at h
    · cases h
    · next cause _ =>
      cases h
      exact ⟨cause, rfl⟩

theorem readTimeout_some_eq_ok {timeout : Span} (h : readTimeout (some text) = .ok timeout) :
    ∃ n, HoldsNumber text n ∧ 1 ≤ n ∧ n ≤ maxSeconds ∧ timeout = .ofSeconds n := by
  simp only [readTimeout] at h
  split at h
  · cases h
  · next n hne hread =>
    cases h
    rcases read_trim_eq_ok_iff.mp hread with ⟨hnumber, hle⟩
    refine ⟨n, hnumber, ?_, hle, rfl⟩
    rcases Nat.eq_zero_or_pos n with rfl | hpos
    · exact absurd rfl hne
    · exact hpos
  · cases h

theorem readTimeout_of_holdsTimeout (h : HoldsTimeout text) :
    ∃ timeout, readTimeout (some text) = .ok timeout := by
  rcases h with ⟨n, hnumber, hpos, hle⟩
  have hread := read_trim_eq_ok_iff.mpr ⟨hnumber, hle⟩
  rcases Nat.exists_eq_succ_of_ne_zero (Nat.ne_of_gt hpos) with ⟨k, rfl⟩
  exact ⟨.ofSeconds (k + 1), by simp only [readTimeout, maxSeconds, hread]⟩

theorem readTimeout_some_eq_error {error : SettingsError}
    (h : readTimeout (some text) = .error error) :
    ¬ HoldsTimeout text ∧ error = .invalidTimeout text := by
  constructor
  · intro hholds
    rcases readTimeout_of_holdsTimeout hholds with ⟨timeout, hok⟩
    rw [h] at hok
    cases hok
  · simp only [readTimeout] at h
    split at h <;> cases h <;> rfl

/-- The host that a variable gives, and the one that stands in for it. -/
structure IsHost (value : Option String) (host : String) : Prop where
  given : ∀ text, value = some text → (∃ c ∈ text.toList, Text.isBlank c = false) →
    Text.IsTrimmed text.toList host.toList
  absent : (∀ text, value = some text → ∀ c ∈ text.toList, Text.isBlank c = true) →
    host = "localhost"
  ne_empty : host ≠ ""
  trimmed : Text.IsTrimmed host.toList host.toList

theorem isTrimmed_defaultHost : Text.IsTrimmed defaultHost.toList defaultHost.toList := by
  have hfirst : defaultHost.toList.head? = some 'l' := rfl
  have hlast : defaultHost.toList.getLast? = some 't' := rfl
  constructor
  case split => exact ⟨[], [], by simp, by simp, by simp⟩
  case first =>
    intro c hc
    rw [hfirst, Option.some.injEq] at hc
    subst hc
    decide
  case last =>
    intro c hc
    rw [hlast, Option.some.injEq] at hc
    subst hc
    decide

theorem trim_getD_eq_nil_iff {value : Option String} :
    Text.trim (value.getD "").toList = [] ↔
      ∀ text, value = some text → ∀ c ∈ text.toList, Text.isBlank c = true := by
  rw [Text.trim_eq_nil_iff]
  cases value with
  | none => simp
  | some text => simp

theorem isHost_readHost (value : Option String) : IsHost value (readHost value) := by
  unfold readHost
  simp only [List.isEmpty_iff]
  by_cases hblank : Text.trim (value.getD "").toList = []
  · rw [if_pos hblank]
    rw [trim_getD_eq_nil_iff] at hblank
    constructor
    case given =>
      rintro text hvalue ⟨c, hc, hne⟩
      rw [hblank text hvalue c hc] at hne
      cases hne
    case absent => exact fun _ => rfl
    case ne_empty => decide
    case trimmed => exact isTrimmed_defaultHost
  · rw [if_neg hblank]
    have htrimmed := Text.isTrimmed_trim (value.getD "").toList
    constructor
    case given =>
      rintro text rfl -
      rw [String.toList_ofList]
      exact htrimmed
    case absent =>
      intro hall
      exact absurd (trim_getD_eq_nil_iff.mpr hall) hblank
    case ne_empty =>
      intro hempty
      exact hblank (by simpa using congrArg String.toList hempty)
    case trimmed =>
      rw [String.toList_ofList]
      exact htrimmed.self

/-! ## All variables -/

/-- How the settings are read: one variable after the other, up to the first problem. -/
inductive Reads (lookup : Variable → Option String) : Except SettingsError Settings → Prop where
  | noPort : lookup .port = none → Reads lookup (.error (.missing .port))
  | badPort {text : String} {error : SettingsError} :
      lookup .port = some text → readPort text = .error error → Reads lookup (.error error)
  | noDeployment {text : String} {port : UInt16} :
      lookup .port = some text → readPort text = .ok port → lookup .deployment = none →
      Reads lookup (.error (.missing .deployment))
  | badTimeout {text name : String} {port : UInt16} {error : SettingsError} :
      lookup .port = some text → readPort text = .ok port → lookup .deployment = some name →
      readTimeout (lookup .timeout) = .error error → Reads lookup (.error error)
  | settings {text name : String} {port : UInt16} {timeout : Span} :
      lookup .port = some text → readPort text = .ok port → lookup .deployment = some name →
      readTimeout (lookup .timeout) = .ok timeout →
      Reads lookup (.ok ⟨readHost (lookup .host), port, name, timeout⟩)

theorem Reads.eq {result : Except SettingsError Settings} (h : Reads lookup result) :
    ofLookup lookup = result := by
  cases h with
  | noPort hport => simp [ofLookup, require, hport, bind, Except.bind]
  | badPort hport hread => simp [ofLookup, require, hport, hread, bind, Except.bind]
  | noDeployment hport hread hname =>
    simp [ofLookup, require, hport, hread, hname, bind, Except.bind]
  | badTimeout hport hread hname htimeout =>
    simp [ofLookup, require, hport, hread, hname, htimeout, bind, Except.bind]
  | settings hport hread hname htimeout =>
    simp [ofLookup, require, hport, hread, hname, htimeout, bind, Except.bind, pure, Except.pure]

theorem reads_ofLookup (lookup : Variable → Option String) : Reads lookup (ofLookup lookup) := by
  have hread : ∃ result, Reads lookup result := by
    cases hport : lookup .port with
    | none => exact ⟨_, .noPort hport⟩
    | some text =>
      cases hread : readPort text with
      | error error => exact ⟨_, .badPort hport hread⟩
      | ok port =>
        cases hname : lookup .deployment with
        | none => exact ⟨_, .noDeployment hport hread hname⟩
        | some name =>
          cases htimeout : readTimeout (lookup .timeout) with
          | error error => exact ⟨_, .badTimeout hport hread hname htimeout⟩
          | ok timeout => exact ⟨_, .settings hport hread hname htimeout⟩
  rcases hread with ⟨result, hread⟩
  rw [hread.eq]
  exact hread

/-- The variables hold all that settings need. -/
structure IsComplete (lookup : Variable → Option String) : Prop where
  port : ∃ text, lookup .port = some text ∧ HoldsPort text
  deployment : ∃ name, lookup .deployment = some name
  timeout : ∀ text, lookup .timeout = some text → HoldsTimeout text

/-- The settings are those that the variables hold. -/
structure IsHeld (lookup : Variable → Option String) (settings : Settings) : Prop where
  port : ∀ text, lookup .port = some text → HoldsNumber text settings.port.toNat
  deployment : lookup .deployment = some settings.deployment
  timeout : ∀ text, lookup .timeout = some text → HoldsNumber text settings.timeout.seconds
  noTimeout : lookup .timeout = none → settings.timeout.seconds = 10
  nanoseconds : settings.timeout.nanoseconds = 0
  host : IsHost (lookup .host) settings.host

/-- An error is about the first variable that stands in the way, and tells its text as it is. -/
inductive IsFirstProblem (lookup : Variable → Option String) : SettingsError → Prop where
  | noPort : lookup .port = none → IsFirstProblem lookup (.missing .port)
  | badPort {text : String} {cause : Decimal.Fault} :
      lookup .port = some text → ¬ HoldsPort text →
      IsFirstProblem lookup (.invalidPort text cause)
  | noDeployment {text : String} :
      lookup .port = some text → HoldsPort text → lookup .deployment = none →
      IsFirstProblem lookup (.missing .deployment)
  | badTimeout {text name value : String} :
      lookup .port = some text → HoldsPort text → lookup .deployment = some name →
      lookup .timeout = some value → ¬ HoldsTimeout value →
      IsFirstProblem lookup (.invalidTimeout value)

/-- The variables that were looked at before an error was found. -/
def lookedAt : SettingsError → List Variable
  | .missing .port | .invalidPort _ _ => [.port]
  | .missing _ => [.port, .deployment]
  | .invalidTimeout _ => [.port, .deployment, .timeout]

theorem readTimeout_eq_error {error : SettingsError} {value : Option String}
    (h : readTimeout value = .error error) :
    ∃ text, value = some text ∧ ¬ HoldsTimeout text ∧ error = .invalidTimeout text := by
  cases value with
  | none => cases h
  | some text => exact ⟨text, rfl, readTimeout_some_eq_error h⟩

theorem isFirstProblem_of_error {error : SettingsError} (h : ofLookup lookup = .error error) :
    IsFirstProblem lookup error := by
  have hreads := reads_ofLookup lookup
  rw [h] at hreads
  cases hreads with
  | noPort hport => exact .noPort hport
  | badPort hport hread =>
    rcases readPort_eq_error hread with ⟨hbad, cause, rfl⟩
    exact .badPort hport hbad
  | noDeployment hport hread hname =>
    exact .noDeployment hport (holdsPort_iff.mpr ⟨_, hread⟩) hname
  | badTimeout hport hread hname htimeout =>
    rcases readTimeout_eq_error htimeout with ⟨value, hvalue, hbad, rfl⟩
    exact .badTimeout hport (holdsPort_iff.mpr ⟨_, hread⟩) hname hvalue hbad

/-- Variables that were not looked at could hold anything. -/
theorem ofLookup_congr_of_error {error : SettingsError} (h : ofLookup lookup = .error error)
    {lookup' : Variable → Option String}
    (hagree : ∀ which ∈ lookedAt error, lookup' which = lookup which) :
    ofLookup lookup' = .error error := by
  have hreads := reads_ofLookup lookup
  rw [h] at hreads
  apply Reads.eq
  cases hreads with
  | noPort hport =>
    exact .noPort ((hagree .port (by decide)).trans hport)
  | badPort hport hread =>
    rcases readPort_eq_error hread with ⟨-, cause, rfl⟩
    exact .badPort ((hagree .port List.mem_cons_self).trans hport) hread
  | noDeployment hport hread hname =>
    exact .noDeployment ((hagree .port (by decide)).trans hport) hread
      ((hagree .deployment (by decide)).trans hname)
  | badTimeout hport hread hname htimeout =>
    rcases readTimeout_eq_error htimeout with ⟨value, hvalue, -, rfl⟩
    rw [← hagree .timeout (by simp [lookedAt])] at htimeout
    exact .badTimeout ((hagree .port (by simp [lookedAt])).trans hport) hread
      ((hagree .deployment (by simp [lookedAt])).trans hname) htimeout

theorem isHeld_of_ok (h : ofLookup lookup = .ok settings) : IsHeld lookup settings := by
  have hreads := reads_ofLookup lookup
  rw [h] at hreads
  cases hreads with
  | @settings text name port timeout hport hread hname htimeout =>
    have hnone : lookup .timeout = none → timeout = .ofSeconds 10 := by
      intro hvalue
      rw [hvalue] at htimeout
      cases htimeout
      rfl
    have hsome : ∀ value, lookup .timeout = some value →
        ∃ n, HoldsNumber value n ∧ timeout = .ofSeconds n := by
      intro value hvalue
      rw [hvalue] at htimeout
      rcases readTimeout_some_eq_ok htimeout with ⟨n, hnumber, -, -, htimeout⟩
      exact ⟨n, hnumber, htimeout⟩
    constructor
    case port =>
      intro text' htext
      rw [hport, Option.some.injEq] at htext
      subst htext
      exact readPort_eq_ok hread
    case deployment => exact hname
    case timeout =>
      intro value hvalue
      rcases hsome value hvalue with ⟨n, hnumber, rfl⟩
      exact hnumber
    case noTimeout =>
      intro hvalue
      rw [hnone hvalue]
      rfl
    case nanoseconds =>
      cases hvalue : lookup .timeout with
      | none =>
        rw [hnone hvalue]
        rfl
      | some value =>
        rcases hsome value hvalue with ⟨n, -, rfl⟩
        rfl
    case host => exact isHost_readHost (lookup .host)

theorem isComplete_iff : IsComplete lookup ↔ ∃ settings, ofLookup lookup = .ok settings := by
  constructor
  · rintro ⟨⟨text, hport, hholds⟩, ⟨name, hname⟩, htimeouts⟩
    rcases holdsPort_iff.mp hholds with ⟨port, hread⟩
    have htimeout : ∃ timeout, readTimeout (lookup .timeout) = .ok timeout := by
      cases hvalue : lookup .timeout with
      | none => exact ⟨_, rfl⟩
      | some value => exact readTimeout_of_holdsTimeout (htimeouts value hvalue)
    rcases htimeout with ⟨timeout, htimeout⟩
    exact ⟨_, (Reads.settings hport hread hname htimeout).eq⟩
  · rintro ⟨settings, h⟩
    have hreads := reads_ofLookup lookup
    rw [h] at hreads
    cases hreads with
    | settings hport hread hname htimeout =>
      refine ⟨⟨_, hport, holdsPort_iff.mpr ⟨_, hread⟩⟩, ⟨_, hname⟩, ?_⟩
      intro value hvalue
      rw [hvalue] at htimeout
      rcases readTimeout_some_eq_ok htimeout with ⟨n, hnumber, hpos, hle, -⟩
      exact ⟨n, hnumber, hpos, hle⟩

/-- Which variables hold settings, what those are, and what is wrong with all others. -/
theorem ofLookup_exact (lookup : Variable → Option String) :
    ((∃ settings, ofLookup lookup = .ok settings) ↔ IsComplete lookup) ∧
    (∀ settings, ofLookup lookup = .ok settings → IsHeld lookup settings) ∧
    (∀ error, ofLookup lookup = .error error → IsFirstProblem lookup error ∧
      ∀ lookup' : Variable → Option String,
        (∀ which ∈ lookedAt error, lookup' which = lookup which) →
        ofLookup lookup' = .error error) := by
  refine ⟨isComplete_iff.symm, fun _ => isHeld_of_ok, ?_⟩
  intro error herror
  refine ⟨isFirstProblem_of_error herror, ?_⟩
  intro lookup' hagree
  exact ofLookup_congr_of_error herror hagree

end Readiness.Settings
