import Readiness.Proofs.Command.Run
import Readiness.Proofs.Probe.Outcome
import Readiness.Proofs.Settings.Reading

namespace Readiness

/-! # Variables that are no text

Settings are read from texts, and a variable whose bytes encode none has no text to read. It is
dropped before anything is checked, so a run cannot tell it from a variable that is not set: what
is optional takes its default, although something was given. A text that does not hold what it
should is never dropped in this way.
-/

/-- The environment in which one variable is not set. -/
def Environment.unset (environment : Environment) (which : Variable) : Environment :=
  fun name => if name = which.key then none else environment name

namespace Command

variable {environment : Environment} {which other : Variable} {replies : List Http.Reply}

/-- A variable is set, and its bytes encode no text. -/
structure IsUndecodable (environment : Environment) (which : Variable) : Prop where
  isSet : ∃ bytes, environment which.key = some bytes
  noText : ∀ text, environment which.key ≠ some (Text.toBytes text)

/-! ## A variable that is dropped -/

theorem text?_of_isUndecodable (h : IsUndecodable environment which) :
    environment.text? which.key = none := by
  rw [Option.eq_none_iff_forall_ne_some]
  intro text htext
  exact h.noText text ((areTexts_text? environment which text).mp htext)

theorem text?_unset_self (environment : Environment) (which : Variable) :
    (environment.unset which).text? which.key = none := by
  have hunset : environment.unset which which.key = none := if_pos rfl
  rw [Environment.text?, hunset, Option.bind_none]

theorem text?_unset_of_ne (h : other.key ≠ which.key) :
    (environment.unset which).text? other.key = environment.text? other.key := by
  have hkept : environment.unset which other.key = environment other.key := if_neg h
  rw [Environment.text?, hkept, Environment.text?]

/-- A variable that is no text holds as much as one that is not set. -/
theorem settings_unset (h : IsUndecodable environment which) :
    (environment.unset which).settings = environment.settings := by
  have htexts : (fun other : Variable => (environment.unset which).text? other.key) =
      fun other => environment.text? other.key := by
    funext other
    by_cases hkey : other.key = which.key
    · rw [hkey, text?_unset_self, text?_of_isUndecodable h]
    · exact text?_unset_of_ne hkey
  rw [Environment.settings, htexts, Environment.settings]

/-! ## A text that is refused -/

/-- A timeout that is a text of something else leaves no settings, whatever else is set. -/
theorem settings_of_not_holdsTimeout {text : String}
    (htext : environment (Variable.key .timeout) = some (Text.toBytes text))
    (hnot : ¬ Settings.HoldsTimeout text) : ∃ error, environment.settings = .error error := by
  cases hsettings : environment.settings with
  | error error => exact ⟨error, rfl⟩
  | ok settings =>
    have hcomplete := Settings.isComplete_iff.mpr ⟨settings, hsettings⟩
    have hlookup := (areTexts_text? environment .timeout text).mpr htext
    exact absurd (hcomplete.timeout text hlookup) hnot

/-- What becomes of optional variables. A timeout that is a text is obeyed or refused. But a
variable that is no text might as well not be set, so the default stands in for it. -/
theorem run_of_optional [Url.Idna] (environment : Environment) (replies : List Http.Reply) :
    (∀ text, environment (Variable.key .timeout) = some (Text.toBytes text) →
      (¬ Settings.HoldsTimeout text →
        ∃ error, IsRefused replies error (run environment replies)) ∧
      ∀ settings, environment.settings = .ok settings →
        Settings.HoldsNumber text settings.timeout.seconds) ∧
    (∀ which, IsUndecodable environment which →
      run environment replies = run (environment.unset which) replies) ∧
    (∀ settings, environment.settings = .ok settings →
      (IsUndecodable environment .timeout → settings.timeout = .ofSeconds 10) ∧
      (IsUndecodable environment .host → settings.host = "localhost")) := by
  refine ⟨?_, ?_, ?_⟩
  · intro text htext
    constructor
    · intro hnot
      rcases settings_of_not_holdsTimeout htext hnot with ⟨error, herror⟩
      exact ⟨error, isRefused_run herror⟩
    · intro settings hsettings
      exact (Settings.isHeld_of_ok hsettings).timeout text
        ((areTexts_text? environment .timeout text).mpr htext)
  · intro which hwhich
    exact (run_congr (settings_unset hwhich) replies).symm
  · intro settings hsettings
    have hheld := Settings.isHeld_of_ok hsettings
    constructor
    · intro htimeout
      have hseconds := hheld.noTimeout (text?_of_isUndecodable htimeout)
      rcases settings with ⟨_, _, _, seconds, nanoseconds⟩
      rw [Span.ofSeconds, Span.mk.injEq]
      exact ⟨hseconds, hheld.nanoseconds⟩
    · intro hhost
      apply hheld.host.absent
      intro text htext
      rw [text?_of_isUndecodable hhost] at htext
      cases htext

/-! ## A default that nobody asked for -/

/-- An environment in which one variable is a byte that encodes no text, beside what is needed. -/
def garbledEnvironment (which : Variable) : Environment := fun name =>
  [(Variable.key .port, Text.toBytes "8000"), (Variable.key .deployment, Text.toBytes "n"),
    (which.key, [255])].lookup name

theorem isUndecodable_garbledEnvironment
    (hset : garbledEnvironment which which.key = some [255]) :
    IsUndecodable (garbledEnvironment which) which := by
  have hbytes : Text.ofBytes? [255] = none := by cbv
  refine ⟨⟨_, hset⟩, ?_⟩
  intro text htext
  rw [hset, Option.some.injEq] at htext
  rw [Text.ofBytes?_eq_some_iff.mpr htext] at hbytes
  cases hbytes

/-- Settings of the machine at hand make a run that asks it. -/
theorem run_of_localSettings (h : environment.settings = .ok Probe.localSettings) :
    (run environment [.closed]).exit.code ≠ 2 ∧
      (run environment [.closed]).requests = [(Probe.firstCall Probe.localUrl).request] := by
  have hcall : Probe.call Probe.localSettings = .ok (Probe.firstCall Probe.localUrl) := by cbv
  constructor
  · intro hcode
    rcases code_run_eq_two_iff.mp hcode with ⟨error, herror⟩
    rw [h] at herror
    cases herror
  · rw [run_of_settings h]
    simp only
    rw [Probe.check_of_call hcall]
    rfl

/-- What is optional and no text is passed over: the run asks the machine at hand, and waits as
long as a run does by default. -/
theorem run_of_garbledEnvironment :
    (IsUndecodable (garbledEnvironment .timeout) .timeout ∧
      (run (garbledEnvironment .timeout) [.closed]).exit.code ≠ 2 ∧
      (run (garbledEnvironment .timeout) [.closed]).requests =
        [(Probe.firstCall Probe.localUrl).request]) ∧
    (IsUndecodable (garbledEnvironment .host) .host ∧
      (run (garbledEnvironment .host) [.closed]).exit.code ≠ 2 ∧
      (run (garbledEnvironment .host) [.closed]).requests =
        [(Probe.firstCall Probe.localUrl).request]) := by
  have htimeout : (garbledEnvironment .timeout).settings = .ok Probe.localSettings := by cbv
  have hhost : (garbledEnvironment .host).settings = .ok Probe.localSettings := by cbv
  exact ⟨⟨isUndecodable_garbledEnvironment rfl, run_of_localSettings htimeout⟩,
    ⟨isUndecodable_garbledEnvironment rfl, run_of_localSettings hhost⟩⟩

end Command
end Readiness
