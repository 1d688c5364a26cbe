import Readiness.Command
import Readiness.Proofs.Text.Utf8

namespace Readiness.Command

/-! # Runs of the command

A run is its settings and one check. What the variables of the environment hold decides how it
goes, as far as they are texts; a variable that is no text might as well not be there. Without
settings nothing is sent, and with settings the check decides everything else: how the command
ends, what it sends, and which events it tells.
-/

variable {environment : Environment} {texts : Variable → Option String}
  {replies : List Http.Reply} {settings : Settings}

/-! ## The settings of a run -/

/-- The texts that the variables of an environment hold. -/
def AreTexts (environment : Environment) (texts : Variable → Option String) : Prop :=
  ∀ which text, texts which = some text ↔ environment which.key = some (Text.toBytes text)

/-- A variable has a text exactly if its bytes are those of the text. -/
theorem text?_eq_some_iff {name text : String} :
    environment.text? name = some text ↔ environment name = some (Text.toBytes text) := by
  simp only [Environment.text?, Option.bind_eq_some_iff]
  constructor
  · rintro ⟨bytes, hbytes, htext⟩
    rw [hbytes, Text.ofBytes?_eq_some_iff.mp htext]
  · intro hbytes
    exact ⟨_, hbytes, Text.ofBytes?_eq_some_iff.mpr rfl⟩

theorem areTexts_text? (environment : Environment) :
    AreTexts environment fun which => environment.text? which.key := by
  intro which text
  exact text?_eq_some_iff

/-- An environment holds one text for a variable at most, so its settings are those of the
texts. -/
theorem settings_of_areTexts (h : AreTexts environment texts) :
    environment.settings = Settings.ofLookup texts := by
  have heq : (fun which => environment.text? which.key) = texts := by
    funext which
    apply Option.ext
    intro text
    exact (areTexts_text? environment which text).trans (h which text).symm
  rw [Environment.settings, heq]

/-- A run depends on its environment through the settings only. -/
theorem run_congr [Url.Idna] {environment' : Environment}
    (h : environment'.settings = environment.settings)
    (replies : List Http.Reply) : run environment' replies = run environment replies := by
  rw [run, h, run]

/-! ## What a run tells -/

/-- What is told of an event: how much it matters, what it says, and what it shows. -/
def told (event : Event) : Severity × String × List (String × String) :=
  (event.severity, event.message, event.fields)

/-- A run that ended for want of settings. -/
structure IsRefused (replies : List Http.Reply) (error : SettingsError) (report : Report) :
    Prop where
  code : report.exit.code = 2
  output : report.output = ""
  requests : report.requests = []
  rest : report.rest = replies
  events : report.events.map told =
    [(.error, "Invalid probe configuration", [("error", error.message)])]

/-- The last event of a run tells the result of its check. -/
structure Tells (url : String) (result : Except ProbeError Progress)
    (event : Severity × String × List (String × String)) : Prop where
  ready : ∀ block, result = .ok ⟨block⟩ →
    event = (.info, "Subgraph is deployed",
      [("url", url), ("block_number", Event.blockText block)])
  notReady : ∀ error, result = .error error →
    event = (.warn, "Subgraph is not ready", [("url", url), ("error", error.message)])

/-- A run that did a check and nothing else. -/
structure IsDone (settings : Settings) (check : Probe.Check) (report : Report) : Prop where
  ready : report.exit.code = 0 ↔ ∃ progress, check.result = .ok progress
  notReady : report.exit.code = 1 ↔ ∃ error, check.result = .error error
  output : report.output = ""
  requests : report.requests = check.requests
  rest : report.rest = check.rest
  events : ∃ last, Tells settings.url check.result last ∧ report.events.map told =
    [(.info, "Checking subgraph deployment",
        [("url", settings.url), ("timeout_secs", toString settings.timeout.seconds)]),
      (.debug, "Querying subgraph _meta",
        [("url", settings.url), ("timeout_secs", Double.text settings.timeout.seconds)]),
      last]

theorem run_of_error [Url.Idna] {error : SettingsError} (h : environment.settings = .error error)
    (replies : List Http.Reply) :
    run environment replies = ⟨.invalidSettings, "", [.invalidSettings error], [], replies⟩ := by
  rw [run, h]

theorem run_of_settings [Url.Idna] (h : environment.settings = .ok settings)
    (replies : List Http.Reply) :
    run environment replies =
      ⟨.ofResult (Probe.check settings replies).result, "",
        opening settings ++ [closing settings (Probe.check settings replies).result],
        (Probe.check settings replies).requests, (Probe.check settings replies).rest⟩ := by
  rw [run, h]

theorem isRefused_run [Url.Idna] {error : SettingsError} (h : environment.settings = .error error) :
    IsRefused replies error (run environment replies) := by
  rw [run_of_error h]
  exact ⟨rfl, rfl, rfl, rfl, rfl⟩

theorem tells_closing (settings : Settings) (result : Except ProbeError Progress) :
    Tells settings.url result (told (closing settings result)) := by
  constructor
  · rintro block rfl
    rfl
  · rintro error rfl
    rfl

theorem code_ofResult_eq_zero_iff {result : Except ProbeError Progress} :
    (Exit.ofResult result).code = 0 ↔ ∃ progress, result = .ok progress := by
  cases result <;> simp [Exit.ofResult, Exit.code]

theorem code_ofResult_eq_one_iff {result : Except ProbeError Progress} :
    (Exit.ofResult result).code = 1 ↔ ∃ error, result = .error error := by
  cases result <;> simp [Exit.ofResult, Exit.code]

theorem isDone_run [Url.Idna] (h : environment.settings = .ok settings) :
    IsDone settings (Probe.check settings replies) (run environment replies) := by
  rw [run_of_settings h]
  generalize Probe.check settings replies = check
  constructor
  case ready => exact code_ofResult_eq_zero_iff
  case notReady => exact code_ofResult_eq_one_iff
  case output => rfl
  case requests => rfl
  case rest => rfl
  case events => exact ⟨_, tells_closing settings _, rfl⟩

/-- A run ends with code 2 exactly if there are no settings, since a check never does. -/
theorem code_run_eq_two_iff [Url.Idna] :
    (run environment replies).exit.code = 2 ↔ ∃ error, environment.settings = .error error := by
  cases h : environment.settings with
  | error error => simpa using (isRefused_run h).code
  | ok settings =>
    rw [run_of_settings h]
    cases (Probe.check settings replies).result <;>
      simp [Exit.ofResult, Exit.code]

/-- A run of the command is its settings and one check, for every environment and whatever the
server replies. -/
theorem run_of_texts [Url.Idna] (environment : Environment) (replies : List Http.Reply) :
    ∃ texts, AreTexts environment texts ∧
      ((run environment replies).exit.code = 2 ↔
        ∃ error, Settings.ofLookup texts = .error error) ∧
      (∀ error, Settings.ofLookup texts = .error error →
        IsRefused replies error (run environment replies)) ∧
      (∀ settings, Settings.ofLookup texts = .ok settings →
        IsDone settings (Probe.check settings replies) (run environment replies)) := by
  have htexts := areTexts_text? environment
  refine ⟨_, htexts, ?_⟩
  rw [← settings_of_areTexts htexts]
  refine ⟨code_run_eq_two_iff, ?_, ?_⟩
  · intro error herror
    exact isRefused_run herror
  · intro settings hsettings
    exact isDone_run hsettings

end Readiness.Command
