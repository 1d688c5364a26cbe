import Mathlib.Data.List.Basic
import Readiness.Proofs.Command.Run
import Readiness.Proofs.Probe.Outcome

namespace Readiness.Command

/-! # Logs of different levels

How much is logged has no influence on anything else. Two runs that differ in nothing but the level
of their logs are the same run, and the log of the lower level is what the higher one holds of the
events that the lower one lets through. Without a level that is a text, the level is `info`.
-/

variable {environment environment' : Environment} {level level' : Nat} {severity : Severity}
  {text : String}

/-! ## Levels -/

/-- The severities, the most severe one first. -/
def severities : List Severity := [.error, .warn, .info, .debug, .trace]

/-- The levels of a log: how many severities each lets through, and its name. -/
def levels : List (Nat × String) :=
  [(0, "off"), (1, "error"), (2, "warn"), (3, "info"), (4, "debug"), (5, "trace")]

/-- A text is the name of a level, in any case. It may stand behind the name of the command. -/
def IsLevel (text : String) (level : Nat) : Prop :=
  ∃ name spelled, (level, name) ∈ levels ∧ spelled.toList.map Char.toLower = name.toList ∧
    (text = spelled ∨ text = "subgraph_probe=" ++ spelled)

/-- The level that an environment asks for. -/
inductive AsksFor (environment : Environment) : Nat → Prop where
  | level {text : String} {level : Nat} :
      environment Environment.filterKey = some (Text.toBytes text) → IsLevel text level →
      AsksFor environment level
  | noText {level : Nat} : (∀ text, environment Environment.filterKey ≠ some (Text.toBytes text)) →
      (level, "info") ∈ levels → AsksFor environment level

theorem mem_take_severities_iff : severity ∈ severities.take level ↔ severity.rank ≤ level := by
  have hmem : severity ∈ severities := by
    cases severity <;> decide
  rw [List.mem_take_iff_idxOf_lt hmem]
  cases severity <;> rfl

theorem ofName?_of_level {name spelled : String} (hname : (level, name) ∈ levels)
    (hspelled : spelled.toList.map Char.toLower = name.toList) :
    LogFilter.ofName? spelled = some ⟨level⟩ := by
  have hlower : ∀ pair ∈ levels, pair.2.toList.map Char.toLower = pair.2.toList := by decide
  have hread : ∀ pair ∈ levels, LogFilter.ofName? pair.2 = some ⟨pair.1⟩ := by decide
  have hsame : LogFilter.ofName? spelled = LogFilter.ofName? name := by
    unfold LogFilter.ofName?
    rw [hspelled, hlower _ hname]
  rw [hsame, hread _ hname]

/-- The name of a level is shorter than the mark, so it has none in front of it. -/
theorem withoutMark_of_level {name spelled : String} (hname : (level, name) ∈ levels)
    (hspelled : spelled.toList.map Char.toLower = name.toList) :
    LogFilter.withoutMark spelled.toList = spelled.toList := by
  have hshort : ∀ pair ∈ levels, pair.2.toList.length < LogFilter.originMark.length := by decide
  have hlength := hshort _ hname
  rw [← hspelled, List.length_map] at hlength
  have hnot : ¬ LogFilter.originMark.isPrefixOf spelled.toList = true := by
    intro hprefix
    have hle := (List.isPrefixOf_iff_prefix.mp hprefix).length_le
    omega
  rw [LogFilter.withoutMark, if_neg hnot]

theorem withoutMark_marked (spelled : String) :
    LogFilter.withoutMark ("subgraph_probe=" ++ spelled).toList = spelled.toList := by
  have hmark : ("subgraph_probe=" ++ spelled).toList = LogFilter.originMark ++ spelled.toList := by
    rw [String.toList_append]
    rfl
  have hprefix : LogFilter.originMark.isPrefixOf (LogFilter.originMark ++ spelled.toList) = true :=
    List.isPrefixOf_iff_prefix.mpr (List.prefix_append _ _)
  rw [hmark, LogFilter.withoutMark, if_pos hprefix, List.drop_left]

theorem read?_of_isLevel (h : IsLevel text level) : LogFilter.read? text = some ⟨level⟩ := by
  rcases h with ⟨name, spelled, hname, hspelled, rfl | rfl⟩
  · rw [LogFilter.read?, withoutMark_of_level hname hspelled, String.ofList_toList,
      ofName?_of_level hname hspelled]
  · rw [LogFilter.read?, withoutMark_marked, String.ofList_toList, ofName?_of_level hname hspelled]

theorem filter_of_asksFor (h : AsksFor environment level) : environment.filter = ⟨level⟩ := by
  cases h with
  | level hbytes hlevel =>
    rw [Environment.filter, text?_eq_some_iff.mpr hbytes, Option.bind_some, read?_of_isLevel hlevel,
      Option.getD_some]
  | noText hbytes hlevel =>
    have hnone : environment.text? Environment.filterKey = none := by
      rw [Option.eq_none_iff_forall_ne_some]
      intro text htext
      exact hbytes text (text?_eq_some_iff.mp htext)
    have hinfo : ∀ pair ∈ levels, pair.2 = "info" → pair.1 = 3 := by decide
    have hdefault : level = 3 := hinfo _ hlevel rfl
    rw [Environment.filter, hnone, hdefault]
    rfl

/-! ## Logs -/

/-- The events of a run that a level lets through. -/
def eventsUpTo (level : Nat) (report : Report) : List Event :=
  report.events.filter fun event => event.severity ∈ severities.take level

/-- The lines that events are written in. -/
def lines (events : List Event) : List String := events.flatMap fun event => textLines event.text

theorem log_of_asksFor (h : AsksFor environment level) (report : Report) :
    log environment report = lines (eventsUpTo level report) := by
  have hadmits : (fun event : Event => environment.filter.admits event.severity) =
      fun event => decide (event.severity ∈ severities.take level) := by
    funext event
    rw [filter_of_asksFor h, LogFilter.admits]
    simp only [mem_take_severities_iff]
  rw [log, logLines, hadmits, lines, eventsUpTo]

theorem eventsUpTo_of_le (h : level ≤ level') (report : Report) :
    eventsUpTo level report =
      (eventsUpTo level' report).filter fun event => event.severity ∈ severities.take level := by
  rw [eventsUpTo, eventsUpTo, List.filter_filter]
  apply List.filter_congr
  intro event _
  have hadmits : event.severity ∈ severities.take level → event.severity ∈ severities.take level' :=
    fun hmem => List.take_subset_take_left severities h hmem
  rw [← Bool.decide_and, decide_eq_decide, iff_self_and]
  exact hadmits

/-- What the level of a log has an influence on. Environments that agree on the settings make the
same run. Each log holds what its own level lets through, and nothing else. So the events of the
lower one are those events of the higher one that the lower level lets through, in the same order
and with all that they show. -/
theorem log_of_levels [Url.Idna] (environment environment' : Environment)
    (replies : List Http.Reply) (level level' : Nat)
    (hsame : ∀ which : Variable, environment which.key = environment' which.key)
    (hlevel : AsksFor environment level) (hlevel' : AsksFor environment' level')
    (hle : level ≤ level') :
    run environment replies = run environment' replies ∧
      log environment (run environment replies) =
        lines (eventsUpTo level (run environment replies)) ∧
      log environment' (run environment' replies) =
        lines (eventsUpTo level' (run environment' replies)) ∧
      eventsUpTo level (run environment replies) =
        (eventsUpTo level' (run environment' replies)).filter
          fun event => event.severity ∈ severities.take level := by
  have htexts : (fun which : Variable => environment.text? which.key) =
      fun which => environment'.text? which.key := by
    funext which
    rw [Environment.text?, hsame, Environment.text?]
  have hsettings : environment.settings = environment'.settings := by
    rw [Environment.settings, htexts, Environment.settings]
  have hrun := run_congr hsettings replies
  refine ⟨hrun, log_of_asksFor hlevel _, log_of_asksFor hlevel' _, ?_⟩
  rw [hrun]
  exact eventsUpTo_of_le hle _

/-- An environment that asks the machine at hand, and for a level by these bytes. -/
def loggingEnvironment (filter : List UInt8) : Environment := fun name =>
  [(Variable.key .port, Text.toBytes "8000"), (Variable.key .deployment, Text.toBytes "n"),
    (Environment.filterKey, filter)].lookup name

/-- A run that reaches nobody, logged at a level in mixed case and by bytes that are no text. The
one log holds the end of the run only. The other one holds its beginning too, but not what is told
in between. -/
theorem log_of_loggingEnvironment :
    run (loggingEnvironment (Text.toBytes "subgraph_probe=Warn")) [.closed] =
        run (loggingEnvironment [255]) [.closed] ∧
      ∃ error, log (loggingEnvironment (Text.toBytes "subgraph_probe=Warn"))
            (run (loggingEnvironment [255]) [.closed]) =
          lines [.notReady Probe.localSettings.url error] ∧
        log (loggingEnvironment [255]) (run (loggingEnvironment [255]) [.closed]) =
          lines [.checking Probe.localSettings.url 10, .notReady Probe.localSettings.url error] := by
  have hwarn : AsksFor (loggingEnvironment (Text.toBytes "subgraph_probe=Warn")) 2 :=
    .level rfl ⟨"warn", "Warn", by decide, by decide, .inr (by decide)⟩
  have hinfo : AsksFor (loggingEnvironment [255]) 3 := by
    have hbytes : Text.ofBytes? [255] = none := by cbv
    refine .noText ?_ (by decide)
    intro text htext
    rw [← text?_eq_some_iff] at htext
    have hnone : (loggingEnvironment [255]).text? Environment.filterKey = none := hbytes
    rw [hnone] at htext
    cases htext
  rcases log_of_levels _ _ [.closed] 2 3 (by intro which; cases which <;> rfl) hwarn hinfo
    (by decide) with ⟨hrun, hlog, hlog', -⟩
  have hsettings : (loggingEnvironment [255]).settings = .ok Probe.localSettings := by cbv
  have hcall : Probe.call Probe.localSettings = .ok (Probe.firstCall Probe.localUrl) := by cbv
  refine ⟨hrun, ?_⟩
  rw [hrun] at hlog
  rw [hlog, hlog', run_of_settings hsettings, Probe.check_of_call hcall]
  exact ⟨_, rfl, rfl⟩

end Readiness.Command
