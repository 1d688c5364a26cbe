import Readiness.Proofs.Command.Run
import Readiness.Proofs.Probe.Message

namespace Readiness

/-! # Lines of a log

An event is one text. Its words, its numbers and its errors stand on one line, but the address is
shown as it is, and it is put together from the host and the deployment as they are. So every line
that ends inside one of these two ends in both events of a run. Nothing else breaks a line of the
log, and nothing that a server replies does.
-/

open Text (IsLine isLine_string_append isLine_ofList isLine_toString)

/-! ## Lines of a text -/

theorem length_splitOn (mark : Char) (text : List Char) :
    (text.splitOn mark).length = text.count mark + 1 := by
  induction text with
  | nil => rfl
  | cons c text ih =>
    rw [List.splitOn_cons_eq_if_modifyHead, List.count_cons]
    by_cases hc : (c == mark) = true
    · rw [if_pos hc, if_pos hc, List.length_cons, ih]
    · rw [if_neg hc, if_neg hc, List.length_modifyHead, ih]

/-- A text has one line more than it has ends of lines. -/
theorem length_textLines (text : String) :
    (textLines text).length = text.toList.count '\n' + 1 := by
  obtain ⟨front, last, hlines⟩ :=
    List.eq_nil_or_concat (text.toList.splitOn '\n') |>.resolve_left (List.splitOn_ne_nil _ _)
  have hlength := length_splitOn '\n' text.toList
  rw [hlines] at hlength
  simpa [textLines, hlines] using hlength

theorem textLines_of_not_mem {text : String} (h : '\n' ∉ text.toList) :
    textLines text = [text] := by
  simp [textLines, List.splitOn_eq_singleton h]

theorem not_mem_of_isLine {text : List Char} (h : IsLine text) : '\n' ∉ text := by
  intro hmem
  exact h _ hmem (by decide)

/-! ## Events that show an address -/

/-- A text with an address in it: words in front, and nothing behind it that would break a line. -/
def ShowsAddress (words url text : String) : Prop :=
  ∃ behind, text = words ++ " url=" ++ url ++ behind ∧ IsLine behind.toList

namespace ShowsAddress

variable {words url text : String}

/-- All ends of lines are in the address. -/
theorem count_eq (h : ShowsAddress words url text) (hwords : IsLine words.toList) :
    text.toList.count '\n' = url.toList.count '\n' := by
  obtain ⟨behind, rfl, hbehind⟩ := h
  have hmark : IsLine " url=".toList := isLine_ofList (by decide)
  simp only [String.toList_append, List.count_append]
  rw [List.count_eq_zero_of_not_mem (not_mem_of_isLine hwords),
    List.count_eq_zero_of_not_mem (not_mem_of_isLine hmark),
    List.count_eq_zero_of_not_mem (not_mem_of_isLine hbehind)]
  omega

theorem isLine (h : ShowsAddress words url text) (hwords : IsLine words.toList)
    (hurl : IsLine url.toList) : IsLine text.toList := by
  obtain ⟨behind, rfl, hbehind⟩ := h
  have hmark : IsLine " url=".toList := isLine_ofList (by decide)
  simp only [isLine_string_append]
  exact ⟨⟨⟨hwords, hmark⟩, hurl⟩, hbehind⟩

end ShowsAddress

namespace Event

variable {event : Event} {url : String} {shown : List (String × String)}

/-- What stands in front of the fields of an event. -/
def heading (event : Event) : String :=
  event.severity.name ++ " " ++ event.origin.name ++ ": " ++ event.message

/-- An event whose first field is an address shows it behind its heading. -/
theorem showsAddress (hfields : event.fields = ("url", url) :: shown)
    (hshown : ∀ field ∈ shown, IsLine field.1.toList ∧ IsLine field.2.toList) :
    ShowsAddress event.heading url event.text := by
  refine ⟨String.join (shown.map fieldText), ?_, ?_⟩
  · have hurl : fieldText ("url", url) = " url=" ++ url := rfl
    rw [text, hfields, List.map_cons, String.join_cons, hurl, heading]
    simp only [String.append_assoc]
  · rw [String.toList_join, IsLine, List.forall_mem_flatMap, List.forall_mem_map]
    intro field hfield
    obtain ⟨hname, hvalue⟩ := hshown field hfield
    show IsLine (fieldText field).toList
    simp only [fieldText, isLine_string_append]
    exact ⟨⟨⟨isLine_ofList (by decide), hname⟩, isLine_ofList (by decide)⟩, hvalue⟩

theorem isLine_blockText (block : Option Nat) : IsLine (blockText block).toList := by
  cases block with
  | none => exact isLine_ofList (by decide)
  | some block =>
    show IsLine ("Some(" ++ toString block ++ ")").toList
    rw [isLine_string_append, isLine_string_append]
    exact ⟨⟨isLine_ofList (by decide), isLine_toString block⟩, isLine_ofList (by decide)⟩

end Event

/-! ## Addresses -/

namespace Settings

/-- How many lines end inside the texts that an address is put together from. -/
def lineEnds (settings : Settings) : Nat :=
  settings.host.toList.count '\n' + settings.deployment.toList.count '\n'

theorem count_url (settings : Settings) : settings.url.toList.count '\n' = settings.lineEnds := by
  have hscheme : '\n' ∉ "http://".toList := not_mem_of_isLine (isLine_ofList (by decide))
  have hcolon : '\n' ∉ ":".toList := not_mem_of_isLine (isLine_ofList (by decide))
  have hport := not_mem_of_isLine (isLine_toString settings.port.toNat)
  have hroot : '\n' ∉ "/subgraphs/name/".toList := not_mem_of_isLine (isLine_ofList (by decide))
  simp only [url, String.toList_append, List.count_append]
  rw [List.count_eq_zero_of_not_mem hscheme, List.count_eq_zero_of_not_mem hcolon,
    List.count_eq_zero_of_not_mem hport, List.count_eq_zero_of_not_mem hroot, lineEnds]
  omega

theorem isLine_url {settings : Settings} (hhost : IsLine settings.host.toList)
    (hdeployment : IsLine settings.deployment.toList) : IsLine settings.url.toList := by
  simp only [url, isLine_string_append]
  exact ⟨⟨⟨⟨⟨isLine_ofList (by decide), hhost⟩, isLine_ofList (by decide)⟩, isLine_toString _⟩,
    isLine_ofList (by decide)⟩, hdeployment⟩

end Settings

/-! ## Logs -/

namespace Probe

/-- What a check says is made of the result of a call, and every address that a fault of the call
tells is graphic. -/
theorem exists_judge [Url.Idna] [Url.LawfulIdna] (settings : Settings)
    (replies : List Http.Reply) :
    ∃ result, (check settings replies).result = judge settings result ∧
      ∀ fault, result = .error fault → TellsGraphic fault := by
  cases hcall : call settings with
  | error failure =>
    refine ⟨.error (.failure failure), ?_, ?_⟩
    · rw [check_of_failure hcall]
      rfl
    · rintro _ ⟨⟩ _ ⟨⟩
      exact Http.Call.isGraphic_of_post_failure hcall
  | ok call =>
    refine ⟨(call.run replies).result, ?_, ?_⟩
    · rw [check_of_call hcall]
    · rintro fault hrun failure rfl
      exact (Http.Call.isGraphic_of_post hcall).run hrun

end Probe

namespace Command

variable {environment : Environment} {settings : Settings}

/-- What a run says before it checks a deployment, behind its level and its origin. -/
def openingWords : String := "INFO subgraph_probe: Checking subgraph deployment"

/-- What a run says of the result of its check. -/
def closingWords : Except ProbeError Progress → String
  | .ok _ => "INFO subgraph_probe::probe: Subgraph is deployed"
  | .error _ => "WARN subgraph_probe::probe: Subgraph is not ready"

theorem isLine_closingWords (result : Except ProbeError Progress) :
    IsLine (closingWords result).toList := by
  cases result <;> exact isLine_ofList (by decide)

theorem showsAddress_checking (url : String) (timeout : Nat) :
    ShowsAddress openingWords url (Event.checking url timeout).text := by
  have hshown : ∀ field ∈ [("timeout_secs", toString timeout)],
      IsLine field.1.toList ∧ IsLine field.2.toList := by
    rw [List.forall_mem_singleton]
    exact ⟨isLine_ofList (by decide), isLine_toString timeout⟩
  exact Event.showsAddress rfl hshown

theorem showsAddress_closing [Url.Idna] [Url.LawfulIdna] (settings : Settings)
    (replies : List Http.Reply) :
    ShowsAddress (closingWords (Probe.check settings replies).result) settings.url
      (closing settings (Probe.check settings replies).result).text := by
  obtain ⟨result, hresult, hgraphic⟩ := Probe.exists_judge settings replies
  rw [hresult]
  cases hjudge : Probe.judge settings result with
  | ok progress =>
    have hshown : ∀ field ∈ [("block_number", Event.blockText progress.block)],
        IsLine field.1.toList ∧ IsLine field.2.toList := by
      rw [List.forall_mem_singleton]
      exact ⟨isLine_ofList (by decide), Event.isLine_blockText _⟩
    exact Event.showsAddress rfl hshown
  | error error =>
    have hshown : ∀ field ∈ [("error", error.message)],
        IsLine field.1.toList ∧ IsLine field.2.toList := by
      rw [List.forall_mem_singleton]
      exact ⟨isLine_ofList (by decide), Probe.isLine_judge hgraphic hjudge⟩
    exact Event.showsAddress rfl hshown

/-- Without a filter, the question is not told. -/
theorem log_of_settings [Url.Idna] (hsettings : environment.settings = .ok settings)
    (hfilter : environment Environment.filterKey = none) (replies : List Http.Reply) :
    log environment (run environment replies) =
      textLines (Event.checking settings.url settings.timeout.seconds).text ++
        textLines (closing settings (Probe.check settings replies).result).text := by
  have hdefault : environment.filter = .default := by
    rw [Environment.filter, Environment.text?, hfilter]
    rfl
  rw [log, logLines, hdefault, run_of_settings hsettings]
  cases (Probe.check settings replies).result <;>
    simp [opening, closing, LogFilter.default, LogFilter.upTo, LogFilter.admits, Event.severity,
      Severity.rank]

/-- The lines of a log without a filter. They are those of two events, and both show the address as
it is: the log has two lines, and two more for every line that ends inside the host or the
deployment. What the server replies breaks no line. -/
theorem lines_of_log [Url.Idna] [Url.LawfulIdna] (environment : Environment)
    (texts : Variable → Option String) (settings : Settings) (replies : List Http.Reply)
    (htexts : AreTexts environment texts) (hsettings : Settings.ofLookup texts = .ok settings)
    (hfilter : environment Environment.filterKey = none) :
    ∃ first last,
      ShowsAddress openingWords settings.url first ∧
      ShowsAddress (closingWords (Probe.check settings replies).result) settings.url last ∧
      log environment (run environment replies) = textLines first ++ textLines last ∧
      (log environment (run environment replies)).length = 2 * (settings.lineEnds + 1) ∧
      (settings.lineEnds = 0 → log environment (run environment replies) = [first, last]) ∧
      (IsLine settings.host.toList → IsLine settings.deployment.toList →
        ∀ line ∈ log environment (run environment replies), IsLine line.toList) := by
  have hwords : IsLine openingWords.toList := isLine_ofList (by decide)
  have hwords' := isLine_closingWords (Probe.check settings replies).result
  have hfirst := showsAddress_checking settings.url settings.timeout.seconds
  have hlast := showsAddress_closing settings replies
  rw [← settings_of_areTexts htexts] at hsettings
  rw [log_of_settings hsettings hfilter]
  -- every line that ends in an event ends in the address that it shows
  have hcount := hfirst.count_eq hwords
  have hcount' := hlast.count_eq hwords'
  rw [settings.count_url] at hcount hcount'
  have hwhole : settings.lineEnds = 0 →
      textLines (Event.checking settings.url settings.timeout.seconds).text ++
          textLines (closing settings (Probe.check settings replies).result).text =
        [(Event.checking settings.url settings.timeout.seconds).text,
          (closing settings (Probe.check settings replies).result).text] := by
    intro hnone
    rw [textLines_of_not_mem (List.count_eq_zero.mp (hcount.trans hnone)),
      textLines_of_not_mem (List.count_eq_zero.mp (hcount'.trans hnone))]
    rfl
  refine ⟨_, _, hfirst, hlast, rfl, ?_, hwhole, ?_⟩
  · rw [List.length_append, length_textLines, length_textLines, hcount, hcount']
    omega
  · intro hhost hdeployment line hline
    have hurl := Settings.isLine_url hhost hdeployment
    have hnone : settings.lineEnds = 0 := by
      rw [← settings.count_url, List.count_eq_zero]
      exact not_mem_of_isLine hurl
    rw [hwhole hnone, List.mem_pair] at hline
    rcases hline with rfl | rfl
    · exact hfirst.isLine hwords hurl
    · exact hlast.isLine hwords' hurl

/-! ## A log of more than two lines -/

/-- An environment whose deployment is a name of two lines. -/
def brokenEnvironment : Environment := fun name =>
  [(Variable.key .port, Text.toBytes "8000"),
    (Variable.key .deployment, Text.toBytes "a\nb")].lookup name

/-- The settings that are read from it. -/
def brokenSettings : Settings := { Probe.localSettings with deployment := "a\nb" }

/-- The name breaks both events. The error that the server reports has two lines as well, and
breaks none. -/
theorem lines_of_brokenEnvironment :
    ∃ first last,
      ShowsAddress openingWords brokenSettings.url first ∧
      ShowsAddress "WARN subgraph_probe::probe: Subgraph is not ready" brokenSettings.url last ∧
      log brokenEnvironment (run brokenEnvironment [.response Probe.brokenReport]) =
        textLines first ++ textLines last ∧
      (log brokenEnvironment (run brokenEnvironment [.response Probe.brokenReport])).length = 4 := by
  have hsettings : Settings.ofLookup (fun which => brokenEnvironment.text? which.key) =
      .ok brokenSettings := by decide +kernel
  have hreport : (Probe.check brokenSettings [.response Probe.brokenReport]).result =
      .error (.noData ["a\nb"]) := by decide +kernel
  have hends : brokenSettings.lineEnds = 1 := by decide
  obtain ⟨first, last, hfirst, hlast, hlog, hlength, -⟩ :=
    lines_of_log brokenEnvironment _ brokenSettings [.response Probe.brokenReport]
      (areTexts_text? brokenEnvironment) hsettings rfl
  rw [hreport] at hlast
  rw [hends] at hlength
  exact ⟨first, last, hfirst, hlast, hlog, hlength⟩

/-- Settings that are accepted can make a log of four lines, of which two begin with what was a part
of the name. -/
theorem log_departs :
    brokenEnvironment.settings = .ok brokenSettings ∧
    brokenEnvironment Environment.filterKey = none ∧
    log brokenEnvironment (run brokenEnvironment [.response Probe.dataResponse]) =
      ["INFO subgraph_probe: Checking subgraph deployment url=http://localhost:8000/subgraphs/name/a",
        "b timeout_secs=10",
        "INFO subgraph_probe::probe: Subgraph is deployed url=http://localhost:8000/subgraphs/name/a",
        "b block_number=None"] := by
  refine ⟨?_, rfl, ?_⟩
  · decide +kernel
  · decide +kernel

end Command
end Readiness
