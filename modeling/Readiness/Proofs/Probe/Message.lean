import Readiness.Proofs.Probe.Outcome
import Readiness.Proofs.Text.Line
import Readiness.Proofs.Url.Graphic

namespace Readiness

/-! # Errors on one line

What an error says stands on one line, whatever texts it tells. A text from outside gets into an
error in three ways: it is quoted, alone or in a list, or it was read as a URL, at first or when
a call was sent elsewhere. Everything else is words and numbers.
-/

open Text (IsLine isLine_append isLine_string_append isLine_ofList isLine_toString isLine_quoted
  isLine_quotedList isGraphic_toDigits)

/-! ## Words and numbers -/

theorem Decimal.isLine_lastDigits (places n : Nat) : IsLine (lastDigits places n) := by
  induction places generalizing n with
  | zero =>
    intro c hc
    cases hc
  | succ places ih =>
    have hdigits : Text.IsGraphic (Nat.toDigits 10 (n % 10)) :=
      isGraphic_toDigits (by decide) (by decide) (n % 10)
    rw [Nat.toDigits_of_lt_base (Nat.mod_lt n (by decide))] at hdigits
    rw [lastDigits, isLine_append]
    exact ⟨ih (n / 10), hdigits.isLine⟩

theorem Decimal.isLine_trimZeros {digits : List Char} (h : IsLine digits) :
    IsLine (trimZeros digits) := by
  intro c hc
  have hmem := List.dropWhile_subset _ (List.mem_reverse.mp hc)
  exact h c (List.mem_reverse.mp hmem)

theorem Span.isLine_text (span : Span) : IsLine span.text.toList := by
  have hsymbol : IsLine span.timeUnit.symbol.toList := by
    unfold timeUnit
    split
    · exact isLine_ofList (by decide)
    · split
      · exact isLine_ofList (by decide)
      · split <;> exact isLine_ofList (by decide)
  rw [text, numeral, isLine_string_append, isLine_string_append]
  refine ⟨⟨isLine_toString _, ?_⟩, hsymbol⟩
  split
  · exact isLine_ofList (by decide)
  · rw [isLine_string_append]
    exact ⟨isLine_ofList (by decide),
      isLine_ofList (Decimal.isLine_trimZeros (Decimal.isLine_lastDigits _ _))⟩

theorem Http.Status.isLine_reason {status : Status} {reason : String}
    (h : status.reason? = some reason) : IsLine reason.toList := by
  unfold reason? at h
  split at h <;> cases h <;> exact isLine_ofList (by decide)

theorem Http.Status.isLine_text (status : Status) : IsLine status.text.toList := by
  rw [text, isLine_string_append, isLine_string_append]
  refine ⟨⟨isLine_toString _, isLine_ofList (by decide)⟩, ?_⟩
  cases hreason : status.reason? with
  | none => exact isLine_ofList (by decide)
  | some reason => exact isLine_reason hreason

theorem Json.Fault.isLine_message (fault : Fault) : IsLine fault.message.toList := by
  have hcause : IsLine fault.cause.message.toList := by
    cases fault.cause <;> exact isLine_ofList (by decide)
  simp only [message, isLine_string_append]
  exact ⟨⟨⟨⟨hcause, isLine_ofList (by decide)⟩, isLine_toString _⟩, isLine_ofList (by decide)⟩,
    isLine_toString _⟩

/-! ## Settings -/

theorem Variable.isLine_key (which : Variable) : IsLine which.key.toList := by
  cases which <;> exact isLine_ofList (by decide)

theorem SettingsError.isLine_message (error : SettingsError) : IsLine error.message.toList := by
  cases error with
  | missing which =>
    show IsLine ("required environment variable " ++ which.key ++ " is not set").toList
    simp only [isLine_string_append]
    exact ⟨⟨isLine_ofList (by decide), which.isLine_key⟩, isLine_ofList (by decide)⟩
  | invalidPort value cause =>
    have hcause : IsLine cause.message.toList := by
      cases cause <;> exact isLine_ofList (by decide)
    show IsLine (Variable.key .port ++ " must be a port number, got " ++ Text.quoted value ++
      ": " ++ cause.message).toList
    simp only [isLine_string_append]
    exact ⟨⟨⟨⟨Variable.isLine_key .port, isLine_ofList (by decide)⟩, isLine_quoted value⟩,
      isLine_ofList (by decide)⟩, hcause⟩
  | invalidTimeout value =>
    show IsLine (Variable.key .timeout ++ " must be a positive number of seconds, got " ++
      Text.quoted value).toList
    simp only [isLine_string_append]
    exact ⟨⟨Variable.isLine_key .timeout, isLine_ofList (by decide)⟩, isLine_quoted value⟩

/-! ## Calls -/

namespace Http

/-- Every address that a failure tells is graphic. -/
def Failure.IsGraphic : Failure → Prop
  | .unreadable | .brokenBody => True
  | .unsupported address => Text.IsGraphic address
  | .lost url | .lastRedirect url => url.IsGraphic

theorem Failure.isLine_message {failure : Failure} (h : failure.IsGraphic) :
    IsLine failure.message.toList := by
  have htold : ∀ (words : String) {address : List Char}, IsLine words.toList →
      Text.IsGraphic address → IsLine (words ++ String.ofList address ++ ")").toList := by
    intro words address hwords haddress
    rw [isLine_string_append, isLine_string_append]
    exact ⟨⟨hwords, isLine_ofList haddress.isLine⟩, isLine_ofList (by decide)⟩
  cases failure with
  | unreadable | brokenBody => exact isLine_ofList (by decide)
  | unsupported address => exact htold _ (isLine_ofList (by decide)) h
  | lost url | lastRedirect url =>
    exact htold _ (isLine_ofList (by decide)) (Url.IsGraphic.text_eq h)

namespace Call

variable {call next : Call} {reply : Reply} {address contentType body : String}

/-- Both URLs of a call are graphic. -/
structure IsGraphic (call : Call) : Prop where
  origin : call.origin.IsGraphic
  request : call.request.url.IsGraphic

variable [Url.Idna] [Url.LawfulIdna]

theorem isGraphic_of_post (h : post address contentType body = .ok call) : call.IsGraphic := by
  unfold post at h
  split at h
  · cases h
  · next url hread =>
    have hurl := (Url.isGraphic_of_read? hread).withoutCredentials
    simp only at h
    split at h
    · cases h
      exact ⟨hurl, hurl.withoutFragment⟩
    · cases h

theorem isGraphic_of_post_failure {failure : Failure}
    (h : post address contentType body = .error failure) : failure.IsGraphic := by
  unfold post at h
  split at h
  · cases h
    trivial
  · next url hread =>
    have hurl := (Url.isGraphic_of_read? hread).withoutCredentials
    simp only at h
    split at h
    · cases h
    · cases h
      exact hurl.text_eq

/-- A call stays graphic, wherever it is sent. -/
theorem IsGraphic.receive (h : call.IsGraphic) (hreceive : call.receive reply = .continued next) :
    next.IsGraphic := by
  rcases receive_eq_continued hreceive with ⟨response, url, rfl, -, hleads, -, rfl⟩
  rcases hleads.location with ⟨location, -, hresolve⟩
  have hurl : url.IsGraphic := h.request.resolve? hresolve
  refine ⟨h.origin, ?_⟩
  rw [url_redirected]
  exact hurl.withoutFragment

/-- What ends a graphic call tells no address that is not graphic. -/
theorem IsGraphic.failure {failure : Failure} (h : call.IsGraphic)
    (hreceive : call.receive reply = .ended (.error (.failure failure))) : failure.IsGraphic := by
  cases reply with
  | refused | closed | garbled =>
    cases hreceive
    exact h.origin
  | silent => cases hreceive
  | response response =>
    rw [Call.receive] at hreceive
    split at hreceive
    · cases hreceive
    · next target htarget =>
      rcases (target?_eq_some_iff.mp htarget).location with ⟨location, -, hresolve⟩
      have htarget := h.request.resolve? hresolve
      unfold redirect at hreceive
      split at hreceive
      · -- sent elsewhere too often, the call does not tell where it should go next
        cases hreceive
        exact h.request
      · split at hreceive
        · cases hreceive
          exact htarget
        · split at hreceive
          · cases hreceive
          · cases hreceive
            exact h.origin
          · cases hreceive
            exact Url.Target.isGraphic_text htarget

/-- Nor does what ends it later on. -/
theorem IsGraphic.run {failure : Failure} {replies : List Reply} (h : call.IsGraphic)
    (hrun : (call.run replies).result = .error (.failure failure)) : failure.IsGraphic := by
  induction replies generalizing call with
  | nil =>
    cases hrun
    exact h.origin
  | cons reply replies ih =>
    cases hreceive : call.receive reply with
    | ended result =>
      rw [run_of_ended hreceive] at hrun
      simp only at hrun
      rw [hrun] at hreceive
      exact h.failure hreceive
    | continued next =>
      rw [run_of_continued hreceive] at hrun
      exact ih (h.receive hreceive) hrun

end Call
end Http

/-! ## Answers -/

theorem ProbeError.isLine_noData (errors : List String) :
    IsLine (noData errors).message.toList := by
  show IsLine ("response has no data (errors: " ++ Text.quotedList errors ++ ")").toList
  rw [isLine_string_append, isLine_string_append]
  exact ⟨⟨isLine_ofList (by decide), isLine_quotedList errors⟩, isLine_ofList (by decide)⟩

theorem Answer.isLine_message {body : List UInt8} {error : ProbeError}
    (h : evaluate body = .error error) : IsLine error.message.toList := by
  unfold evaluate at h
  split at h
  · -- a fault tells nothing of the body but a place
    next fault _ =>
    cases h
    show IsLine ("response is not valid JSON: " ++ fault.message).toList
    rw [isLine_string_append]
    exact ⟨isLine_ofList (by decide), fault.isLine_message⟩
  · unfold judge at h
    split at h
    · split at h
      · cases h
        exact ProbeError.isLine_noData _
      · cases h
        exact ProbeError.isLine_noData _
      · cases h
    · cases h
      show IsLine "response is not a JSON object".toList
      exact isLine_ofList (by decide)

/-! ## Checks -/

namespace Probe

variable {settings : Settings} {error : ProbeError} {fault : Http.Fault}
  {result : Except Http.Fault Http.Response}

/-- Every address that a fault tells is graphic. -/
def TellsGraphic (fault : Http.Fault) : Prop :=
  ∀ failure, fault = .failure failure → failure.IsGraphic

theorem isLine_ofFault (timeout : Span) (h : TellsGraphic fault) :
    IsLine (ProbeError.ofFault timeout fault).message.toList := by
  cases fault with
  | timeout =>
    show IsLine ("GraphQL request timed out after " ++ timeout.text).toList
    rw [isLine_string_append]
    exact ⟨isLine_ofList (by decide), timeout.isLine_text⟩
  | failure failure =>
    show IsLine ("GraphQL endpoint unreachable: " ++ failure.message).toList
    rw [isLine_string_append]
    exact ⟨isLine_ofList (by decide), Http.Failure.isLine_message (h failure rfl)⟩

theorem tellsGraphic_of_content {response : Http.Response}
    (h : response.content = .error fault) : TellsGraphic fault := by
  unfold Http.Response.content at h
  split at h
  · cases h
  · split at h
    · cases h
    · cases h
      rintro _ ⟨⟩
      trivial
    · cases h
      rintro _ ⟨⟩

/-- What is made of the result of a call is said on one line. -/
theorem isLine_judge (hresult : ∀ fault, result = .error fault → TellsGraphic fault)
    (h : judge settings result = .error error) : IsLine error.message.toList := by
  cases result with
  | error fault =>
    cases h
    exact isLine_ofFault settings.timeout (hresult fault rfl)
  | ok response =>
    simp only [judge, Except.mapError, bind, Except.bind] at h
    split at h
    · cases hcontent : response.content with
      | error fault =>
        rw [hcontent] at h
        cases h
        exact isLine_ofFault settings.timeout (tellsGraphic_of_content hcontent)
      | ok body =>
        rw [hcontent] at h
        exact Answer.isLine_message h
    · cases h
      show IsLine ("GraphQL endpoint returned HTTP " ++ response.status.text).toList
      rw [isLine_string_append]
      exact ⟨isLine_ofList (by decide), response.status.isLine_text⟩

/-- Every error is said on one line: what is wrong with the settings, whatever the variables hold,
and what a check finds, whatever comes back. -/
theorem errors_on_one_line [Url.Idna] [Url.LawfulIdna] :
    (∀ lookup error, Settings.ofLookup lookup = .error error → IsLine error.message.toList) ∧
    ∀ settings replies error, (check settings replies).result = .error error →
      IsLine error.message.toList := by
  refine ⟨fun _ error _ => error.isLine_message, ?_⟩
  intro settings replies error h
  cases hcall : call settings with
  | error failure =>
    rw [check_of_failure hcall] at h
    have herror : error = .ofFault settings.timeout (.failure failure) := by
      cases h
      rfl
    have htells : TellsGraphic (.failure failure) := by
      rintro _ ⟨⟩
      exact Http.Call.isGraphic_of_post_failure hcall
    rw [herror]
    exact isLine_ofFault settings.timeout htells
  | ok call =>
    rw [check_of_call hcall] at h
    have hgraphic := Http.Call.isGraphic_of_post hcall
    apply isLine_judge _ h
    rintro fault hrun failure rfl
    exact hgraphic.run hrun

/-- A response that sends its reader to a place with a separator of lines in its name. -/
def brokenRedirect : Http.Response :=
  { rootRedirect with headers := [("Location", "gopher://h/a\u2028b")] }

/-- A response without data that reports an error of two lines. -/
def brokenReport : Http.Response :=
  { dataResponse with body := Text.toBytes "\x7b\"errors\":[[\"a\\u000Ab\"]]\x7d" }

/-- What would break a line gets into errors in all three ways. -/
theorem errors_with_breaks_on_one_line :
    IsLine (SettingsError.invalidPort "8\n0" .invalidDigit).message.toList ∧
    IsLine (ProbeError.unreachable
      "builder error for url (gopher://h/a%E2%80%A8b)").message.toList ∧
    IsLine (ProbeError.noData ["a\nb"]).message.toList := by
  have hport : Settings.ofLookup (fun which => if which = .port then some "8\n0" else none) =
      .error (.invalidPort "8\n0" .invalidDigit) := by decide +kernel
  have hredirect : (check localSettings [.response brokenRedirect]).result =
      .error (.unreachable "builder error for url (gopher://h/a%E2%80%A8b)") := by decide +kernel
  have hreport : (check localSettings [.response brokenReport]).result =
      .error (.noData ["a\nb"]) := by decide +kernel
  exact ⟨errors_on_one_line.1 _ _ hport, errors_on_one_line.2 _ _ _ hredirect,
    errors_on_one_line.2 _ _ _ hreport⟩

end Probe
end Readiness
