import Mathlib
import Readiness.Probe
import Readiness.Proofs.Http.Redirects
import Readiness.Proofs.Url.Reading

namespace Readiness.Probe

open Http (Call Hops IsLastHop Leads Reply)

/-! # What a check says

A check follows redirects, and then one reply decides. Which URL an error names depends on
where it arises: what goes wrong with a request is told with the URL that the check began with,
what goes wrong with a redirect with the URL at hand.
-/

variable {settings : Settings} {origin : Url}

/-! ## The call of a check -/

/-- The URL that a check asks. Credentials that the address may hold are not part of it. -/
def origin? [Url.Idna] (settings : Settings) : Option Url :=
  (Url.read? settings.url.toList).map Url.withoutCredentials

/-- The call that asks the question at a URL. -/
def firstCall (origin : Url) : Call :=
  ⟨origin, .post origin.withoutFragment contentType question, 0⟩

theorem scheme_withoutCredentials (url : Url) : url.withoutCredentials.scheme = url.scheme := by
  unfold Url.withoutCredentials
  split <;> rfl

theorem post_of_read? [Url.Idna] {address contentType body : String} {url : Url}
    (h : Url.read? address.toList = some url) (hscheme : url.scheme = .http) :
    Call.post address contentType body =
      if url.withoutCredentials.isSendable then
        .ok ⟨url.withoutCredentials,
          .post url.withoutCredentials.withoutFragment contentType body, 0⟩
      else .error (.unsupported url.withoutCredentials.text) := by
  rw [← scheme_withoutCredentials] at hscheme
  unfold Call.post
  rw [h]
  simp only [hscheme, true_and]

theorem call_of_origin? [Url.Idna] (h : origin? settings = some origin) :
    call settings =
      if origin.isSendable then .ok (firstCall origin) else .error (.unsupported origin.text) := by
  rw [origin?, Option.map_eq_some_iff] at h
  rcases h with ⟨url, hread, horigin⟩
  unfold call firstCall
  rw [post_of_read? hread (Url.scheme_of_read?_url hread), horigin]

theorem call_of_origin?_eq_none [Url.Idna] (h : origin? settings = none) :
    call settings = .error .unreadable := by
  rw [origin?, Option.map_eq_none_iff] at h
  unfold call Call.post
  rw [h]

theorem check_of_call [Url.Idna] {call : Call} (h : Probe.call settings = .ok call)
    (replies : List Reply) :
    check settings replies = ⟨judge settings (call.run replies).result,
      (call.run replies).requests, (call.run replies).rest⟩ := by
  unfold check
  rw [h]

theorem check_of_failure [Url.Idna] {failure : Http.Failure} (h : call settings = .error failure)
    (replies : List Reply) :
    check settings replies = ⟨.error (.unreachable failure.message), [], replies⟩ := by
  unfold check
  rw [h]
  rfl

/-! ## The reply that decides -/

/-- A status that says that the request was answered as asked. -/
def IsSuccess (status : Http.Status) : Prop := 200 ≤ status.code ∧ status.code ≤ 299

/-- What a check says when this reply decides, or none is left. -/
structure Concludes (settings : Settings) (origin : Url) (reply : Option Reply)
    (result : Except ProbeError Progress) : Prop where
  lost : reply = none ∨ reply = some .refused ∨ reply = some .closed ∨ reply = some .garbled →
    result = .error (.unreachable
      ("error sending request for url (" ++ String.ofList origin.text ++ ")"))
  silent : reply = some .silent → result = .error (.timeout settings.timeout)
  failed : ∀ response, reply = some (.response response) → ¬ IsSuccess response.status →
    result = .error (.httpStatus response.status)
  complete : ∀ response, reply = some (.response response) → IsSuccess response.status →
    response.status.code ≠ 204 → response.delivery = .complete →
    result = Answer.evaluate response.body
  cut : ∀ response, reply = some (.response response) → IsSuccess response.status →
    response.status.code ≠ 204 → response.delivery = .cut →
    result = .error (.unreachable "error decoding response body")
  stalled : ∀ response, reply = some (.response response) → IsSuccess response.status →
    response.status.code ≠ 204 → response.delivery = .stalled →
    result = .error (.timeout settings.timeout)
  bodiless : ∀ response, reply = some (.response response) → response.status.code = 204 →
    result = Answer.evaluate []

theorem isSuccess_iff {status : Http.Status} : status.isSuccess = true ↔ IsSuccess status := by
  rw [Http.Status.isSuccess, beq_iff_eq, IsSuccess]
  omega

theorem judge_failed {response : Http.Response} (h : ¬ IsSuccess response.status) :
    judge settings (.ok response) = .error (.httpStatus response.status) := by
  rw [← isSuccess_iff, Bool.not_eq_true] at h
  simp only [judge, Except.mapError, bind, Except.bind, h]
  rfl

/-- The body is looked at if it arrives. -/
theorem judge_success {response : Http.Response} (h : IsSuccess response.status) :
    judge settings (.ok response) =
      match response.content with
      | .ok body => Answer.evaluate body
      | .error fault => .error (.ofFault settings.timeout fault) := by
  rw [← isSuccess_iff] at h
  simp only [judge, Except.mapError, bind, Except.bind, h]
  cases response.content <;> rfl

theorem content_of_ne {response : Http.Response} (h : IsSuccess response.status)
    (hne : response.status.code ≠ 204) :
    response.content =
      match response.delivery with
      | .complete => .ok response.body
      | .cut => .error (.failure .brokenBody)
      | .stalled => .error .timeout := by
  have hbodiless : response.status.isBodiless = false := by
    have hrange := h.2
    simp only [Http.Status.isBodiless, Bool.or_eq_false_iff, beq_eq_false_iff_ne]
    omega
  rw [Http.Response.content, hbodiless]
  rfl

theorem content_of_noContent {response : Http.Response} (h : response.status.code = 204) :
    response.content = .ok [] := by
  have hbodiless : response.status.isBodiless = true := by simp [Http.Status.isBodiless, h]
  rw [Http.Response.content, if_pos hbodiless]

/-- A response that leads nowhere decides by its status, and then by its body. -/
theorem concludes_response (response : Http.Response) :
    Concludes settings origin (some (.response response)) (judge settings (.ok response)) := by
  constructor
  case lost => simp
  case silent => simp
  case failed =>
    rintro _ ⟨⟩ hfailed
    exact judge_failed hfailed
  case complete =>
    rintro _ ⟨⟩ hsuccess hne hdelivery
    rw [judge_success hsuccess, content_of_ne hsuccess hne, hdelivery]
  case cut =>
    rintro _ ⟨⟩ hsuccess hne hdelivery
    rw [judge_success hsuccess, content_of_ne hsuccess hne, hdelivery]
    rfl
  case stalled =>
    rintro _ ⟨⟩ hsuccess hne hdelivery
    rw [judge_success hsuccess, content_of_ne hsuccess hne, hdelivery]
    rfl
  case bodiless =>
    rintro _ ⟨⟩ hcode
    have hsuccess : IsSuccess response.status := by
      rw [IsSuccess]
      omega
    rw [judge_success hsuccess, content_of_noContent hcode]

theorem concludes_lost {reply : Option Reply}
    (h : reply = none ∨ reply = some .refused ∨ reply = some .closed ∨ reply = some .garbled) :
    Concludes settings origin reply
      (judge settings (.error (.failure (.lost origin)))) := by
  constructor
  case lost =>
    intro _
    rfl
  all_goals rcases h with rfl | rfl | rfl | rfl <;> simp

theorem concludes_silent :
    Concludes settings origin (some .silent) (judge settings (.error .timeout)) := by
  constructor
  case silent =>
    intro _
    rfl
  all_goals simp

/-- A call that is not sent elsewhere ends with the next reply. -/
theorem concludes_of_run [Url.Idna] {call : Call} {rest : List Reply}
    (h : ∀ response target, rest.head? = some (.response response) →
      ¬ Leads call.request.url response target) :
    Concludes settings call.origin rest.head? (judge settings (call.run rest).result) := by
  cases rest with
  | nil => exact concludes_lost (.inl rfl)
  | cons reply rest =>
    cases reply with
    | refused => exact concludes_lost (.inr (.inl rfl))
    | closed => exact concludes_lost (.inr (.inr (.inl rfl)))
    | garbled => exact concludes_lost (.inr (.inr (.inr rfl)))
    | silent => exact concludes_silent
    | response response =>
      have hend := Call.receive_of_not_leads fun target => h response target rfl
      rw [Call.run_of_ended hend]
      exact concludes_response response

/-! ## The whole check -/

/-- The reply behind these redirects leads nowhere. -/
def IsEnd [Url.Idna] (last : Url) (rest : List Reply) : Prop :=
  ∀ response target, rest.head? = some (.response response) → ¬ Leads last response target

/-- A target that is not asked: another scheme than those of the web. -/
def IsElsewhere (target : Url.Target) : Prop :=
  ∀ url, target = .address url → url.scheme ≠ .http ∧ url.scheme ≠ .https

/-- One redirect more than a call may follow. -/
theorem result_of_run_last [Url.Idna] {call : Call} {response : Http.Response} {target : Url.Target}
    (hcount : call.redirects = Call.maxRedirects)
    (hleads : Leads call.request.url response target) (rest : List Reply) :
    (call.run (.response response :: rest)).result =
      .error (.failure (.lastRedirect call.request.url)) := by
  have hend : call.receive (.response response) =
      .ended (.error (.failure (.lastRedirect call.request.url))) := by
    rw [Call.receive_of_leads hleads]
    unfold Call.redirect
    rw [if_pos hcount]
  rw [Call.run_of_ended hend]

/-- A redirect to what is not asked. -/
theorem result_of_run_elsewhere [Url.Idna] {call : Call} {response : Http.Response}
    {target : Url.Target} (hcount : call.redirects < Call.maxRedirects)
    (hleads : Leads call.request.url response target) (helsewhere : IsElsewhere target)
    (rest : List Reply) :
    (call.run (.response response :: rest)).result =
      .error (.failure (.unsupported target.text)) := by
  have hend : call.receive (.response response) =
      .ended (.error (.failure (.unsupported target.text))) := by
    rw [Call.receive_of_leads hleads]
    unfold Call.redirect
    rw [if_neg (Nat.ne_of_lt hcount)]
    cases target with
    | foreign name => rfl
    | address url =>
      rcases helsewhere url rfl with ⟨hhttp, hhttps⟩
      -- both schemes of the web are excluded, so the match takes its last arm
      split
      · next hname => cases hname
      · next hurl =>
        cases hurl
        split
        · next hscheme => exact absurd hscheme hhttp
        · next hscheme => exact absurd hscheme hhttps
        · rfl
  rw [Call.run_of_ended hend]

/-- A check stands behind the redirects that it follows as if it had begun there. -/
theorem check_hops [Url.Idna] {hops : List Reply} {last : Url}
    (hcall : call settings = .ok (firstCall origin)) (hhops : Hops origin.withoutFragment hops last) (hlength : hops.length ≤ 10)
    (rest : List Reply) :
    ∃ after : Call, after.origin = origin ∧ after.request.url = last ∧
      after.redirects = hops.length ∧
      (check settings (hops ++ rest)).result = judge settings (after.run rest).result := by
  have hmore : (firstCall origin).redirects + hops.length ≤ Call.maxRedirects := by
    rw [firstCall, Nat.zero_add]
    exact hlength
  rcases Call.run_hops hhops rfl hmore with ⟨after, horigin, hlast, hcount, hrun⟩
  refine ⟨after, horigin, hlast, ?_, ?_⟩
  · rw [hcount, firstCall, Nat.zero_add]
  · rw [check_of_call hcall, hrun]

/-- The outcome of a check, for every script: what stops it is told by the first reply behind
the redirects that it follows. -/
theorem result_of_check [Url.Idna] (settings : Settings) (origin : Url)
    (h : origin? settings = some origin) :
    (origin.isSendable = false → ∀ replies, (check settings replies).result =
      .error (.unreachable ("builder error for url (" ++ String.ofList origin.text ++ ")"))) ∧
    (origin.isSendable = true →
      (∀ replies, ∃ hops rest last, replies = hops ++ rest ∧
        Hops origin.withoutFragment hops last ∧ IsLastHop last rest) ∧
      ∀ hops rest last, Hops origin.withoutFragment hops last →
        (hops.length ≤ 10 → IsEnd last rest →
          Concludes settings origin rest.head? (check settings (hops ++ rest)).result) ∧
        (∀ response target, rest.head? = some (.response response) →
          Leads last response target →
          (hops.length = 10 → (check settings (hops ++ rest)).result = .error (.unreachable
            ("error following redirect for url (" ++ String.ofList last.text ++ ")"))) ∧
          (hops.length < 10 → IsElsewhere target →
            (check settings (hops ++ rest)).result = .error (.unreachable
              ("builder error for url (" ++ String.ofList target.text ++ ")"))))) := by
  have hcall := call_of_origin? h
  constructor
  · intro hsend replies
    rw [hsend, if_neg Bool.false_ne_true] at hcall
    rw [check_of_failure hcall]
    rfl
  · intro hsend
    rw [if_pos hsend] at hcall
    refine ⟨Http.exists_hops origin.withoutFragment, ?_⟩
    intro hops rest last hhops
    constructor
    · intro hlength hend
      rcases check_hops hcall hhops hlength rest with ⟨after, horigin, hlast, -, hresult⟩
      rw [hresult, ← horigin]
      rw [← hlast] at hend
      exact concludes_of_run hend
    · intro response target hhead hleads
      rcases List.head?_eq_some_iff.mp hhead with ⟨rest', rfl⟩
      constructor
      · intro hlength
        have hle := Nat.le_of_eq hlength
        rcases check_hops hcall hhops hle _ with ⟨after, -, rfl, hcount, hresult⟩
        rw [hresult, result_of_run_last (hcount.trans hlength) hleads]
        rfl
      · intro hlength helsewhere
        have hle := Nat.le_of_lt hlength
        rcases check_hops hcall hhops hle _ with ⟨after, -, rfl, hcount, hresult⟩
        rw [hresult, result_of_run_elsewhere (hcount ▸ hlength) hleads helsewhere]
        rfl

/-- A deployment on the machine at hand. -/
def localSettings : Settings := .new 8000 "n"

/-- The path of a deployment with a short name. -/
def shortPath : Url.Path := ["subgraphs".toList, "name".toList, "n".toList]

def localUrl : Url := ⟨.http, ⟨none, .domain "localhost".toList, some 8000⟩, shortPath, none, none⟩

theorem origin?_localSettings : origin? localSettings = some localUrl := by cbv

/-- A response that sends its reader to the root of the server. -/
def rootRedirect : Http.Response :=
  ⟨⟨⟨302, by decide⟩, [("Location", "/")], [], .complete⟩, by decide⟩

theorem leads_rootRedirect :
    Leads localUrl rootRedirect (.address { localUrl with path := [[]] }) := by
  refine ⟨by decide, "/", rfl, ?_⟩
  cbv

/-- A response with data. -/
def dataResponse : Http.Response :=
  ⟨⟨⟨200, by decide⟩, [], Text.toBytes "\x7b\"data\":1\x7d", .complete⟩, by decide⟩

theorem result_of_check_localSettings :
    origin? localSettings = some localUrl ∧
      Concludes localSettings localUrl (some (.response dataResponse))
        (check localSettings [.response rootRedirect, .response dataResponse]).result := by
  have hsend : localUrl.isSendable = true := by cbv
  rcases result_of_check localSettings localUrl origin?_localSettings with ⟨-, hscript⟩
  rcases hscript hsend with ⟨-, hscript⟩
  have hhops : Hops localUrl [.response rootRedirect] { localUrl with path := [[]] } :=
    .cons leads_rootRedirect rfl .nil
  have hend : IsEnd { localUrl with path := [[]] } [.response dataResponse] := by
    rintro response target ⟨⟩ ⟨hstatus, -⟩
    exact absurd hstatus (by decide)
  exact ⟨origin?_localSettings, (hscript _ _ _ hhops).1 (by decide) hend⟩

/-! ## What the outcome is not -/

/-- Settings whose address names a user. -/
def userSettings : Settings := localSettings.withHost "user@h"

def userUrl : Url :=
  ⟨.http, ⟨some ⟨"user".toList, none⟩, .domain ['h'], some 8000⟩, shortPath, none, none⟩

/-- Settings whose address no request can name. -/
def quoteSettings : Settings := localSettings.withHost "a\"b"

def quoteUrl : Url := ⟨.http, ⟨none, .domain "a\"b".toList, some 8000⟩, shortPath, none, none⟩

/-- A response that never has a body, and does not keep what its head promises. -/
def cutNoContent : Http.Response := ⟨⟨⟨204, by decide⟩, [], [], .cut⟩, by decide⟩

/-- Errors do not name the credentials of an address. A URL may be none that a request can be
made to. And a response without a body has none that could be cut. -/
theorem check_departs :
    (Url.read? userSettings.url.toList = some userUrl ∧
      (check userSettings [.closed]).result ≠ .error (.unreachable
        ("error sending request for url (" ++ String.ofList userUrl.text ++ ")"))) ∧
    (Url.read? quoteSettings.url.toList = some quoteUrl ∧
      (check quoteSettings [.closed]).result ≠ .error (.unreachable
        ("error sending request for url (" ++ String.ofList quoteUrl.text ++ ")"))) ∧
    (check localSettings [.response cutNoContent]).result ≠
      .error (.unreachable "error decoding response body") := by
  refine ⟨⟨by cbv, ?_⟩, ⟨by cbv, ?_⟩, ?_⟩
  · have hcall : call userSettings = .ok (firstCall userUrl.withoutCredentials) := by cbv
    have htext : (userUrl.withoutCredentials.text == userUrl.text) = false := by cbv
    rw [check_of_call hcall]
    intro h
    -- the error that arises tells the URL without the user
    have hmessage : "error sending request for url (" ++
        String.ofList userUrl.withoutCredentials.text ++ ")" =
        "error sending request for url (" ++ String.ofList userUrl.text ++ ")" := by
      injection h with h
      injection h
    have hsame : userUrl.withoutCredentials.text = userUrl.text := by
      simpa using congrArg String.toList hmessage
    simp [hsame] at htext
  · have hcall : call quoteSettings = .error (.unsupported quoteUrl.text) := by cbv
    rw [check_of_failure hcall]
    intro h
    have hmessage : "builder error for url (" ++ String.ofList quoteUrl.text ++ ")" =
        "error sending request for url (" ++ String.ofList quoteUrl.text ++ ")" := by
      injection h with h
      injection h
    have hfirst := congrArg (fun text => text.toList.head?) hmessage
    simp at hfirst
  · have hsend : localUrl.isSendable = true := by cbv
    have hcall := call_of_origin? origin?_localSettings
    rw [if_pos hsend] at hcall
    rw [check_of_call hcall]
    intro h
    have hempty : judge localSettings ((firstCall localUrl).run [.response cutNoContent]).result =
        Answer.evaluate [] := rfl
    simp only [hempty] at h
    cases h

end Readiness.Probe
