import Mathlib
import Readiness.Proofs.Probe.Outcome

namespace Readiness.Probe

open Http (Call Leads Reply Request Status)

/-! # What the server sees

Whatever the replies are, the requests of a call depend on them through redirects only. Each
redirect makes the next request from the one before it, so what holds of all requests is shown
on one redirect, and then on the requests of a call in their order.
-/

/-! ## Requests of a call -/

/-- The requests that the server may see of a call, in their order. The last request is not
seen if its connection ends too soon. -/
inductive Sent : Call → List Request → Prop where
  | none {call : Call} : Sent call []
  | last {call : Call} : Sent call [call.request]
  | more {call : Call} {status : Status} {url : Url} {requests : List Request} :
      call.redirects ≠ Call.maxRedirects →
      Sent ⟨call.origin, call.request.redirected status url, call.redirects + 1⟩ requests →
      Sent call (call.request :: requests)

theorem sent_run [Url.Idna] (call : Call) (replies : List Reply) :
    Sent call (call.run replies).requests := by
  induction replies generalizing call with
  | nil => exact .none
  | cons reply replies ih =>
    cases hstep : call.receive reply with
    | ended result =>
      rw [Call.run_of_ended hstep]
      simp only
      split
      · exact .last
      · exact .none
    | continued next =>
      have hmore := ih next
      rw [Call.run_of_continued hstep]
      rcases Call.receive_eq_continued hstep with ⟨response, url, -, hcount, -, -, rfl⟩
      exact .more hcount hmore

variable {call : Call} {request : Request} {requests : List Request}

/-- Every redirect counts, so there are as many requests as redirects, and one more. -/
theorem Sent.length_le (h : Sent call requests) (hcount : call.redirects ≤ Call.maxRedirects) :
    requests.length + call.redirects ≤ Call.maxRedirects + 1 := by
  induction h with
  | none =>
    rw [List.length_nil]
    omega
  | last =>
    rw [List.length_singleton]
    omega
  | more hmore _ ih =>
    have hrest := ih (by simp only; omega)
    simp only at hrest
    rw [List.length_cons]
    omega

theorem Sent.eq_of_head? (h : Sent call requests) (hhead : requests.head? = some request) :
    request = call.request := by
  cases h with
  | none => cases hhead
  | last | more =>
    rw [List.head?_cons, Option.some.injEq] at hhead
    exact hhead.symm

/-! ## What requests bring -/

/-- A request that brings the question. -/
structure IsQuestion (request : Request) : Prop where
  method : request.method = .post
  contentType : request.contentType = some contentType
  body : request.body = question

/-- A request that brings nothing. -/
structure IsBare (request : Request) : Prop where
  method : request.method = .get
  contentType : request.contentType = none
  body : request.body = ""

theorem IsBare.redirected (h : IsBare request) (status : Status) (url : Url) :
    IsBare (request.redirected status url) := by
  unfold Request.redirected
  split
  · exact ⟨h.method, h.contentType, h.body⟩
  · exact ⟨rfl, rfl, rfl⟩

/-- A redirect repeats the question or drops it. -/
theorem IsQuestion.redirected (h : IsQuestion request) (status : Status) (url : Url) :
    IsQuestion (request.redirected status url) ∨ IsBare (request.redirected status url) := by
  unfold Request.redirected
  split
  · exact .inl ⟨h.method, h.contentType, h.body⟩
  · exact .inr ⟨rfl, rfl, rfl⟩

/-- Behind a request that brings nothing there are only such requests. -/
theorem Sent.isBare (h : Sent call requests) (hbare : IsBare call.request) :
    ∀ request ∈ requests, IsBare request := by
  induction h with
  | none => simp
  | last => simpa using hbare
  | more _ _ ih =>
    intro request hrequest
    rcases List.mem_cons.mp hrequest with rfl | hrequest
    · exact hbare
    · exact ih (hbare.redirected _ _) request hrequest

/-- The question is asked some times, and then nothing is brought any more. -/
theorem Sent.question_then_bare (h : Sent call requests) (hquestion : IsQuestion call.request) :
    ∃ questions others, requests = questions ++ others ∧
      (∀ request ∈ questions, IsQuestion request) ∧ ∀ request ∈ others, IsBare request := by
  induction h with
  | none => exact ⟨[], [], rfl, by simp, by simp⟩
  | @last call => exact ⟨[call.request], [], rfl, by simpa using hquestion, by simp⟩
  | @more call status url requests _ hrest ih =>
    rcases hquestion.redirected status url with hnext | hnext
    · obtain ⟨questions, others, rfl, hquestions, hothers⟩ := ih hnext
      refine ⟨call.request :: questions, others, rfl, ?_, hothers⟩
      intro request hrequest
      rcases List.mem_cons.mp hrequest with rfl | hrequest
      · exact hquestion
      · exact hquestions request hrequest
    · -- from here on the question is gone for good
      exact ⟨[call.request], requests, rfl, by simpa using hquestion, hrest.isBare hnext⟩

/-! ## Requests of a check -/

/-- What the server may see of a check. -/
structure IsSeen [Url.Idna] (settings : Settings) (requests : List Request) : Prop where
  few : requests.length ≤ 11
  order : ∃ posts gets, requests = posts ++ gets ∧ (∀ request ∈ posts, request.method = .post) ∧
    ∀ request ∈ gets, request.method = .get
  post : ∀ request ∈ requests, request.method = .post →
    request.contentType = some contentType ∧ request.body = question
  get : ∀ request ∈ requests, request.method = .get →
    request.contentType = none ∧ request.body = ""
  first : ∀ request, requests.head? = some request → request.method = .post ∧
    ∃ url, Url.read? settings.url.toList = some url ∧
      request.url = url.withoutCredentials.withoutFragment

theorem isQuestion_firstCall (origin : Url) : IsQuestion (firstCall origin).request :=
  ⟨rfl, rfl, rfl⟩

theorem isSeen_nil [Url.Idna] (settings : Settings) : IsSeen settings [] :=
  ⟨by simp, ⟨[], [], rfl, by simp, by simp⟩, by simp, by simp, by simp⟩

theorem isSeen_of_sent [Url.Idna] {settings : Settings} {origin : Url}
    (h : origin? settings = some origin)
    (hsent : Sent (firstCall origin) requests) : IsSeen settings requests := by
  have hquestion := isQuestion_firstCall origin
  rcases hsent.question_then_bare hquestion with ⟨questions, others, hsplit, hquestions, hothers⟩
  constructor
  case few =>
    have hlength := hsent.length_le (Nat.zero_le _)
    exact hlength
  case order =>
    refine ⟨questions, others, hsplit, ?_, ?_⟩
    · intro request hrequest
      exact (hquestions request hrequest).method
    · intro request hrequest
      exact (hothers request hrequest).method
  case post =>
    intro request hrequest hmethod
    rw [hsplit, List.mem_append] at hrequest
    rcases hrequest with hrequest | hrequest
    · exact ⟨(hquestions request hrequest).contentType, (hquestions request hrequest).body⟩
    · simp [(hothers request hrequest).method] at hmethod
  case get =>
    intro request hrequest hmethod
    rw [hsplit, List.mem_append] at hrequest
    rcases hrequest with hrequest | hrequest
    · simp [(hquestions request hrequest).method] at hmethod
    · exact ⟨(hothers request hrequest).contentType, (hothers request hrequest).body⟩
  case first =>
    intro request hhead
    rw [hsent.eq_of_head? hhead]
    rw [origin?, Option.map_eq_some_iff] at h
    rcases h with ⟨url, hread, rfl⟩
    exact ⟨hquestion.method, url, hread, rfl⟩

theorem isSeen_check [Url.Idna] (settings : Settings) (replies : List Reply) :
    IsSeen settings (check settings replies).requests := by
  cases horigin : origin? settings with
  | none =>
    rw [check_of_failure (call_of_origin?_eq_none horigin)]
    exact isSeen_nil settings
  | some origin =>
    have hcall := call_of_origin? horigin
    split at hcall
    · rw [check_of_call hcall]
      exact isSeen_of_sent horigin (sent_run (firstCall origin) replies)
    · rw [check_of_failure hcall]
      exact isSeen_nil settings

/-! ## Requests of many checks -/

theorem checks_succ [Url.Idna] (settings : Settings) (count : Nat) (replies : List Reply) :
    checks settings (count + 1) replies =
      check settings replies :: checks settings count (check settings replies).rest := rfl

/-- Each of many checks is one against what the ones before it left. -/
theorem eq_check_of_mem_checks [Url.Idna] {settings : Settings} {count : Nat} {replies : List Reply}
    {found : Check} (h : found ∈ checks settings count replies) :
    ∃ replies', found = check settings replies' := by
  induction count generalizing replies with
  | zero => cases h
  | succ count ih =>
    rw [checks_succ, List.mem_cons] at h
    rcases h with hfirst | hlater
    · exact ⟨replies, hfirst⟩
    · exact ih hlater

/-- Checks that make no call leave the replies alone. -/
theorem rest_of_mem_checks [Url.Idna] {settings : Settings} {failure : Http.Failure}
    (hcall : Probe.call settings = .error failure) {count : Nat} {replies : List Reply}
    {found : Check} (h : found ∈ checks settings count replies) :
    found.requests = [] ∧ found.rest = replies := by
  induction count with
  | zero => cases h
  | succ count ih =>
    have hcheck := check_of_failure hcall replies
    rw [checks_succ, hcheck, List.mem_cons] at h
    rcases h with hfirst | hlater
    · rw [hfirst]
      exact ⟨rfl, rfl⟩
    · exact ih hlater

/-- What the server can see, however many checks there are and whatever it replies. -/
theorem isSeen_checks [Url.Idna] (settings : Settings) (count : Nat) (replies : List Reply) :
    (∀ found ∈ checks settings count replies, IsSeen settings found.requests) ∧
    (Url.read? settings.url.toList = none →
      ∀ found ∈ checks settings count replies, found.requests = [] ∧ found.rest = replies) := by
  constructor
  · intro found hfound
    rcases eq_check_of_mem_checks hfound with ⟨replies', heq⟩
    rw [heq]
    exact isSeen_check settings replies'
  · intro hread found hfound
    have horigin : origin? settings = none := by
      rw [origin?, hread]
      rfl
    exact rest_of_mem_checks (call_of_origin?_eq_none horigin) hfound

/-- The first request does not show the credentials of an address. -/
theorem first_request_departs :
    Url.read? userSettings.url.toList = some userUrl ∧
    ∃ request, (check userSettings [.closed]).requests = [request] ∧
      request.url.text ≠ userUrl.withoutFragment.text := by
  have hcall : call userSettings = .ok (firstCall userUrl.withoutCredentials) := by cbv
  have htext : (userUrl.withoutCredentials.withoutFragment.text ==
      userUrl.withoutFragment.text) = false := by cbv
  refine ⟨by cbv, (firstCall userUrl.withoutCredentials).request, ?_, ?_⟩
  · rw [check_of_call hcall]
    rfl
  · intro h
    rw [firstCall, Request.post] at h
    simp [h] at htext

end Readiness.Probe
