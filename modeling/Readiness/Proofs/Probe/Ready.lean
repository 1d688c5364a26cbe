import Mathlib
import Readiness.Proofs.Probe.Requests

namespace Readiness.Probe

open Http (Call Hops Leads Reply Request Response)

/-! # What a ready deployment was asked

A check that finds a deployment ready has judged one response, which answers the last request
that the server saw. The redirects in front of it decide what that request brought: some have
the request repeated, the others drop the question, and what was dropped does not come back.
-/

variable {call next last : Call} {replies hops : List Reply} {requests : List Request}
  {response : Response}

/-! ## The response that is judged -/

/-- A call goes on over these replies, with a request for each of them, to another call. -/
inductive Follows [Url.Idna] : Call → List Reply → List Request → Call → Prop where
  | nil {call : Call} : Follows call [] [] call
  | cons {call next last : Call} {response : Response} {hops : List Reply}
      {requests : List Request} :
      call.receive (.response response) = .continued next → Follows next hops requests last →
      Follows call (.response response :: hops) (call.request :: requests) last

theorem Follows.length_eq [Url.Idna] (h : Follows call hops requests last) :
    requests.length = hops.length := by
  induction h with
  | nil => rfl
  | cons _ _ ih => rw [List.length_cons, List.length_cons, ih]

/-- What is followed leads from URL to URL. -/
theorem Follows.leads [Url.Idna] (h : Follows call hops requests last) :
    Hops call.request.url hops last.request.url := by
  induction h with
  | nil => exact .nil
  | cons hstep _ ih =>
    rcases Call.receive_eq_continued hstep with ⟨_, url, ⟨⟩, -, hleads, hscheme, rfl⟩
    rw [Call.url_redirected] at ih
    exact .cons hleads hscheme ih

/-- A call that ends with a response ends because of it. -/
theorem eq_response_of_ended [Url.Idna] {reply : Reply}
    (h : call.receive reply = .ended (.ok response)) :
    reply = .response response := by
  cases reply with
  | refused | closed | garbled | silent => cases h
  | response found =>
    cases htarget : call.target? found with
    | none =>
      rw [Call.receive, htarget] at h
      cases h
      rfl
    | some target =>
      -- no way to send a call elsewhere ends it with a response
      rw [Call.receive, htarget] at h
      simp only [Call.redirect] at h
      repeat' split at h
      all_goals cases h

/-- A call that brings a response got it for its last request, behind what it followed. -/
theorem follows_of_run_eq_ok [Url.Idna] (h : (call.run replies).result = .ok response) :
    ∃ hops requests last, Follows call hops requests last ∧
      replies = hops ++ .response response :: (call.run replies).rest ∧
      (call.run replies).requests = requests ++ [last.request] := by
  induction replies generalizing call with
  | nil => cases h
  | cons reply replies ih =>
    cases hstep : call.receive reply with
    | ended result =>
      rw [Call.run_of_ended hstep] at h ⊢
      simp only at h
      subst h
      rcases eq_response_of_ended hstep with rfl
      exact ⟨[], [], call, .nil, rfl, rfl⟩
    | continued next =>
      rw [Call.run_of_continued hstep] at h ⊢
      rcases Call.receive_eq_continued hstep with ⟨found, _, rfl, -⟩
      rcases ih h with ⟨hops, requests, last, hfollows, hreplies, hrequests⟩
      refine ⟨.response found :: hops, call.request :: requests, last, .cons hstep hfollows, ?_, ?_⟩
      · rw [List.cons_append, ← hreplies]
      · rw [hrequests, List.cons_append]

/-! ## What the last request brings -/

/-- A response that has the request made again as it was. -/
def IsRepeat (reply : Reply) : Prop :=
  ∃ response, reply = .response response ∧ response.status.code ∈ [307, 308]

theorem isRepeat_response_iff :
    IsRepeat (.response response) ↔ response.status.repeatsRequest = true := by
  simp [IsRepeat, Http.Status.repeatsRequest]

theorem Follows.isBare [Url.Idna] (h : Follows call hops requests last)
    (hbare : IsBare call.request) :
    IsBare last.request := by
  induction h with
  | nil => exact hbare
  | cons hstep _ ih =>
    rcases Call.receive_eq_continued hstep with ⟨_, _, -, -, -, -, rfl⟩
    exact ih (hbare.redirected _ _)

/-- The question is still asked in the end exactly if every redirect has it repeated. -/
theorem Follows.question_or_bare [Url.Idna] (h : Follows call hops requests last)
    (hquestion : IsQuestion call.request) :
    (IsQuestion last.request ∧ ∀ hop ∈ hops, IsRepeat hop) ∨
      (IsBare last.request ∧ ¬ ∀ hop ∈ hops, IsRepeat hop) := by
  induction h with
  | nil => exact .inl ⟨hquestion, by simp⟩
  | @cons call next last response hops requests hstep hrest ih =>
    rcases Call.receive_eq_continued hstep with ⟨_, url, ⟨⟩, -, -, -, rfl⟩
    rw [List.forall_mem_cons, isRepeat_response_iff]
    by_cases hrepeat : response.status.repeatsRequest = true
    · have hnext : IsQuestion (call.request.redirected response.status url) := by
        rw [Request.redirected, if_pos hrepeat]
        exact ⟨hquestion.method, hquestion.contentType, hquestion.body⟩
      rcases ih hnext with ⟨hlast, hall⟩ | ⟨hlast, hsome⟩
      · exact .inl ⟨hlast, hrepeat, hall⟩
      · exact .inr ⟨hlast, fun hall => hsome hall.2⟩
    · have hnext : IsBare (call.request.redirected response.status url) := by
        rw [Request.redirected, if_neg hrepeat]
        exact ⟨rfl, rfl, rfl⟩
      exact .inr ⟨hrest.isBare hnext, fun hall => hrepeat hall.1⟩

/-! ## Ready deployments -/

variable {settings : Settings} {progress : Progress}

theorem isDeployed_iff {found : Check} :
    found.isDeployed = true ↔ ∃ progress, found.result = .ok progress := by
  rw [Check.isDeployed]
  cases found.result <;> simp [Except.toBool]

/-- A verdict of readiness is one on the body of a response. -/
theorem judge_eq_ok {result : Except Http.Fault Response}
    (h : judge settings result = .ok progress) :
    ∃ response body, result = .ok response ∧ response.content = .ok body ∧
      Answer.evaluate body = .ok progress := by
  cases result with
  | error fault => cases h
  | ok response =>
    by_cases hsuccess : IsSuccess response.status
    · rw [judge_success hsuccess] at h
      cases hcontent : response.content with
      | error fault =>
        rw [hcontent] at h
        cases h
      | ok body =>
        rw [hcontent] at h
        exact ⟨response, body, rfl, hcontent, h⟩
    · rw [judge_failed hsuccess] at h
      cases h

/-- A check that finds a deployment ready made a call. -/
theorem call_of_ready [Url.Idna] (h : (check settings replies).result = .ok progress) :
    ∃ origin, origin? settings = some origin ∧
      Probe.call settings = .ok (firstCall origin) := by
  cases horigin : origin? settings with
  | none =>
    rw [check_of_failure (call_of_origin?_eq_none horigin)] at h
    cases h
  | some origin =>
    have hcall := call_of_origin? horigin
    split at hcall
    · exact ⟨origin, rfl, hcall⟩
    · rw [check_of_failure hcall] at h
      cases h

/-- A deployment is found ready by the response to the last request. That request is the
question if every redirect on the way to it had the request repeated, and brings nothing
otherwise. -/
theorem asked_of_ready [Url.Idna] (settings : Settings) (replies : List Reply) :
    ((check settings replies).isDeployed = true ↔
      ∃ progress, (check settings replies).result = .ok progress) ∧
    ∀ progress, (check settings replies).result = .ok progress →
      ∃ origin hops response body earlier asked,
        origin? settings = some origin ∧ Hops origin.withoutFragment hops asked.url ∧
        replies = hops ++ .response response :: (check settings replies).rest ∧
        response.content = .ok body ∧ Answer.evaluate body = .ok progress ∧
        (check settings replies).requests = earlier ++ [asked] ∧
        earlier.length = hops.length ∧
        ((∀ hop ∈ hops, IsRepeat hop) → IsQuestion asked) ∧
        ((¬ ∀ hop ∈ hops, IsRepeat hop) → IsBare asked) := by
  refine ⟨isDeployed_iff, ?_⟩
  intro progress hready
  rcases call_of_ready hready with ⟨origin, horigin, hcall⟩
  have hquestion := isQuestion_firstCall origin
  rw [check_of_call hcall] at hready ⊢
  rcases judge_eq_ok hready with ⟨response, body, hresult, hcontent, hverdict⟩
  rcases follows_of_run_eq_ok hresult with ⟨hops, earlier, last, hfollows, hreplies, hrequests⟩
  refine ⟨origin, hops, response, body, earlier, last.request, horigin, hfollows.leads, hreplies,
    hcontent, hverdict, hrequests, hfollows.length_eq, ?_, ?_⟩
  · intro hall
    rcases hfollows.question_or_bare hquestion with ⟨hlast, -⟩ | ⟨-, hsome⟩
    · exact hlast
    · exact absurd hall hsome
  · intro hsome
    rcases hfollows.question_or_bare hquestion with ⟨-, hall⟩ | ⟨hlast, -⟩
    · exact absurd hall hsome
    · exact hlast

/-- A response to a request that brought nothing can make a deployment ready. -/
theorem unasked_ready :
    (check localSettings [.response rootRedirect, .response dataResponse]).isDeployed = true ∧
    ∃ first asked, (check localSettings
        [.response rootRedirect, .response dataResponse]).requests = [first, asked] ∧
      asked.method = .get ∧ asked.contentType = none ∧ asked.body = "" := by
  have hcall : Probe.call localSettings = .ok (firstCall localUrl) := by cbv
  have hstep : (firstCall localUrl).receive (.response rootRedirect) = _ :=
    Call.receive_of_hop leads_rootRedirect rfl (by decide)
  have hverdict : Answer.evaluate dataResponse.body = .ok ⟨none⟩ := by cbv
  have hjudge : judge localSettings (.ok dataResponse) = .ok ⟨none⟩ := hverdict
  rw [check_of_call hcall, Call.run_of_continued hstep]
  refine ⟨?_, _, _, rfl, rfl, rfl, rfl⟩
  exact isDeployed_iff.mpr ⟨⟨none⟩, hjudge⟩

end Readiness.Probe
