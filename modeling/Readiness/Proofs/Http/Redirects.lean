import Readiness.Http.Call

namespace Readiness.Http

/-! # Calls that are sent elsewhere

Where a response leads depends on the URL that was asked and on nothing else of the call. So
a script falls apart into the redirects that a call follows and what comes behind them, before
anything is said about calls.
-/

variable [Url.Idna]

/-! ## Redirects of a script -/

/-- A response sends whoever asked this URL to a target. -/
structure Leads (url : Url) (response : Response) (target : Url.Target) : Prop where
  status : response.status.code ∈ [301, 302, 303, 307, 308]
  location : ∃ location, response.location? = some location ∧
    url.resolve? location.toList = some target

/-- Redirects over plain HTTP, from one URL to another. -/
inductive Hops : Url → List Reply → Url → Prop where
  | nil {url : Url} : Hops url [] url
  | cons {url next last : Url} {response : Response} {hops : List Reply} :
      Leads url response (.address next) → next.scheme = .http →
      Hops next.withoutFragment hops last → Hops url (.response response :: hops) last

/-- Behind these redirects there is none over plain HTTP. -/
def IsLastHop (last : Url) (rest : List Reply) : Prop :=
  ∀ response next, rest.head? = some (.response response) → Leads last response (.address next) →
    next.scheme ≠ .http

/-- Every script is redirects, and what comes behind them. -/
theorem exists_hops (url : Url) (replies : List Reply) :
    ∃ hops rest last, replies = hops ++ rest ∧ Hops url hops last ∧ IsLastHop last rest := by
  induction replies generalizing url with
  | nil =>
    refine ⟨[], [], url, rfl, .nil, ?_⟩
    intro response next hhead
    cases hhead
  | cons reply replies ih =>
    by_cases h : ∃ response next, reply = .response response ∧
        Leads url response (.address next) ∧ next.scheme = .http
    · obtain ⟨response, next, rfl, hleads, hscheme⟩ := h
      rcases ih next.withoutFragment with ⟨hops, rest, last, rfl, hhops, hlast⟩
      exact ⟨.response response :: hops, rest, last, rfl, .cons hleads hscheme hhops, hlast⟩
    · refine ⟨[], reply :: replies, url, rfl, .nil, ?_⟩
      intro response next hhead hleads hscheme
      rw [List.head?_cons, Option.some.injEq] at hhead
      exact h ⟨response, next, hhead, hleads, hscheme⟩

namespace Call

variable {call next : Call} {response : Response} {reply : Reply} {target : Url.Target}

theorem target?_eq_some_iff :
    call.target? response = some target ↔ Leads call.request.url response target := by
  unfold target?
  constructor
  · intro h
    split at h
    · next hstatus =>
      rw [Option.bind_eq_some_iff] at h
      refine ⟨?_, h⟩
      simpa [Status.isRedirect] using hstatus
    · cases h
  · rintro ⟨hstatus, hlocation⟩
    have hredirect : response.status.isRedirect = true := by simpa [Status.isRedirect] using hstatus
    rw [if_pos hredirect, Option.bind_eq_some_iff]
    exact hlocation

theorem target?_eq_none_iff :
    call.target? response = none ↔ ∀ target, ¬ Leads call.request.url response target := by
  rw [Option.eq_none_iff_forall_ne_some]
  constructor
  · intro h target hleads
    exact h target (target?_eq_some_iff.mpr hleads)
  · intro h target htarget
    exact h target (target?_eq_some_iff.mp htarget)

/-! ## Steps of a call -/

/-- A response that leads nowhere is the result. -/
theorem receive_of_not_leads (h : ∀ target, ¬ Leads call.request.url response target) :
    call.receive (.response response) = .ended (.ok response) := by
  rw [receive, target?_eq_none_iff.mpr h]

theorem receive_of_leads (h : Leads call.request.url response target) :
    call.receive (.response response) = call.redirect response.status target := by
  rw [receive, target?_eq_some_iff.mpr h]

/-- A call goes on only from a response, as often as it may, and keeps the URL it began with. -/
theorem receive_eq_continued (h : call.receive reply = .continued next) :
    ∃ response url, reply = .response response ∧ call.redirects ≠ maxRedirects ∧
      Leads call.request.url response (.address url) ∧ url.scheme = .http ∧
      next = ⟨call.origin, call.request.redirected response.status url, call.redirects + 1⟩ := by
  cases reply with
  | refused | closed | garbled | silent => cases h
  | response response =>
    rw [receive] at h
    split at h
    · cases h
    · next target htarget =>
      rw [target?_eq_some_iff] at htarget
      unfold redirect at h
      split at h
      · cases h
      · next hmore =>
        split at h
        · cases h
        · next url =>
          split at h
          · next hscheme =>
            cases h
            exact ⟨response, url, rfl, hmore, htarget, hscheme, rfl⟩
          · cases h
          · cases h

/-- A hop takes the call to the next URL. -/
theorem receive_of_hop {url : Url} (h : Leads call.request.url response (.address url))
    (hscheme : url.scheme = .http) (hmore : call.redirects < maxRedirects) :
    call.receive (.response response) =
      .continued ⟨call.origin, call.request.redirected response.status url,
        call.redirects + 1⟩ := by
  rw [receive_of_leads h, redirect, if_neg (Nat.ne_of_lt hmore)]
  simp only [hscheme]

omit [Url.Idna] in
theorem url_redirected (request : Request) (status : Status) (url : Url) :
    (request.redirected status url).url = url.withoutFragment := by
  unfold Request.redirected
  split <;> rfl

/-! ## Runs -/

theorem run_of_ended {result : Except Fault Response} (h : call.receive reply = .ended result)
    (replies : List Reply) :
    call.run (reply :: replies) =
      ⟨result, if reply.isRead then [call.request] else [], replies⟩ := by
  rw [run]
  simp only [h]

theorem run_of_continued (h : call.receive reply = .continued next) (replies : List Reply) :
    call.run (reply :: replies) =
      ⟨(next.run replies).result, call.request :: (next.run replies).requests,
        (next.run replies).rest⟩ := by
  rcases receive_eq_continued h with ⟨response, _, rfl, -⟩
  rw [run]
  simp only [h]
  rfl

/-- A call that follows redirects goes on from where they lead, with as many of them on its
count. -/
theorem run_hops {url last : Url} {hops : List Reply} (h : Hops url hops last)
    (hurl : call.request.url = url) (hmore : call.redirects + hops.length ≤ maxRedirects) :
    ∃ after : Call, after.origin = call.origin ∧ after.request.url = last ∧
      after.redirects = call.redirects + hops.length ∧
      ∀ rest, (call.run (hops ++ rest)).result = (after.run rest).result := by
  induction h generalizing call with
  | nil => exact ⟨call, rfl, hurl, rfl, fun rest => rfl⟩
  | @cons url next last response hops hleads hscheme _ ih =>
    rw [List.length_cons] at hmore
    subst hurl
    have hstep := receive_of_hop hleads hscheme (by omega)
    have hnext := url_redirected call.request response.status next
    obtain ⟨after, horigin, hlast, hcount, hrun⟩ :=
      @ih ⟨call.origin, call.request.redirected response.status next, call.redirects + 1⟩ hnext
        (by simp only; omega)
    refine ⟨after, horigin, hlast, ?_, ?_⟩
    · simp only at hcount
      rw [List.length_cons]
      omega
    · intro rest
      rw [List.cons_append, run_of_continued hstep]
      exact hrun rest

end Call
end Readiness.Http
