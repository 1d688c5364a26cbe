import Mathlib
import Readiness.Proofs.Probe.Endpoint
import Readiness.Proofs.Url.Normal

namespace Readiness

/-! # Requests are in normal form

Whatever the host and the deployment are, what is asked first was read as a URL, and what is left
out of it leaves it as if it had been read. A redirect leads on from there, so by induction on the
replies no request of a check holds anything that normalising would change.
-/

namespace Http.Call

variable [Url.Idna] [Url.LawfulIdna] {call next : Call} {reply : Reply}

/-- A call whose request shows a URL as it is read, without a fragment. -/
structure IsNormal (call : Call) : Prop where
  url : call.request.url.IsNormal
  fragment : call.request.url.fragment = none

/-- A redirect leads to such a URL again. -/
theorem IsNormal.receive (h : call.IsNormal) (hreceive : call.receive reply = .continued next) :
    next.IsNormal := by
  obtain ⟨response, url, -, -, hleads, hscheme, rfl⟩ := receive_eq_continued hreceive
  obtain ⟨location, -, hresolve⟩ := hleads.location
  have hurl : url.IsNormal := h.url.resolve? hscheme hresolve
  constructor
  case url =>
    rw [url_redirected]
    exact hurl.withoutFragment
  case fragment =>
    rw [url_redirected]
    rfl

/-- Every request of a run shows such a URL, however often the call is sent elsewhere. -/
theorem IsNormal.run (h : call.IsNormal) (replies : List Reply) :
    ∀ request ∈ (call.run replies).requests,
      request.url.IsNormal ∧ request.url.fragment = none := by
  induction replies generalizing call with
  | nil =>
    intro request hrequest
    cases hrequest
  | cons reply replies ih =>
    cases hstep : call.receive reply with
    | ended result =>
      rw [run_of_ended hstep]
      intro request hrequest
      -- the request is recorded only if it was read
      by_cases hread : reply.isRead = true
      · rw [if_pos hread, List.mem_singleton] at hrequest
        rw [hrequest]
        exact ⟨h.url, h.fragment⟩
      · rw [if_neg hread] at hrequest
        cases hrequest
    | continued next =>
      rw [run_of_continued hstep, List.forall_mem_cons]
      exact ⟨⟨h.url, h.fragment⟩, ih (h.receive hstep)⟩

end Http.Call

namespace Probe

open Http (Call Reply Request)

section

variable [Url.Idna] [Url.LawfulIdna] {settings : Settings} {url : Url}

theorem isNormal_of_read?_url (hread : Url.read? settings.url.toList = some url) :
    url.withoutCredentials.IsNormal :=
  (Url.isNormal_of_read? (Url.scheme_of_read?_url hread) hread).withoutCredentials

omit [Url.LawfulIdna] in
theorem origin?_of_read?_url (hread : Url.read? settings.url.toList = some url) :
    origin? settings = some url.withoutCredentials := by
  rw [origin?, hread, Option.map_some]

theorem isNormal_requests_check (hread : Url.read? settings.url.toList = some url)
    (replies : List Reply) :
    ∀ request ∈ (check settings replies).requests,
      request.url.IsNormal ∧ request.url.fragment = none := by
  have hcall := call_of_origin? (origin?_of_read?_url hread)
  by_cases hsend : url.withoutCredentials.isSendable = true
  · rw [if_pos hsend] at hcall
    rw [check_of_call hcall]
    have hfirst : (firstCall url.withoutCredentials).IsNormal :=
      ⟨(isNormal_of_read?_url hread).withoutFragment, rfl⟩
    exact hfirst.run replies
  · rw [if_neg hsend] at hcall
    rw [check_of_failure hcall]
    intro request hrequest
    cases hrequest

/-- Requests are in normal form: if the address of a deployment is read as a URL, what is asked
first is that URL without credentials and fragment, which is in normal form. It is asked whenever a
request can name it, and what redirects make of it is in normal form, too. -/
theorem requests_in_normal_form (settings : Settings) (url : Url)
    (hread : Url.read? settings.url.toList = some url) :
    url.withoutCredentials.withoutFragment.IsInNormalForm ∧
    (url.withoutCredentials.isSendable = true → ∀ reply replies, reply ≠ .refused →
      ∃ request, (check settings (reply :: replies)).requests.head? = some request) ∧
    ∀ replies,
      (∀ request, (check settings replies).requests.head? = some request →
        request.url = url.withoutCredentials.withoutFragment) ∧
      ∀ request ∈ (check settings replies).requests,
        request.url.IsInNormalForm ∧ request.url.fragment = none := by
  refine ⟨(isNormal_of_read?_url hread).withoutFragment.isInNormalForm, ?_, ?_⟩
  · intro hsend reply replies hreply
    exact ⟨_, head?_requests_check (origin?_of_read?_url hread) hsend hreply replies⟩
  · intro replies
    constructor
    · intro request hfirst
      obtain ⟨url', hread', hurl⟩ := url_of_first_request hfirst
      rw [hread, Option.some.injEq] at hread'
      rw [hurl, hread']
    · intro request hrequest
      obtain ⟨hnormal, hfragment⟩ := isNormal_requests_check hread replies request hrequest
      exact ⟨hnormal.isInNormalForm, hfragment⟩

end

/-- Settings with an address as host, the port that is implied, and a deployment that holds dots,
blanks and all marks. -/
def dottedSettings : Settings :=
  ⟨"[1:0:0:2:0:0:0:3]", 80, "a/.%2e//%2E/ü b?c d#e f", Settings.defaultTimeout⟩

/-- The URL that is read from them. -/
def dottedUrl : Url :=
  ⟨.http, ⟨none, .ipv6 ⟨[1, 0, 0, 2, 0, 0, 0, 3], rfl⟩, none⟩,
    ["subgraphs".toList, "name".toList, [], "%C3%BC%20b".toList], some "c%20d".toList,
    some "e%20f".toList⟩

/-- Settings whose host lies beyond ASCII. -/
def bookSettings : Settings := localSettings.withHost "bücher"

/-- The URL that is read from them by those who know the host. -/
def bookUrl : Url :=
  ⟨.http, ⟨none, .domain "xn--bcher-kva".toList, some 8000⟩, shortPath, none, none⟩

theorem first_request_of_dottedSettings :
    (Url.read? dottedSettings.url.toList = some dottedUrl ∧
      ∃ request, (check dottedSettings [.closed]).requests.head? = some request ∧
        request.url.text = "http://[1:0:0:2::3]/subgraphs/name//%C3%BC%20b?c%20d".toList ∧
        request.url.IsInNormalForm) ∧
    let _ := Url.Idna.knowing Url.Idna.bookEntry
    Url.read? bookSettings.url.toList = some bookUrl ∧
      ∃ request, (check bookSettings [.closed]).requests.head? = some request ∧
        request.url.text = "http://xn--bcher-kva:8000/subgraphs/name/n".toList ∧
        request.url.IsInNormalForm := by
  constructor
  · have hread : Url.read? dottedSettings.url.toList = some dottedUrl := by cbv
    have hsend : dottedUrl.withoutCredentials.isSendable = true := by cbv
    have htext : dottedUrl.withoutCredentials.withoutFragment.text =
        "http://[1:0:0:2::3]/subgraphs/name//%C3%BC%20b?c%20d".toList := by cbv
    obtain ⟨hnormal, hrecorded, hrequests⟩ := requests_in_normal_form _ _ hread
    obtain ⟨request, hfirst⟩ := hrecorded hsend .closed [] (by decide)
    rw [← (hrequests [.closed]).1 request hfirst] at htext hnormal
    exact ⟨hread, request, hfirst, htext, hnormal⟩
  · let _ := Url.Idna.knowing Url.Idna.bookEntry
    have hread : Url.read? bookSettings.url.toList = some bookUrl := by cbv
    have hsend : bookUrl.withoutCredentials.isSendable = true := by cbv
    have htext : bookUrl.withoutCredentials.withoutFragment.text =
        "http://xn--bcher-kva:8000/subgraphs/name/n".toList := by cbv
    obtain ⟨hnormal, hrecorded, hrequests⟩ := requests_in_normal_form _ _ hread
    obtain ⟨request, hfirst⟩ := hrecorded hsend .closed [] (by decide)
    rw [← (hrequests [.closed]).1 request hfirst] at htext hnormal
    exact ⟨hread, request, hfirst, htext, hnormal⟩

end Probe
end Readiness
