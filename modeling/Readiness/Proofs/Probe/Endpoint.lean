import Readiness.Proofs.Probe.Requests
import Readiness.Proofs.Settings.Address

namespace Readiness.Probe

open Http (Call Reply Request)
open Settings (read?_url_of_isLetters)

/-! # The server that is asked

The first request of a check goes to the server that the address names. The port is in the address
behind the host, so it is asked for as long as the host does not end the server by itself. The
deployment is behind both, and never has a say.
-/

variable {settings : Settings} {origin : Url} {request : Request} {reply : Reply}
  {replies : List Reply}

/-! ## First requests -/

/-- A request is recorded unless the connection ends before it is read. -/
theorem head?_requests_run [Url.Idna] (call : Call) (h : reply ≠ .refused) (replies : List Reply) :
    (call.run (reply :: replies)).requests.head? = some call.request := by
  have hread : reply.isRead = true := by
    cases reply with
    | refused => exact absurd rfl h
    | closed | garbled | silent | response => rfl
  cases hstep : call.receive reply with
  | ended result =>
    rw [Call.run_of_ended hstep, hread]
    rfl
  | continued next =>
    rw [Call.run_of_continued hstep]
    rfl

/-- A check asks an address that a request can name. -/
theorem head?_requests_check [Url.Idna] (horigin : origin? settings = some origin)
    (hsend : origin.isSendable = true) (h : reply ≠ .refused) (replies : List Reply) :
    (check settings (reply :: replies)).requests.head? = some (firstCall origin).request := by
  have hcall := call_of_origin? horigin
  rw [if_pos hsend] at hcall
  rw [check_of_call hcall]
  exact head?_requests_run _ h replies

/-- The first request shows an address, but for what is never sent as a part of it. -/
theorem url_of_first_request [Url.Idna]
    (h : (check settings replies).requests.head? = some request) :
    ∃ url, Url.read? settings.url.toList = some url ∧
      request.url = url.withoutCredentials.withoutFragment :=
  ((isSeen_check settings replies).first request h).2

theorem path_withoutFragment (url : Url) : url.withoutFragment.path = url.path := rfl

theorem query_withoutFragment (url : Url) : url.withoutFragment.query = url.query := rfl

theorem host_withoutCredentials (url : Url) :
    url.withoutCredentials.authority.host = url.authority.host := by
  unfold Url.withoutCredentials
  split <;> rfl

theorem port_withoutCredentials (url : Url) :
    url.withoutCredentials.authority.port = url.authority.port := by
  unfold Url.withoutCredentials
  split <;> rfl

/-- Whether credentials are sent does not depend on what follows the server. -/
theorem authority_withoutCredentials_congr {url url' : Url} (h : url'.authority = url.authority) :
    url'.withoutCredentials.authority = url.withoutCredentials.authority := by
  unfold Url.withoutCredentials
  rw [h]
  split
  · rfl
  · exact h

/-! ## Any host -/

/-- A host that is read as it is: nothing in it ends a server, or is dropped, decoded or taken for
credentials, and it is no address. -/
structure IsName (host : List Char) : Prop where
  inside : ∀ c ∈ host, Url.endsServer c = false
  kept : ∀ c ∈ host, Url.isLineMark c = false
  plain : ∀ c ∈ host, c ≠ '@' ∧ c ≠ '%'
  notLiteral : ¬ Url.IsLiteral host

theorem IsName.bareHost (h : IsName settings.host.toList) :
    settings.bareHost = settings.host.toList := by
  apply Settings.bareHost_of_forall_not h.kept
  intro c hc
  have hinside := h.inside c hc
  rw [Url.endsServer, Bool.or_eq_false_iff] at hinside
  exact hinside.1

theorem isName_of_isLetters {host : List Char} (h : Url.IsLetters host) : IsName host where
  inside := h.all (P := fun c => Url.endsServer c = false) (by decide)
  kept := h.all (P := fun c => Url.isLineMark c = false) (by decide)
  plain := h.all (P := fun c => c ≠ '@' ∧ c ≠ '%') (by decide)
  notLiteral := h.not_isLiteral

/-- A host that does not end the server leaves the port where it is. -/
theorem authority_of_forall_not [Url.Idna] [Url.LawfulIdna] {url : Url}
    (hread : Url.read? settings.url.toList = some url)
    (h : ∀ c ∈ settings.bareHost, Url.endsServer c = false) :
    url.authority.port = Url.writtenPort .http settings.port ∧
      Url.readHost? .http (Url.cutLast settings.bareHost).2 = some url.authority.host := by
  have hmark : ∀ c ∈ settings.bareHost, c ≠ '\\' := by
    rintro c hc rfl
    cases h _ hc
  rw [Settings.read?_url_of_forall_not h, Option.map_eq_some_iff] at hread
  rcases hread with ⟨⟨authority, rest⟩, hauthority, rfl⟩
  exact Url.Authority.port_of_read? hmark hauthority

/-- A host that ends the server leaves no say to the port behind it. -/
theorem authority_of_exists [Url.Idna] {url url' : Url} {port : UInt16}
    (hread : Url.read? settings.url.toList = some url)
    (hread' : Url.read? { settings with port }.url.toList = some url')
    (h : ∃ c ∈ settings.bareHost, Url.endsServer c = true) : url'.authority = url.authority := by
  rcases Option.isSome_iff_exists.mp (List.find?_isSome.mpr h) with ⟨mark, hmark⟩
  rcases List.find?_eq_some_iff_append.mp hmark with ⟨hends, front, back, hsplit, hinside⟩
  have hfront : ∀ c ∈ front, Url.endsServer c = false := by
    intro c hc
    simpa using hinside c hc
  rcases Settings.authority_of_read?_url hsplit hfront hends hread with ⟨rest, hfirst⟩
  -- the port is no part of what is cut there
  have hsplit' : { settings with port }.bareHost = front ++ mark :: back := hsplit
  rcases Settings.authority_of_read?_url hsplit' hfront hends hread' with ⟨rest', hsecond⟩
  rw [hfirst, Option.some.injEq, Prod.mk.injEq] at hsecond
  exact hsecond.1.symm

/-- Which server the first request asks. If no server ends inside the host, the port is the one
that the settings name. A host that is a plain name is asked under its name in ASCII, and one that
stands for itself as it is, in lower case. But if a server ends inside the host, the port is read as
something else, and has no say in who is asked. -/
theorem endpoint_of_first_request [Url.Idna] [Url.LawfulIdna] (settings : Settings)
    (replies : List Reply) (request : Request)
    (h : (check settings replies).requests.head? = some request) :
    ((∀ c ∈ settings.bareHost, Url.endsServer c = false) →
      request.url.authority.port = if settings.port = 80 then none else some settings.port) ∧
    (IsName settings.host.toList →
      (Url.Idna.isDirect settings.host.toList = true →
        request.url.authority.host = .domain (settings.host.toList.map Char.toLower)) ∧
      ∃ name, Url.Idna.toAscii? (Url.nameBytes settings.host.toList) = some name ∧
        (request.url.authority.host = .domain name ∨ ∃ address,
          Url.Address4.read? name = some address ∧ request.url.authority.host = .ipv4 address)) ∧
    ((∃ c ∈ settings.bareHost, Url.endsServer c = true) →
      ∀ port replies' request',
        (check { settings with port } replies').requests.head? = some request' →
        request'.url.authority = request.url.authority) := by
  rcases url_of_first_request h with ⟨url, hread, hurl⟩
  refine ⟨?_, ?_, ?_⟩
  · intro hinside
    rw [hurl, Url.withoutFragment, port_withoutCredentials,
      (authority_of_forall_not hread hinside).1, Url.writtenPort_http]
  · -- a plain name is read whole, and no part of it is taken for credentials
    intro hname
    have hbare := hname.bareHost
    have hinside : ∀ c ∈ settings.bareHost, Url.endsServer c = false := by
      rw [hbare]
      exact hname.inside
    have hhost := (authority_of_forall_not hread hinside).2
    rw [hbare, Url.cutLast_of_forall_ne fun c hc => (hname.plain c hc).1] at hhost
    have hpercent : ∀ c ∈ settings.host.toList, c ≠ '%' := fun c hc => (hname.plain c hc).2
    rw [hurl, Url.withoutFragment, host_withoutCredentials]
    constructor
    · intro hdirect
      exact Url.readHost?_of_not_isLiteral hdirect hpercent hname.notLiteral hhost
    · exact Url.readHost?_eq_some hpercent (fun hhead => hname.notLiteral (.inl hhead)) hhost
  · intro hends port replies' request' h'
    rcases url_of_first_request h' with ⟨url', hread', hurl'⟩
    rw [hurl, hurl']
    exact authority_withoutCredentials_congr (authority_of_exists hread hread' hends)

theorem endpoint_of_localSettings :
    (check localSettings [.closed]).requests.head? = some (firstCall localUrl).request ∧
    (firstCall localUrl).request.url.authority.port = some 8000 ∧
    (firstCall localUrl).request.url.authority.host =
      .domain (localSettings.host.toList.map Char.toLower) := by
  have hsend : localUrl.isSendable = true := by cbv
  have hclosed : Reply.closed ≠ .refused := by decide
  have hfirst := head?_requests_check origin?_localSettings hsend hclosed []
  have hname : IsName localSettings.host.toList :=
    isName_of_isLetters Settings.isLetters_defaultHost
  have hinside : ∀ c ∈ localSettings.bareHost, Url.endsServer c = false := by
    rw [hname.bareHost]
    exact hname.inside
  have hdirect := Settings.isLetters_defaultHost.isDirect
  have hendpoint := endpoint_of_first_request _ _ _ hfirst
  exact ⟨hfirst, hendpoint.1 hinside, (hendpoint.2.1 hname).1 hdirect⟩

/-- Variables whose host holds a slash. -/
def slashLookup : Variable → Option String
  | .port => some "8000"
  | .deployment => some "n"
  | .host => some "h/p"
  | .timeout => none

/-- The URL that is read from them. The port is a part of its path. -/
def slashUrl : Url :=
  ⟨.http, ⟨none, .domain ['h'], none⟩, "p:8000".toList :: shortPath, none, none⟩

/-- A host with a slash is accepted, and then no port but the default one is asked. -/
theorem first_request_elsewhere :
    ∃ settings, Settings.ofLookup slashLookup = .ok settings ∧ settings.port = 8000 ∧
      (check settings [.closed]).requests = [(firstCall slashUrl).request] ∧
      (firstCall slashUrl).request.url.authority.port = none := by
  have hcall : call (localSettings.withHost "h/p") = .ok (firstCall slashUrl) := by cbv
  refine ⟨localSettings.withHost "h/p", by cbv, rfl, ?_, rfl⟩
  rw [check_of_call hcall]
  rfl

/-! ## Hosts of letters -/

theorem origin?_of_isLetters [Url.Idna] [Url.LawfulIdna] (h : Url.IsLetters settings.host.toList) :
    origin? settings = some settings.lettersUrl := by
  rw [origin?, read?_url_of_isLetters h]
  rfl

/-- Nothing but its length stands in the way of a request to a host of letters. -/
theorem isSendable_of_isLetters (h : Url.IsLetters settings.host.toList)
    (hlength : settings.lettersUrl.text.length ≤ Url.maxLength) :
    settings.lettersUrl.isSendable = true := by
  have hscheme : settings.lettersUrl.scheme.name.length ≤ Url.Scheme.maxLength := by
    show Url.Scheme.http.name.length ≤ Url.Scheme.maxLength
    decide
  have hserver : Url.ServerName.isValid settings.lettersUrl.authority.text = true :=
    Url.isValid_of_isLetters h (Url.writtenPort .http settings.port)
  rw [Url.isSendable, hserver, decide_eq_true hscheme, decide_eq_true hlength]
  rfl

theorem recorded_of_isLetters [Url.Idna] [Url.LawfulIdna] (h : Url.IsLetters settings.host.toList)
    (hlength : settings.lettersUrl.text.length ≤ Url.maxLength) (hreply : reply ≠ .refused)
    (replies : List Reply) :
    ∃ request, (check settings (reply :: replies)).requests.head? = some request :=
  ⟨_, head?_requests_check (origin?_of_isLetters h) (isSendable_of_isLetters h hlength) hreply
    replies⟩

/-- A URL on the server that a host and a port name. -/
structure IsOnServer (host : String) (port : UInt16) (url : Url) : Prop where
  scheme : url.scheme = .http
  authority : url.authority =
    ⟨none, .domain (host.toList.map Char.toLower), if port = 80 then none else some port⟩
  text : ∃ path, url.text = "http://".toList ++ Settings.serverText host port ++ '/' :: path

theorem isOnServer_lettersUrl (settings : Settings) :
    IsOnServer settings.host settings.port settings.lettersUrl.withoutFragment := by
  constructor
  case scheme => exact Settings.scheme_lettersUrl settings
  case authority =>
    rw [← Url.writtenPort_http]
    exact Settings.authority_lettersUrl settings
  case text =>
    -- a path has a segment, and a slash stands in front of every segment
    obtain ⟨segment, path, hpath⟩ := List.exists_cons_of_ne_nil settings.path_ne_nil
    refine ⟨segment ++ Url.Path.text path ++ Url.marked '?' settings.lettersUrl.query, ?_⟩
    rw [Settings.text_lettersUrl, hpath, Url.Path.text_cons]
    simp only [List.append_assoc, List.cons_append]

theorem url_of_isLetters [Url.Idna] [Url.LawfulIdna] (settings : Settings)
    (hhost : Url.IsLetters settings.host.toList)
    (h : (check settings replies).requests.head? = some request) :
    request.url = settings.lettersUrl.withoutFragment := by
  rcases url_of_first_request h with ⟨url, hread, hurl⟩
  rw [read?_url_of_isLetters hhost, Option.some.injEq] at hread
  rw [hurl, ← hread]
  rfl

theorem isOnServer_of_first_request [Url.Idna] [Url.LawfulIdna] (settings : Settings)
    (hhost : Url.IsLetters settings.host.toList)
    (h : (check settings replies).requests.head? = some request) :
    IsOnServer settings.host settings.port request.url := by
  rw [url_of_isLetters settings hhost h]
  exact isOnServer_lettersUrl settings

/-- The deployment has no say in which server is asked: if the host is letters, the address is
always read, and the first request goes to that host and that port, whatever the deployment is. -/
theorem server_of_first_request [Url.Idna] [Url.LawfulIdna] (settings : Settings)
    (hhost : Url.IsLetters settings.host.toList) :
    ∃ url, Url.read? settings.url.toList = some url ∧
      (url.text.length ≤ Url.maxLength → ∀ reply replies, reply ≠ .refused →
        ∃ request, (check settings (reply :: replies)).requests.head? = some request) ∧
      ∀ replies request, (check settings replies).requests.head? = some request →
        IsOnServer settings.host settings.port request.url ∧
        ∀ deployment replies' request',
          (check { settings with deployment } replies').requests.head? = some request' →
          request'.url.scheme = request.url.scheme ∧
          request'.url.authority = request.url.authority := by
  refine ⟨settings.lettersUrl, read?_url_of_isLetters hhost, ?_, ?_⟩
  · intro hlength reply replies hreply
    exact recorded_of_isLetters hhost hlength hreply replies
  · intro replies request h
    have hserver := isOnServer_of_first_request settings hhost h
    refine ⟨hserver, ?_⟩
    intro deployment replies' request' h'
    have hserver' := isOnServer_of_first_request { settings with deployment } hhost h'
    exact ⟨hserver'.scheme.trans hserver.scheme.symm,
      hserver'.authority.trans hserver.authority.symm⟩

/-- Settings whose deployment is made to lead elsewhere. -/
def strayingSettings : Settings := { localSettings with deployment := "@h:1/..\\../../..\t//?#@" }

/-- The URL that is read from them. Dots and backslashes take back all of the path. -/
def strayingUrl : Url :=
  ⟨.http, ⟨none, .domain "localhost".toList, some 8000⟩, [[], []], some [], some ['@']⟩

theorem server_of_strayingSettings :
    Url.read? strayingSettings.url.toList = some strayingUrl ∧
    ∃ request, (check strayingSettings [.closed]).requests.head? = some request ∧
      IsOnServer "localhost" 8000 request.url := by
  have hread : Url.read? strayingSettings.url.toList = some strayingUrl := by cbv
  obtain ⟨url, hread', hrecorded, hserver⟩ :=
    server_of_first_request strayingSettings Settings.isLetters_defaultHost
  rw [hread, Option.some.injEq] at hread'
  subst hread'
  have hlength : strayingUrl.text.length ≤ Url.maxLength := by decide
  obtain ⟨request, hfirst⟩ := hrecorded hlength .closed [] (by decide)
  exact ⟨hread, request, hfirst, (hserver _ _ hfirst).1⟩

end Readiness.Probe
