import Readiness.Proofs.Probe.Endpoint

namespace Readiness

open Url (cleanEnd encode isBodyChar isLineMark isOuterBlank pathSet readPath)

/-! # The deployment that is asked for

The deployment is the end of the path. It is encoded there character by character, so decoding the
path gives it back, as long as nothing in its name ends a path, is dropped from an address, is
decoded as well, or takes something back.
-/

namespace Settings

variable {settings settings' : Settings} {text front back : List Char}

/-! ## Texts in a path -/

/-- A text that a path can hold as it is. -/
structure IsVerbatim (text : List Char) : Prop where
  plain : ∀ c ∈ text, c ≠ '?' ∧ c ≠ '#' ∧ c ≠ '\\' ∧ c ≠ '%' ∧ c ≠ '\t' ∧ c ≠ '\n' ∧ c ≠ '\r'
  last : ∀ c, text.getLast? = some c → ' ' < c
  segments : ∀ segment ∈ text.splitOn '/', segment ≠ ['.'] ∧ segment ≠ ['.', '.']

theorem IsVerbatim.isLineMark_eq (h : IsVerbatim text) : ∀ c ∈ text, isLineMark c = false := by
  intro c hc
  obtain ⟨-, -, -, -, htab, hline, hreturn⟩ := h.plain c hc
  simp [isLineMark, htab, hline, hreturn]

theorem IsVerbatim.isBodyChar_eq (h : IsVerbatim text) : ∀ c ∈ text, isBodyChar c = true := by
  intro c hc
  obtain ⟨hquery, hfragment, -⟩ := h.plain c hc
  simp [isBodyChar, hquery, hfragment]

theorem IsVerbatim.isSeparator_eq (h : IsVerbatim text) :
    ∀ c ∈ text, Url.Scheme.http.isSeparator c = (c == '/') := by
  intro c hc
  obtain ⟨-, -, hback, -⟩ := h.plain c hc
  simp [Url.Scheme.isSeparator, hback]

theorem IsVerbatim.ne_percent (h : IsVerbatim text) : ∀ c ∈ '/' :: text, c ≠ '%' := by
  intro c hc
  rcases List.mem_cons.mp hc with rfl | hc
  · decide
  · obtain ⟨-, -, -, hpercent, -⟩ := h.plain c hc
    exact hpercent

/-- Nothing is dropped from its end. -/
theorem IsVerbatim.cleanEnd_eq (h : IsVerbatim text) : cleanEnd text = text := by
  have hkept : text.filter (!isLineMark ·) = text := by
    rw [List.filter_eq_self]
    intro c hc
    rw [h.isLineMark_eq c hc, Bool.not_false]
  have hend : text.reverse.dropWhile isOuterBlank = text.reverse := by
    cases hreverse : text.reverse with
    | nil => rfl
    | cons c others =>
      have hlast : text.getLast? = some c := by
        rw [← List.head?_reverse, hreverse, List.head?_cons]
      have hc : isOuterBlank c = false := by simpa [isOuterBlank] using h.last c hlast
      rw [List.dropWhile_cons_of_neg (by simp [hc])]
  rw [cleanEnd, hend, List.reverse_reverse, hkept]

/-- No segment stands for anything but itself. -/
theorem IsVerbatim.isKept (h : IsVerbatim text) :
    ∀ segment ∈ text.splitOn '/', Url.Path.IsKept segment := by
  intro segment hsegment
  obtain ⟨hhere, hup⟩ := h.segments segment hsegment
  apply Url.Path.isKept_of_forall_ne _ hhere hup
  intro c hc
  apply h.ne_percent
  rw [← Url.Path.text_splitOn text]
  exact List.mem_flatMap.mpr ⟨segment, hsegment, List.mem_cons_of_mem _ hc⟩

/-- The path is the encoded text. -/
theorem IsVerbatim.text_readPath (h : IsVerbatim text) :
    Url.Path.text (readPath .http ('/' :: text)) = encode pathSet ('/' :: text) := by
  have hread : readPath .http ('/' :: text) =
      Url.Path.follow [] (text.splitOnP Url.Scheme.http.isSeparator) := rfl
  have hslash : pathSet '/' = false := by decide
  rw [hread, Url.Path.splitOnP_congr h.isSeparator_eq, ← List.splitOn_eq_splitOnP,
    Url.Path.follow_of_isKept h.isKept, List.nil_append, Url.Path.text_map_encode hslash,
    Url.Path.text_splitOn]

/-! ## Names in an address -/

/-- The segments that stand in front of every name. -/
def rootSegments : List Char := "subgraphs/name".toList

theorem isVerbatim_rootSegments : IsVerbatim rootSegments where
  plain := by
    have hall : rootSegments.all fun c => c != '?' && c != '#' && c != '\\' && c != '%' &&
        c != '\t' && c != '\n' && c != '\r' := by decide
    simpa [and_assoc] using List.all_eq_true.mp hall
  last := by
    have hlast : rootSegments.getLast? = some 'e' := by decide
    rw [hlast]
    rintro c ⟨⟩
    decide
  segments := by
    have hsplit : rootSegments.splitOn '/' = ["subgraphs".toList, "name".toList] := by decide
    have hall : (rootSegments.splitOn '/').all fun segment =>
        segment != ['.'] && segment != ['.', '.'] := by
      rw [hsplit]
      decide
    simpa using List.all_eq_true.mp hall

/-- A slash joins two texts without a change to either. -/
theorem IsVerbatim.append (hfront : IsVerbatim front) (hback : IsVerbatim back) :
    IsVerbatim (front ++ '/' :: back) := by
  constructor
  case plain =>
    intro c hc
    rcases List.mem_append.mp hc with hc | hc
    · exact hfront.plain c hc
    rcases List.mem_cons.mp hc with rfl | hc
    · decide
    · exact hback.plain c hc
  case last =>
    intro c hc
    rw [List.getLast?_append, List.getLast?_cons, Option.some_or, Option.some.injEq] at hc
    cases hlast : back.getLast? with
    | none =>
      rw [hlast] at hc
      rw [← hc]
      decide
    | some d =>
      rw [hlast] at hc
      rw [← hc]
      exact hback.last d hlast
  case segments =>
    intro segment hsegment
    rw [List.splitOn_eq_splitOnP, List.splitOnP_append_cons _ _ (by decide), List.mem_append,
      ← List.splitOn_eq_splitOnP, ← List.splitOn_eq_splitOnP] at hsegment
    rcases hsegment with hsegment | hsegment
    · exact hfront.segments segment hsegment
    · exact hback.segments segment hsegment

theorem rootText_append (name : List Char) :
    rootText ++ name = '/' :: (rootSegments ++ '/' :: name) := rfl

theorem pathText_of_isVerbatim (h : IsVerbatim settings.deployment.toList) :
    settings.pathText = '/' :: (rootSegments ++ '/' :: settings.deployment.toList) := by
  rw [pathText, h.cleanEnd_eq, rootText_append]

theorem isBodyChar_of_mem_pathText (h : IsVerbatim settings.deployment.toList) :
    ∀ c ∈ settings.pathText, isBodyChar c = true := by
  intro c hc
  rw [pathText_of_isVerbatim h] at hc
  rcases List.mem_cons.mp hc with rfl | hc
  · decide
  · exact (isVerbatim_rootSegments.append h).isBodyChar_eq c hc

/-- Decoding the path gives back the bytes of the name. -/
theorem decode_text_path (h : IsVerbatim settings.deployment.toList) :
    Url.decode (Url.Path.text settings.path) =
      Text.toBytes ("/subgraphs/name/" ++ settings.deployment) := by
  have hwhole := isVerbatim_rootSegments.append h
  rw [path, List.takeWhile_eq_self_iff.mpr (isBodyChar_of_mem_pathText h),
    pathText_of_isVerbatim h, hwhole.text_readPath, Url.decode_encode hwhole.ne_percent,
    ← rootText_append, Text.toBytes, String.toList_append]
  rfl

theorem query_of_isVerbatim (hhost : Url.IsLetters settings.host.toList)
    (hname : IsVerbatim settings.deployment.toList) : settings.lettersUrl.query = none := by
  have hinside := hhost.all (P := fun c => Url.endsServer c = false) (by decide)
  rw [query_lettersUrl, query_ofText_url hinside (isBodyChar_of_mem_pathText hname),
    Option.map_none]

/-! ## Two names -/

theorem ne_slash_of_mem_serverText (hhost : Url.IsLetters settings.host.toList) :
    ∀ c ∈ serverText settings.host settings.port, (c != '/') = true := by
  intro c hc
  rw [bne_iff_ne]
  rcases List.mem_append.mp hc with hc | hc
  · rcases List.mem_map.mp hc with ⟨d, hd, rfl⟩
    exact hhost.all (P := fun c => c.toLower ≠ '/') (by decide) d hd
  · split at hc
    · cases hc
    · exact Url.ne_of_mem_port hc (by decide) (by decide)

/-- A server holds no slash, so the text of a request tells where its path begins. -/
theorem text_path_eq (hhost : Url.IsLetters settings.host.toList)
    (hname : IsVerbatim settings.deployment.toList) :
    Url.Path.text settings.path =
      (settings.lettersUrl.withoutFragment.text.drop 7).dropWhile (· != '/') := by
  obtain ⟨segment, path, hpath⟩ := List.exists_cons_of_ne_nil settings.path_ne_nil
  have hlength : "http://".toList.length = 7 := by decide
  -- behind the scheme there is the server, and the first slash behind it is that of the path
  rw [text_lettersUrl, query_of_isVerbatim hhost hname, Url.marked, List.append_nil,
    List.append_assoc, ← hlength, List.drop_left,
    List.dropWhile_append_of_pos (ne_slash_of_mem_serverText hhost), hpath, Url.Path.text_cons]
  rfl

/-- Whatever the servers are, two names are two addresses. -/
theorem deployment_eq_of_text_eq (hhost : Url.IsLetters settings.host.toList)
    (hname : IsVerbatim settings.deployment.toList) (hhost' : Url.IsLetters settings'.host.toList)
    (hname' : IsVerbatim settings'.deployment.toList)
    (h : settings'.lettersUrl.withoutFragment.text = settings.lettersUrl.withoutFragment.text) :
    settings'.deployment = settings.deployment := by
  have hpath : Url.Path.text settings'.path = Url.Path.text settings.path := by
    rw [text_path_eq hhost' hname', h, ← text_path_eq hhost hname]
  have hbytes : Text.toBytes ("/subgraphs/name/" ++ settings'.deployment) =
      Text.toBytes ("/subgraphs/name/" ++ settings.deployment) := by
    rw [← decode_text_path hname', hpath, decode_text_path hname]
  have hnames := Text.toBytes_inj hbytes
  rw [← String.toList_inj, String.toList_append, String.toList_append] at hnames
  exact String.toList_inj.mp (List.append_cancel_left hnames)

end Settings

namespace Probe

/-- The deployment arrives as it is: the address is read and has no query, and decoding the path of
the first request gives back the bytes of the name. So two deployments are never asked for at the
same address. -/
theorem deployment_of_first_request [Url.Idna] [Url.LawfulIdna] (settings : Settings)
    (hhost : Url.IsLetters settings.host.toList)
    (hname : Settings.IsVerbatim settings.deployment.toList) :
    ∃ url, Url.read? settings.url.toList = some url ∧ url.query = none ∧
      (url.text.length ≤ Url.maxLength → ∀ reply replies, reply ≠ .refused →
        ∃ request, (check settings (reply :: replies)).requests.head? = some request) ∧
      ∀ replies request, (check settings replies).requests.head? = some request →
        request.url.query = none ∧
        Url.decode (Url.Path.text request.url.path) =
          Text.toBytes ("/subgraphs/name/" ++ settings.deployment) ∧
        ∀ settings' replies' request', Url.IsLetters settings'.host.toList →
          Settings.IsVerbatim settings'.deployment.toList →
          (check settings' replies').requests.head? = some request' →
          settings'.deployment ≠ settings.deployment → request'.url.text ≠ request.url.text := by
  refine ⟨settings.lettersUrl, Settings.read?_url_of_isLetters hhost,
    Settings.query_of_isVerbatim hhost hname, ?_, ?_⟩
  · intro hlength reply replies hreply
    exact recorded_of_isLetters hhost hlength hreply replies
  · intro replies request h
    have hurl := url_of_isLetters settings hhost h
    refine ⟨?_, ?_, ?_⟩
    · rw [hurl, query_withoutFragment]
      exact Settings.query_of_isVerbatim hhost hname
    · rw [hurl, path_withoutFragment, Settings.path_lettersUrl]
      exact Settings.decode_text_path hname
    · -- addresses of one text would decode to one name
      intro settings' replies' request' hhost' hname' h' hne htext
      rw [hurl, url_of_isLetters settings' hhost' h'] at htext
      exact hne (Settings.deployment_eq_of_text_eq hhost hname hhost' hname' htext)

/-- Settings whose deployment has empty segments, a control and characters to encode. -/
def oddSettings : Settings := { localSettings with deployment := "é//...\x01 /\x7bx" }

/-- The URL that is read from them. -/
def oddUrl : Url :=
  ⟨.http, ⟨none, .domain "localhost".toList, some 8000⟩,
    ["subgraphs", "name", "%C3%A9", "", "...%01%20", "%7Bx"].map String.toList, none, none⟩

theorem isVerbatim_oddSettings : Settings.IsVerbatim oddSettings.deployment.toList := by
  have hname : oddSettings.deployment.toList =
      ['é', '/', '/', '.', '.', '.', '\x01', ' ', '/', '\x7b', 'x'] := by decide
  rw [hname]
  constructor
  case plain => simp
  case last =>
    rintro c ⟨⟩
    decide
  case segments =>
    have hall : (['é', '/', '/', '.', '.', '.', '\x01', ' ', '/', '\x7b', 'x'].splitOn '/').all
        fun segment => segment != ['.'] && segment != ['.', '.'] := by decide
    simpa using List.all_eq_true.mp hall

theorem deployment_of_oddSettings :
    Url.read? oddSettings.url.toList = some oddUrl ∧
    ∃ request, (check oddSettings [.closed]).requests.head? = some request ∧
      Url.decode (Url.Path.text request.url.path) =
        Text.toBytes ("/subgraphs/name/" ++ oddSettings.deployment) := by
  have hread : Url.read? oddSettings.url.toList = some oddUrl := by cbv
  obtain ⟨url, hread', -, hrecorded, harrives⟩ :=
    deployment_of_first_request oddSettings Settings.isLetters_defaultHost isVerbatim_oddSettings
  rw [hread, Option.some.injEq] at hread'
  subst hread'
  have hlength : oddUrl.text.length ≤ Url.maxLength := by decide
  obtain ⟨request, hfirst⟩ := hrecorded hlength .closed [] (by decide)
  exact ⟨hread, request, hfirst, (harrives _ _ hfirst).2.1⟩

end Probe
end Readiness
