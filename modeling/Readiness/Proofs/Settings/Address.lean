import Readiness.Proofs.Url.Path
import Readiness.Proofs.Url.Reading
import Readiness.Proofs.Url.Server

namespace Readiness.Settings

open Url (Authority Reference Scheme cleanEnd endsServer isBodyChar isLineMark ofParts readPath
  readPlace? schemeText)

/-! # The address of a deployment

An address is its host, its port and its deployment, put together as they are, and a URL is read
from the whole. The deployment comes last and behind a slash, so what it holds is never read as a
part of the server. The host comes first: if it holds a character that ends a server, the port is
not read as one.
-/

variable {settings : Settings} {front back : List Char} {mark : Char} {url : Url}

/-! ## Parts of an address -/

/-- What stands between the server and the deployment. -/
def rootText : List Char := "/subgraphs/name/".toList

/-- The port of an address behind its colon. -/
def portText (settings : Settings) : List Char := ':' :: Nat.toDigits 10 settings.port.toNat

/-- The host as far as it is read: without what is dropped from an address anywhere, and without
separators in front of it. -/
def bareHost (settings : Settings) : List Char :=
  (settings.host.toList.filter (!isLineMark ·)).dropWhile Scheme.http.isSeparator

/-- A host is read as it is, if nothing is dropped from it. -/
theorem bareHost_of_forall_not (hkept : ∀ c ∈ settings.host.toList, isLineMark c = false)
    (hfirst : ∀ c ∈ settings.host.toList, Scheme.http.isSeparator c = false) :
    settings.bareHost = settings.host.toList := by
  have hwhole : settings.host.toList.filter (!isLineMark ·) = settings.host.toList := by
    rw [List.filter_eq_self]
    intro c hc
    rw [hkept c hc, Bool.not_false]
  rw [bareHost, hwhole, List.dropWhile_eq_self_iff]
  intro hlength hseparator
  rw [hfirst _ (List.getElem_mem hlength)] at hseparator
  cases hseparator

/-- What is read behind the server. -/
def pathText (settings : Settings) : List Char :=
  rootText ++ cleanEnd settings.deployment.toList

theorem toList_url (settings : Settings) :
    settings.url.toList =
      (schemeText ++ (['/', '/'] ++ (settings.host.toList ++ (settings.portText ++ rootText)))) ++
        settings.deployment.toList := by
  have hscheme : "http://".toList = schemeText ++ ['/', '/'] := by decide
  have hcolon : ":".toList = [':'] := by decide
  have hport : (toString settings.port.toNat).toList = Nat.toDigits 10 settings.port.toNat := by
    rw [Nat.toString_eq_ofList_toDigits, String.toList_ofList]
  have hroot : "/subgraphs/name/".toList = rootText := rfl
  simp only [url, String.toList_append, hscheme, hcolon, hport, hroot, portText,
    List.append_assoc, List.cons_append, List.nil_append]

/-! ## Reading an address -/

theorem filter_portText (settings : Settings) :
    settings.portText.filter (!isLineMark ·) = settings.portText := by
  rw [List.filter_eq_self]
  exact Url.forall_mem_port (P := fun c => (!isLineMark c) = true) (by decide) (by decide) _

theorem clean_url (settings : Settings) :
    Url.clean settings.url.toList =
      schemeText ++ (['/', '/'] ++ (settings.host.toList.filter (!isLineMark ·) ++
        (settings.portText ++ settings.pathText))) := by
  have hscheme : schemeText.filter (!isLineMark ·) = schemeText := by decide
  have hslashes : ['/', '/'].filter (!isLineMark ·) = ['/', '/'] := by decide
  have hroot : rootText.filter (!isLineMark ·) = rootText := by decide
  have hlast : (schemeText ++ (['/', '/'] ++ (settings.host.toList ++
      (settings.portText ++ rootText)))).getLast? = some '/' := by
    have hend : rootText.getLast? = some '/' := by decide
    simp only [List.getLast?_append, hend, Option.some_or]
  rw [toList_url, Url.clean_append_cleanEnd _ rfl hlast (by decide)]
  simp only [List.filter_append, hscheme, hslashes, hroot, filter_portText, pathText,
    List.append_assoc]

theorem isBodyChar_of_mem_schemeText :
    ∀ c ∈ schemeText ++ ['/', '/'], isBodyChar c = true :=
  List.all_eq_true.mp (by decide)

/-- What stands behind the scheme of an address, as far as it is read. -/
theorem body_url (settings : Settings) :
    (Reference.ofText settings.url.toList).body =
      schemeText ++ (['/', '/'] ++ (settings.host.toList.filter (!isLineMark ·) ++
        (settings.portText ++ settings.pathText)).takeWhile isBodyChar) := by
  rw [Url.body_ofText, clean_url, ← List.append_assoc,
    List.takeWhile_append_of_pos isBodyChar_of_mem_schemeText, List.append_assoc]

/-- An address is read as a place that begins with its host. -/
theorem read?_url [Url.Idna] (settings : Settings) :
    Url.read? settings.url.toList =
      readPlace? .http ((settings.bareHost ++ (settings.portText ++
        settings.pathText)).takeWhile isBodyChar) (Reference.ofText settings.url.toList) := by
  have hslashes : ∀ c ∈ ['/', '/'], Scheme.http.isSeparator c = true :=
    List.all_eq_true.mp (by decide)
  have hcolon : Scheme.http.isSeparator ':' = false := by decide
  rw [Url.read?_of_body (body_url settings), List.dropWhile_append_of_pos hslashes,
    Url.dropWhile_takeWhile_comm fun _ => Url.isBodyChar_of_isSeparator]
  rw [portText, List.cons_append, Url.dropWhile_append_cons hcolon, ← bareHost]

/-! ## Servers of addresses -/

theorem endsServer_of_mem_portText {c : Char} (hc : c ∈ settings.portText) :
    endsServer c = false :=
  Url.forall_mem_port (P := fun c => endsServer c = false) (by decide) (by decide) _ c hc

/-- An address has no query unless its host or its deployment begins one. -/
theorem query_ofText_url (hhost : ∀ c ∈ settings.host.toList, endsServer c = false)
    (hpath : ∀ c ∈ settings.pathText, isBodyChar c = true) :
    (Reference.ofText settings.url.toList).query = none := by
  apply Url.query_ofText
  intro c hc
  rw [clean_url, ← List.append_assoc] at hc
  rcases List.mem_append.mp hc with hc | hc
  · exact isBodyChar_of_mem_schemeText c hc
  rcases List.mem_append.mp hc with hc | hc
  · exact Url.isBodyChar_of_endsServer (hhost c (List.mem_filter.mp hc).1)
  rcases List.mem_append.mp hc with hc | hc
  · exact Url.isBodyChar_of_endsServer (endsServer_of_mem_portText hc)
  · exact hpath c hc

/-- A host that ends no server is read together with the port behind it. -/
theorem read?_url_of_forall_not [Url.Idna] (h : ∀ c ∈ settings.bareHost, endsServer c = false) :
    Url.read? settings.url.toList =
      (Authority.read? .http (settings.bareHost ++ settings.portText)).map
        fun (authority, rest) =>
          ofParts .http authority (readPath .http (rest ++ settings.pathText.takeWhile isBodyChar))
            (Reference.ofText settings.url.toList) := by
  have hserver : ∀ c ∈ settings.bareHost ++ settings.portText, endsServer c = false := by
    intro c hc
    rcases List.mem_append.mp hc with hc | hc
    · exact h c hc
    · exact endsServer_of_mem_portText hc
  rw [read?_url, ← List.append_assoc]
  exact Url.readPlace?_append _ hserver (by decide)

/-- A host that ends the server by itself leaves no say to the port. -/
theorem authority_of_read?_url [Url.Idna] (hsplit : settings.bareHost = front ++ mark :: back)
    (hfront : ∀ c ∈ front, endsServer c = false) (hmark : endsServer mark = true)
    (h : Url.read? settings.url.toList = some url) :
    ∃ rest, Authority.read? .http front = some (url.authority, rest) := by
  rw [read?_url, hsplit, List.append_assoc, List.cons_append,
    Url.readPlace?_append _ hfront hmark, Option.map_eq_some_iff] at h
  rcases h with ⟨⟨authority, rest⟩, hread, rfl⟩
  exact ⟨rest, hread⟩

/-! ## Hosts of letters -/

/-- The path that is read behind the server. -/
def path (settings : Settings) : Url.Path :=
  readPath .http (settings.pathText.takeWhile isBodyChar)

/-- What the address is read as if its host is letters. -/
def lettersUrl (settings : Settings) : Url :=
  ofParts .http ⟨none, .domain (settings.host.toList.map Char.toLower),
    Url.writtenPort .http settings.port⟩ settings.path (Reference.ofText settings.url.toList)

theorem isLetters_defaultHost : Url.IsLetters defaultHost.toList where
  ne_nil := by decide
  letters := List.all_eq_true.mp (by decide)

theorem bareHost_of_isLetters (h : Url.IsLetters settings.host.toList) :
    settings.bareHost = settings.host.toList :=
  bareHost_of_forall_not (h.all (P := fun c => isLineMark c = false) (by decide))
    (h.all (P := fun c => Scheme.http.isSeparator c = false) (by decide))

/-- A host of letters is always read, whatever the deployment is. -/
theorem read?_url_of_isLetters [Url.Idna] [Url.LawfulIdna]
    (h : Url.IsLetters settings.host.toList) :
    Url.read? settings.url.toList = some settings.lettersUrl := by
  have hbare := bareHost_of_isLetters h
  have hends : ∀ c ∈ settings.bareHost, endsServer c = false := by
    rw [hbare]
    exact h.all (P := fun c => endsServer c = false) (by decide)
  rw [read?_url_of_forall_not hends, hbare, portText, Authority.read?_of_isLetters h]
  rfl

/-- A path has a segment, so its text begins with a slash. -/
theorem path_ne_nil (settings : Settings) : settings.path ≠ [] := by
  have hslash : isBodyChar '/' = true := by decide
  have hroot : rootText = '/' :: rootText.tail := by decide
  rw [path, pathText, hroot, List.cons_append, List.takeWhile_cons_of_pos hslash]
  exact Url.Path.follow_ne_nil (List.splitOnP_ne_nil _ _)

/-- A host and a port as a request tells them: the port that the scheme implies is left out. -/
def serverText (host : String) (port : UInt16) : List Char :=
  host.toList.map Char.toLower ++ if port = 80 then [] else ':' :: Nat.toDigits 10 port.toNat

theorem scheme_lettersUrl (settings : Settings) : settings.lettersUrl.scheme = .http := rfl

theorem authority_lettersUrl (settings : Settings) :
    settings.lettersUrl.authority = ⟨none, .domain (settings.host.toList.map Char.toLower),
      Url.writtenPort .http settings.port⟩ := rfl

theorem path_lettersUrl (settings : Settings) : settings.lettersUrl.path = settings.path := rfl

theorem query_lettersUrl (settings : Settings) :
    settings.lettersUrl.query = (Reference.ofText settings.url.toList).query.map
      (Url.encode (Url.querySetOf .http)) := by
  rw [lettersUrl, ofParts]

theorem text_authority_lettersUrl (settings : Settings) :
    settings.lettersUrl.authority.text = serverText settings.host settings.port := by
  rw [authority_lettersUrl, Authority.text, serverText, Url.writtenPort_http]
  split <;> rfl

theorem text_lettersUrl (settings : Settings) :
    settings.lettersUrl.withoutFragment.text =
      "http://".toList ++ serverText settings.host settings.port ++ settings.path.text ++
        Url.marked '?' settings.lettersUrl.query := by
  have hscheme : "http://".toList = Scheme.http.name ++ [':', '/', '/'] := by decide
  rw [Url.text]
  simp only [Url.withoutFragment, scheme_lettersUrl, path_lettersUrl, text_authority_lettersUrl,
    hscheme, Url.marked, List.append_nil]

end Readiness.Settings
