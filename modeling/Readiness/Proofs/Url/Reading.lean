import Mathlib.Data.List.TakeDrop
import Mathlib.Data.List.TakeWhile
import Readiness.Settings
import Readiness.Url.Reader

namespace Readiness.Url

/-! # What reading leaves alone

A URL is cleaned and cut before its scheme is looked at. The beginning of a text survives both
if it holds nothing that is dropped or cut at, and the address of a deployment begins with its
scheme.
-/

/-- What cleaning leaves of the end of a text. -/
def cleanEnd (text : List Char) : List Char :=
  (text.reverse.dropWhile isOuterBlank).reverse.filter (!isLineMark ·)

/-- Behind characters that are not dropped at its ends, a text loses what is dropped at its own
end, and all of it what is dropped anywhere. -/
theorem clean_append_cleanEnd {front : List Char} {first last : Char} (text : List Char)
    (hfirst : front.head? = some first) (hlast : front.getLast? = some last)
    (hkept : isOuterBlank first = false ∧ isOuterBlank last = false) :
    clean (front ++ text) = front.filter (!isLineMark ·) ++ cleanEnd text := by
  have hbegin : (front ++ text).dropWhile isOuterBlank = front ++ text := by
    rcases List.head?_eq_some_iff.mp hfirst with ⟨others, rfl⟩
    rw [List.cons_append, List.dropWhile_cons_of_neg (by simp [hkept.1])]
  have hend : front.reverse.dropWhile isOuterBlank = front.reverse := by
    rw [← List.head?_reverse] at hlast
    rcases List.head?_eq_some_iff.mp hlast with ⟨others, heq⟩
    rw [heq, List.dropWhile_cons_of_neg (by simp [hkept.2])]
  have hboth : (text.reverse ++ front.reverse).dropWhile isOuterBlank =
      text.reverse.dropWhile isOuterBlank ++ front.reverse := by
    rw [List.dropWhile_append, hend]
    split
    · next hempty => rw [List.isEmpty_iff.mp hempty, List.nil_append]
    · rfl
  rw [clean, hbegin, List.reverse_append, hboth, List.reverse_append, List.reverse_reverse,
    List.filter_append, cleanEnd]

/-- Cleaning keeps characters in front of a text that are not dropped anywhere. -/
theorem clean_append {front : List Char} (text : List Char) (hne : front ≠ [])
    (hfront : ∀ c ∈ front, isOuterBlank c = false ∧ isLineMark c = false) :
    ∃ rest, clean (front ++ text) = front ++ rest := by
  have hhead := List.head?_eq_some_head hne
  have hlast := List.getLast?_eq_some_getLast hne
  have hkept : front.filter (!isLineMark ·) = front := by
    rw [List.filter_eq_self]
    intro c hc
    simp [hfront c hc]
  refine ⟨cleanEnd text, ?_⟩
  rw [clean_append_cleanEnd text hhead hlast
    ⟨(hfront _ (List.head_mem hne)).1, (hfront _ (List.getLast_mem hne)).1⟩, hkept]

theorem cut_fst (mark : Char) (text : List Char) :
    (cut mark text).1 = text.takeWhile (· != mark) := by
  rw [cut, List.span_eq_takeWhile_dropWhile]
  split <;> next h => exact (Prod.mk.inj h).1.symm

/-- Cutting keeps characters in front of a text that are not the mark. -/
theorem cut_append {mark : Char} {front text : List Char} (hfront : ∀ c ∈ front, c ≠ mark) :
    (cut mark (front ++ text)).1 = front ++ (cut mark text).1 := by
  rw [cut_fst, cut_fst, List.takeWhile_append_of_pos]
  intro c hc
  exact bne_iff_ne.mpr (hfront c hc)

/-- A text without the mark is not cut. -/
theorem cut_of_forall_ne {mark : Char} {text : List Char} (h : ∀ c ∈ text, c ≠ mark) :
    cut mark text = (text, none) := by
  have hall : ∀ c ∈ text, (c != mark) = true := by
    intro c hc
    exact bne_iff_ne.mpr (h c hc)
  rw [cut, List.span_eq_takeWhile_dropWhile, List.takeWhile_eq_self_iff.mpr hall,
    List.dropWhile_eq_nil_iff.mpr hall]

/-- A text is cut where it was marked. -/
theorem cut_append_marked {mark : Char} {front : List Char} (h : ∀ c ∈ front, c ≠ mark)
    (part : Option (List Char)) :
    cut mark (front ++ marked mark part) = (front, part) := by
  cases part with
  | none => rw [marked, List.append_nil, cut_of_forall_ne h]
  | some part =>
    have hall : ∀ c ∈ front, (c != mark) = true := by
      intro c hc
      exact bne_iff_ne.mpr (h c hc)
    rw [marked, cut, List.span_eq_takeWhile_dropWhile, List.takeWhile_append_of_pos hall,
      List.dropWhile_append_of_pos hall]
    simp

/-- What holds of a mark and in the text behind it holds where both are written. -/
theorem forall_mem_marked {P : Char → Prop} {mark : Char} {part : Option (List Char)}
    (hmark : P mark) (hpart : ∀ text, part = some text → ∀ c ∈ text, P c) :
    ∀ c ∈ marked mark part, P c := by
  cases part with
  | none =>
    intro c hc
    cases hc
  | some text => exact List.forall_mem_cons.mpr ⟨hmark, hpart text rfl⟩

/-- Whether a character can stand in front of a query and a fragment. -/
def isBodyChar (c : Char) : Bool := c != '?' && c != '#'

theorem body_ofText (text : List Char) :
    (Reference.ofText text).body = (clean text).takeWhile isBodyChar := by
  simp only [Reference.ofText]
  rw [cut_fst, cut_fst, List.takeWhile_takeWhile]
  congr 1
  funext c
  rw [Bool.eq_iff_iff, decide_eq_true_iff, isBodyChar, Bool.and_eq_true]

/-- A text that ends nowhere has no query. -/
theorem query_ofText {text : List Char} (h : ∀ c ∈ clean text, isBodyChar c = true) :
    (Reference.ofText text).query = none := by
  have hmarks : ∀ c ∈ clean text, c ≠ '?' ∧ c ≠ '#' := by
    intro c hc
    simpa [isBodyChar] using h c hc
  simp only [Reference.ofText, cut_of_forall_ne fun c hc => (hmarks c hc).2,
    cut_of_forall_ne fun c hc => (hmarks c hc).1]

/-- A reference begins like its text. -/
theorem body_ofText_append {front : List Char} (text : List Char) (hne : front ≠ [])
    (hfront : ∀ c ∈ front, isOuterBlank c = false ∧ isLineMark c = false)
    (hhash : ∀ c ∈ front, c ≠ '#') (hquestion : ∀ c ∈ front, c ≠ '?') :
    ∃ rest, (Reference.ofText (front ++ text)).body = front ++ rest := by
  rcases clean_append text hne hfront with ⟨rest, hclean⟩
  refine ⟨(cut '?' (cut '#' rest).1).1, ?_⟩
  simp only [Reference.ofText, hclean]
  rw [cut_append hhash, cut_append hquestion]

/-! ## What is read -/

section

variable {scheme : Scheme} {text : List Char} {reference : Reference} {url : Url}

/-- A place is a server and a path, with the query and the fragment of the reference. -/
theorem readPlace?_eq_some [Idna] (h : readPlace? scheme text reference = some url) :
    ∃ server authority rest path, Authority.read? scheme server = some (authority, rest) ∧
      url = ofParts scheme authority (readPath scheme path) reference := by
  simp only [readPlace?, Option.bind_eq_bind, Option.bind_eq_some_iff] at h
  obtain ⟨⟨authority, rest⟩, hauthority, h⟩ := h
  rw [Option.pure_def, Option.some.injEq] at h
  exact ⟨_, authority, rest, _, hauthority, h.symm⟩

/-- A file is a server without credentials and a port, and a path that leads from the root. -/
theorem readFile?_eq_some [Idna] (h : readFile? text reference = some url) :
    ∃ place host directions, readFileHost? place = some host ∧
      url = ofParts .file ⟨none, host, none⟩ (Path.follow [] directions).trimmed reference := by
  simp only [readFile?, Option.bind_eq_bind, Option.bind_eq_some_iff] at h
  obtain ⟨host, hhost, h⟩ := h
  split at h
  · cases h
  · rw [Option.pure_def, Option.some.injEq] at h
    exact ⟨_, host, _, hhost, h.symm⟩

/-- Behind a scheme there is a place, or a file behind its own. -/
theorem readBehind?_eq_some [Idna] (h : readBehind? scheme text reference = some url) :
    (∃ place, readPlace? scheme place reference = some url) ∨
      ∃ place, scheme = .file ∧ readFile? place reference = some url := by
  unfold readBehind? at h
  split at h
  · split at h
    · exact .inr ⟨_, rfl, h⟩
    · cases h
  · cases h
  · exact .inl ⟨_, h⟩
  · cases h
  · exact .inl ⟨_, h⟩

theorem scheme_of_readPlace? [Idna] (h : readPlace? scheme text reference = some url) :
    url.scheme = scheme := by
  obtain ⟨server, authority, rest, path, -, rfl⟩ := readPlace?_eq_some h
  rfl

/-- What stands behind a scheme has this scheme. -/
theorem scheme_of_readBehind? [Idna] (h : readBehind? scheme text reference = some url) :
    url.scheme = scheme := by
  rcases readBehind?_eq_some h with ⟨place, hplace⟩ | ⟨place, rfl, hfile⟩
  · exact scheme_of_readPlace? hplace
  · obtain ⟨_, host, directions, -, rfl⟩ := readFile?_eq_some hfile
    rfl

end

/-! ## Places -/

theorem dropWhile_takeWhile_comm {p q : Char → Bool} (h : ∀ c, p c = true → q c = true)
    (text : List Char) : (text.takeWhile q).dropWhile p = (text.dropWhile p).takeWhile q := by
  induction text with
  | nil => rfl
  | cons c text ih =>
    cases hp : p c with
    | true =>
      rw [List.takeWhile_cons_of_pos (h c hp), List.dropWhile_cons_of_pos hp,
        List.dropWhile_cons_of_pos hp, ih]
    | false =>
      rw [List.dropWhile_cons_of_neg (by simp [hp])]
      cases hq : q c with
      | true =>
        rw [List.takeWhile_cons_of_pos hq, List.dropWhile_cons_of_neg (by simp [hp])]
      | false =>
        rw [List.takeWhile_cons_of_neg (by simp [hq])]
        rfl

theorem dropWhile_append_cons {p : Char → Bool} {c : Char} (h : p c = false)
    (text more : List Char) : (text ++ c :: more).dropWhile p = text.dropWhile p ++ c :: more := by
  rw [List.dropWhile_append]
  split
  · next hempty =>
    rw [List.isEmpty_iff.mp hempty, List.dropWhile_cons_of_neg (by simp [h]), List.nil_append]
  · rfl

theorem isBodyChar_of_isSeparator {c : Char} (h : Scheme.http.isSeparator c = true) :
    isBodyChar c = true := by
  have hcase : c = '/' ∨ c = '\\' := by simpa [Scheme.isSeparator, Scheme.isSpecial] using h
  rcases hcase with rfl | rfl <;> decide

/-- Whether a character ends the server of a place. -/
def endsServer (c : Char) : Bool := Scheme.http.isSeparator c || !isBodyChar c

theorem isBodyChar_of_endsServer {c : Char} (h : endsServer c = false) : isBodyChar c = true := by
  rw [endsServer, Bool.or_eq_false_iff, Bool.not_eq_false'] at h
  exact h.2

/-- A server is read up to the first character that ends it, and a path from there on. -/
theorem readPlace?_append [Idna] {server more : List Char} {mark : Char} (reference : Reference)
    (hserver : ∀ c ∈ server, endsServer c = false) (hmark : endsServer mark = true) :
    readPlace? .http ((server ++ mark :: more).takeWhile isBodyChar) reference =
      (Authority.read? .http server).map fun (authority, rest) =>
        ofParts .http authority (readPath .http (rest ++ (mark :: more).takeWhile isBodyChar))
          reference := by
  have hbody : ∀ c ∈ server, isBodyChar c = true := by
    intro c hc
    exact isBodyChar_of_endsServer (hserver c hc)
  have hkept : ∀ c ∈ server, (!Scheme.http.isSeparator c) = true := by
    intro c hc
    have hends := hserver c hc
    rw [endsServer, Bool.or_eq_false_iff] at hends
    rw [hends.1]
    rfl
  -- what ends the server is a separator, or the body of the reference ends there
  have hpath : ((mark :: more).takeWhile isBodyChar).takeWhile (!Scheme.http.isSeparator ·) = [] ∧
      ((mark :: more).takeWhile isBodyChar).dropWhile (!Scheme.http.isSeparator ·) =
        (mark :: more).takeWhile isBodyChar := by
    rw [endsServer, Bool.or_eq_true, Bool.not_eq_true'] at hmark
    by_cases hmarkBody : isBodyChar mark = true
    · rcases hmark with hmark | hmark
      · rw [List.takeWhile_cons_of_pos hmarkBody]
        constructor
        · rw [List.takeWhile_cons_of_neg (by simp [hmark])]
        · rw [List.dropWhile_cons_of_neg (by simp [hmark])]
      · rw [hmarkBody] at hmark
        cases hmark
    · rw [List.takeWhile_cons_of_neg hmarkBody]
      exact ⟨rfl, rfl⟩
  rw [readPlace?, List.takeWhile_append_of_pos hbody, List.span_eq_takeWhile_dropWhile]
  simp only [List.takeWhile_append_of_pos hkept, List.dropWhile_append_of_pos hkept, hpath.1,
    hpath.2, List.append_nil]
  cases Authority.read? .http server <;> rfl

/-! ## Addresses over plain HTTP -/

/-- The characters of the scheme that every address begins with. -/
def schemeText : List Char := ['h', 't', 't', 'p', ':']

/-- What stands behind the scheme is a place, and separators in front of it do not count. -/
theorem read?_of_body [Idna] {text rest : List Char}
    (h : (Reference.ofText text).body = schemeText ++ rest) :
    read? text =
      readPlace? .http (rest.dropWhile Scheme.http.isSeparator) (Reference.ofText text) := by
  have hsplit : Scheme.split? (schemeText ++ rest) = some (.http, rest) := rfl
  simp only [read?, h, hsplit, Option.bind_eq_bind, Option.bind_some]
  rfl

theorem scheme_of_read? [Idna] {text : List Char} {url : Url}
    (h : read? (schemeText ++ text) = some url) :
    url.scheme = .http := by
  have hne : schemeText ≠ [] := by simp [schemeText]
  have hfront : ∀ c ∈ schemeText, isOuterBlank c = false ∧ isLineMark c = false := by
    simp [schemeText, isOuterBlank, isLineMark]
  have hhash : ∀ c ∈ schemeText, c ≠ '#' := by simp [schemeText]
  have hquestion : ∀ c ∈ schemeText, c ≠ '?' := by simp [schemeText]
  rcases body_ofText_append text hne hfront hhash hquestion with ⟨rest, hbody⟩
  rw [read?_of_body hbody] at h
  exact scheme_of_readPlace? h

/-- An address that is a URL at all is one over plain HTTP. -/
theorem scheme_of_read?_url [Idna] {settings : Settings} {url : Url}
    (h : read? settings.url.toList = some url) : url.scheme = .http := by
  have hurl : ∃ text, settings.url.toList = schemeText ++ text := by
    simp only [Settings.url, String.toList_append]
    exact ⟨_, by rfl⟩
  rcases hurl with ⟨text, hurl⟩
  rw [hurl] at h
  exact scheme_of_read? h

end Readiness.Url
