import Mathlib
import Readiness.Proofs.Url.Authority
import Readiness.Proofs.Url.Graphic
import Readiness.Proofs.Url.Segments

namespace Readiness.Url

/-! # URLs are read back

Over plain HTTP, reading makes a URL whose text is read as that URL again. Each part of it is read
back from its own text, and no part holds a mark that ends it, so the parts are found where they
were put together. What is done to such a URL later on, when it is sent or when a reference leads on
from it, keeps it so.
-/

variable [Idna] {text : List Char} {scheme : Scheme} {authority : Authority} {path : Path}
  {reference : Reference} {base url : Url} {c : Char}

/-- A URL over plain HTTP as it is read. -/
structure IsNormal (url : Url) : Prop where
  scheme : url.scheme = .http
  authority : url.authority.IsNormal
  path : Path.IsNormal url.path
  query : ∀ query, url.query = some query → IsEncoded specialQuerySet query
  fragment : ∀ fragment, url.fragment = some fragment → IsEncoded fragmentSet fragment

omit [Idna] in
/-- A set that holds all marks that end a server holds what ends it. -/
theorem endsServer_of_set {set : Char → Bool}
    (hset : set '/' = true ∧ set '\\' = true ∧ set '?' = true ∧ set '#' = true)
    (hc : set c = false) : endsServer c = false := by
  obtain ⟨hslash, hbackslash, hquestion, hhash⟩ := hset
  simp [endsServer, isBodyChar, Scheme.isSeparator, ne_of_set hslash hc, ne_of_set hbackslash hc,
    ne_of_set hquestion hc, ne_of_set hhash hc]

/-! ## What is read -/

theorem isNormal_ofParts (hauthority : authority.IsNormal) (hpath : Path.IsNormal path)
    (reference : Reference) : (ofParts .http authority path reference).IsNormal where
  scheme := rfl
  authority := hauthority
  path := hpath
  query := isEncoded_of_map_encode (by decide) (by decide)
  fragment := isEncoded_of_map_encode (by decide) (by decide)

theorem isNormal_of_readPlace? [LawfulIdna] (h : readPlace? .http text reference = some url) :
    url.IsNormal := by
  obtain ⟨server, authority, rest, path, hauthority, rfl⟩ := readPlace?_eq_some h
  exact isNormal_ofParts (Authority.isNormal_of_read? hauthority) (Path.isNormal_readPath path) _

/-- What stands behind a scheme and is a place over plain HTTP stands behind that scheme. -/
theorem isNormal_of_readBehind? [LawfulIdna] (hscheme : url.scheme = .http)
    (h : readBehind? scheme text reference = some url) : url.IsNormal := by
  obtain rfl : scheme = .http := (scheme_of_readBehind? h).symm.trans hscheme
  rcases readBehind?_eq_some h with ⟨place, hplace⟩ | ⟨place, hfile, -⟩
  · exact isNormal_of_readPlace? hplace
  · cases hfile

theorem isNormal_of_read? [LawfulIdna] (hscheme : url.scheme = .http) (h : read? text = some url) :
    url.IsNormal := by
  simp only [read?, Option.bind_eq_bind, Option.bind_eq_some_iff] at h
  obtain ⟨⟨scheme, rest⟩, -, h⟩ := h
  exact isNormal_of_readBehind? hscheme h

namespace IsNormal

theorem withoutFragment (h : url.IsNormal) : url.withoutFragment.IsNormal where
  scheme := h.scheme
  authority := h.authority
  path := h.path
  query := h.query
  fragment := by
    intro fragment hnone
    cases hnone

theorem withoutCredentials (h : url.IsNormal) : url.withoutCredentials.IsNormal := by
  unfold Url.withoutCredentials
  split
  · refine ⟨h.scheme, ⟨?_, h.authority.host, h.authority.port⟩, h.path, h.query, h.fragment⟩
    intro credentials hnone
    cases hnone
  · exact h

/-! ## Where references lead -/

theorem relative? [LawfulIdna] (hbase : base.IsNormal)
    (h : relative? base text reference = some url) :
    url.IsNormal := by
  obtain ⟨scheme, authority, path, query, fragment⟩ := base
  obtain rfl : scheme = .http := hbase.scheme
  have honServer : ∀ path, Path.IsNormal path →
      (ofParts .http authority path reference).IsNormal := by
    intro path hpath
    exact isNormal_ofParts hbase.authority hpath reference
  rcases relative?_eq_some h with rfl | rfl | ⟨directory, place, hdirectory, rfl⟩ | ⟨place, hplace⟩
  · exact honServer _ hbase.path
  · have hkept := honServer _ hbase.path
    exact ⟨hkept.scheme, hkept.authority, hkept.path, hbase.query, hkept.fragment⟩
  · apply honServer
    apply Path.isNormal_follow
    intro segment hsegment
    rcases hdirectory with rfl | rfl
    · cases hsegment
    · exact hbase.path.segments segment (List.dropLast_subset _ hsegment)
  · exact isNormal_of_readPlace? hplace

/-- What a reference leads to over plain HTTP is as if it had been read, whatever the reference
holds. -/
theorem resolve? [LawfulIdna] (hbase : base.IsNormal) (hscheme : url.scheme = .http)
    (h : base.resolve? text = some (.address url)) : url.IsNormal := by
  obtain ⟨-, hfound⟩ := resolve?_eq_some h
  rcases hfound with ⟨body, found, hfound, heq⟩ | ⟨scheme, rest, found, -, hfound, heq⟩ |
    ⟨name, heq⟩
  · cases heq
    exact hbase.relative? hfound
  · cases heq
    exact isNormal_of_readBehind? hscheme hfound
  · cases heq

/-! ## Characters -/

/-- What is read is graphic, whatever it is made to lead to. -/
theorem isGraphic (h : url.IsNormal) : url.IsGraphic where
  scheme := by
    rw [h.scheme]
    decide
  authority := h.authority.forall_mem_text (by simp [Text.IsVisible])
    (fun c => conceals_userinfoSet c) fun c => isVisible_of_isForbiddenInName
  path := by
    intro segment hsegment c hc
    exact conceals_pathSet c ((h.path.segments segment hsegment).encoded c hc)
  query := by
    intro query hquery c hc
    exact conceals_querySetOf .http c (h.query query hquery c hc)
  fragment := by
    intro fragment hfragment c hc
    exact conceals_fragmentSet c (h.fragment fragment hfragment c hc)

/-- Nothing in a server ends it. -/
theorem endsServer_of_mem (h : url.IsNormal) : ∀ c ∈ url.authority.text, endsServer c = false :=
  h.authority.forall_mem_text (by simp [endsServer, isBodyChar, Scheme.isSeparator])
    (fun c => endsServer_of_set (by decide)) fun c => endsServer_of_set (by decide)

theorem isBodyChar_of_mem_path (h : url.IsNormal) :
    ∀ c ∈ Path.text url.path, isBodyChar c = true := by
  refine Path.forall_mem_text (P := fun c => isBodyChar c = true) (by decide) ?_
  intro segment hsegment c hc
  have hencoded := (h.path.segments segment hsegment).encoded c hc
  rw [isBodyChar, Bool.and_eq_true, bne_iff_ne, bne_iff_ne]
  exact ⟨ne_of_set rfl hencoded, ne_of_set rfl hencoded⟩

/-- Nothing in a server and a path begins a query or a fragment. -/
theorem isBodyChar_of_mem_place (h : url.IsNormal) :
    ∀ c ∈ url.authority.text ++ Path.text url.path, isBodyChar c = true := by
  rw [List.forall_mem_append]
  refine ⟨?_, h.isBodyChar_of_mem_path⟩
  intro c hc
  exact isBodyChar_of_endsServer (h.endsServer_of_mem c hc)

/-! ## Texts -/

omit [Idna] in
/-- Nothing is dropped from a graphic text. -/
theorem clean_of_isGraphic (h : Text.IsGraphic text) : clean text = text := by
  have hkept : ∀ c ∈ text, isOuterBlank c = false ∧ isLineMark c = false := by
    intro c hc
    have hvisible := h c hc
    constructor
    · rw [isOuterBlank, decide_eq_false_iff_not, Char.le_def, UInt32.le_iff_toNat_le]
      exact Nat.not_le_of_lt hvisible.1
    · rw [isLineMark, Bool.or_eq_false_iff, Bool.or_eq_false_iff]
      refine ⟨⟨?_, ?_⟩, ?_⟩ <;> rw [beq_eq_false_iff_ne] <;> rintro rfl <;>
        exact absurd hvisible (by decide)
  have hfilter : text.filter (!isLineMark ·) = text := by
    rw [List.filter_eq_self]
    intro c hc
    simp [hkept c hc]
  by_cases hne : text = []
  · rw [hne]
    rfl
  · have hclean := clean_append_cleanEnd [] (List.head?_eq_some_head hne)
      (List.getLast?_eq_some_getLast hne)
      ⟨(hkept _ (List.head_mem hne)).1, (hkept _ (List.getLast_mem hne)).1⟩
    have hnothing : cleanEnd [] = [] := rfl
    rwa [List.append_nil, hfilter, hnothing, List.append_nil] at hclean

/-- The text of a URL is taken apart at its own marks. -/
theorem ofText_text (h : url.IsNormal) :
    Reference.ofText url.text =
      ⟨schemeText ++ ('/' :: '/' :: (url.authority.text ++ Path.text url.path)), url.query,
        url.fragment⟩ := by
  have htext : url.text = schemeText ++ ('/' :: '/' :: (url.authority.text ++
      Path.text url.path)) ++ marked '?' url.query ++ marked '#' url.fragment := by
    simp [Url.text, h.scheme, Scheme.name, schemeText]
  have hbody : ∀ c ∈ schemeText ++ ('/' :: '/' :: (url.authority.text ++ Path.text url.path)),
      c ≠ '?' ∧ c ≠ '#' := by
    rw [List.forall_mem_append, List.forall_mem_cons, List.forall_mem_cons]
    refine ⟨by simp [schemeText], by decide, by decide, ?_⟩
    intro c hc
    simpa [isBodyChar] using h.isBodyChar_of_mem_place c hc
  have hquery : ∀ c ∈ marked '?' url.query, c ≠ '#' := by
    refine forall_mem_marked (P := (· ≠ '#')) (by decide) ?_
    intro query hquery c hc
    exact ne_of_set rfl (h.query query hquery c hc)
  have hfront := fun c hc => (List.mem_append.mp hc).elim (fun hc => (hbody c hc).2) (hquery c)
  rw [Reference.ofText, clean_of_isGraphic h.isGraphic.text_eq, htext, cut_append_marked hfront]
  simp only [cut_append_marked fun c hc => (hbody c hc).1]

/-- The parts of a reference are kept if they are those of a URL. -/
theorem ofParts_eq (h : url.IsNormal) (body : List Char) :
    ofParts .http url.authority url.path ⟨body, url.query, url.fragment⟩ = url := by
  obtain ⟨scheme, authority, path, query, fragment⟩ := url
  obtain rfl : scheme = .http := h.scheme
  rw [ofParts, Url.mk.injEq]
  exact ⟨rfl, rfl, rfl, map_encode_of_isEncoded h.query, map_encode_of_isEncoded h.fragment⟩

/-- A URL is read back. -/
theorem read?_text [LawfulIdna] (h : url.IsNormal) : read? url.text = some url := by
  obtain ⟨more, hmore, -⟩ := Path.exists_text h.path
  have hserver := h.endsServer_of_mem
  have hbody := congrArg Reference.body h.ofText_text
  -- the slashes in front of the server do not count, and nothing ends the path before its end
  have hplace : ('/' :: '/' :: (url.authority.text ++ Path.text url.path)).dropWhile
      Scheme.http.isSeparator =
      (url.authority.text ++ '/' :: more).takeWhile isBodyChar := by
    have hne : url.authority.text ≠ [] := by
      simp [Authority.text, h.authority.host.text_ne_nil]
    obtain ⟨c, others, hcons⟩ := List.exists_cons_of_ne_nil hne
    have hc := hserver c (hcons ▸ List.mem_cons_self)
    rw [endsServer, Bool.or_eq_false_iff] at hc
    rw [List.dropWhile_cons_of_pos rfl, List.dropWhile_cons_of_pos rfl, ← hmore,
      List.takeWhile_eq_self_iff.mpr h.isBodyChar_of_mem_place, hcons, List.cons_append,
      List.dropWhile_cons_of_neg (by simp [hc.1])]
  have hpath : (('/' :: more).takeWhile isBodyChar) = Path.text url.path := by
    rw [← hmore]
    exact List.takeWhile_eq_self_iff.mpr h.isBodyChar_of_mem_path
  rw [read?_of_body hbody, hplace, readPlace?_append _ hserver rfl,
    Authority.read?_text h.authority, Option.map_some, hpath]
  simp only [List.nil_append, Path.readPath_text h.path, h.ofText_text, h.ofParts_eq]

end IsNormal

/-! ## Normal form -/

/-- A URL in normal form: its text is read as the same URL, so normalising it once more changes
nothing, and the text holds nothing that normalising would have changed. -/
structure IsInNormalForm (url : Url) : Prop where
  fixed : read? url.text = some url
  graphic : Text.IsGraphic url.text
  segments : ∀ segment ∈ Url.segments .http (Path.text url.path), segment ∉ Path.dotSegments
  lower : url.authority.host.text.map Char.toLower = url.authority.host.text
  port : ¬ [':', '8', '0'] <:+ url.authority.text

theorem IsNormal.isInNormalForm [LawfulIdna] (h : url.IsNormal) :
    url.IsInNormalForm where
  fixed := h.read?_text
  graphic := h.isGraphic.text_eq
  segments := by
    obtain ⟨text, htext, hsegments⟩ := Path.exists_text h.path
    -- in front of the slash that begins the path there is an empty segment
    have hslash : Scheme.http.isSeparator '/' = true := rfl
    have hroot : Url.segments .http ('/' :: text) = [] :: Url.segments .http text := by
      rw [Url.segments, List.splitOnP_cons_eq_if_modifyHead, if_pos hslash, Url.segments]
    rw [htext, hroot, hsegments, List.forall_mem_cons]
    refine ⟨by decide, ?_⟩
    intro segment hsegment
    exact Path.isKept_iff.mp (h.path.segments segment hsegment).kept
  lower := by
    have hlower : ∀ c ∈ url.authority.host.text, c.toLower = c :=
      h.authority.host.forall_mem_text (by simp) fun _ _ hlower => hlower
    exact Idna.map_toLower_eq_self hlower
  port := h.authority.not_suffix

end Readiness.Url
