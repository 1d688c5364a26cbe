import Readiness.Proofs.Text.Line
import Readiness.Proofs.Url.Address
import Readiness.Proofs.Url.Path
import Readiness.Proofs.Url.Reading
import Readiness.Proofs.Url.Server
import Readiness.Url.Target

namespace Readiness.Url

/-! # URLs are graphic

Whatever a text holds, a URL that is read from it is made of graphic ASCII characters: each part
is encoded with a set that holds all others, or refused if it has any. What a reference leads to
is made of them again, if the URL it is read from is.
-/

open Text (IsVisible IsGraphic isGraphic_append isGraphic_cons isGraphic_nil isGraphic_toDigits)

variable {set : Char → Bool} {text name : List Char} {scheme : Scheme} {host : Host}
  {authority : Authority} {path directory : Path} {reference : Reference} {base url : Url} {c : Char}

/-! ## Encoded texts -/

/-- An encoded text is graphic if what is not encoded is visible. -/
theorem isGraphic_encode (h : ∀ c ∈ text, set c = false → IsVisible c) :
    IsGraphic (encode set text) :=
  forall_mem_encode (by decide) (by decide) h

/-- What is no control is visible, except for the space. -/
theorem isVisible_of_controlSet (h : controlSet c = false) (hspace : c ≠ ' ') : IsVisible c := by
  have hrange : ' '.toNat ≤ c.toNat ∧ c.toNat ≤ '~'.toNat := by
    simpa [controlSet, Char.le_def, UInt32.le_iff_toNat_le] using h
  have hne : c.toNat ≠ ' '.toNat := by
    intro hc
    exact hspace (Char.toNat_inj.mp hc)
  exact ⟨Nat.lt_of_le_of_ne hrange.1 hne.symm, hrange.2⟩

/-- A set that holds everything that is not visible. -/
def Conceals (set : Char → Bool) : Prop := ∀ c, set c = false → IsVisible c

theorem Conceals.isGraphic (h : Conceals set) (text : List Char) : IsGraphic (encode set text) :=
  isGraphic_encode fun c _ => h c

theorem conceals_controlSet_or {more : Char → Bool} (hspace : more ' ' = true) :
    Conceals fun c => controlSet c || more c := by
  intro c h
  rw [Bool.or_eq_false_iff] at h
  refine isVisible_of_controlSet h.1 ?_
  rintro rfl
  rw [hspace] at h
  cases h.2

theorem Conceals.or (h : Conceals set) (more : Char → Bool) : Conceals fun c => set c || more c := by
  intro c hc
  exact h c (Bool.or_eq_false_iff.mp hc).1

theorem conceals_fragmentSet : Conceals fragmentSet := conceals_controlSet_or rfl

theorem conceals_querySet : Conceals querySet := conceals_controlSet_or rfl

theorem conceals_pathSet : Conceals pathSet := conceals_fragmentSet.or _

theorem conceals_userinfoSet : Conceals userinfoSet := conceals_pathSet.or _

theorem conceals_querySetOf (scheme : Scheme) : Conceals (querySetOf scheme) := by
  unfold querySetOf
  split
  · exact conceals_querySet.or _
  · exact conceals_querySet

/-! ## Addresses -/

theorem isGraphic_address4 (address : Address4) : IsGraphic address.text :=
  address.forall_mem_text (by decide) (by decide)

theorem isGraphic_address6 (address : Address6) : IsGraphic address.text :=
  address.forall_mem_text (by decide) (by decide)

/-! ## Hosts -/

/-- An address in brackets. -/
theorem isGraphic_bracketed (address : Address6) : IsGraphic (Host.text (.ipv6 address)) := by
  rw [Host.text, isGraphic_cons, isGraphic_append]
  exact ⟨by decide, isGraphic_address6 address, by decide⟩

theorem isVisible_of_isForbiddenInName (h : Host.isForbiddenInName c = false) : IsVisible c := by
  simp only [Host.isForbiddenInName, Bool.or_eq_false_iff] at h
  refine isVisible_of_controlSet h.1.2 ?_
  rintro rfl
  cases h.1.1

theorem isGraphic_of_readSpecial? [Idna] [LawfulIdna] (h : Host.readSpecial? text = some host) :
    IsGraphic host.text := by
  rcases Host.readSpecial?_eq_some h with ⟨-, -, address, rfl⟩ |
    ⟨name, hname, -, ⟨-, rfl⟩ | ⟨address, -, rfl⟩⟩
  · exact isGraphic_bracketed address
  · intro c hc
    exact isVisible_of_isForbiddenInName (LawfulIdna.allowed _ _ hname c hc)
  · exact isGraphic_address4 address

theorem isGraphic_of_readVerbatim? (h : Host.readVerbatim? text = some host) :
    IsGraphic host.text := by
  unfold Host.readVerbatim? at h
  split at h
  · split at h
    · obtain ⟨address, -, rfl⟩ := Option.map_eq_some_iff.mp h
      exact isGraphic_bracketed address
    · cases h
  · split at h
    · cases h
    · next hallowed =>
      cases h
      apply isGraphic_encode
      intro c hc hset
      refine isVisible_of_controlSet hset ?_
      -- the space stays as it is, but no host holds one
      rintro rfl
      exact hallowed (List.any_eq_true.mpr ⟨' ', hc, by decide⟩)

theorem isGraphic_of_readHost? [Idna] [LawfulIdna] (h : readHost? scheme text = some host) :
    IsGraphic host.text := by
  unfold readHost? at h
  split at h
  · cases h
  · split at h
    · exact isGraphic_of_readSpecial? h
    · exact isGraphic_of_readVerbatim? h

/-! ## Authorities -/

theorem isGraphic_marked {mark : Char} {part : Option (List Char)} (hmark : IsVisible mark)
    (hpart : ∀ text, part = some text → IsGraphic text) : IsGraphic (marked mark part) :=
  forall_mem_marked hmark hpart

/-- A part that was encoded with a set that holds everything else. -/
theorem isGraphic_of_map_encode (h : Conceals set) {part : Option (List Char)} :
    ∀ text, part.map (encode set) = some text → IsGraphic text := by
  intro text htext
  rw [Option.map_eq_some_iff] at htext
  rcases htext with ⟨plain, -, rfl⟩
  exact h.isGraphic plain

theorem isGraphic_of_credentials {credentials : Credentials}
    (h : Credentials.ofText? text = some credentials) : IsGraphic credentials.text := by
  simp only [Credentials.ofText?] at h
  split at h
  · cases h
  · cases h
    rw [Credentials.text, isGraphic_append, isGraphic_append]
    exact ⟨⟨conceals_userinfoSet.isGraphic _,
      isGraphic_marked (by decide) (isGraphic_of_map_encode conceals_userinfoSet)⟩, by decide⟩

theorem isGraphic_portText (port : Option UInt16) :
    IsGraphic (marked ':' (port.map fun port => Nat.toDigits 10 port.toNat)) := by
  apply isGraphic_marked (by decide)
  intro text htext
  rw [Option.map_eq_some_iff] at htext
  rcases htext with ⟨port, -, rfl⟩
  exact isGraphic_toDigits (by decide) (by decide) port.toNat

theorem isGraphic_of_readAuthority? [Idna] [LawfulIdna] {rest : List Char}
    (h : Authority.read? scheme text = some (authority, rest)) : IsGraphic authority.text := by
  rw [Authority.read?_eq] at h
  simp only [Option.bind_eq_some_iff, Option.some.injEq, Prod.mk.injEq] at h
  rcases h with ⟨host, hhost, port, -, rfl, -⟩
  rw [Authority.text, isGraphic_append, isGraphic_append]
  refine ⟨⟨?_, isGraphic_of_readHost? hhost⟩, isGraphic_portText port⟩
  cases hcredentials : (cutLast text).1.bind Credentials.ofText? with
  | none => exact isGraphic_nil
  | some credentials =>
    rw [Option.bind_eq_some_iff] at hcredentials
    rcases hcredentials with ⟨front, -, hcredentials⟩
    exact isGraphic_of_credentials hcredentials

/-! ## Schemes -/

theorem isVisible_toLower_of_isNameChar (h : Scheme.isNameChar c = true) : IsVisible c.toLower := by
  have hascii : c.toNat < 128 := by
    rw [Scheme.isNameChar, Bool.or_eq_true] at h
    rcases h with halphanum | hmark
    · exact lt_of_isAlphanum halphanum
    · have hcase : c = '+' ∨ c = '-' ∨ c = '.' := by simpa using hmark
      rcases hcase with rfl | rfl | rfl <;> decide
  exact Text.forall_of_lt (P := fun c => Scheme.isNameChar c = true → IsVisible c.toLower)
    (by decide) hascii h

/-- A scheme is found by its name. -/
theorem name_ofName (name : List Char) : (Scheme.ofName name).name = name := by
  rw [Scheme.ofName]
  cases hfind : Scheme.known.find? fun scheme => scheme.name == name with
  | none => rfl
  | some scheme => simpa using List.find?_some hfind

theorem isGraphic_of_split? {rest : List Char} (h : Scheme.split? text = some (scheme, rest)) :
    IsGraphic scheme.name := by
  unfold Scheme.split? at h
  rw [List.span_eq_takeWhile_dropWhile] at h
  split at h
  · next first name rest' hspan =>
    split at h
    · cases h
      rw [name_ofName, IsGraphic, List.forall_mem_map]
      intro c hc
      rw [← (Prod.mk.inj hspan).1] at hc
      exact isVisible_toLower_of_isNameChar (List.mem_takeWhile_imp hc)
    · cases h
  · cases h

/-! ## Paths -/

/-- Every segment of a path is graphic. -/
def Path.IsGraphic (path : Path) : Prop := ∀ segment ∈ path, Text.IsGraphic segment

theorem Path.isGraphic_text (h : Path.IsGraphic path) : Text.IsGraphic (Path.text path) := by
  rw [Text.IsGraphic, Path.text, List.forall_mem_flatMap]
  intro segment hsegment
  exact isGraphic_cons.mpr ⟨by decide, h segment hsegment⟩

theorem Path.isGraphic_root : Path.IsGraphic [[]] := by
  intro segment hsegment
  rw [List.mem_singleton.mp hsegment]
  exact isGraphic_nil

/-- A path stays graphic along any segments. -/
theorem Path.IsGraphic.follow (h : Path.IsGraphic directory) (segments : List (List Char)) :
    Path.IsGraphic (Path.follow directory segments) :=
  Path.forall_mem_follow isGraphic_nil (fun segment _ _ => conceals_pathSet.isGraphic segment) h

theorem Path.isGraphic_follow (segments : List (List Char)) :
    Path.IsGraphic (Path.follow [] segments) := by
  apply Path.IsGraphic.follow
  intro segment hsegment
  cases hsegment

theorem Path.IsGraphic.trimmed (h : Path.IsGraphic path) : Path.IsGraphic (Path.trimmed path) := by
  unfold Path.trimmed
  split
  · exact Path.isGraphic_root
  · next heq =>
    rw [← heq]
    intro segment hsegment
    exact h segment (List.dropWhile_subset _ hsegment)

theorem isGraphic_readPath (scheme : Scheme) (text : List Char) :
    Path.IsGraphic (readPath scheme text) := by
  unfold readPath
  split
  · split
    · exact Path.isGraphic_root
    · intro segment hsegment
      cases hsegment
  · exact Path.isGraphic_follow _

/-! ## URLs -/

/-- Every part of a URL is graphic. -/
structure IsGraphic (url : Url) : Prop where
  scheme : Text.IsGraphic url.scheme.name
  authority : Text.IsGraphic url.authority.text
  path : Path.IsGraphic url.path
  query : ∀ query, url.query = some query → Text.IsGraphic query
  fragment : ∀ fragment, url.fragment = some fragment → Text.IsGraphic fragment

theorem isGraphic_ofParts (hscheme : Text.IsGraphic scheme.name)
    (hauthority : Text.IsGraphic authority.text) (hpath : Path.IsGraphic path)
    (reference : Reference) : (ofParts scheme authority path reference).IsGraphic where
  scheme := hscheme
  authority := hauthority
  path := hpath
  query := isGraphic_of_map_encode (conceals_querySetOf scheme)
  fragment := isGraphic_of_map_encode conceals_fragmentSet

namespace IsGraphic

theorem text_eq (h : url.IsGraphic) : Text.IsGraphic url.text := by
  simp only [Url.text, isGraphic_append]
  exact ⟨⟨⟨⟨⟨h.scheme, by decide⟩, h.authority⟩, Path.isGraphic_text h.path⟩,
    isGraphic_marked (by decide) h.query⟩, isGraphic_marked (by decide) h.fragment⟩

theorem withoutFragment (h : url.IsGraphic) : url.withoutFragment.IsGraphic :=
  ⟨h.scheme, h.authority, h.path, h.query, fun _ hnone => nomatch hnone⟩

theorem withoutCredentials (h : url.IsGraphic) : url.withoutCredentials.IsGraphic := by
  unfold Url.withoutCredentials
  split
  · -- what is left of the authority was a part of it
    have hauthority := h.authority
    rw [Authority.text, isGraphic_append, isGraphic_append] at hauthority
    refine ⟨h.scheme, ?_, h.path, h.query, h.fragment⟩
    rw [Authority.text, isGraphic_append, isGraphic_append]
    exact ⟨⟨isGraphic_nil, hauthority.1.2⟩, hauthority.2⟩
  · exact h

theorem told (h : url.IsGraphic) : Text.IsGraphic url.told := by
  unfold Url.told
  split
  · have hrooted : Url.IsGraphic { url with path := [[]] } :=
      ⟨h.scheme, h.authority, Path.isGraphic_root, h.query, h.fragment⟩
    exact hrooted.text_eq
  · next letter mark path _ hpath =>
    split
    · -- a drive is told with a colon in place of its mark
      have hsegments := h.path
      rw [hpath, Path.IsGraphic, List.forall_mem_cons, isGraphic_cons] at hsegments
      have hdrive : Path.IsGraphic ([letter, ':'] :: path) := by
        rw [Path.IsGraphic, List.forall_mem_cons, isGraphic_cons]
        exact ⟨⟨hsegments.1.1, by decide⟩, hsegments.2⟩
      simp only [isGraphic_append]
      exact ⟨⟨⟨⟨by decide, by decide⟩, Path.isGraphic_text hdrive⟩,
        isGraphic_marked (by decide) h.query⟩, isGraphic_marked (by decide) h.fragment⟩
    · exact h.text_eq
  · exact h.text_eq

end IsGraphic

theorem isGraphic_of_readPlace? [Idna] [LawfulIdna] (hscheme : Text.IsGraphic scheme.name)
    (h : readPlace? scheme text reference = some url) : url.IsGraphic := by
  obtain ⟨server, authority, rest, path, hauthority, rfl⟩ := readPlace?_eq_some h
  exact isGraphic_ofParts hscheme (isGraphic_of_readAuthority? hauthority)
    (isGraphic_readPath scheme path) reference

theorem isGraphic_of_readFileHost? [Idna] [LawfulIdna] (h : readFileHost? text = some host) :
    Text.IsGraphic host.text := by
  unfold readFileHost? at h
  split at h
  · cases h
  · rw [Option.filter_eq_some_iff] at h
    exact isGraphic_of_readHost? h.1

theorem isGraphic_of_readFile? [Idna] [LawfulIdna] (h : readFile? text reference = some url) :
    url.IsGraphic := by
  obtain ⟨place, host, directions, hhost, rfl⟩ := readFile?_eq_some h
  apply isGraphic_ofParts (by decide) _ (Path.isGraphic_follow directions).trimmed
  rw [Authority.text, isGraphic_append, isGraphic_append]
  exact ⟨⟨isGraphic_nil, isGraphic_of_readFileHost? hhost⟩, isGraphic_portText none⟩

theorem isGraphic_of_readBehind? [Idna] [LawfulIdna] (hscheme : Text.IsGraphic scheme.name)
    (h : readBehind? scheme text reference = some url) : url.IsGraphic := by
  rcases readBehind?_eq_some h with ⟨place, hplace⟩ | ⟨place, -, hfile⟩
  · exact isGraphic_of_readPlace? hscheme hplace
  · exact isGraphic_of_readFile? hfile

/-- Every URL that a text is read as is graphic. -/
theorem isGraphic_of_read? [Idna] [LawfulIdna] (h : read? text = some url) : url.IsGraphic := by
  simp only [read?, Option.bind_eq_bind, Option.bind_eq_some_iff] at h
  rcases h with ⟨⟨scheme, rest⟩, hsplit, h⟩
  exact isGraphic_of_readBehind? (isGraphic_of_split? hsplit) h

/-! ## Where references lead -/

/-- A reference without a scheme keeps the path, leads on from its directory or from the root, or
leads to another server. -/
theorem relative?_eq_some [Idna] (h : relative? base text reference = some url) :
    url = ofParts base.scheme base.authority base.path reference ∨
    url = { ofParts base.scheme base.authority base.path reference with query := base.query } ∨
    (∃ directory place, (directory = [] ∨ directory = base.path.dropLast) ∧
      url = ofParts base.scheme base.authority
        (Path.follow directory (segments base.scheme place)) reference) ∨
    ∃ place, readPlace? base.scheme place reference = some url := by
  unfold relative? at h
  simp only at h
  -- no separator keeps the server, one begins a path on it, two begin a server
  split at h
  · split at h
    · cases h
      exact .inl rfl
    · cases h
      exact .inr (.inl rfl)
  · cases h
    exact .inr (.inr (.inl ⟨_, _, .inr rfl, rfl⟩))
  · cases h
    exact .inr (.inr (.inl ⟨_, _, .inl rfl, rfl⟩))
  · exact .inr (.inr (.inr ⟨_, h⟩))
  · exact .inr (.inr (.inr ⟨_, h⟩))

/-- A target that can be named is found from a URL, begins anew behind a scheme, or is no address
at all. -/
theorem resolve?_eq_some [Idna] {target : Target} (h : base.resolve? text = some target) :
    target.isNamed = true ∧
    ((∃ body url, relative? base body (Reference.ofText text) = some url ∧
        target = .address url) ∨
      (∃ scheme rest url, Scheme.split? (Reference.ofText text).body = some (scheme, rest) ∧
        readBehind? scheme rest (Reference.ofText text) = some url ∧ target = .address url) ∨
      ∃ name, target = .foreign name) := by
  simp only [resolve?, Option.filter_eq_some_iff] at h
  obtain ⟨hfound, hnamed⟩ := h
  refine ⟨hnamed, ?_⟩
  split at hfound
  · obtain ⟨url, hurl, rfl⟩ := Option.map_eq_some_iff.mp hfound
    exact .inl ⟨_, url, hurl, rfl⟩
  · next scheme rest hsplit =>
    split at hfound
    · obtain ⟨url, hurl, rfl⟩ := Option.map_eq_some_iff.mp hfound
      exact .inl ⟨_, url, hurl, rfl⟩
    · rw [Option.or_eq_some_iff, Option.map_eq_some_iff, Option.map_eq_some_iff] at hfound
      rcases hfound with ⟨url, hurl, rfl⟩ | ⟨-, name, -, rfl⟩
      · exact .inr (.inl ⟨scheme, rest, url, hsplit, hurl, rfl⟩)
      · exact .inr (.inr ⟨name, rfl⟩)

theorem IsGraphic.relative? [Idna] [LawfulIdna] (hbase : base.IsGraphic)
    (h : relative? base text reference = some url) : url.IsGraphic := by
  have honServer : ∀ path, Path.IsGraphic path →
      (ofParts base.scheme base.authority path reference).IsGraphic := by
    intro path hpath
    exact isGraphic_ofParts hbase.scheme hbase.authority hpath reference
  rcases relative?_eq_some h with rfl | rfl | ⟨directory, place, hdirectory, rfl⟩ | ⟨place, hplace⟩
  · exact honServer _ hbase.path
  · have hkept := honServer _ hbase.path
    exact ⟨hkept.scheme, hkept.authority, hkept.path, hbase.query, hkept.fragment⟩
  · rcases hdirectory with rfl | rfl
    · exact honServer _ (Path.isGraphic_follow _)
    · apply honServer
      apply Path.IsGraphic.follow
      intro segment hsegment
      exact hbase.path segment (List.dropLast_subset _ hsegment)
  · exact isGraphic_of_readPlace? hbase.scheme hplace

theorem isVisible_of_isPlain (h : ServerName.isPlain c = true) : IsVisible c := by
  have hascii : c.toNat < 128 := by
    rw [ServerName.isPlain, Bool.or_eq_true] at h
    rcases h with halphanum | hmark
    · exact lt_of_isAlphanum halphanum
    · have hmarks : ∀ mark ∈ ['!', '$', '&', '\'', '(', ')', '*', '+', ',', '-', '.', ';', '=', '_',
          '~'], mark.toNat < 128 := by simp
      exact hmarks c (List.contains_iff_mem.mp hmark)
  exact Text.forall_of_lt (P := fun c => ServerName.isPlain c = true → IsVisible c) (by decide)
    hascii h

theorem isVisible_of_push? {state next : ServerName.State} (h : state.push? c = some next) :
    IsVisible c := by
  unfold ServerName.State.push? at h
  split at h
  · next hplain => exact isVisible_of_isPlain hplain
  · split at h
    case h_6 => cases h
    all_goals decide

/-- What can name a server in a request is graphic. -/
theorem isGraphic_of_isValid (h : ServerName.isValid name = true) : Text.IsGraphic name := by
  have hread : ∀ state last : ServerName.State,
      name.foldlM ServerName.State.push? state = some last → Text.IsGraphic name := by
    clear h
    induction name with
    | nil => exact fun _ _ _ => isGraphic_nil
    | cons c name ih =>
      intro state last hread
      rw [List.foldlM_cons, Option.bind_eq_bind, Option.bind_eq_some_iff] at hread
      rcases hread with ⟨next, hpush, hread⟩
      exact isGraphic_cons.mpr ⟨isVisible_of_push? hpush, ih next last hread⟩
  rw [ServerName.isValid, Bool.and_eq_true, Option.any_eq_true] at h
  rcases h.2 with ⟨last, hlast, -⟩
  exact hread _ last hlast

/-- Every part of a target is graphic. -/
def Target.IsGraphic : Target → Prop
  | .address url => url.IsGraphic
  | .foreign name => Text.IsGraphic name

theorem Target.isGraphic_text {target : Target} (h : target.IsGraphic) :
    Text.IsGraphic target.text := by
  cases target with
  | address url => exact (Url.IsGraphic.withoutFragment h).told
  | foreign name => exact h

/-- Where a reference leads is graphic, whatever the text of the reference is. -/
theorem IsGraphic.resolve? [Idna] [LawfulIdna] {target : Target} (hbase : base.IsGraphic)
    (h : base.resolve? text = some target) : target.IsGraphic := by
  obtain ⟨hnamed, hfound⟩ := resolve?_eq_some h
  rcases hfound with ⟨body, url, hurl, rfl⟩ | ⟨scheme, rest, url, hsplit, hurl, rfl⟩ | ⟨name, rfl⟩
  · exact hbase.relative? hurl
  · exact isGraphic_of_readBehind? (isGraphic_of_split? hsplit) hurl
  · -- a name of another kind has to be made like that of a server
    rw [Target.isNamed, Bool.and_eq_true] at hnamed
    exact isGraphic_of_isValid hnamed.1

end Readiness.Url
