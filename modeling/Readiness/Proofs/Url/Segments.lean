import Mathlib.Data.List.TakeDrop
import Readiness.Proofs.Text.Line
import Readiness.Proofs.Text.Utf8
import Readiness.Proofs.Url.Path
import Readiness.Url.Reader

namespace Readiness.Url

/-! # Paths are read back

A path holds segments that reading keeps as they are: no dots, no separator, and nothing to encode.
Encoding makes no dots of a segment that were none before, since it never writes a dot. So the text
of a path is read as that path again.
-/

namespace Path

variable {segment text : List Char} {segments directory path : List (List Char)}

/-! ## Spellings of dots -/

/-- How a dot can be spelled. -/
def dotSpellings : List (List Char) := [['.'], ['%', '2', 'e'], ['%', '2', 'E']]

/-- One dot and two dots, however they are spelled. -/
def dotSegments : List (List Char) :=
  dotSpellings ++ dotSpellings.flatMap fun first => dotSpellings.map fun second => first ++ second

theorem eq_nil_of_plainDots (h : plainDots segment = []) : segment = [] := by
  rw [plainDots.eq_def] at h
  split at h
  · cases h
  · cases h
  · cases h
  · rfl

/-- Whatever begins with a dot once its dots are written out begins with a spelling of one. -/
theorem exists_spelling_of_plainDots (h : plainDots segment = '.' :: text) :
    ∃ spelling ∈ dotSpellings, ∃ rest, segment = spelling ++ rest ∧ plainDots rest = text := by
  rw [plainDots.eq_def] at h
  split at h
  · next rest => exact ⟨['%', '2', 'e'], by decide, rest, rfl, (List.cons.inj h).2⟩
  · next rest => exact ⟨['%', '2', 'E'], by decide, rest, rfl, (List.cons.inj h).2⟩
  · next c rest _ _ =>
    obtain ⟨rfl, hrest⟩ := List.cons.inj h
    exact ⟨['.'], by decide, rest, rfl, hrest⟩
  · cases h

/-- The segments that are not kept are the dots. -/
theorem isKept_iff : IsKept segment ↔ segment ∉ dotSegments := by
  constructor
  · intro hkept hdots
    have hall : ∀ segment ∈ dotSegments, isHere segment = true ∨ isUp segment = true := by decide
    rcases hall segment hdots with hhere | hup
    · rw [hkept.1] at hhere
      cases hhere
    · rw [hkept.2] at hup
      cases hup
  · intro hdots
    constructor
    · by_contra hhere
      rw [Bool.not_eq_false, isHere, beq_iff_eq] at hhere
      obtain ⟨first, hfirst, rest, rfl, hrest⟩ := exists_spelling_of_plainDots hhere
      rw [eq_nil_of_plainDots hrest, List.append_nil] at hdots
      exact hdots (List.mem_append_left _ hfirst)
    · by_contra hup
      rw [Bool.not_eq_false, isUp, beq_iff_eq] at hup
      obtain ⟨first, hfirst, others, rfl, hothers⟩ := exists_spelling_of_plainDots hup
      obtain ⟨second, hsecond, rest, rfl, hrest⟩ := exists_spelling_of_plainDots hothers
      rw [eq_nil_of_plainDots hrest, List.append_nil] at hdots
      apply hdots
      rw [dotSegments, List.mem_append, List.mem_flatMap]
      exact .inr ⟨first, hfirst, List.mem_map_of_mem hsecond⟩

/-- The only byte that stands encoded in dots is that of the dot. -/
theorem eq_of_isInfix_encodeByte (hdots : segment ∈ dotSegments) {b : UInt8}
    (h : encodeByte b <:+: segment) : b.toNat = 46 := by
  have hall : ∀ segment ∈ dotSegments, ∀ n : Fin 256,
      encodeByte (UInt8.ofNat n.val) <:+: segment → n.val = 46 := by decide +kernel
  apply hall segment hdots ⟨b.toNat, b.toNat_lt⟩
  rwa [UInt8.ofNat_toNat]

/-- A character is encoded by a byte of its own first, and that of the dot is the dot's. -/
theorem exists_lead (c : Char) :
    ∃ lead tail, String.utf8EncodeChar c = lead :: tail ∧ (lead.toNat = 46 → c = '.') := by
  obtain ⟨lead, tail, hbytes, -⟩ := Text.encodeChar_group c
  refine ⟨lead, tail, hbytes, ?_⟩
  intro hlead
  by_cases hlow : c.toNat < 0x80
  · rw [Text.encodeChar_of_lt hlow, List.cons.injEq] at hbytes
    rw [← hbytes.1, UInt8.toNat_ofNat_of_lt' (Nat.lt_of_lt_of_le hlow (by decide))] at hlead
    exact Char.toNat_inj.mp hlead
  · have hhigh := Text.le_of_mem_encodeChar (Nat.le_of_not_lt hlow)
      (hbytes ▸ List.mem_cons_self : lead ∈ String.utf8EncodeChar c)
    omega

/-- What is encoded is dots only if there was nothing to encode. -/
theorem encode_eq_of_mem_dotSegments {set : Char → Bool} (hpoint : set '.' = false)
    (h : encode set segment ∈ dotSegments) : encode set segment = segment := by
  apply encode_of_forall_not
  intro c hc
  by_contra hset
  obtain ⟨lead, tail, hbytes, hlead⟩ := exists_lead c
  have hbyte : encodeByte lead <:+: encodeChar set c := by
    rw [encodeChar, if_pos (by simpa using hset), hbytes, List.flatMap_cons]
    exact (List.prefix_append _ _).isInfix
  obtain ⟨front, back, rfl⟩ := List.append_of_mem hc
  have hchar : encodeChar set c <:+: encode set (front ++ c :: back) := by
    rw [encode, List.flatMap_append, List.flatMap_cons]
    exact ⟨front.flatMap (encodeChar set), back.flatMap (encodeChar set), by
      rw [List.append_assoc]⟩
  rw [hlead (eq_of_isInfix_encodeByte h (hbyte.trans hchar)), hpoint] at hset
  exact hset rfl

/-! ## Segments of a path -/

/-- A segment as a path holds it. -/
structure IsSegment (segment : List Char) : Prop where
  encoded : IsEncoded pathSet segment
  inside : ∀ c ∈ segment, Scheme.http.isSeparator c = false
  kept : IsKept segment

theorem isSegment_nil : IsSegment [] where
  encoded := by
    intro c hc
    cases hc
  inside := by
    intro c hc
    cases hc
  kept := ⟨rfl, rfl⟩

theorem isSegment_encode (hinside : ∀ c ∈ segment, Scheme.http.isSeparator c = false)
    (hkept : IsKept segment) : IsSegment (encode pathSet segment) where
  encoded := isEncoded_encode (by decide) (by decide) segment
  inside := forall_mem_encode (by decide) (by decide) fun c hc _ => hinside c hc
  kept := by
    rw [isKept_iff] at hkept ⊢
    intro hdots
    rw [encode_eq_of_mem_dotSegments (by decide) hdots] at hdots
    exact hkept hdots

theorem not_of_mem_splitOnP {p : Char → Bool} (hsegment : segment ∈ text.splitOnP p) :
    ∀ c ∈ segment, p c = false := by
  induction text generalizing segment with
  | nil =>
    rw [List.splitOnP_nil, List.mem_singleton] at hsegment
    rw [hsegment]
    intro c hc
    cases hc
  | cons d text ih =>
    rw [List.splitOnP_cons_eq_if_modifyHead] at hsegment
    by_cases hd : p d = true
    · rw [if_pos hd, List.mem_cons] at hsegment
      rcases hsegment with rfl | hsegment
      · intro c hc
        cases hc
      · exact ih hsegment
    · obtain ⟨first, others, hsplit⟩ := List.exists_cons_of_ne_nil (List.splitOnP_ne_nil p text)
      rw [if_neg hd, hsplit, List.modifyHead_cons, List.mem_cons] at hsegment
      rw [hsplit] at ih
      rcases hsegment with rfl | hsegment
      · rw [List.forall_mem_cons]
        exact ⟨by simpa using hd, ih List.mem_cons_self⟩
      · exact ih (List.mem_cons_of_mem _ hsegment)

/-- A path of segments that are kept as they are. -/
structure IsNormal (path : Path) : Prop where
  ne_nil : path ≠ []
  segments : ∀ segment ∈ path, IsSegment segment

/-- The segments of a text lead to such a path. -/
theorem isNormal_follow (hdirectory : ∀ segment ∈ directory, IsSegment segment)
    (text : List Char) : IsNormal (follow directory (Url.segments .http text)) where
  ne_nil := follow_ne_nil (List.splitOnP_ne_nil _ _)
  segments := by
    apply forall_mem_follow isSegment_nil _ hdirectory
    intro segment hsegment hkept
    exact isSegment_encode (not_of_mem_splitOnP hsegment) hkept

theorem isNormal_readPath (text : List Char) : IsNormal (readPath .http text) := by
  have hroot : ∀ segment ∈ ([] : Path), IsSegment segment := by
    intro segment hsegment
    cases hsegment
  unfold readPath
  split
  · refine ⟨by decide, ?_⟩
    intro segment hsegment
    rw [if_pos (show Scheme.http.isSpecial = true from rfl), List.mem_singleton] at hsegment
    rw [hsegment]
    exact isSegment_nil
  · exact isNormal_follow hroot _

/-! ## Reading the text of a path -/

theorem exists_text (h : IsNormal path) :
    ∃ text, Path.text path = '/' :: text ∧ Url.segments .http text = path := by
  have hslash : ∀ segment ∈ path, '/' ∉ segment := by
    intro segment hsegment hmem
    have hinside := (h.segments segment hsegment).inside _ hmem
    cases hinside
  have hsplit := List.splitOn_intercalate '/' hslash h.ne_nil
  have htext : Path.text path = '/' :: ['/'].intercalate path := by
    rw [← text_splitOn, hsplit]
  refine ⟨_, htext, ?_⟩
  -- no segment holds a separator, so only slashes separate
  have hseparator : ∀ c ∈ ['/'].intercalate path, Scheme.http.isSeparator c = (c == '/') := by
    apply Text.forall_mem_intercalate
    · rw [List.forall_mem_singleton]
      rfl
    · intro segment hsegment c hc
      have hinside := (h.segments segment hsegment).inside c hc
      rw [hinside]
      rw [Scheme.isSeparator, Bool.or_eq_false_iff] at hinside
      exact hinside.1.symm
  rw [Url.segments, splitOnP_congr hseparator, ← List.splitOn_eq_splitOnP, hsplit]

/-- A path is read back. -/
theorem readPath_text (h : IsNormal path) : readPath .http (Path.text path) = path := by
  obtain ⟨text, htext, hsegments⟩ := exists_text h
  have hread : readPath .http ('/' :: text) = follow [] (Url.segments .http text) := rfl
  have hkept : ∀ segment ∈ path, IsKept segment := by
    intro segment hsegment
    exact (h.segments segment hsegment).kept
  have hencoded : path.map (encode pathSet) = path := by
    conv_rhs => rw [← List.map_id path]
    apply List.map_congr_left
    intro segment hsegment
    exact encode_of_forall_not (h.segments segment hsegment).encoded
  rw [htext, hread, hsegments, follow_of_isKept hkept, hencoded, List.nil_append]

/-- The text of a path holds nothing that ends a path. -/
theorem forall_mem_text {P : Char → Prop} (hslash : P '/')
    (h : ∀ segment ∈ path, ∀ c ∈ segment, P c) : ∀ c ∈ Path.text path, P c := by
  rw [Path.text, List.forall_mem_flatMap]
  intro segment hsegment
  rw [List.forall_mem_cons]
  exact ⟨hslash, h segment hsegment⟩

end Path
end Readiness.Url
