import Readiness.Proofs.Url.Encoding
import Readiness.Url.Path

namespace Readiness.Url.Path

/-! # Paths from texts

A path goes along the segments of a text. Dots and what they take back aside, no segment is lost
and none is added: the text of the path is the encoded text, and nothing that dots do leaves a
path without a segment.
-/

variable {text segment : List Char} {segments directory path : List (List Char)}

/-! ## Segments of a text -/

theorem text_cons (segment : List Char) (path : Path) :
    Path.text (segment :: path) = '/' :: segment ++ Path.text path := rfl

/-- A text is its segments again. -/
theorem text_splitOn (text : List Char) : Path.text (text.splitOn '/') = '/' :: text := by
  induction text with
  | nil => rfl
  | cons c text ih =>
    rw [List.splitOn_eq_splitOnP] at ih ⊢
    rw [List.splitOnP_cons_eq_if_modifyHead]
    split
    · next hc => rw [text_cons, ih, beq_iff_eq.mp hc, List.cons_append, List.nil_append]
    · -- the character joins the first of the other segments
      rcases List.exists_cons_of_ne_nil (List.splitOnP_ne_nil (· == '/') text) with
        ⟨first, others, heq⟩
      rw [heq, text_cons, List.cons_append, List.cons.injEq] at ih
      rw [heq, List.modifyHead_cons, text_cons, List.cons_append, List.cons_append, ih.2]

theorem splitOnP_congr {p q : Char → Bool} (h : ∀ c ∈ text, p c = q c) :
    text.splitOnP p = text.splitOnP q := by
  induction text with
  | nil => rfl
  | cons c text ih =>
    rw [List.forall_mem_cons] at h
    rw [List.splitOnP_cons_eq_if_modifyHead, List.splitOnP_cons_eq_if_modifyHead, h.1, ih h.2]

theorem text_map_encode {set : Char → Bool} (h : set '/' = false) (path : Path) :
    Path.text (path.map (encode set)) = encode set (Path.text path) := by
  induction path with
  | nil => rfl
  | cons segment path ih =>
    have hslash : encodeChar set '/' = ['/'] := if_neg (by simp [h])
    rw [List.map_cons, text_cons, ih, text_cons, encode, encode, encode, List.cons_append,
      List.cons_append, List.flatMap_cons, List.flatMap_append, hslash, List.singleton_append]

/-! ## Dots -/

/-- Without a percent sign no dot is encoded. -/
theorem plainDots_of_forall_ne (h : ∀ c ∈ segment, c ≠ '%') : plainDots segment = segment := by
  induction segment with
  | nil => rfl
  | cons c segment ih =>
    rw [List.forall_mem_cons] at h
    rw [plainDots.eq_def]
    split
    · next heq => exact absurd (List.cons.inj heq).1 h.1
    · next heq => exact absurd (List.cons.inj heq).1 h.1
    · next heq =>
      rcases List.cons.inj heq with ⟨rfl, rfl⟩
      rw [ih h.2]
    · next heq => cases heq

/-- A segment that is kept as it is, but for its encoding. -/
def IsKept (segment : List Char) : Prop := isHere segment = false ∧ isUp segment = false

theorem isKept_of_forall_ne (h : ∀ c ∈ segment, c ≠ '%') (hhere : segment ≠ ['.'])
    (hup : segment ≠ ['.', '.']) : IsKept segment := by
  rw [IsKept, isHere, isUp, plainDots_of_forall_ne h]
  exact ⟨beq_eq_false_iff_ne.mpr hhere, beq_eq_false_iff_ne.mpr hup⟩

/-! ## Following segments -/

theorem step_of_isKept (h : IsKept segment) (trail : Path) :
    step trail segment = encode pathSet segment :: trail := by
  rw [step, h.1, h.2]
  rfl

theorem foldl_step_of_isKept (h : ∀ segment ∈ segments, IsKept segment) (trail : Path) :
    segments.foldl step trail = (segments.map (encode pathSet)).reverse ++ trail := by
  induction segments generalizing trail with
  | nil => rfl
  | cons segment segments ih =>
    rw [List.forall_mem_cons] at h
    rw [List.foldl_cons, step_of_isKept h.1, ih h.2, List.map_cons, List.reverse_cons,
      List.append_assoc, List.singleton_append]

/-- Segments that are all kept make up the path. -/
theorem follow_of_isKept (h : ∀ segment ∈ segments, IsKept segment) :
    follow directory segments = directory ++ segments.map (encode pathSet) := by
  have hended : (segments.getLast?.map fun last => isHere last || isUp last).getD false =
      false := by
    cases hlast : segments.getLast? with
    | none => rfl
    | some last =>
      have hkept := h last (List.mem_of_getLast? hlast)
      rw [Option.map_some, hkept.1, hkept.2]
      rfl
  rw [follow, hended, foldl_step_of_isKept h]
  simp

/-- Whatever dots take back, a path has a segment. -/
theorem follow_ne_nil (h : segments ≠ []) : follow directory segments ≠ [] := by
  rcases List.eq_nil_or_concat segments with rfl | ⟨front, last, rfl⟩
  · exact absurd rfl h
  · rw [List.concat_eq_append, follow, List.getLast?_concat, List.foldl_append,
      List.foldl_cons, List.foldl_nil]
    simp only [Option.map_some, Option.getD_some]
    by_cases hended : (isHere last || isUp last) = true
    · rw [if_pos hended]
      simp
    · rw [if_neg hended]
      rw [Bool.or_eq_true, not_or, Bool.not_eq_true, Bool.not_eq_true] at hended
      rw [step_of_isKept hended]
      simp

/-- What holds of a directory, of the segments that are kept and of an empty segment holds all along
a path. -/
theorem forall_mem_follow {P : List Char → Prop} (hempty : P [])
    (hkept : ∀ segment ∈ segments, IsKept segment → P (encode pathSet segment))
    (hdirectory : ∀ segment ∈ directory, P segment) :
    ∀ segment ∈ follow directory segments, P segment := by
  have hclimb : ∀ trail : Path, (∀ segment ∈ trail, P segment) →
      ∀ segment ∈ climb trail, P segment := by
    intro trail htrail
    cases trail with
    | nil => exact htrail
    | cons last trail =>
      rw [climb]
      split
      · exact htrail
      · exact (List.forall_mem_cons.mp htrail).2
  have htrail : ∀ trail : Path, (∀ segment ∈ trail, P segment) →
      ∀ segment ∈ segments.foldl step trail, P segment := by
    induction segments with
    | nil => exact fun _ htrail => htrail
    | cons first segments ih =>
      intro trail htrail
      rw [List.forall_mem_cons] at hkept
      apply ih hkept.2
      -- a segment is dropped, takes one back, or is kept
      rw [step]
      by_cases hhere : isHere first = true
      · rwa [if_pos hhere]
      · by_cases hup : isUp first = true
        · rw [if_neg hhere, if_pos hup]
          exact hclimb trail htrail
        · rw [if_neg hhere, if_neg hup, List.forall_mem_cons]
          exact ⟨hkept.1 ⟨by simpa using hhere, by simpa using hup⟩, htrail⟩
  have hreverse : ∀ segment ∈ segments.foldl step directory.reverse, P segment := by
    apply htrail
    intro segment hsegment
    exact hdirectory segment (List.mem_reverse.mp hsegment)
  simp only [follow]
  intro segment hsegment
  rw [List.mem_reverse] at hsegment
  split at hsegment
  · rcases List.mem_cons.mp hsegment with rfl | hsegment
    · exact hempty
    · exact hreverse segment hsegment
  · exact hreverse segment hsegment

end Readiness.Url.Path
