import Mathlib.Data.List.TakeWhile
import Readiness.Text.Blank

namespace Readiness.Text

/-! # Trimming

A text falls apart into white space, what is left of it, and white space in one way only, if
what is left neither begins nor ends with white space. Trimming finds it.
-/

/-- What is left of a text without the white space at its two ends. -/
structure IsTrimmed (text inner : List Char) : Prop where
  split : ∃ front back, text = front ++ inner ++ back ∧
    (∀ c ∈ front, isBlank c = true) ∧ ∀ c ∈ back, isBlank c = true
  first : ∀ c, inner.head? = some c → isBlank c = false
  last : ∀ c, inner.getLast? = some c → isBlank c = false

variable {text inner : List Char}

theorem dropWhile_isBlank_of_head? (h : ∀ c, text.head? = some c → isBlank c = false) :
    text.dropWhile isBlank = text := by
  cases text with
  | nil => rfl
  | cons c rest =>
    have hc := h c rfl
    rw [List.dropWhile_cons_of_neg (by simp [hc])]

theorem exists_dropWhile_isBlank (text : List Char) :
    ∃ front, text = front ++ text.dropWhile isBlank ∧ ∀ c ∈ front, isBlank c = true := by
  refine ⟨text.takeWhile isBlank, List.takeWhile_append_dropWhile.symm, ?_⟩
  intro c hc
  exact List.mem_takeWhile_imp hc

theorem isBlank_of_head?_dropWhile {c : Char} (h : (text.dropWhile isBlank).head? = some c) :
    isBlank c = false := by
  have hnot := List.head?_dropWhile_not isBlank text
  rw [h] at hnot
  simpa using hnot

theorem exists_trimEnd (text : List Char) :
    ∃ back, text = trimEnd text ++ back ∧ ∀ c ∈ back, isBlank c = true := by
  rcases exists_dropWhile_isBlank text.reverse with ⟨back, hback, hblank⟩
  refine ⟨back.reverse, ?_, ?_⟩
  · rw [trimEnd, ← List.reverse_append, ← hback, List.reverse_reverse]
  · intro c hc
    exact hblank c (List.mem_reverse.mp hc)

/-- Trimming leaves what it should. -/
theorem isTrimmed_trim (text : List Char) : IsTrimmed text (trim text) := by
  rcases exists_dropWhile_isBlank text with ⟨front, hfront, hblank⟩
  rcases exists_trimEnd (text.dropWhile isBlank) with ⟨back, hback, hblank'⟩
  constructor
  case split =>
    refine ⟨front, back, ?_, hblank, hblank'⟩
    rw [List.append_assoc, trim, ← hback]
    exact hfront
  case first =>
    intro c hc
    -- what trimming begins with, the text without its front begins with
    have hhead : (text.dropWhile isBlank).head? = some c := by
      rw [hback, List.head?_append, ← trim, hc]
      rfl
    exact isBlank_of_head?_dropWhile hhead
  case last =>
    intro c hc
    rw [trim, trimEnd, List.getLast?_reverse] at hc
    exact isBlank_of_head?_dropWhile hc

theorem trimEnd_append {back : List Char} (h : ∀ c, inner.getLast? = some c → isBlank c = false)
    (hback : ∀ c ∈ back, isBlank c = true) : trimEnd (inner ++ back) = inner := by
  have hreverse : ∀ c ∈ back.reverse, isBlank c = true := by
    intro c hc
    exact hback c (List.mem_reverse.mp hc)
  have hinner : inner.reverse.dropWhile isBlank = inner.reverse := by
    apply dropWhile_isBlank_of_head?
    rwa [List.head?_reverse]
  rw [trimEnd, List.reverse_append, List.dropWhile_append_of_pos hreverse, hinner,
    List.reverse_reverse]

/-- Nothing else is left of a text. -/
theorem IsTrimmed.eq_trim (h : IsTrimmed text inner) : inner = trim text := by
  rcases h.split with ⟨front, back, rfl, hfront, hback⟩
  rw [trim, List.append_assoc, List.dropWhile_append_of_pos hfront]
  cases inner with
  | nil =>
    rw [List.nil_append, List.dropWhile_eq_nil_iff.mpr hback]
    rfl
  | cons c rest =>
    have hc := h.first c rfl
    rw [List.cons_append, List.dropWhile_cons_of_neg (by simp [hc]), ← List.cons_append,
      trimEnd_append h.last hback]

/-- What is left has no white space at its ends to take away. -/
theorem IsTrimmed.self (h : IsTrimmed text inner) : IsTrimmed inner inner :=
  ⟨⟨[], [], by simp, by simp, by simp⟩, h.first, h.last⟩

/-- Nothing is left exactly if there was nothing but white space. -/
theorem trim_eq_nil_iff : trim text = [] ↔ ∀ c ∈ text, isBlank c = true := by
  constructor
  · intro h
    rcases (isTrimmed_trim text).split with ⟨front, back, htext, hfront, hback⟩
    rw [h, List.append_nil] at htext
    intro c hc
    rw [htext] at hc
    rcases List.mem_append.mp hc with hc | hc
    · exact hfront c hc
    · exact hback c hc
  · intro h
    have hnothing : IsTrimmed text [] := ⟨⟨text, [], by simp, h, by simp⟩, by simp, by simp⟩
    exact hnothing.eq_trim.symm

end Readiness.Text
