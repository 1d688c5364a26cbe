import Mathlib.Data.List.Basic
import Readiness.Text.Quoted

namespace Readiness.Text

/-! # Single lines

A text stands on one line if it holds no control character and no separator of lines. Quoted
text always does: whatever would break the line is hidden, and what is hidden is written by its
code point. So does text of visible ASCII characters, which is all that numbers are made of.
-/

/-- A control character, or a separator of lines or paragraphs. -/
def BreaksLine (c : Char) : Prop :=
  c.toNat ≤ 0x1f ∨ (0x7f ≤ c.toNat ∧ c.toNat ≤ 0x9f) ∨ c.toNat = 0x2028 ∨ c.toNat = 0x2029

instance : DecidablePred BreaksLine := fun _ => inferInstanceAs (Decidable (_ ∨ _ ∨ _ ∨ _))

/-- A text that stands on one line. -/
def IsLine (text : List Char) : Prop := ∀ c ∈ text, ¬ BreaksLine c

-- the characters are finitely many, but only those of the text are to be looked at
instance (text : List Char) : Decidable (IsLine text) :=
  List.decidableBAll (fun c => ¬ BreaksLine c) text

/-- A visible ASCII character. -/
def IsVisible (c : Char) : Prop := 0x21 ≤ c.toNat ∧ c.toNat ≤ 0x7e

instance : DecidablePred IsVisible := fun _ => inferInstanceAs (Decidable (_ ∧ _))

/-- A text of visible ASCII characters. -/
def IsGraphic (text : List Char) : Prop := ∀ c ∈ text, IsVisible c

instance (text : List Char) : Decidable (IsGraphic text) := List.decidableBAll IsVisible text

variable {text more separator : List Char} {c : Char} {texts : List (List Char)}

theorem isLine_append : IsLine (text ++ more) ↔ IsLine text ∧ IsLine more :=
  List.forall_mem_append

theorem isLine_string_append {a b : String} :
    IsLine (a ++ b).toList ↔ IsLine a.toList ∧ IsLine b.toList := by
  rw [String.toList_append, isLine_append]

/-- A literal is looked at character by character, not by its encoding. -/
theorem isLine_ofList (h : IsLine text) : IsLine (String.ofList text).toList := by
  rwa [String.toList_ofList]

theorem isGraphic_append : IsGraphic (text ++ more) ↔ IsGraphic text ∧ IsGraphic more :=
  List.forall_mem_append

theorem isGraphic_cons : IsGraphic (c :: text) ↔ IsVisible c ∧ IsGraphic text :=
  List.forall_mem_cons

theorem isGraphic_nil : IsGraphic [] := by decide

/-- What is graphic breaks no line. -/
theorem IsGraphic.isLine (h : IsGraphic text) : IsLine text := by
  intro c hc hbreak
  have hvisible := h c hc
  unfold IsVisible at hvisible
  unfold BreaksLine at hbreak
  omega

/-- What holds of all characters of a separator and of texts holds where they are joined. -/
theorem forall_mem_intercalate {P : Char → Prop} (hseparator : ∀ c ∈ separator, P c)
    (htexts : ∀ text ∈ texts, ∀ c ∈ text, P c) : ∀ c ∈ separator.intercalate texts, P c := by
  induction texts with
  | nil => simp
  | cons first texts ih =>
    rw [List.forall_mem_cons] at htexts
    cases texts with
    | nil => simpa using htexts.1
    | cons second texts =>
      rw [List.intercalate_cons_cons, List.forall_mem_append, List.forall_mem_append]
      exact ⟨⟨htexts.1, hseparator⟩, ih htexts.2⟩

/-- What holds of all characters with small code points, one by one, holds of them. -/
theorem forall_of_lt {P : Char → Prop} {limit : Nat} (h : ∀ n : Fin limit, P (Char.ofNat n.val))
    (hc : c.toNat < limit) : P c := by
  have hn := h ⟨c.toNat, hc⟩
  rwa [Char.ofNat_toNat] at hn

/-! ## Digits -/

theorem exists_digitChar_of_mem_toDigits {base n : Nat} (hbase : 1 < base)
    (hc : c ∈ Nat.toDigits base n) : ∃ d < base, c = Nat.digitChar d := by
  induction n using Nat.strongRecOn with
  | ind n ih =>
    rw [Nat.toDigits_eq_if hbase] at hc
    split at hc
    · next hlt => exact ⟨n, hlt, List.mem_singleton.mp hc⟩
    · next hge =>
      rcases List.mem_append.mp hc with hc | hc
      · exact ih _ (Nat.div_lt_self (by omega) hbase) hc
      · exact ⟨_, Nat.mod_lt n (by omega), List.mem_singleton.mp hc⟩

/-- Numbers are graphic, in every base whose digits have a character. -/
theorem isGraphic_toDigits {base : Nat} (hbase : 1 < base) (hle : base ≤ 16) (n : Nat) :
    IsGraphic (Nat.toDigits base n) := by
  intro c hc
  have hall : ∀ d : Fin 16, IsVisible (Nat.digitChar d.val) := by decide
  rcases exists_digitChar_of_mem_toDigits hbase hc with ⟨d, hd, rfl⟩
  exact hall ⟨d, by omega⟩

theorem isLine_toString (n : Nat) : IsLine (toString n).toList := by
  rw [Nat.toString_eq_ofList_toDigits, String.toList_ofList]
  exact (isGraphic_toDigits (by decide) (by decide) n).isLine

/-! ## Quoted texts -/

/-- Whether a character is hidden is known from its code point. -/
theorem isHidden_of_breaksLine (h : BreaksLine c) : isHidden c = true := by
  have hlow : ∀ n : Fin 160, BreaksLine (Char.ofNat n.val) → isHidden (Char.ofNat n.val) = true := by
    decide +kernel
  have hseparators : isHidden (Char.ofNat 0x2028) = true ∧ isHidden (Char.ofNat 0x2029) = true := by
    decide +kernel
  by_cases hc : c.toNat < 160
  · exact forall_of_lt (P := fun c => BreaksLine c → isHidden c = true) hlow hc h
  · have hcase : c.toNat = 0x2028 ∨ c.toNat = 0x2029 := by
      unfold BreaksLine at h
      omega
    rw [← Char.ofNat_toNat c]
    rcases hcase with hc | hc
    · rw [hc]
      exact hseparators.1
    · rw [hc]
      exact hseparators.2

theorem isLine_escape (c : Char) : IsLine (escape c) := by
  unfold escape
  split
  case h_7 =>
    split
    · -- the code point is all that is left of a hidden character
      rw [isLine_append, isLine_append]
      exact ⟨⟨by decide, (isGraphic_toDigits (by decide) (by decide) _).isLine⟩, by decide⟩
    · next hhidden =>
      intro d hd hbreak
      rw [List.mem_singleton.mp hd] at hbreak
      exact hhidden (isHidden_of_breaksLine hbreak)
  all_goals decide

/-- Whatever a text holds, it is quoted on one line. -/
theorem isLine_quoted (text : String) : IsLine (quoted text).toList := by
  have hinner : IsLine (text.toList.flatMap escape) := by
    rw [IsLine, List.forall_mem_flatMap]
    intro c _
    exact isLine_escape c
  rw [quoted, String.toList_ofList, ← List.singleton_append, isLine_append, isLine_append]
  exact ⟨by decide, hinner, by decide⟩

theorem isLine_quotedList (texts : List String) : IsLine (quotedList texts).toList := by
  rw [quotedList, isLine_string_append, isLine_string_append]
  refine ⟨⟨isLine_ofList (by decide), ?_⟩, isLine_ofList (by decide)⟩
  rw [String.toList_intercalate]
  apply forall_mem_intercalate (isLine_ofList (by decide))
  intro text htext
  rw [List.map_map, List.mem_map] at htext
  rcases htext with ⟨text, -, rfl⟩
  exact isLine_quoted text

end Readiness.Text
