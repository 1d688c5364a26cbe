import Readiness.Proofs.Text.Line
import Readiness.Text.Hex

namespace Readiness.Text

/-! # Texts that say where they end

A quoted text can be told from whatever follows it, so that two values are never written alike.
Each character is read back from its form, which is how it is known; the closing quote is the form
of none. A list of quoted texts says where it ends in the same way.
-/

/-- Values are written in such a way that what is written says where it ends, and which value it
is. -/
def IsPrefixFree {α : Type} (write : α → String) : Prop :=
  ∀ a b rest rest', write a ++ rest = write b ++ rest' → a = b ∧ rest = rest'

theorem IsPrefixFree.inj {α : Type} {write : α → String} (h : IsPrefixFree write) {a b : α}
    (hab : write a = write b) : a = b :=
  (h a b "" "" (congrArg (· ++ "") hab)).1

variable {a b rest rest' : List Char} {p : Char → Bool}

/-- What is written with some characters only ends before the first other one. -/
theorem eq_of_append_eq (ha : ∀ c ∈ a, p c = true) (hb : ∀ c ∈ b, p c = true)
    (hrest : ∀ c, rest.head? = some c → p c = false)
    (hrest' : ∀ c, rest'.head? = some c → p c = false) (h : a ++ rest = b ++ rest') :
    a = b ∧ rest = rest' := by
  have hstop : ∀ text : List Char, (∀ c, text.head? = some c → p c = false) →
      text.takeWhile p = [] := by
    intro text htext
    cases text with
    | nil => rfl
    | cons c text => rw [List.takeWhile_cons_of_neg (by simp [htext c rfl])]
  have hsame : a = b := by
    have htaken := congrArg (List.takeWhile p) h
    rwa [List.takeWhile_append_of_pos ha, List.takeWhile_append_of_pos hb, hstop rest hrest,
      hstop rest' hrest', List.append_nil, List.append_nil] at htaken
  rw [hsame] at h
  exact ⟨hsame, List.append_cancel_left h⟩

/-! ## Characters -/

/-- The characters that have a form of two, by the second one. -/
def shortForms : List (Char × Char) :=
  [('0', '\x00'), ('t', '\t'), ('r', '\r'), ('n', '\n'), ('"', '"'), ('\\', '\\')]

/-- The number that hexadecimal digits stand for. -/
def hexNumber (digits : List Char) : Nat :=
  digits.foldl (fun n c => 16 * n + (hexDigit? c).getD 0) 0

/-- The character whose form a text begins with, and the text behind the form. No form begins with a
quote. -/
def unescape? : List Char → Option (Char × List Char)
  | [] => none
  | '"' :: _ => none
  | '\\' :: 'u' :: '{' :: text =>
    some (Char.ofNat (hexNumber (text.takeWhile (· != '}'))), (text.dropWhile (· != '}')).tail)
  | '\\' :: c :: text => (shortForms.lookup c).map fun d => (d, text)
  | c :: text => some (c, text)

theorem hexDigit?_digitChar {d : Nat} (h : d < 16) : hexDigit? (Nat.digitChar d) = some d := by
  have hall : ∀ d : Fin 16, hexDigit? (Nat.digitChar d.val) = some d.val := by decide
  exact hall ⟨d, h⟩

theorem hexNumber_toDigits (n : Nat) : hexNumber (Nat.toDigits 16 n) = n := by
  induction n using Nat.strongRecOn with
  | ind n ih =>
    rw [Nat.toDigits_eq_if (by decide)]
    split
    · next hlt => simp [hexNumber, hexDigit?_digitChar hlt]
    · next hge =>
      have hfront := ih (n / 16) (Nat.div_lt_self (by omega) (by decide))
      rw [hexNumber] at hfront
      rw [hexNumber, List.foldl_concat, hfront, hexDigit?_digitChar (Nat.mod_lt n (by decide)),
        Option.getD_some]
      exact Nat.div_add_mod n 16

theorem unescape?_codePoint (n : Nat) (rest : List Char) :
    unescape? ('\\' :: 'u' :: '{' :: (Nat.toDigits 16 n ++ '}' :: rest)) =
      some (Char.ofNat n, rest) := by
  have hdigits : ∀ c ∈ Nat.toDigits 16 n, (c != '}') = true := by
    intro c hc
    have hall : ∀ d : Fin 16, (Nat.digitChar d.val != '}') = true := by decide
    rcases exists_digitChar_of_mem_toDigits (by decide) hc with ⟨d, hd, rfl⟩
    exact hall ⟨d, hd⟩
  simp only [unescape?]
  rw [List.takeWhile_append_of_pos hdigits, List.dropWhile_append_of_pos hdigits]
  simp [hexNumber_toDigits]

/-- A character is read back from its form, whatever follows. -/
theorem unescape?_escape_append (c : Char) (rest : List Char) :
    unescape? (escape c ++ rest) = some (c, rest) := by
  unfold escape
  split
  case h_7 hquote hbackslash =>
    split
    · rw [List.append_assoc, List.append_assoc]
      exact (unescape?_codePoint c.toNat rest).trans (by rw [Char.ofNat_toNat])
    · -- what stands for itself is no quote and no backslash
      rw [List.singleton_append]
      unfold unescape?
      split
      case h_1 heq => cases heq
      case h_5 heq =>
        cases heq
        rfl
      all_goals
        next heq =>
        cases heq
        contradiction
  all_goals rfl

/-! ## Quoted texts -/

theorem flatMap_escape_inj {text text' : List Char}
    (h : text.flatMap escape ++ '"' :: rest = text'.flatMap escape ++ '"' :: rest') :
    text = text' ∧ rest = rest' := by
  induction text generalizing text' with
  | nil =>
    cases text' with
    | nil => exact ⟨rfl, (List.cons.inj h).2⟩
    | cons c' text' =>
      -- no form begins with the quote
      rw [List.flatMap_cons, List.append_assoc] at h
      have hread := unescape?_escape_append c' (text'.flatMap escape ++ '"' :: rest')
      rw [← h] at hread
      cases hread
  | cons c text ih =>
    rw [List.flatMap_cons, List.append_assoc] at h
    have hread := unescape?_escape_append c (text.flatMap escape ++ '"' :: rest)
    rw [h] at hread
    cases text' with
    | nil => cases hread
    | cons c' text' =>
      rw [List.flatMap_cons, List.append_assoc, unescape?_escape_append, Option.some.injEq,
        Prod.mk.injEq] at hread
      rcases ih hread.2.symm with ⟨rfl, hrest⟩
      exact ⟨by rw [hread.1], hrest⟩

theorem toList_quoted_append (text : String) (rest : List Char) :
    (quoted text).toList ++ rest = '"' :: (text.toList.flatMap escape ++ '"' :: rest) := by
  rw [quoted, String.toList_ofList, List.cons_append, List.append_assoc, List.singleton_append]

theorem quoted_append_inj {text text' : String}
    (h : (quoted text).toList ++ rest = (quoted text').toList ++ rest') :
    text = text' ∧ rest = rest' := by
  rw [toList_quoted_append, toList_quoted_append] at h
  rcases flatMap_escape_inj (List.cons.inj h).2 with ⟨htext, hrest⟩
  exact ⟨String.toList_inj.mp htext, hrest⟩

/-- What a text is quoted as is told from what follows. -/
theorem isPrefixFree_quoted : IsPrefixFree quoted := by
  intro text text' rest rest' h
  have hlists := congrArg String.toList h
  rw [String.toList_append, String.toList_append] at hlists
  rcases quoted_append_inj hlists with ⟨htext, hrest⟩
  exact ⟨htext, String.toList_inj.mp hrest⟩

/-! ## Lists of quoted texts -/

/-- What stands behind a quoted text in a list: the other texts, and the bracket that closes it. -/
def listEnd (rest : List Char) : List String → List Char
  | [] => ']' :: rest
  | text :: texts => ',' :: ' ' :: ((quoted text).toList ++ listEnd rest texts)

theorem listEnd_inj {texts texts' : List String} (h : listEnd rest texts = listEnd rest' texts') :
    texts = texts' ∧ rest = rest' := by
  induction texts generalizing texts' with
  | nil =>
    cases texts' with
    | nil => exact ⟨rfl, (List.cons.inj h).2⟩
    | cons text' texts' => cases h
  | cons text texts ih =>
    cases texts' with
    | nil => cases h
    | cons text' texts' =>
      rcases quoted_append_inj (List.cons.inj (List.cons.inj h).2).2 with ⟨rfl, hbehind⟩
      rcases ih hbehind with ⟨rfl, hrest⟩
      exact ⟨rfl, hrest⟩

theorem intercalate_quoted_append (text : String) (texts : List String) (rest : List Char) :
    [',', ' '].intercalate ((text :: texts).map fun text => (quoted text).toList) ++ ']' :: rest =
      (quoted text).toList ++ listEnd rest texts := by
  induction texts generalizing text with
  | nil => simp [listEnd]
  | cons second texts ih =>
    have hsecond := ih second
    rw [List.map_cons] at hsecond
    rw [List.map_cons, List.map_cons, List.intercalate_cons_cons, List.append_assoc,
      List.append_assoc, hsecond]
    rfl

/-- The closing bracket is not the beginning of a quoted text, so an empty list is told too. -/
theorem intercalate_quoted_inj {texts texts' : List String}
    (h : [',', ' '].intercalate (texts.map fun text => (quoted text).toList) ++ ']' :: rest =
      [',', ' '].intercalate (texts'.map fun text => (quoted text).toList) ++ ']' :: rest') :
    texts = texts' ∧ rest = rest' := by
  cases texts with
  | nil =>
    cases texts' with
    | nil => exact ⟨rfl, (List.cons.inj h).2⟩
    | cons text' texts' =>
      rw [intercalate_quoted_append, toList_quoted_append] at h
      cases h
  | cons text texts =>
    rw [intercalate_quoted_append] at h
    cases texts' with
    | nil =>
      rw [toList_quoted_append] at h
      cases h
    | cons text' texts' =>
      rw [intercalate_quoted_append] at h
      rcases quoted_append_inj h with ⟨rfl, hbehind⟩
      rcases listEnd_inj hbehind with ⟨rfl, hrest⟩
      exact ⟨rfl, hrest⟩

theorem toList_quotedList_append (texts : List String) (rest : List Char) :
    (quotedList texts).toList ++ rest =
      '[' :: ([',', ' '].intercalate (texts.map fun text => (quoted text).toList) ++ ']' :: rest) := by
  rw [quotedList, String.toList_append, String.toList_append, String.toList_intercalate,
    List.map_map]
  simp [Function.comp_def]

/-- What a list of texts is shown as is told from what follows. -/
theorem isPrefixFree_quotedList : IsPrefixFree quotedList := by
  intro texts texts' rest rest' h
  have hlists := congrArg String.toList h
  rw [String.toList_append, String.toList_append, toList_quotedList_append,
    toList_quotedList_append] at hlists
  rcases intercalate_quoted_inj (List.cons.inj hlists).2 with ⟨htexts, hrest⟩
  exact ⟨htexts, String.toList_inj.mp hrest⟩

/-! ## Numbers -/

/-- A number is told from what follows, if that does not begin with a digit. -/
theorem toString_append_inj {m n : Nat} {separator : String} {rest rest' : String}
    (hseparator : (separator.toList.head?.any fun c => !c.isDigit) = true)
    (h : toString m ++ (separator ++ rest) = toString n ++ (separator ++ rest')) :
    m = n ∧ rest = rest' := by
  have hdigits : ∀ n : Nat, ∀ c ∈ Nat.toDigits 10 n, c.isDigit = true := by
    intro n c hc
    exact Nat.isDigit_of_mem_toDigits (by decide) (by decide) hc
  have hbehind : ∀ rest : String, ∀ c, (separator ++ rest).toList.head? = some c →
      c.isDigit = false := by
    intro rest c hc
    rw [Option.any_eq_true] at hseparator
    rcases hseparator with ⟨first, hfirst, hnot⟩
    rw [String.toList_append, List.head?_append, hfirst, Option.some_or, Option.some.injEq] at hc
    rwa [hc, Bool.not_eq_true'] at hnot
  have htext : ∀ (n : Nat) (rest : String),
      (toString n ++ rest).toList = Nat.toDigits 10 n ++ rest.toList := by
    intro n rest
    rw [String.toList_append, Nat.toString_eq_ofList_toDigits, String.toList_ofList]
  have hlists := congrArg String.toList h
  rw [htext, htext] at hlists
  rcases eq_of_append_eq (hdigits m) (hdigits n) (hbehind rest) (hbehind rest') hlists with
    ⟨hnumber, hrest⟩
  have hvalue := congrArg (fun digits => Nat.ofDigitChars 10 digits 0) hnumber
  simp only [Nat.ofDigitChars_ten_toDigits] at hvalue
  exact ⟨hvalue, (String.append_right_inj separator).mp (String.toList_inj.mp hrest)⟩

end Readiness.Text
