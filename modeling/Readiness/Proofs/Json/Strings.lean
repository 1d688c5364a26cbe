import Mathlib.Data.List.Basic
import Readiness.Proofs.Json.Run

namespace Readiness.Json

/-! # Strings

The reader takes a string byte by byte and looks for characters only at the closing quote.
Every spelling is read as its text. The other way round, an escape gives whole characters, so
no bytes around it can join it to make up a character, and what was read is a spelling.
-/

variable {stack : List Frame} {purpose : Purpose} {content : List UInt8} {place : Place}

/-- What a byte does inside a string. -/
theorem step_text_eq_ok_iff {b : UInt8} {next : State} :
    State.step ⟨stack, .text purpose content place⟩ b = .ok next ↔
      (closesText b place = true ∧ ∃ text, Text.decode content.reverse = (text, []) ∧
        next = ⟨stack, afterText purpose (String.ofList text)⟩) ∨
      (closesText b place = false ∧ ∃ content' place', pushByte content b place =
        .ok (content', place') ∧ next = ⟨stack, .text purpose content' place'⟩) := by
  rw [State.step]
  simp only
  cases hc : closesText b place with
  | true =>
    rw [if_pos rfl, closeText]
    rcases hd : Text.decode content.reverse with ⟨text, _ | ⟨first, left⟩⟩
    · simp [eq_comm]
    · simp
  | false =>
    rw [if_neg (by simp)]
    rcases hp : pushByte content b place with cause | ⟨content', place'⟩
    · simp [atByte, Except.map, Except.mapError]
    · simp only [atByte, Except.map, Except.mapError, Except.ok.injEq, Bool.false_eq_true,
        false_and, true_and, false_or, Prod.mk.injEq]
      constructor
      · rintro rfl
        exact ⟨content', place', ⟨rfl, rfl⟩, rfl⟩
      · rintro ⟨_, _, ⟨rfl, rfl⟩, rfl⟩
        rfl

theorem step_text_of_pushByte {b : UInt8} {content' : List UInt8} (place' : Place)
    (hc : closesText b place = false) (hp : pushByte content b place = .ok (content', place')) :
    State.step ⟨stack, .text purpose content place⟩ b =
      .ok ⟨stack, .text purpose content' place'⟩ :=
  step_text_eq_ok_iff.mpr (.inr ⟨hc, content', place', hp, rfl⟩)

/-! ## Reading a spelling -/

/-- A byte that stands for itself in a string. -/
def IsPlain (b : UInt8) : Prop :=
  0x20 ≤ b.toNat ∧ Char.ofUInt8 b ≠ '"' ∧ Char.ofUInt8 b ≠ '\\'

theorem step_plain {b : UInt8} (h : IsPlain b) :
    State.step ⟨stack, .text purpose content .plain⟩ b =
      .ok ⟨stack, .text purpose (b :: content) .plain⟩ := by
  rcases h with ⟨hlow, hquote, hbackslash⟩
  have hcontrol : ¬ b < 0x20 := by
    rw [UInt8.lt_iff_toNat_lt]
    exact Nat.not_lt.mpr hlow
  apply step_text_of_pushByte .plain
  · rw [closesText, beq_eq_false_iff_ne]
    exact hquote
  · rw [pushByte, if_neg hbackslash, if_neg hcontrol]

theorem reaches_plain {bytes : List UInt8} (h : ∀ b ∈ bytes, IsPlain b) :
    Reaches ⟨stack, .text purpose content .plain⟩ bytes
      ⟨stack, .text purpose (bytes.reverse ++ content) .plain⟩ := by
  induction bytes generalizing content with
  | nil => exact .refl _
  | cons b bytes ih =>
    have hplain : ∀ b' ∈ bytes, IsPlain b' := by
      intro b' hb
      exact h b' (List.mem_cons_of_mem b hb)
    have hrest : Reaches ⟨stack, .text purpose (b :: content) .plain⟩ bytes _ := ih hplain
    rw [List.reverse_cons, List.append_assoc]
    exact .step (step_plain (h b List.mem_cons_self)) hrest

/-- The only byte of an ASCII character. -/
theorem ofUInt8_of_mem_encodeChar {c : Char} {b : UInt8} (h : c.toNat < 0x80)
    (hb : b ∈ String.utf8EncodeChar c) : Char.ofUInt8 b = c := by
  rw [Text.encodeChar_of_lt h, List.mem_singleton] at hb
  apply Char.toNat_inj.mp
  rw [toNat_ofUInt8, hb, Text.toNat_ofNat_of_lt (by omega)]

/-- No byte of a character beyond ASCII is one of the marks. -/
theorem isPlain_of_le {b : UInt8} (h : 0x80 ≤ b.toNat) : IsPlain b := by
  have hchar : ∀ mark : Char, mark.toNat < 0x80 → Char.ofUInt8 b ≠ mark := by
    rintro mark hmark rfl
    rw [toNat_ofUInt8] at hmark
    omega
  exact ⟨by omega, hchar '"' (by decide), hchar '\\' (by decide)⟩

theorem isPlain_of_mem_encodeChar {c : Char} {b : UInt8} (hlow : 0x20 ≤ c.toNat) (hquote : c ≠ '"')
    (hbackslash : c ≠ '\\') (hb : b ∈ String.utf8EncodeChar c) : IsPlain b := by
  by_cases hascii : c.toNat < 0x80
  · have hchar := ofUInt8_of_mem_encodeChar hascii hb
    rw [IsPlain, ← toNat_ofUInt8, hchar]
    exact ⟨hlow, hquote, hbackslash⟩
  · exact isPlain_of_le (Text.le_of_mem_encodeChar (by omega) hb)

theorem hexValue?_of_hexDigit {a b c d : UInt8} {p q r s : Nat} (ha : HexDigit a p)
    (hb : HexDigit b q) (hc : HexDigit c r) (hd : HexDigit d s) :
    hexValue? [d, c, b, a] = some (16 * (16 * (16 * p + q) + r) + s) := by
  simp [hexValue?, hexDigit?_ofUInt8_eq_some_iff.mpr ha, hexDigit?_ofUInt8_eq_some_iff.mpr hb,
    hexDigit?_ofUInt8_eq_some_iff.mpr hc, hexDigit?_ofUInt8_eq_some_iff.mpr hd]

/-- Where a `\u` escape begins: anywhere, or behind the first half of a pair. -/
def unitStart : Option Nat → Place
  | none => .plain
  | some leading => .pairBackslash leading

/-- A unit is read, up to what is made of it. -/
theorem reaches_unit {unit : Nat} {bytes content' : List UInt8} (leading : Option Nat)
    {place' : Place} (h : UnitSpelling unit bytes)
    (hp : pushUnit content leading unit = .ok (content', place')) :
    Reaches ⟨stack, .text purpose content (unitStart leading)⟩ bytes
      ⟨stack, .text purpose content' place'⟩ := by
  have hmark : Reaches ⟨stack, .text purpose content (unitStart leading)⟩ [byte '\\', byte 'u']
      ⟨stack, .text purpose content (.hex leading [])⟩ := by
    cases leading with
    | none =>
      exact .step (step_text_of_pushByte .escape rfl rfl)
        (.single (step_text_of_pushByte _ rfl rfl))
    | some leading =>
      exact .step (step_text_of_pushByte (.pairMark leading) rfl rfl)
        (.single (step_text_of_pushByte _ rfl rfl))
  cases h with
  | @mk a b c d p q r s ha hb hc hd =>
    refine hmark.trans ?_
    refine .step (step_text_of_pushByte (.hex leading [a]) rfl rfl) ?_
    refine .step (step_text_of_pushByte (.hex leading [b, a]) rfl rfl) ?_
    refine .step (step_text_of_pushByte (.hex leading [c, b, a]) rfl rfl) ?_
    refine .single (step_text_of_pushByte place' rfl ?_)
    rw [pushByte, if_neg (by simp), hexValue?_of_hexDigit ha hb hc hd]
    exact hp

theorem pushByte_escape_short {letter c : Char} (h : (letter, c) ∈ shortEscapes) :
    pushByte content (byte letter) .escape = .ok (pushChar content c, .plain) := by
  simp only [shortEscapes, List.mem_cons, Prod.mk.injEq, List.not_mem_nil, or_false] at h
  rcases h with ⟨rfl, rfl⟩ | ⟨rfl, rfl⟩ | ⟨rfl, rfl⟩ | ⟨rfl, rfl⟩ | ⟨rfl, rfl⟩ | ⟨rfl, rfl⟩ |
    ⟨rfl, rfl⟩ | ⟨rfl, rfl⟩ <;> rfl

theorem isLeading_iff {unit : Nat} : isLeading unit = true ↔ 0xD800 ≤ unit ∧ unit ≤ 0xDBFF := by
  simp [isLeading]

theorem isTrailing_iff {unit : Nat} : isTrailing unit = true ↔ 0xDC00 ≤ unit ∧ unit ≤ 0xDFFF := by
  simp [isTrailing]

/-- An escape is read as its character. -/
theorem reaches_escape {c : Char} {bytes : List UInt8} (h : Escape c bytes) :
    Reaches ⟨stack, .text purpose content .plain⟩ bytes
      ⟨stack, .text purpose (pushChar content c) .plain⟩ := by
  cases h with
  | short h =>
    exact .step (step_text_of_pushByte .escape rfl rfl)
      (.single (step_text_of_pushByte .plain rfl (pushByte_escape_short h)))
  | unit h hrange =>
    refine reaches_unit none h ?_
    rw [pushUnit, if_neg, if_neg]
    · rw [isLeading_iff]
      omega
    · rw [isTrailing_iff]
      omega
  | @pair leading trailing first second h hleading h' htrailing =>
    have hfirst : Reaches ⟨stack, .text purpose content .plain⟩ first
        ⟨stack, .text purpose content (.pairBackslash leading)⟩ := by
      refine reaches_unit none h ?_
      rw [pushUnit, if_neg, if_pos (isLeading_iff.mpr hleading)]
      rw [isTrailing_iff]
      omega
    refine hfirst.trans (reaches_unit (some leading) h' ?_)
    rw [pushUnit, if_pos (isTrailing_iff.mpr htrailing)]
    rfl

/-- A spelling of characters is read as their encoding. -/
theorem reaches_chars {text : List Char} {bytes : List UInt8} (h : CharsSpelling text bytes) :
    Reaches ⟨stack, .text purpose content .plain⟩ bytes
      ⟨stack, .text purpose ((text.flatMap String.utf8EncodeChar).reverse ++ content) .plain⟩ := by
  induction h generalizing content with
  | nil => exact .refl _
  | @cons c text bytes rest hchar _ ih =>
    have hfirst : Reaches ⟨stack, .text purpose content .plain⟩ bytes
        ⟨stack, .text purpose (pushChar content c) .plain⟩ := by
      cases hchar with
      | raw hlow hquote hbackslash =>
        apply reaches_plain
        intro b hb
        exact isPlain_of_mem_encodeChar hlow hquote hbackslash hb
      | escaped hescape => exact reaches_escape hescape
    rw [List.flatMap_cons, List.reverse_append, List.append_assoc]
    exact hfirst.trans ih

/-- A string behind its first quote is read as its text. -/
theorem reaches_string {text : String} {bytes : List UInt8}
    (h : CharsSpelling text.toList bytes) :
    Reaches ⟨stack, .text purpose [] .plain⟩ (bytes ++ [byte '"'])
      ⟨stack, afterText purpose text⟩ := by
  -- the quote decodes what was kept, which is an encoding
  refine (reaches_chars h).snoc (step_text_eq_ok_iff.mpr (.inl ⟨rfl, text.toList, ?_, ?_⟩))
  · rw [List.append_nil, List.reverse_reverse, Text.decode_encode]
  · rw [String.ofList_toList]

/-! ## What was read -/

/-- Content that was made of bytes that stand for themselves, and of escapes. Whether the
former are characters is still open. -/
inductive Written : List UInt8 → List UInt8 → Prop where
  | nil : Written [] []
  | plain {b : UInt8} {content source : List UInt8} :
      IsPlain b → Written content source → Written (b :: content) (b :: source)
  | escape {c : Char} {bytes content source : List UInt8} :
      Escape c bytes → Written content source →
      Written (String.utf8EncodeChar c ++ content) (bytes ++ source)

theorem Written.append {content more source rest : List UInt8} (h : Written content source)
    (h' : Written more rest) : Written (content ++ more) (source ++ rest) := by
  induction h with
  | nil => exact h'
  | plain hb _ ih => exact .plain hb ih
  | escape hc _ ih =>
    rw [List.append_assoc, List.append_assoc]
    exact .escape hc ih

/-- The bytes inside a group are never those of an escape. -/
theorem Written.of_tail_append {tail content source : List UInt8}
    (htail : ∀ b ∈ tail, Text.IsTail b) (h : Written (tail ++ content) source) :
    ∃ rest, source = tail ++ rest ∧ Written content rest := by
  induction tail generalizing source with
  | nil => exact ⟨source, rfl, h⟩
  | cons b tail ih =>
    rw [List.cons_append] at h
    generalize hwhole : b :: (tail ++ content) = whole at h
    cases h with
    | nil => simp at hwhole
    | plain hb h =>
      simp only [List.cons.injEq] at hwhole
      rcases hwhole with ⟨rfl, rfl⟩
      have htail' : ∀ b' ∈ tail, Text.IsTail b' := by
        intro b' hb'
        exact htail b' (List.mem_cons_of_mem _ hb')
      rcases ih htail' h with ⟨rest, rfl, hrest⟩
      exact ⟨rest, rfl, hrest⟩
    | @escape c _ _ _ hc h =>
      -- an escape gives a whole group, and no first byte of one is a tail
      rcases Text.encodeChar_group c with ⟨lead, others, he, hgroup⟩
      rw [he, List.cons_append, List.cons.injEq] at hwhole
      rcases hwhole with ⟨rfl, -⟩
      exact absurd (htail b List.mem_cons_self) hgroup.lead

/-- A character whose first byte stands for itself stands for itself. -/
theorem raw_of_isPlain {c : Char} {lead : UInt8} {tail : List UInt8} (hlead : IsPlain lead)
    (he : String.utf8EncodeChar c = lead :: tail) :
    CharSpelling c (String.utf8EncodeChar c) := by
  by_cases hascii : c.toNat < 0x80
  · have hchar : Char.ofUInt8 lead = c :=
      ofUInt8_of_mem_encodeChar hascii (he ▸ List.mem_cons_self)
    rw [IsPlain, ← toNat_ofUInt8, hchar] at hlead
    exact .raw hlead.1 hlead.2.1 hlead.2.2
  · refine .raw (by omega) ?_ ?_
    · rintro rfl
      exact hascii (by decide)
    · rintro rfl
      exact hascii (by decide)

/-- Content that is a text was spelled character by character. -/
theorem Written.chars {text : List Char} {source : List UInt8}
    (h : Written (text.flatMap String.utf8EncodeChar) source) : CharsSpelling text source := by
  induction text generalizing source with
  | nil =>
    rw [List.flatMap_nil] at h
    generalize hwhole : ([] : List UInt8) = whole at h
    cases h with
    | nil => exact .nil
    | plain _ _ => simp at hwhole
    | escape _ _ => simp [String.utf8EncodeChar_ne_nil] at hwhole
  | cons c text ih =>
    rw [List.flatMap_cons] at h
    generalize hwhole : String.utf8EncodeChar c ++ text.flatMap String.utf8EncodeChar = whole at h
    rcases Text.encodeChar_group c with ⟨lead, tail, he, hgroup⟩
    cases h with
    | nil => simp [String.utf8EncodeChar_ne_nil] at hwhole
    | plain hb h =>
      -- the first byte stands for itself, so the others of its group do as well
      rw [he, List.cons_append, List.cons.injEq] at hwhole
      rcases hwhole with ⟨rfl, rfl⟩
      rcases h.of_tail_append hgroup.tail with ⟨rest, rfl, hrest⟩
      rw [← List.cons_append, ← he]
      exact .cons (raw_of_isPlain hb he) (ih hrest)
    | escape hc h =>
      rcases Text.encodeChar_append_inj hwhole with ⟨rfl, rfl⟩
      exact .cons (.escaped hc) (ih h)

/-- What was read of an escape that is not complete yet. -/
inductive Unfinished : Place → List UInt8 → Prop where
  | plain : Unfinished .plain []
  | escape : Unfinished .escape [byte '\\']
  | hex {seen : List UInt8} : seen.length ≤ 3 →
      Unfinished (.hex none seen) (byte '\\' :: byte 'u' :: seen.reverse)
  | pairBackslash {leading : Nat} {first : List UInt8} :
      UnitSpelling leading first → 0xD800 ≤ leading ∧ leading ≤ 0xDBFF →
      Unfinished (.pairBackslash leading) first
  | pairMark {leading : Nat} {first : List UInt8} :
      UnitSpelling leading first → 0xD800 ≤ leading ∧ leading ≤ 0xDBFF →
      Unfinished (.pairMark leading) (first ++ [byte '\\'])
  | pairHex {leading : Nat} {first seen : List UInt8} :
      UnitSpelling leading first → 0xD800 ≤ leading ∧ leading ≤ 0xDBFF → seen.length ≤ 3 →
      Unfinished (.hex (some leading) seen)
        (first ++ byte '\\' :: byte 'u' :: seen.reverse)

/-- The bytes inside a string up to a place: what they wrote, and an escape that is not
complete yet. -/
inductive TextRead : List UInt8 → Place → List UInt8 → Prop where
  | mk {content written pending : List UInt8} {place : Place} :
      Written content.reverse written → Unfinished place pending →
      TextRead content place (written ++ pending)

theorem TextRead.written {content source : List UInt8} (h : TextRead content .plain source) :
    Written content.reverse source := by
  cases h with
  | mk hw hu =>
    cases hu
    rwa [List.append_nil]

theorem Written.escaped {c : Char} {written bytes : List UInt8}
    (h : Written content.reverse written) (hc : Escape c bytes) :
    Written (pushChar content c).reverse (written ++ bytes) := by
  have hchar := h.append (.escape hc .nil)
  rw [List.append_nil, List.append_nil] at hchar
  rw [pushChar, List.reverse_append, List.reverse_reverse]
  exact hchar

theorem mem_shortEscapes_of_shortEscape? {letter c : Char} (h : shortEscape? letter = some c) :
    (letter, c) ∈ shortEscapes := by
  unfold shortEscape? at h
  split at h <;> cases h <;> decide

theorem unitSpelling_of_hexValue? {seen : List UInt8} {d : UInt8} {unit : Nat}
    (hlen : seen.length = 3) (h : hexValue? (d :: seen) = some unit) :
    UnitSpelling unit (byte '\\' :: byte 'u' :: (seen.reverse ++ [d])) := by
  rcases List.length_eq_three.mp hlen with ⟨c, b, a, rfl⟩
  simp only [hexValue?, Option.bind_eq_bind, Option.bind_eq_some_iff,
    hexDigit?_ofUInt8_eq_some_iff, Option.pure_def, Option.some.injEq] at h
  rcases h with ⟨_, ⟨_, ⟨_, ⟨_, rfl, p, ha, rfl⟩, q, hb, rfl⟩, r, hc, rfl⟩, s, hd, rfl⟩
  have hunit := UnitSpelling.mk ha hb hc hd
  rwa [← Nat.zero_add p, ← Nat.mul_zero 16] at hunit

/-- The last digit of a unit. A unit that is neither half of a pair is a character; one that
can be the first half waits for the other. -/
theorem TextRead.pushUnit {written first : List UInt8} {unit : Nat}
    (hw : Written content.reverse written) (hu : UnitSpelling unit first)
    {content' : List UInt8} {place' : Place}
    (hp : Json.pushUnit content none unit = .ok (content', place')) :
    TextRead content' place' (written ++ first) := by
  rw [Json.pushUnit] at hp
  split at hp
  · simp at hp
  · next htrailing =>
    rw [isTrailing_iff] at htrailing
    split at hp
    · next hleading =>
      cases hp
      exact .mk hw (.pairBackslash hu (isLeading_iff.mp hleading))
    · next hleading =>
      rw [isLeading_iff] at hleading
      cases hp
      rw [← List.append_nil (written ++ first)]
      exact .mk (hw.escaped (.unit hu (by omega))) .plain

/-- The last digit of the second half of a pair. -/
theorem TextRead.pushPair {written first second : List UInt8} {leading unit : Nat}
    (hw : Written content.reverse written) (hl : UnitSpelling leading first)
    (hrange : 0xD800 ≤ leading ∧ leading ≤ 0xDBFF) (hu : UnitSpelling unit second)
    {content' : List UInt8} {place' : Place}
    (hp : Json.pushUnit content (some leading) unit = .ok (content', place')) :
    TextRead content' place' (written ++ (first ++ second)) := by
  rw [Json.pushUnit] at hp
  split at hp
  · next htrailing =>
    simp only [Except.ok.injEq, Prod.mk.injEq, pairChar] at hp
    rcases hp with ⟨rfl, rfl⟩
    rw [← List.append_nil (written ++ (first ++ second))]
    exact .mk (hw.escaped (.pair hl hrange hu (isTrailing_iff.mp htrailing))) .plain
  · simp at hp

/-- One byte inside a string. -/
theorem TextRead.pushByte {source content' : List UInt8} {place' : Place} {b : UInt8}
    (h : TextRead content place source) (hc : closesText b place = false)
    (hp : Json.pushByte content b place = .ok (content', place')) :
    TextRead content' place' (source ++ [b]) := by
  rcases h with ⟨hw, hu⟩
  rw [List.append_assoc]
  cases hu with
  | plain =>
    rw [Json.pushByte] at hp
    rw [closesText, beq_eq_false_iff_ne] at hc
    split at hp
    · next hback =>
      cases hp
      rcases eq_byte_of_ofUInt8 hback with rfl
      exact .mk hw .escape
    · next hback =>
      split at hp
      · simp at hp
      · next hcontrol =>
        rw [UInt8.lt_iff_toNat_lt, Nat.not_lt] at hcontrol
        cases hp
        have hplain := hw.append (.plain ⟨hcontrol, hc, hback⟩ .nil)
        rw [← List.reverse_cons] at hplain
        simpa using TextRead.mk hplain .plain
  | escape =>
    rw [Json.pushByte] at hp
    split at hp
    · next hmark =>
      cases hp
      rcases eq_byte_of_ofUInt8 hmark with rfl
      exact .mk hw (.hex (Nat.zero_le 3))
    · split at hp
      · next c hshort =>
        cases hp
        have hescape := hw.escaped (.short (mem_shortEscapes_of_shortEscape? hshort))
        rw [byte_ofUInt8] at hescape
        simpa using TextRead.mk hescape .plain
      · simp at hp
  | @hex seen hlen =>
    rw [Json.pushByte] at hp
    split at hp
    · next hshort =>
      cases hp
      have hmore : Unfinished (.hex none (b :: seen)) _ := .hex hshort
      rw [List.reverse_cons] at hmore
      exact .mk hw hmore
    · next hlong =>
      split at hp
      · next unit hunit =>
        exact TextRead.pushUnit hw (unitSpelling_of_hexValue? (by omega) hunit) hp
      · simp at hp
  | pairBackslash h hrange =>
    rw [Json.pushByte] at hp
    split at hp
    · next hback =>
      cases hp
      rcases eq_byte_of_ofUInt8 hback with rfl
      exact .mk hw (.pairMark h hrange)
    · simp at hp
  | @pairMark leading first h hrange =>
    rw [Json.pushByte] at hp
    split at hp
    · next hmark =>
      cases hp
      rcases eq_byte_of_ofUInt8 hmark with rfl
      have hmore : Unfinished (.hex (some leading) []) _ := .pairHex h hrange (Nat.zero_le 3)
      rw [List.append_assoc]
      exact .mk hw hmore
    · simp at hp
  | @pairHex leading first seen h hrange hlen =>
    rw [Json.pushByte] at hp
    rw [List.append_assoc]
    split at hp
    · next hshort =>
      cases hp
      have hmore : Unfinished (.hex (some leading) (b :: seen)) _ := .pairHex h hrange hshort
      rw [List.reverse_cons] at hmore
      exact .mk hw hmore
    · next hlong =>
      split at hp
      · next unit hunit =>
        exact TextRead.pushPair hw h hrange (unitSpelling_of_hexValue? (by omega) hunit) hp
      · simp at hp

/-- What stands between two quotes is a spelling of the text that was read. -/
theorem TextRead.chars {source : List UInt8} {text : List Char}
    (h : TextRead content .plain source) (hd : Text.decode content.reverse = (text, [])) :
    CharsSpelling text source := by
  have hw := h.written
  rw [Text.decode_eq_iff.mp hd] at hw
  exact hw.chars

end Readiness.Json
