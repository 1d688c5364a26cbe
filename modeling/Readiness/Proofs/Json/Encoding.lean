import Readiness.Proofs.Json.Run

namespace Readiness.Json

/-! # Spellings are text

The grammar speaks of bytes, and asks for characters only between quotes. All its other bytes
are ASCII, so a spelling as a whole is the encoding of a text. It begins with an ASCII byte,
which rules out a byte order mark.
-/

variable {value : Json} {bytes : List UInt8}

/-- The encoding of a text. -/
def IsEncoded (bytes : List UInt8) : Prop :=
  ∃ text : List Char, bytes = text.flatMap String.utf8EncodeChar

/-- An ASCII byte. -/
def IsAscii (b : UInt8) : Prop := b.toNat < 0x80

theorem isEncoded_of_isAscii (h : ∀ b ∈ bytes, IsAscii b) : IsEncoded bytes := by
  refine ⟨bytes.map Char.ofUInt8, ?_⟩
  induction bytes with
  | nil => rfl
  | cons b bytes ih =>
    have hb : (Char.ofUInt8 b).toNat < 0x80 := h b List.mem_cons_self
    have hrest : ∀ b' ∈ bytes, IsAscii b' := by
      intro b' hb'
      exact h b' (List.mem_cons_of_mem b hb')
    rw [List.map_cons, List.flatMap_cons, Text.encodeChar_of_lt hb, toNat_ofUInt8,
      UInt8.ofNat_toNat, ← ih hrest]
    rfl

theorem IsEncoded.append {rest : List UInt8} (h : IsEncoded bytes) (h' : IsEncoded rest) :
    IsEncoded (bytes ++ rest) := by
  rcases h with ⟨text, rfl⟩
  rcases h' with ⟨more, rfl⟩
  exact ⟨text ++ more, List.flatMap_append.symm⟩

theorem IsEncoded.cons {b : UInt8} (hb : IsAscii b) (h : IsEncoded bytes) :
    IsEncoded (b :: bytes) := by
  have hone : IsEncoded [b] := by
    apply isEncoded_of_isAscii
    intro b' hb'
    rw [List.mem_singleton.mp hb']
    exact hb
  exact hone.append h

theorem isAscii_byte {c : Char} (h : c.toNat < 0x80) : IsAscii (byte c) := by
  rw [IsAscii, toNat_byte (by omega)]
  exact h

/-- A token between two marks. -/
theorem IsEncoded.between {first last : Char} (hfirst : first.toNat < 0x80)
    (hlast : last.toNat < 0x80) (h : IsEncoded bytes) :
    IsEncoded (byte first :: bytes ++ [byte last]) :=
  (IsEncoded.cons (isAscii_byte hfirst) h).append (.cons (isAscii_byte hlast) ⟨[], rfl⟩)

/-- Two tokens with a mark between them. -/
theorem IsEncoded.separated {mark : Char} {rest : List UInt8} (hmark : mark.toNat < 0x80)
    (h : IsEncoded bytes) (h' : IsEncoded rest) : IsEncoded (bytes ++ byte mark :: rest) :=
  h.append (.cons (isAscii_byte hmark) h')

/-! ## Tokens -/

theorem IsBlanks.isAscii (h : IsBlanks bytes) : ∀ b ∈ bytes, IsAscii b := by
  intro b hb
  rcases h b hb with rfl | rfl | rfl | rfl <;> exact isAscii_byte (by decide)

theorem HexDigit.isAscii {b : UInt8} {n : Nat} (h : HexDigit b n) : IsAscii b := by
  have hzero : '0'.toNat = 48 := rfl
  have hlower : 'a'.toNat = 97 := rfl
  have hupper : 'A'.toNat = 65 := rfl
  rw [IsAscii]
  cases h with
  | decimal hn =>
    rw [Text.toNat_ofNat_of_lt (by omega)]
    omega
  | lower hn =>
    rw [Text.toNat_ofNat_of_lt (by omega)]
    omega
  | upper hn =>
    rw [Text.toNat_ofNat_of_lt (by omega)]
    omega

theorem UnitSpelling.isAscii {unit : Nat} (h : UnitSpelling unit bytes) :
    ∀ b ∈ bytes, IsAscii b := by
  cases h with
  | mk ha hb hc hd =>
    have hmark : IsAscii (byte '\\') ∧ IsAscii (byte 'u') :=
      ⟨isAscii_byte (by decide), isAscii_byte (by decide)⟩
    simpa using ⟨hmark.1, hmark.2, ha.isAscii, hb.isAscii, hc.isAscii, hd.isAscii⟩

theorem Escape.isAscii {c : Char} (h : Escape c bytes) : ∀ b ∈ bytes, IsAscii b := by
  cases h with
  | short h =>
    have hletters : ∀ pair ∈ shortEscapes, pair.1.toNat < 0x80 := by decide
    have hmark : IsAscii (byte '\\') := isAscii_byte (by decide)
    simpa using ⟨hmark, isAscii_byte (hletters _ h)⟩
  | unit h _ => exact h.isAscii
  | pair h _ h' _ =>
    intro b hb
    rcases List.mem_append.mp hb with hb | hb
    · exact h.isAscii b hb
    · exact h'.isAscii b hb

theorem CharsSpelling.isEncoded {text : List Char} (h : CharsSpelling text bytes) :
    IsEncoded bytes := by
  induction h with
  | nil => exact ⟨[], rfl⟩
  | @cons c _ _ _ hchar _ ih =>
    refine IsEncoded.append ?_ ih
    cases hchar with
    | raw => exact ⟨[c], by simp⟩
    | escaped hescape => exact isEncoded_of_isAscii hescape.isAscii

theorem StringSpelling.isEncoded {text : String} (h : StringSpelling text bytes) :
    IsEncoded bytes := by
  cases h with
  | mk hchars => exact .between (by decide) (by decide) hchars.isEncoded

theorem isAscii_digitByte (d : Fin 10) : IsAscii (digitByte d) :=
  (HexDigit.decimal d.isLt).isAscii

theorem isAscii_of_mem_digitBytes {digits : List (Fin 10)} {b : UInt8}
    (hb : b ∈ digitBytes digits) : IsAscii b := by
  rcases List.mem_map.mp hb with ⟨d, -, rfl⟩
  exact isAscii_digitByte d

theorem SignSpelling.isAscii {negative : Bool} (h : SignSpelling negative bytes) :
    ∀ b ∈ bytes, IsAscii b := by
  cases h with
  | positive => simp
  | negative => simpa using isAscii_byte (c := '-') (by decide)

theorem ExponentSignSpelling.isAscii {negative : Bool} (h : ExponentSignSpelling negative bytes) :
    ∀ b ∈ bytes, IsAscii b := by
  cases h with
  | unsigned => simp
  | positive => simpa using isAscii_byte (c := '+') (by decide)
  | negative => simpa using isAscii_byte (c := '-') (by decide)

theorem FractionSpelling.isAscii {digits : List (Fin 10)} (h : FractionSpelling digits bytes) :
    ∀ b ∈ bytes, IsAscii b := by
  cases h with
  | absent => simp
  | present =>
    intro b hb
    rcases List.mem_cons.mp hb with rfl | hb
    · exact isAscii_byte (by decide)
    · exact isAscii_of_mem_digitBytes hb

theorem ExponentSpelling.isAscii {exponent : Option Int} (h : ExponentSpelling exponent bytes) :
    ∀ b ∈ bytes, IsAscii b := by
  cases h with
  | absent => simp
  | present hmark hsign =>
    intro b hb
    rcases List.mem_cons.mp hb with rfl | hb
    · rcases hmark with rfl | rfl <;> exact isAscii_byte (by decide)
    · rcases List.mem_append.mp hb with hb | hb
      · exact hsign.isAscii b hb
      · exact isAscii_of_mem_digitBytes hb

theorem NumeralSpelling.isAscii {numeral : Numeral} (h : NumeralSpelling numeral bytes) :
    ∀ b ∈ bytes, IsAscii b := by
  cases h with
  | mk hsign _ hfraction hexponent =>
    intro b hb
    simp only [List.mem_append] at hb
    rcases hb with ((hb | hb) | hb) | hb
    · exact hsign.isAscii b hb
    · exact isAscii_of_mem_digitBytes hb
    · exact hfraction.isAscii b hb
    · exact hexponent.isAscii b hb

theorem KeySpelling.isEncoded {key : String} (h : KeySpelling key bytes) : IsEncoded bytes := by
  cases h with
  | mk hbefore hstring hafter =>
    exact ((isEncoded_of_isAscii hbefore.isAscii).append hstring.isEncoded).append
      (isEncoded_of_isAscii hafter.isAscii)

/-! ## Documents -/

mutual

theorem isEncoded_of_spelling {value : Json} {bytes : List UInt8} (h : Spelling value bytes) :
    IsEncoded bytes := by
  match h with
  | .null => exact ⟨_, rfl⟩
  | .true => exact ⟨_, rfl⟩
  | .false => exact ⟨_, rfl⟩
  | .number h => exact isEncoded_of_isAscii h.isAscii
  | .string h => exact h.isEncoded
  | .emptyArray h => exact .between (by decide) (by decide) (isEncoded_of_isAscii h.isAscii)
  | .array h => exact .between (by decide) (by decide) (isEncoded_of_items h)
  | .emptyObject h => exact .between (by decide) (by decide) (isEncoded_of_isAscii h.isAscii)
  | .object h => exact .between (by decide) (by decide) (isEncoded_of_members h)

/-- A text, with its blanks, is the encoding of characters. -/
theorem isEncoded_of_text {value : Json} {bytes : List UInt8} (h : TextSpelling value bytes) :
    IsEncoded bytes := by
  match h with
  | .mk hbefore hvalue hafter =>
    exact ((isEncoded_of_isAscii hbefore.isAscii).append (isEncoded_of_spelling hvalue)).append
      (isEncoded_of_isAscii hafter.isAscii)

theorem isEncoded_of_items {items : List Json} {bytes : List UInt8}
    (h : ItemsSpelling items bytes) : IsEncoded bytes := by
  match h with
  | .last h => exact isEncoded_of_text h
  | .more h h' => exact (isEncoded_of_text h).separated (by decide) (isEncoded_of_items h')

theorem isEncoded_of_members {members : List (String × Json)} {bytes : List UInt8}
    (h : MembersSpelling members bytes) : IsEncoded bytes := by
  match h with
  | .last hkey hvalue => exact hkey.isEncoded.separated (by decide) (isEncoded_of_text hvalue)
  | .more hkey hvalue h' =>
    have hmembers : (',' : Char).toNat < 0x80 := by decide
    have hrest := (isEncoded_of_text hvalue).separated hmembers (isEncoded_of_members h')
    exact hkey.isEncoded.separated (by decide) hrest

end

/-- The first byte of a value is ASCII. -/
theorem exists_isAscii_of_spelling (h : Spelling value bytes) :
    ∃ b rest, bytes = b :: rest ∧ IsAscii b := by
  cases h with
  | null => exact ⟨byte 'n', _, rfl, isAscii_byte (by decide)⟩
  | true => exact ⟨byte 't', _, rfl, isAscii_byte (by decide)⟩
  | false => exact ⟨byte 'f', _, rfl, isAscii_byte (by decide)⟩
  | number h =>
    cases h with
    | mk hsign hwhole hfraction hexponent =>
      cases hsign with
      | positive =>
        rcases List.exists_cons_of_ne_nil hwhole.1 with ⟨d, digits, rfl⟩
        exact ⟨_, _, rfl, isAscii_digitByte d⟩
      | negative => exact ⟨byte '-', _, rfl, isAscii_byte (by decide)⟩
  | string h =>
    cases h with
    | mk _ => exact ⟨byte '"', _, rfl, isAscii_byte (by decide)⟩
  | emptyArray | array => exact ⟨byte '[', _, rfl, isAscii_byte (by decide)⟩
  | emptyObject | object => exact ⟨byte '{', _, rfl, isAscii_byte (by decide)⟩

/-- The first byte of a text is ASCII. -/
theorem exists_isAscii_of_text (h : TextSpelling value bytes) :
    ∃ b rest, bytes = b :: rest ∧ IsAscii b := by
  rcases h with ⟨hbefore, hvalue, hafter⟩
  rcases exists_isAscii_of_spelling hvalue with ⟨b, rest, rfl, hb⟩
  rename_i before after
  -- a blank in front is ASCII as well
  cases before with
  | nil => exact ⟨b, rest ++ after, rfl, hb⟩
  | cons blank before =>
    exact ⟨blank, before ++ (b :: rest) ++ after, rfl,
      hbefore.isAscii blank List.mem_cons_self⟩

end Readiness.Json
