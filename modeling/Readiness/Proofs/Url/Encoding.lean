import Readiness.Proofs.Text.Utf8
import Readiness.Url.Encoding

namespace Readiness.Url

/-! # Encoding and decoding

What is encoded is decoded to the bytes of the text again, whichever characters were encoded. A
percent sign is the one character that stands in the way: it is never encoded, so what follows
it is taken for digits.
-/

variable {set : Char → Bool} {text : List Char}

/-! ## Encoded bytes -/

theorem hexDigit?_upperHex {n : Nat} (h : n < 16) : Text.hexDigit? (Text.upperHex n) = some n := by
  have hall : ∀ n : Fin 16, Text.hexDigit? (Text.upperHex n) = some n.val := by decide
  exact hall ⟨n, h⟩

theorem byteOfDigits?_upperHex (b : UInt8) :
    byteOfDigits? (Text.upperHex (b.toNat / 16)) (Text.upperHex (b.toNat % 16)) = some b := by
  have hb := b.toNat_lt
  have hhigh := hexDigit?_upperHex (n := b.toNat / 16) (by omega)
  have hlow := hexDigit?_upperHex (n := b.toNat % 16) (by omega)
  have hwhole : 16 * (b.toNat / 16) + b.toNat % 16 = b.toNat := Nat.div_add_mod _ _
  simp only [byteOfDigits?, hhigh, hlow, Option.bind_eq_bind, Option.bind_some, hwhole,
    UInt8.ofNat_toNat]
  rfl

theorem decode_encodeByte_append (b : UInt8) (rest : List Char) :
    decode (encodeByte b ++ rest) = b :: decode rest := by
  simp only [encodeByte, List.cons_append, List.nil_append, decode, byteOfDigits?_upperHex]

theorem decode_encodeBytes_append (bytes : List UInt8) (rest : List Char) :
    decode (bytes.flatMap encodeByte ++ rest) = bytes ++ decode rest := by
  induction bytes with
  | nil => rfl
  | cons b bytes ih =>
    rw [List.flatMap_cons, List.append_assoc, decode_encodeByte_append, ih, List.cons_append]

/-! ## Encoded texts -/

/-- Only a percent sign is looked at together with what follows it. -/
theorem decode_cons_of_ne {c : Char} (h : c ≠ '%') (text : List Char) :
    decode (c :: text) = String.utf8EncodeChar c ++ decode text := by
  rw [decode.eq_def]
  split
  · next heq => exact absurd (List.cons.inj heq).1 h
  · next heq =>
    rcases List.cons.inj heq with ⟨rfl, rfl⟩
    rfl
  · next heq => cases heq

theorem decode_encodeChar_append {c : Char} (h : c ≠ '%') (rest : List Char) :
    decode (encodeChar set c ++ rest) = String.utf8EncodeChar c ++ decode rest := by
  unfold encodeChar
  split
  · exact decode_encodeBytes_append _ rest
  · exact decode_cons_of_ne h rest

/-- Decoding gives back the bytes of what was encoded. -/
theorem decode_encode (h : ∀ c ∈ text, c ≠ '%') :
    decode (encode set text) = text.flatMap String.utf8EncodeChar := by
  induction text with
  | nil => rfl
  | cons c text ih =>
    rw [List.forall_mem_cons] at h
    rw [encode, List.flatMap_cons, decode_encodeChar_append h.1, ← encode, ih h.2,
      List.flatMap_cons]

theorem encode_of_forall_not (h : ∀ c ∈ text, set c = false) : encode set text = text := by
  induction text with
  | nil => rfl
  | cons c text ih =>
    rw [List.forall_mem_cons] at h
    have hc : encodeChar set c = [c] := if_neg (by simp [h.1])
    rw [encode, List.flatMap_cons, hc, ← encode, ih h.2, List.singleton_append]

/-- What holds of the characters that encoding writes, and of those that it leaves alone, holds in
what is encoded. -/
theorem forall_mem_encode {P : Char → Prop} (hmark : P '%')
    (hdigit : ∀ n : Fin 16, P (Text.upperHex n.val)) (h : ∀ c ∈ text, set c = false → P c) :
    ∀ c ∈ encode set text, P c := by
  rw [encode, List.forall_mem_flatMap]
  intro c hc
  by_cases hset : set c = true
  · have hbyte : ∀ b : UInt8, ∀ d ∈ encodeByte b, P d := by
      intro b
      have hb := b.toNat_lt
      rw [encodeByte, List.forall_mem_cons, List.forall_mem_cons, List.forall_mem_singleton]
      exact ⟨hmark, hdigit ⟨b.toNat / 16, by omega⟩, hdigit ⟨b.toNat % 16, by omega⟩⟩
    rw [encodeChar, if_pos hset, List.forall_mem_flatMap]
    intro b _
    exact hbyte b
  · rw [encodeChar, if_neg hset, List.forall_mem_singleton]
    exact h c hc (by simpa using hset)

theorem encode_ne_nil (h : text ≠ []) : encode set text ≠ [] := by
  obtain ⟨c, others, rfl⟩ := List.exists_cons_of_ne_nil h
  intro hempty
  rw [encode, List.flatMap_cons, List.append_eq_nil_iff, encodeChar] at hempty
  split at hempty
  · obtain ⟨lead, tail, hbytes, -⟩ := Text.encodeChar_group c
    rw [hbytes] at hempty
    cases hempty.1
  · cases hempty.1

/-- What a set holds is not what it does not hold. -/
theorem ne_of_set {mark c : Char} (hmark : set mark = true) (hc : set c = false) : c ≠ mark := by
  rintro rfl
  rw [hmark] at hc
  cases hc

/-- A text with nothing to encode in it. -/
def IsEncoded (set : Char → Bool) (text : List Char) : Prop := ∀ c ∈ text, set c = false

/-- Encoding leaves nothing to encode, if the set holds no character that encoding writes. -/
theorem isEncoded_encode (hmark : set '%' = false)
    (hdigit : ∀ n : Fin 16, set (Text.upperHex n.val) = false) (text : List Char) :
    IsEncoded set (encode set text) :=
  forall_mem_encode hmark hdigit fun _ _ hset => hset

theorem isEncoded_of_map_encode (hmark : set '%' = false)
    (hdigit : ∀ n : Fin 16, set (Text.upperHex n.val) = false) {part : Option (List Char)} :
    ∀ text, part.map (encode set) = some text → IsEncoded set text := by
  intro text htext
  obtain ⟨plain, -, rfl⟩ := Option.map_eq_some_iff.mp htext
  exact isEncoded_encode hmark hdigit plain

/-- What is encoded already is not encoded again. -/
theorem map_encode_of_isEncoded {part : Option (List Char)}
    (h : ∀ text, part = some text → IsEncoded set text) : part.map (encode set) = part := by
  cases part with
  | none => rfl
  | some text => rw [Option.map_some, encode_of_forall_not (h text rfl)]

/-- Without a percent sign there is nothing to decode. -/
theorem decode_of_forall_ne (h : ∀ c ∈ text, c ≠ '%') :
    decode text = text.flatMap String.utf8EncodeChar := by
  have hplain : encode (fun _ => false) text = text := encode_of_forall_not fun _ _ => rfl
  rw [← @decode_encode (fun _ => false) text h, hplain]

/-- A character that belongs to no encoded byte is still there when all is decoded. -/
theorem mem_decode_of_mem {c : Char} (hlow : c.toNat < 0x80) (hhex : Text.hexDigit? c = none)
    (hne : c ≠ '%') (hmem : c ∈ text) : UInt8.ofNat c.toNat ∈ decode text := by
  have hbyte := Text.encodeChar_of_lt hlow
  fun_induction decode text with
  | case1 high low text b hb ih =>
    -- the two characters behind the sign are digits
    simp only [byteOfDigits?, Option.bind_eq_bind, Option.bind_eq_some_iff] at hb
    rcases hb with ⟨_, hhigh, _, hlow', -⟩
    have hrest : c ∈ text := by
      simp only [List.mem_cons] at hmem
      rcases hmem with rfl | rfl | rfl | hrest
      · exact absurd rfl hne
      · rw [hhex] at hhigh
        cases hhigh
      · rw [hhex] at hlow'
        cases hlow'
      · exact hrest
    exact List.mem_cons_of_mem _ (ih hrest)
  | case2 high low text _ ih =>
    rcases List.mem_cons.mp hmem with rfl | hrest
    · exact absurd rfl hne
    · exact List.mem_append_right _ (ih hrest)
  | case3 d text _ ih =>
    rcases List.mem_cons.mp hmem with rfl | hrest
    · rw [hbyte]
      exact List.mem_append_left _ List.mem_cons_self
    · exact List.mem_append_right _ (ih hrest)
  | case4 => cases hmem

end Readiness.Url
