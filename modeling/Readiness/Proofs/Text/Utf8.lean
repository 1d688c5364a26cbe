import Readiness.Text.Utf8
import Mathlib.Tactic.ByContra
import Mathlib.Tactic.SplitIfs

namespace Readiness.Text

/-! # Characters as groups of bytes

Every character is a group of bytes: the first one announces how many there are, and no
other byte of a group can begin one. So a text is cut into its characters in one way only,
and decoding gives back exactly what was encoded.
-/

/-- A byte that stands inside a group, behind its first byte. -/
def IsTail (b : UInt8) : Prop := 0x80 ≤ b.toNat ∧ b.toNat < 0xc0

/-- These bytes are the group of a character. -/
structure IsGroup (c : Char) (lead : UInt8) (tail : List UInt8) : Prop where
  length : tail.length + 1 = groupLength lead
  codePoint : codePoint lead tail = c.toNat
  lead : ¬ IsTail lead
  tail : ∀ b ∈ tail, IsTail b

theorem toNat_ofNat_of_lt {n : Nat} (h : n < 256) : (UInt8.ofNat n).toNat = n := by
  rw [UInt8.toNat_ofNat']
  exact Nat.mod_eq_of_lt h

theorem toNat_lt (c : Char) : c.toNat < 0x110000 := by
  have hvalid := c.valid
  simp only [UInt32.isValidChar, Nat.isValidChar] at hvalid
  simp only [Char.toNat]
  omega

/-- The encoding of a character is a group. -/
theorem encodeChar_group (c : Char) :
    ∃ lead tail, String.utf8EncodeChar c = lead :: tail ∧ IsGroup c lead tail := by
  have hv := toNat_lt c
  simp only [Char.toNat] at hv
  -- one case for each length of a group
  fun_cases String.utf8EncodeChar c with
  | case1 v h =>
    have hlead := toNat_ofNat_of_lt (n := v) (by omega)
    have hlen : groupLength (UInt8.ofNat v) = 1 := by
      simp only [groupLength, hlead]
      rw [if_pos (by omega)]
    refine ⟨_, _, rfl, hlen.symm, ?_, ?_, by simp⟩
    · simp only [Text.codePoint, leadBits, hlen, hlead, List.foldl_nil, Char.toNat]
      rfl
    · simp only [IsTail, hlead]
      omega
  | case2 v h1 h2 =>
    have hlead := toNat_ofNat_of_lt (n := v / 64 % 32 + 0xc0) (by omega)
    have hlast := toNat_ofNat_of_lt (n := v % 64 + 0x80) (by omega)
    have hlen : groupLength (UInt8.ofNat (v / 64 % 32 + 0xc0)) = 2 := by
      simp only [groupLength, hlead]
      split_ifs <;> omega
    refine ⟨_, _, rfl, hlen.symm, ?_, ?_, ?_⟩
    · simp only [Text.codePoint, leadBits, hlen, hlead, hlast, List.foldl_cons, List.foldl_nil,
        Char.toNat]
      omega
    · simp only [IsTail, hlead]
      omega
    · simp only [IsTail, List.mem_singleton, forall_eq, hlast]
      omega
  | case3 v h1 h2 h3 =>
    have hlead := toNat_ofNat_of_lt (n := v / 4096 % 16 + 0xe0) (by omega)
    have hmiddle := toNat_ofNat_of_lt (n := v / 64 % 64 + 0x80) (by omega)
    have hlast := toNat_ofNat_of_lt (n := v % 64 + 0x80) (by omega)
    have hlen : groupLength (UInt8.ofNat (v / 4096 % 16 + 0xe0)) = 3 := by
      simp only [groupLength, hlead]
      split_ifs <;> omega
    refine ⟨_, _, rfl, hlen.symm, ?_, ?_, ?_⟩
    · simp only [Text.codePoint, leadBits, hlen, hlead, hmiddle, hlast, List.foldl_cons,
        List.foldl_nil, Char.toNat]
      omega
    · simp only [IsTail, hlead]
      omega
    · simp only [IsTail, List.mem_cons, List.not_mem_nil, or_false, forall_eq_or_imp, forall_eq,
        hmiddle, hlast]
      omega
  | case4 v h1 h2 h3 =>
    have hlead := toNat_ofNat_of_lt (n := v / 262144 % 8 + 0xf0) (by omega)
    have hsecond := toNat_ofNat_of_lt (n := v / 4096 % 64 + 0x80) (by omega)
    have hthird := toNat_ofNat_of_lt (n := v / 64 % 64 + 0x80) (by omega)
    have hlast := toNat_ofNat_of_lt (n := v % 64 + 0x80) (by omega)
    have hlen : groupLength (UInt8.ofNat (v / 262144 % 8 + 0xf0)) = 4 := by
      simp only [groupLength, hlead]
      split_ifs <;> omega
    refine ⟨_, _, rfl, hlen.symm, ?_, ?_, ?_⟩
    · simp only [Text.codePoint, leadBits, hlen, hlead, hsecond, hthird, hlast, List.foldl_cons,
        List.foldl_nil, Char.toNat]
      omega
    · simp only [IsTail, hlead]
      omega
    · simp only [IsTail, List.mem_cons, List.not_mem_nil, or_false, forall_eq_or_imp, forall_eq,
        hsecond, hthird, hlast]
      omega

theorem encodeChar_of_lt {c : Char} (h : c.toNat < 0x80) :
    String.utf8EncodeChar c = [UInt8.ofNat c.toNat] := by
  simp only [Char.toNat] at h ⊢
  rw [String.utf8EncodeChar, if_pos (by omega)]

/-- A character beyond ASCII has no ASCII byte. -/
theorem le_of_mem_encodeChar {c : Char} {b : UInt8} (h : 0x80 ≤ c.toNat)
    (hb : b ∈ String.utf8EncodeChar c) : 0x80 ≤ b.toNat := by
  rcases encodeChar_group c with ⟨lead, tail, he, hg⟩
  rw [he, List.mem_cons] at hb
  rcases hb with rfl | hb
  · -- a first byte below `0x80` would be the whole group
    by_contra hlow
    have hlen : groupLength b = 1 := by
      simp only [groupLength]
      rw [if_pos (by omega)]
    have hlength := hg.length
    have hnil : tail = [] := List.eq_nil_of_length_eq_zero (by omega)
    have hcode := hg.codePoint
    simp only [hnil, Text.codePoint, List.foldl_nil, leadBits, hlen] at hcode
    omega
  · exact (hg.tail b hb).1

/-! ## Decoding -/

theorem nextChar?_encodeChar_append (c : Char) (rest : List UInt8) :
    nextChar? (String.utf8EncodeChar c ++ rest) = some (c, rest) := by
  rcases encodeChar_group c with ⟨lead, tail, he, hg⟩
  have hlen : groupLength lead - 1 = tail.length := by
    have := hg.length
    omega
  have hc : Char.ofNat (codePoint lead tail) = c := by
    rw [hg.codePoint, Char.ofNat_toNat]
  rw [he, List.cons_append, nextChar?, hlen]
  simp only [List.take_left, List.drop_left, hc]
  rw [if_pos he]

theorem eq_append_of_nextChar? {bytes rest : List UInt8} {c : Char}
    (h : nextChar? bytes = some (c, rest)) : bytes = String.utf8EncodeChar c ++ rest := by
  cases bytes with
  | nil => simp [nextChar?] at h
  | cons lead bytes =>
    simp only [nextChar?] at h
    split at h
    · next he =>
      simp only [Option.some.injEq, Prod.mk.injEq] at h
      rcases h with ⟨rfl, rfl⟩
      rw [he, List.cons_append, List.take_append_drop]
    · simp at h

/-- No encoding is the beginning of another one. -/
theorem encodeChar_append_inj {c d : Char} {rest left : List UInt8}
    (h : String.utf8EncodeChar c ++ rest = String.utf8EncodeChar d ++ left) :
    c = d ∧ rest = left := by
  have hnext := nextChar?_encodeChar_append c rest
  rw [h, nextChar?_encodeChar_append, Option.some.injEq, Prod.mk.injEq] at hnext
  exact ⟨hnext.1.symm, hnext.2.symm⟩

/-- Decoding gives back the text that was encoded. -/
theorem decode_encode (text : List Char) :
    decode (text.flatMap String.utf8EncodeChar) = (text, []) := by
  induction text with
  | nil =>
    rw [List.flatMap_nil, decode]
    rfl
  | cons c text ih =>
    rw [List.flatMap_cons, decode]
    split
    · next h => simp [nextChar?_encodeChar_append] at h
    · next d rest h =>
      rw [nextChar?_encodeChar_append, Option.some.injEq, Prod.mk.injEq] at h
      rcases h with ⟨rfl, rfl⟩
      simp only [ih]

/-- What is decoded, and what is left, make up the bytes. -/
theorem encode_append_of_decode {bytes left : List UInt8} {text : List Char}
    (h : decode bytes = (text, left)) :
    bytes = text.flatMap String.utf8EncodeChar ++ left := by
  fun_induction decode bytes generalizing text with
  | case1 bytes hnone =>
    simp only [Prod.mk.injEq] at h
    rcases h with ⟨rfl, rfl⟩
    rfl
  | case2 bytes c rest hsome hlt more after hrest ih =>
    simp only [Prod.mk.injEq] at h
    rcases h with ⟨rfl, rfl⟩
    rw [eq_append_of_nextChar? hsome, List.flatMap_cons, List.append_assoc, ← ih hrest]

/-- Bytes decode to a text, with nothing left, exactly if they are its encoding. -/
theorem decode_eq_iff {bytes : List UInt8} {text : List Char} :
    decode bytes = (text, []) ↔ bytes = text.flatMap String.utf8EncodeChar := by
  constructor
  · intro h
    simpa using encode_append_of_decode h
  · rintro rfl
    exact decode_encode text

/-- Bytes are a text exactly if they are the bytes of that text. -/
theorem ofBytes?_eq_some_iff {bytes : List UInt8} {text : String} :
    ofBytes? bytes = some text ↔ bytes = toBytes text := by
  rw [toBytes, ← decode_eq_iff, ofBytes?]
  rcases decode bytes with ⟨chars, _ | ⟨first, left⟩⟩
  · simp only [Option.some.injEq, Prod.mk.injEq, and_true]
    constructor
    · rintro rfl
      exact String.toList_ofList.symm
    · rintro rfl
      exact String.ofList_toList
  · simp

/-- Two texts never have the same bytes. -/
theorem toBytes_inj {text text' : String} (h : toBytes text = toBytes text') : text = text' := by
  have htext := ofBytes?_eq_some_iff.mpr h
  rw [ofBytes?_eq_some_iff.mpr (rfl : toBytes text = toBytes text), Option.some.injEq] at htext
  exact htext

end Readiness.Text
