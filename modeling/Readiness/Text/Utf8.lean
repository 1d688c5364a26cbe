namespace Readiness.Text

/-! # Bytes as text

UTF-8 is decoded character by character. A group of bytes is taken for a character only if
it is the encoding of that character, so no character has a second spelling.
-/

/-- How many bytes belong to a character whose first byte is this one. -/
def groupLength (lead : UInt8) : Nat :=
  if lead.toNat < 0x80 then 1
  else if lead.toNat < 0xe0 then 2
  else if lead.toNat < 0xf0 then 3
  else 4

/-- The part of the code point that the first byte of a group holds. -/
def leadBits (lead : UInt8) : Nat :=
  match groupLength lead with
  | 1 => lead.toNat
  | 2 => lead.toNat % 32
  | 3 => lead.toNat % 16
  | _ => lead.toNat % 8

/-- The code point that a group of bytes stands for. -/
def codePoint (lead : UInt8) (tail : List UInt8) : Nat :=
  tail.foldl (fun n b => 64 * n + b.toNat % 64) (leadBits lead)

/-- The first character, if the bytes begin with one, and the bytes after it. -/
def nextChar? : List UInt8 → Option (Char × List UInt8)
  | [] => none
  | lead :: bytes =>
    let tail := bytes.take (groupLength lead - 1)
    let c := Char.ofNat (codePoint lead tail)
    if String.utf8EncodeChar c = lead :: tail then
      some (c, bytes.drop (groupLength lead - 1))
    else
      none

theorem length_lt_of_nextChar? {bytes rest : List UInt8} {c : Char}
    (h : nextChar? bytes = some (c, rest)) : rest.length < bytes.length := by
  cases bytes with
  | nil => simp [nextChar?] at h
  | cons lead bytes =>
    simp only [nextChar?] at h
    split at h
    · obtain ⟨-, rfl⟩ := by simpa using h
      simp only [List.length_drop, List.length_cons]
      omega
    · simp at h

/-- The characters up to the first group that is none, and the bytes from there on. -/
def decode (bytes : List UInt8) : List Char × List UInt8 :=
  match h : nextChar? bytes with
  | none => ([], bytes)
  | some (c, rest) =>
    have : rest.length < bytes.length := length_lt_of_nextChar? h
    let (text, left) := decode rest
    (c :: text, left)
termination_by bytes.length

/-- The text that the bytes encode, if all of them do. -/
def ofBytes? (bytes : List UInt8) : Option String :=
  match decode bytes with
  | (text, []) => some (String.ofList text)
  | _ => none

/-- The bytes of a text. -/
def toBytes (text : String) : List UInt8 := text.toList.flatMap String.utf8EncodeChar

end Readiness.Text
