import Readiness.Json.Basic
import Readiness.Text.Utf8

namespace Readiness.Json

/-! # The grammar of JSON texts

Which bytes spell a document. A document has many spellings: blanks between tokens, several
escapes for one character, and exponents with a sign or zeros that change nothing. Nothing here
knows how a text is read.
-/

/-- The byte of an ASCII character. -/
abbrev byte (c : Char) : UInt8 := c.toUInt8

/-- White space between tokens. -/
def IsBlanks (bytes : List UInt8) : Prop :=
  ∀ b ∈ bytes, b = byte ' ' ∨ b = byte '\t' ∨ b = byte '\n' ∨ b = byte '\r'

/-! ## Strings -/

/-- A hexadecimal digit, in either case, and its value. -/
inductive HexDigit : UInt8 → Nat → Prop where
  | decimal {n : Nat} : n < 10 → HexDigit (UInt8.ofNat ('0'.toNat + n)) n
  | lower {n : Nat} : n < 6 → HexDigit (UInt8.ofNat ('a'.toNat + n)) (10 + n)
  | upper {n : Nat} : n < 6 → HexDigit (UInt8.ofNat ('A'.toNat + n)) (10 + n)

/-- A 16-bit unit is spelled by `\u` and four hexadecimal digits. -/
inductive UnitSpelling : Nat → List UInt8 → Prop where
  | mk {a b c d : UInt8} {p q r s : Nat} :
      HexDigit a p → HexDigit b q → HexDigit c r → HexDigit d s →
      UnitSpelling (16 * (16 * (16 * p + q) + r) + s) [byte '\\', byte 'u', a, b, c, d]

/-- The letters that may follow a backslash, and the characters that they stand for. -/
def shortEscapes : List (Char × Char) :=
  [('"', '"'), ('\\', '\\'), ('/', '/'), ('b', '\x08'), ('f', '\x0c'), ('n', '\n'), ('r', '\r'),
    ('t', '\t')]

/-- The escapes of a character. A unit from the surrogate range stands for a character only
together with its other half. -/
inductive Escape : Char → List UInt8 → Prop where
  | short {letter c : Char} : (letter, c) ∈ shortEscapes → Escape c [byte '\\', byte letter]
  | unit {unit : Nat} {bytes : List UInt8} :
      UnitSpelling unit bytes → ¬ (0xD800 ≤ unit ∧ unit ≤ 0xDFFF) →
      Escape (Char.ofNat unit) bytes
  | pair {leading trailing : Nat} {first second : List UInt8} :
      UnitSpelling leading first → 0xD800 ≤ leading ∧ leading ≤ 0xDBFF →
      UnitSpelling trailing second → 0xDC00 ≤ trailing ∧ trailing ≤ 0xDFFF →
      Escape (Char.ofNat (0x10000 + (leading - 0xD800) * 0x400 + (trailing - 0xDC00)))
        (first ++ second)

/-- A character inside a string: as it is, unless it is a control character, a quote or a
backslash, or escaped. -/
inductive CharSpelling : Char → List UInt8 → Prop where
  | raw {c : Char} : 0x20 ≤ c.toNat → c ≠ '"' → c ≠ '\\' →
      CharSpelling c (String.utf8EncodeChar c)
  | escaped {c : Char} {bytes : List UInt8} : Escape c bytes → CharSpelling c bytes

/-- The characters of a string, one after the other. -/
inductive CharsSpelling : List Char → List UInt8 → Prop where
  | nil : CharsSpelling [] []
  | cons {c : Char} {text : List Char} {bytes rest : List UInt8} :
      CharSpelling c bytes → CharsSpelling text rest → CharsSpelling (c :: text) (bytes ++ rest)

/-- A string is spelled between quotes. -/
inductive StringSpelling : String → List UInt8 → Prop where
  | mk {text : String} {bytes : List UInt8} :
      CharsSpelling text.toList bytes → StringSpelling text (byte '"' :: bytes ++ [byte '"'])

/-! ## Numbers -/

/-- The byte of a digit. -/
def digitByte (d : Fin 10) : UInt8 := UInt8.ofNat ('0'.toNat + d.val)

/-- The bytes of digits. -/
def digitBytes (digits : List (Fin 10)) : List UInt8 := digits.map digitByte

/-- Digits that may stand before the point: at least one, and no zero in front of others. -/
def IsWhole (digits : List (Fin 10)) : Prop :=
  digits ≠ [] ∧ (digits.head? = some Numeral.zeroDigit → digits = [Numeral.zeroDigit])

/-- The sign of a number: a plus is not written. -/
inductive SignSpelling : Bool → List UInt8 → Prop where
  | positive : SignSpelling false []
  | negative : SignSpelling true [byte '-']

/-- The digits behind a point; there is no point without them. -/
inductive FractionSpelling : List (Fin 10) → List UInt8 → Prop where
  | absent : FractionSpelling [] []
  | present {digits : List (Fin 10)} : digits ≠ [] →
      FractionSpelling digits (byte '.' :: digitBytes digits)

/-- The sign of an exponent: a plus may be written. -/
inductive ExponentSignSpelling : Bool → List UInt8 → Prop where
  | unsigned : ExponentSignSpelling false []
  | positive : ExponentSignSpelling false [byte '+']
  | negative : ExponentSignSpelling true [byte '-']

/-- An exponent: a mark in either case, a sign, and digits. -/
inductive ExponentSpelling : Option Int → List UInt8 → Prop where
  | absent : ExponentSpelling none []
  | present {mark : UInt8} {negative : Bool} {sign : List UInt8} {digits : List (Fin 10)} :
      mark = byte 'e' ∨ mark = byte 'E' → ExponentSignSpelling negative sign → digits ≠ [] →
      ExponentSpelling
        (some (if negative then -(Numeral.value digits : Int) else Numeral.value digits))
        (mark :: (sign ++ digitBytes digits))

/-- A number literal. -/
inductive NumeralSpelling : Numeral → List UInt8 → Prop where
  | mk {negative : Bool} {whole fraction : List (Fin 10)} {exponent : Option Int}
      {sign behind power : List UInt8} :
      SignSpelling negative sign → IsWhole whole → FractionSpelling fraction behind →
      ExponentSpelling exponent power →
      NumeralSpelling ⟨negative, whole, fraction, exponent⟩
        (sign ++ digitBytes whole ++ behind ++ power)

/-! ## Documents -/

/-- A key is a string with blanks around it. -/
inductive KeySpelling : String → List UInt8 → Prop where
  | mk {key : String} {before bytes after : List UInt8} :
      IsBlanks before → StringSpelling key bytes → IsBlanks after →
      KeySpelling key (before ++ bytes ++ after)

mutual

/-- A value. -/
inductive Spelling : Json → List UInt8 → Prop where
  | null : Spelling .null (Text.toBytes "null")
  | true : Spelling (.bool true) (Text.toBytes "true")
  | false : Spelling (.bool false) (Text.toBytes "false")
  | number {numeral : Numeral} {bytes : List UInt8} :
      NumeralSpelling numeral bytes → Spelling (.number numeral) bytes
  | string {text : String} {bytes : List UInt8} :
      StringSpelling text bytes → Spelling (.string text) bytes
  | emptyArray {blanks : List UInt8} :
      IsBlanks blanks → Spelling (.array []) (byte '[' :: blanks ++ [byte ']'])
  | array {items : List Json} {bytes : List UInt8} :
      ItemsSpelling items bytes → Spelling (.array items) (byte '[' :: bytes ++ [byte ']'])
  | emptyObject {blanks : List UInt8} :
      IsBlanks blanks → Spelling (.object []) (byte '{' :: blanks ++ [byte '}'])
  | object {members : List (String × Json)} {bytes : List UInt8} :
      MembersSpelling members bytes →
      Spelling (.object members) (byte '{' :: bytes ++ [byte '}'])

/-- A value with blanks around it. A whole text is one, too. -/
inductive TextSpelling : Json → List UInt8 → Prop where
  | mk {value : Json} {before bytes after : List UInt8} :
      IsBlanks before → Spelling value bytes → IsBlanks after →
      TextSpelling value (before ++ bytes ++ after)

/-- The items of an array, with commas between them. -/
inductive ItemsSpelling : List Json → List UInt8 → Prop where
  | last {item : Json} {bytes : List UInt8} :
      TextSpelling item bytes → ItemsSpelling [item] bytes
  | more {item : Json} {items : List Json} {bytes rest : List UInt8} :
      TextSpelling item bytes → ItemsSpelling items rest →
      ItemsSpelling (item :: items) (bytes ++ byte ',' :: rest)

/-- The members of an object, with commas between them. -/
inductive MembersSpelling : List (String × Json) → List UInt8 → Prop where
  | last {key : String} {value : Json} {name bytes : List UInt8} :
      KeySpelling key name → TextSpelling value bytes →
      MembersSpelling [(key, value)] (name ++ byte ':' :: bytes)
  | more {key : String} {value : Json} {members : List (String × Json)}
      {name bytes rest : List UInt8} :
      KeySpelling key name → TextSpelling value bytes → MembersSpelling members rest →
      MembersSpelling ((key, value) :: members)
        (name ++ byte ':' :: (bytes ++ byte ',' :: rest))

end

/-! ## The size of a document -/

mutual

/-- How many brackets are nested in each other. -/
def depth : Json → Nat
  | .array items => depthOfItems items + 1
  | .object members => depthOfMembers members + 1
  | _ => 0

/-- How many brackets are nested in each other in any of the items. -/
def depthOfItems : List Json → Nat
  | [] => 0
  | item :: items => max item.depth (depthOfItems items)

/-- How many brackets are nested in each other in any of the members. -/
def depthOfMembers : List (String × Json) → Nat
  | [] => 0
  | (_, value) :: members => max value.depth (depthOfMembers members)

end

mutual

/-- The number literals of a document. -/
def numerals : Json → List Numeral
  | .number numeral => [numeral]
  | .array items => numeralsOfItems items
  | .object members => numeralsOfMembers members
  | _ => []

/-- The number literals of all items. -/
def numeralsOfItems : List Json → List Numeral
  | [] => []
  | item :: items => item.numerals ++ numeralsOfItems items

/-- The number literals of all members. -/
def numeralsOfMembers : List (String × Json) → List Numeral
  | [] => []
  | (_, value) :: members => value.numerals ++ numeralsOfMembers members

end

theorem depthOfItems_le_iff {items : List Json} {room : Nat} :
    depthOfItems items ≤ room ↔ ∀ item ∈ items, item.depth ≤ room := by
  induction items with
  | nil => simp [depthOfItems]
  | cons item items ih => rw [depthOfItems, Nat.max_le, ih, List.forall_mem_cons]

theorem depthOfMembers_le_iff {members : List (String × Json)} {room : Nat} :
    depthOfMembers members ≤ room ↔ ∀ member ∈ members, member.2.depth ≤ room := by
  induction members with
  | nil => simp [depthOfMembers]
  | cons member members ih => rw [depthOfMembers, Nat.max_le, ih, List.forall_mem_cons]

theorem mem_numeralsOfItems {items : List Json} {numeral : Numeral} :
    numeral ∈ numeralsOfItems items ↔ ∃ item ∈ items, numeral ∈ item.numerals := by
  induction items with
  | nil => simp [numeralsOfItems]
  | cons item items ih => simp [numeralsOfItems, ih]

theorem mem_numeralsOfMembers {members : List (String × Json)} {numeral : Numeral} :
    numeral ∈ numeralsOfMembers members ↔ ∃ member ∈ members, numeral ∈ member.2.numerals := by
  induction members with
  | nil => simp [numeralsOfMembers]
  | cons member members ih => simp [numeralsOfMembers, ih]

/-- A document that nests no more brackets than there is room for, and whose numbers are all in
range. -/
structure Fits (room : Nat) (document : Json) : Prop where
  depth : document.depth ≤ room
  numerals : ∀ numeral ∈ document.numerals, numeral.overflows = false

theorem fits_array {items : List Json} {room : Nat} :
    Fits room (.array items) ↔ 0 < room ∧ ∀ item ∈ items, Fits (room - 1) item := by
  constructor
  · rintro ⟨hdepth, hnumerals⟩
    rw [depth] at hdepth
    rw [numerals] at hnumerals
    refine ⟨by omega, ?_⟩
    intro item hitem
    constructor
    · exact depthOfItems_le_iff.mp (by omega) item hitem
    · intro numeral hn
      exact hnumerals numeral (mem_numeralsOfItems.mpr ⟨item, hitem, hn⟩)
  · rintro ⟨hroom, hitems⟩
    have hdepths : ∀ item ∈ items, item.depth ≤ room - 1 := by
      intro item hitem
      exact (hitems item hitem).depth
    constructor
    · have hdepth := depthOfItems_le_iff.mpr hdepths
      rw [depth]
      omega
    · intro numeral hn
      rw [numerals, mem_numeralsOfItems] at hn
      rcases hn with ⟨item, hitem, hn⟩
      exact (hitems item hitem).numerals numeral hn

theorem fits_object {members : List (String × Json)} {room : Nat} :
    Fits room (.object members) ↔
      0 < room ∧ ∀ member ∈ members, Fits (room - 1) member.2 := by
  constructor
  · rintro ⟨hdepth, hnumerals⟩
    rw [depth] at hdepth
    rw [numerals] at hnumerals
    refine ⟨by omega, ?_⟩
    intro member hmember
    constructor
    · exact depthOfMembers_le_iff.mp (by omega) member hmember
    · intro numeral hn
      exact hnumerals numeral (mem_numeralsOfMembers.mpr ⟨member, hmember, hn⟩)
  · rintro ⟨hroom, hmembers⟩
    have hdepths : ∀ member ∈ members, member.2.depth ≤ room - 1 := by
      intro member hmember
      exact (hmembers member hmember).depth
    constructor
    · have hdepth := depthOfMembers_le_iff.mpr hdepths
      rw [depth]
      omega
    · intro numeral hn
      rw [numerals, mem_numeralsOfMembers] at hn
      rcases hn with ⟨member, hmember, hn⟩
      exact (hmembers member hmember).numerals numeral hn

end Readiness.Json
