import Readiness.Proofs.Json.Numerals
import Readiness.Proofs.Json.Strings

namespace Readiness.Json

/-! # Nothing else is read

Every state of the reader says what the bytes so far spell: closed values inside the brackets
that are open, and the beginning of one more token. One byte preserves this, so a text that is
read to its end is a spelling of the document.
-/

/-! ## Inside brackets -/

/-- The items of an array that is still open, latest first, each with its comma. -/
inductive ItemsRead (room : Nat) : List Json → List UInt8 → Prop where
  | nil : ItemsRead room [] []
  | snoc {item : Json} {items : List Json} {source bytes : List UInt8} :
      ItemsRead room items source → TextSpelling item bytes → Fits room item →
      ItemsRead room (item :: items) (source ++ (bytes ++ [byte ',']))

/-- The members of an object that is still open, latest first, each with its comma. -/
inductive MembersRead (room : Nat) : List (String × Json) → List UInt8 → Prop where
  | nil : MembersRead room [] []
  | snoc {key : String} {value : Json} {members : List (String × Json)}
      {source name bytes : List UInt8} :
      MembersRead room members source → KeySpelling key name → TextSpelling value bytes →
      Fits room value →
      MembersRead room ((key, value) :: members)
        (source ++ (name ++ byte ':' :: (bytes ++ [byte ','])))

theorem ItemsRead.spelling {room : Nat} {items rest : List Json} {source bytes : List UInt8}
    (h : ItemsRead room items source) (hrest : ItemsSpelling rest bytes) :
    ItemsSpelling (items.reverse ++ rest) (source ++ bytes) := by
  induction h generalizing rest bytes with
  | nil => exact hrest
  | snoc _ hitem _ ih =>
    have hmore := ih (.more hitem hrest)
    simpa using hmore

theorem ItemsRead.fits {room : Nat} {items : List Json} {source : List UInt8}
    (h : ItemsRead room items source) : ∀ item ∈ items, Fits room item := by
  induction h with
  | nil => simp
  | snoc _ _ hitem ih => simpa using ⟨hitem, ih⟩

theorem MembersRead.spelling {room : Nat} {members rest : List (String × Json)}
    {source bytes : List UInt8} (h : MembersRead room members source)
    (hrest : MembersSpelling rest bytes) :
    MembersSpelling (members.reverse ++ rest) (source ++ bytes) := by
  induction h generalizing rest bytes with
  | nil => exact hrest
  | snoc _ hkey hvalue _ ih =>
    have hmore := ih (.more hkey hvalue hrest)
    simpa using hmore

theorem MembersRead.fits {room : Nat} {members : List (String × Json)} {source : List UInt8}
    (h : MembersRead room members source) : ∀ member ∈ members, Fits room member.2 := by
  induction h with
  | nil => simp
  | snoc _ _ _ hvalue ih =>
    intro member hmember
    rcases List.mem_cons.mp hmember with rfl | hmember
    · exact hvalue
    · exact ih member hmember

/-- The room for values over a stack. -/
def room (stack : List Frame) : Nat := depthLimit - stack.length

theorem room_cons (frame : Frame) (stack : List Frame) : room (frame :: stack) = room stack - 1 :=
  (Nat.sub_sub depthLimit stack.length 1).symm

theorem room_pos {stack : List Frame} (h : stack.length < depthLimit) : 0 < room stack :=
  Nat.sub_pos_of_lt h

mutual

/-- The bytes up to where these brackets are open and the next value is due. -/
inductive Opened : List Frame → List UInt8 → Prop where
  | top : Opened [] []
  | array {outer : List Frame} {items : List Json} {source inner : List UInt8} :
      Awaits outer source → outer.length < depthLimit → ItemsRead (room outer - 1) items inner →
      Opened (.array items :: outer) (source ++ byte '[' :: inner)
  | object {outer : List Frame} {members : List (String × Json)} {key : String}
      {source name : List UInt8} :
      Within outer members source → KeySpelling key name →
      Opened (.object members key :: outer) (source ++ (name ++ [byte ':']))

/-- The bytes up to where a value may start. -/
inductive Awaits : List Frame → List UInt8 → Prop where
  | mk {stack : List Frame} {source blanks : List UInt8} :
      Opened stack source → IsBlanks blanks → Awaits stack (source ++ blanks)

/-- The bytes up to where the next key of an object may start. -/
inductive Within : List Frame → List (String × Json) → List UInt8 → Prop where
  | mk {outer : List Frame} {members : List (String × Json)} {source inner : List UInt8} :
      Awaits outer source → outer.length < depthLimit →
      MembersRead (room outer - 1) members inner →
      Within outer members (source ++ byte '{' :: inner)

end

/-- The bytes up to behind a complete value. -/
inductive Held : List Frame → Json → List UInt8 → Prop where
  | mk {stack : List Frame} {value : Json} {source bytes blanks : List UInt8} :
      Awaits stack source → Spelling value bytes → Fits (room stack) value → IsBlanks blanks →
      Held stack value (source ++ (bytes ++ blanks))

/-- What the bytes so far are, said by the phase. -/
inductive IsSource : State → List UInt8 → Prop where
  | value {stack : List Frame} {source : List UInt8} :
      Awaits stack source → IsSource ⟨stack, .value⟩ source
  | firstItem {stack : List Frame} {source blanks : List UInt8} :
      Awaits stack source → stack.length < depthLimit → IsBlanks blanks →
      IsSource ⟨stack, .firstItem⟩ (source ++ byte '[' :: blanks)
  | nextItem {stack : List Frame} {source : List UInt8} :
      Awaits stack source → IsSource ⟨stack, .nextItem⟩ source
  | firstKey {stack : List Frame} {source blanks : List UInt8} :
      Awaits stack source → stack.length < depthLimit → IsBlanks blanks →
      IsSource ⟨stack, .firstKey⟩ (source ++ byte '{' :: blanks)
  | nextKey {stack : List Frame} {members : List (String × Json)} {source blanks : List UInt8} :
      Within stack members source → IsBlanks blanks →
      IsSource ⟨stack, .nextKey members⟩ (source ++ blanks)
  | colon {stack : List Frame} {members : List (String × Json)} {key : String}
      {source name : List UInt8} :
      Within stack members source → KeySpelling key name →
      IsSource ⟨stack, .colon members key⟩ (source ++ name)
  | name {stack : List Frame} {left : List Char} {value : Json} {source read : List UInt8} :
      Awaits stack source → Spelling value (read ++ left.map byte) → Fits (room stack) value →
      IsSource ⟨stack, .name left value⟩ (source ++ read)
  | numeral {stack : List Frame} {digits : Digits} {source read : List UInt8} :
      Awaits stack source → NumeralRead digits read →
      IsSource ⟨stack, .numeral digits⟩ (source ++ read)
  | text {stack : List Frame} {content source read : List UInt8} {place : Place} :
      Awaits stack source → TextRead content place read →
      IsSource ⟨stack, .text .value content place⟩ (source ++ byte '"' :: read)
  | key {stack : List Frame} {members : List (String × Json)}
      {content source blanks read : List UInt8} {place : Place} :
      Within stack members source → IsBlanks blanks → TextRead content place read →
      IsSource ⟨stack, .text (.key members) content place⟩
        (source ++ (blanks ++ byte '"' :: read))
  | after {stack : List Frame} {value : Json} {source : List UInt8} :
      Held stack value source → IsSource ⟨stack, .after value⟩ source

/-! ## Steps -/

variable {stack : List Frame} {value : Json} {source : List UInt8} {b : UInt8} {next : State}

theorem IsBlanks.concat {blanks : List UInt8} (h : IsBlanks blanks)
    (hb : isBlank (Char.ofUInt8 b) = true) : IsBlanks (blanks ++ [b]) := by
  rw [isBlanks_iff] at h ⊢
  rw [List.forall_mem_append, List.forall_mem_singleton]
  exact ⟨h, hb⟩

theorem Opened.awaits (h : Opened stack source) : Awaits stack source := by
  have hawaits := Awaits.mk h isBlanks_nil
  rwa [List.append_nil] at hawaits

theorem Awaits.concat (h : Awaits stack source) (hb : isBlank (Char.ofUInt8 b) = true) :
    Awaits stack (source ++ [b]) := by
  cases h with
  | mk hopened hblanks =>
    rw [List.append_assoc]
    exact .mk hopened (hblanks.concat hb)

/-- A value that was just completed. -/
theorem Awaits.held {bytes : List UInt8} (h : Awaits stack source) (hvalue : Spelling value bytes)
    (hfits : Fits (room stack) value) : Held stack value (source ++ bytes) := by
  have hheld := Held.mk h hvalue hfits isBlanks_nil
  rwa [List.append_nil] at hheld

theorem openBracket_eq_ok {phase : Phase} (h : openBracket stack phase = .ok next) :
    stack.length < depthLimit ∧ next = ⟨stack, phase⟩ := by
  rw [openBracket] at h
  split at h
  · next hlt => exact ⟨hlt, by simpa [eq_comm] using h⟩
  · simp at h

theorem fits_leaf {room : Nat} (hdepth : value.depth = 0) (hnumerals : value.numerals = []) :
    Fits room value :=
  ⟨by rw [hdepth]; exact Nat.zero_le room, by simp [hnumerals]⟩

/-- The first byte of a value. -/
theorem Awaits.startValue (h : Awaits stack source)
    (hs : Json.startValue stack (Char.ofUInt8 b) = .ok next) : IsSource next (source ++ [b]) := by
  rw [← byte_ofUInt8 b]
  unfold Json.startValue at hs
  split at hs
  · next hc =>
    rcases openBracket_eq_ok hs with ⟨hlt, rfl⟩
    rw [hc]
    exact .firstItem h hlt isBlanks_nil
  · next hc =>
    rcases openBracket_eq_ok hs with ⟨hlt, rfl⟩
    rw [hc]
    exact .firstKey h hlt isBlanks_nil
  · next hc =>
    cases hs
    rw [hc]
    have hnothing : TextRead [] .plain ([] ++ []) := .mk .nil .plain
    exact .text h hnothing
  · next hc =>
    cases hs
    rw [hc]
    exact .name h .null (fits_leaf rfl rfl)
  · next hc =>
    cases hs
    rw [hc]
    exact .name h .true (fits_leaf rfl rfl)
  · next hc =>
    cases hs
    rw [hc]
    exact .name h .false (fits_leaf rfl rfl)
  · next hc =>
    cases hs
    rw [hc]
    exact .numeral h .sign
  · split at hs
    · next d hd =>
      cases hs
      rw [byte_ofUInt8]
      exact .numeral h (numeralRead_of_digit? hd)
    · simp at hs

/-! ### Behind a value -/

theorem Held.concat (h : Held stack value source) (hb : isBlank (Char.ofUInt8 b) = true) :
    Held stack value (source ++ [b]) := by
  cases h with
  | mk hawaits hvalue hfits hblanks =>
    rw [List.append_assoc, List.append_assoc]
    exact .mk hawaits hvalue hfits (hblanks.concat hb)

/-- A value inside an array, with the items in front of it. -/
theorem Held.inArray {items : List Json} {outer : List Frame}
    (h : Held (.array items :: outer) value source) :
    ∃ before inner bytes, source = before ++ byte '[' :: (inner ++ bytes) ∧
      Awaits outer before ∧ outer.length < depthLimit ∧ ItemsRead (room outer - 1) items inner ∧
      TextSpelling value bytes ∧ Fits (room outer - 1) value := by
  rcases h with ⟨hawaits, hvalue, hfits, hafter⟩
  rcases hawaits with ⟨hopened, hblanks⟩
  rcases hopened with - | ⟨houter, hlt, hitems⟩
  rw [room_cons] at hfits
  refine ⟨_, _, _, ?_, houter, hlt, hitems, .mk hblanks hvalue hafter, hfits⟩
  simp

/-- A comma behind an item. -/
theorem Held.nextItem {items : List Json} {outer : List Frame}
    (h : Held (.array items :: outer) value source) :
    Awaits (.array (value :: items) :: outer) (source ++ [byte ',']) := by
  rcases h.inArray with ⟨before, inner, bytes, rfl, houter, hlt, hitems, hvalue, hfits⟩
  have hmore := (Opened.array houter hlt (hitems.snoc hvalue hfits)).awaits
  simpa using hmore

/-- The bracket behind the last item. -/
theorem Held.closeArray {items : List Json} {outer : List Frame}
    (h : Held (.array items :: outer) value source) :
    Held outer (.array (value :: items).reverse) (source ++ [byte ']']) := by
  rcases h.inArray with ⟨before, inner, bytes, rfl, houter, hlt, hitems, hvalue, hfits⟩
  have hspelling := hitems.spelling (.last hvalue)
  have hall : ∀ item ∈ items.reverse ++ [value], Fits (room outer - 1) item := by
    intro item hitem
    rcases List.mem_append.mp hitem with hitem | hitem
    · exact hitems.fits item (List.mem_reverse.mp hitem)
    · rw [List.mem_singleton.mp hitem]
      exact hfits
  have hheld := houter.held (.array hspelling) (fits_array.mpr ⟨room_pos hlt, hall⟩)
  simpa using hheld

/-- A value inside an object, with its key and the members in front of it. -/
theorem Held.inObject {members : List (String × Json)} {key : String} {outer : List Frame}
    (h : Held (.object members key :: outer) value source) :
    ∃ before inner name bytes,
      source = before ++ byte '{' :: (inner ++ (name ++ byte ':' :: bytes)) ∧
      Awaits outer before ∧ outer.length < depthLimit ∧
      MembersRead (room outer - 1) members inner ∧ KeySpelling key name ∧
      TextSpelling value bytes ∧ Fits (room outer - 1) value := by
  rcases h with ⟨hawaits, hvalue, hfits, hafter⟩
  rcases hawaits with ⟨hopened, hblanks⟩
  rcases hopened with - | - | ⟨⟨houter, hlt, hmembers⟩, hkey⟩
  rw [room_cons] at hfits
  refine ⟨_, _, _, _, ?_, houter, hlt, hmembers, hkey, .mk hblanks hvalue hafter, hfits⟩
  simp

/-- A comma behind a member. -/
theorem Held.nextKey {members : List (String × Json)} {key : String} {outer : List Frame}
    (h : Held (.object members key :: outer) value source) :
    Within outer ((key, value) :: members) (source ++ [byte ',']) := by
  rcases h.inObject with
    ⟨before, inner, name, bytes, rfl, houter, hlt, hmembers, hkey, hvalue, hfits⟩
  have hmore := Within.mk houter hlt (hmembers.snoc hkey hvalue hfits)
  simpa using hmore

/-- The bracket behind the last member. -/
theorem Held.closeObject {members : List (String × Json)} {key : String} {outer : List Frame}
    (h : Held (.object members key :: outer) value source) :
    Held outer (.object ((key, value) :: members).reverse) (source ++ [byte '}']) := by
  rcases h.inObject with
    ⟨before, inner, name, bytes, rfl, houter, hlt, hmembers, hkey, hvalue, hfits⟩
  have hspelling := hmembers.spelling (.last hkey hvalue)
  have hall : ∀ member ∈ members.reverse ++ [(key, value)], Fits (room outer - 1) member.2 := by
    intro member hmember
    rcases List.mem_append.mp hmember with hmember | hmember
    · exact hmembers.fits member (List.mem_reverse.mp hmember)
    · rw [List.mem_singleton.mp hmember]
      exact hfits
  have hheld := houter.held (.object hspelling) (fits_object.mpr ⟨room_pos hlt, hall⟩)
  simpa using hheld

/-- The byte behind a value. -/
theorem Held.stepAfter (h : Held stack value source)
    (hs : Json.stepAfter stack value (Char.ofUInt8 b) = .ok next) :
    IsSource next (source ++ [b]) := by
  unfold Json.stepAfter at hs
  split at hs
  · next hb =>
    cases hs
    exact .after (h.concat hb)
  · -- what may follow depends on the innermost bracket that is open
    split at hs
    · simp at hs
    · split at hs
      · next hc =>
        cases hs
        rcases eq_byte_of_ofUInt8 hc with rfl
        exact .nextItem h.nextItem
      · split at hs
        · next hc =>
          cases hs
          rcases eq_byte_of_ofUInt8 hc with rfl
          exact .after h.closeArray
        · simp at hs
    · split at hs
      · next hc =>
        cases hs
        rcases eq_byte_of_ofUInt8 hc with rfl
        rw [← List.append_nil (source ++ _)]
        exact .nextKey h.nextKey isBlanks_nil
      · split at hs
        · next hc =>
          cases hs
          rcases eq_byte_of_ofUInt8 hc with rfl
          exact .after h.closeObject
        · simp at hs

/-! ### Between tokens -/

theorem atByte_eq_ok_iff {α : Type} {result : Except Cause α} {a : α} :
    atByte result = .ok a ↔ result = .ok a := by
  cases result <;> simp [atByte, Except.mapError]

theorem isSource_value (h : Awaits stack source)
    (hs : stepBetween stack .value (Char.ofUInt8 b) = .ok next) :
    IsSource next (source ++ [b]) := by
  unfold stepBetween at hs
  split at hs
  · next hb =>
    cases hs
    exact .value (h.concat hb)
  · exact h.startValue hs

theorem isSource_nextItem (h : Awaits stack source)
    (hs : stepBetween stack .nextItem (Char.ofUInt8 b) = .ok next) :
    IsSource next (source ++ [b]) := by
  simp only [stepBetween] at hs
  split at hs
  · next hb =>
    cases hs
    exact .nextItem (h.concat hb)
  · split at hs
    · simp at hs
    · exact h.startValue hs

theorem isSource_firstItem {blanks : List UInt8} (h : Awaits stack source)
    (hlt : stack.length < depthLimit) (hblanks : IsBlanks blanks)
    (hs : stepBetween stack .firstItem (Char.ofUInt8 b) = .ok next) :
    IsSource next (source ++ byte '[' :: blanks ++ [b]) := by
  simp only [stepBetween] at hs
  split at hs
  · next hb =>
    cases hs
    rw [List.append_assoc, List.cons_append]
    exact .firstItem h hlt (hblanks.concat hb)
  · split at hs
    · next hc =>
      cases hs
      rcases eq_byte_of_ofUInt8 hc with rfl
      have hfits : Fits (room stack) (.array []) := fits_array.mpr ⟨room_pos hlt, by simp⟩
      rw [List.append_assoc]
      exact .after (h.held (.emptyArray hblanks) hfits)
    · -- only now the array counts as a bracket that is open
      have hopened : Opened (.array [] :: stack) (source ++ [byte '[']) := .array h hlt .nil
      have hawaits := Awaits.mk hopened hblanks
      rw [List.append_assoc] at hawaits
      exact hawaits.startValue hs

/-- Where a key is due, there is a blank or its quote. -/
theorem isSource_quote {members : List (String × Json)} {blanks : List UInt8}
    (h : Within stack members source) (hblanks : IsBlanks blanks)
    (hc : Char.ofUInt8 b = '"') :
    IsSource ⟨stack, .text (.key members) [] .plain⟩ (source ++ blanks ++ [b]) := by
  rcases eq_byte_of_ofUInt8 hc with rfl
  have hnothing : TextRead [] .plain ([] ++ []) := .mk .nil .plain
  rw [List.append_assoc]
  exact .key h hblanks hnothing

theorem isSource_nextKey {members : List (String × Json)} {blanks : List UInt8}
    (h : Within stack members source) (hblanks : IsBlanks blanks)
    (hs : stepBetween stack (.nextKey members) (Char.ofUInt8 b) = .ok next) :
    IsSource next (source ++ blanks ++ [b]) := by
  simp only [stepBetween] at hs
  split at hs
  · next hb =>
    cases hs
    rw [List.append_assoc]
    exact .nextKey h (hblanks.concat hb)
  · split at hs
    · simp at hs
    · split at hs
      · next hc =>
        cases hs
        exact isSource_quote h hblanks hc
      · simp at hs

theorem isSource_firstKey {blanks : List UInt8} (h : Awaits stack source)
    (hlt : stack.length < depthLimit) (hblanks : IsBlanks blanks)
    (hs : stepBetween stack .firstKey (Char.ofUInt8 b) = .ok next) :
    IsSource next (source ++ byte '{' :: blanks ++ [b]) := by
  have hwithin : Within stack [] (source ++ [byte '{']) := .mk h hlt .nil
  have hsplit : source ++ byte '{' :: blanks = source ++ [byte '{'] ++ blanks := by simp
  simp only [stepBetween] at hs
  split at hs
  · next hb =>
    cases hs
    rw [List.append_assoc, List.cons_append]
    exact .firstKey h hlt (hblanks.concat hb)
  · split at hs
    · next hc =>
      cases hs
      rcases eq_byte_of_ofUInt8 hc with rfl
      have hfits : Fits (room stack) (.object []) := fits_object.mpr ⟨room_pos hlt, by simp⟩
      rw [List.append_assoc]
      exact .after (h.held (.emptyObject hblanks) hfits)
    · split at hs
      · next hc =>
        cases hs
        rw [hsplit]
        exact isSource_quote hwithin hblanks hc
      · simp at hs

theorem KeySpelling.concat {key : String} {name : List UInt8} (h : KeySpelling key name)
    (hb : isBlank (Char.ofUInt8 b) = true) : KeySpelling key (name ++ [b]) := by
  cases h with
  | mk hbefore hstring hafter =>
    rw [List.append_assoc]
    exact .mk hbefore hstring (hafter.concat hb)

theorem isSource_colon {members : List (String × Json)} {key : String} {name : List UInt8}
    (h : Within stack members source) (hname : KeySpelling key name)
    (hs : stepBetween stack (.colon members key) (Char.ofUInt8 b) = .ok next) :
    IsSource next (source ++ name ++ [b]) := by
  simp only [stepBetween] at hs
  rw [List.append_assoc]
  split at hs
  · next hb =>
    cases hs
    exact .colon h (hname.concat hb)
  · split at hs
    · next hc =>
      cases hs
      rcases eq_byte_of_ofUInt8 hc with rfl
      exact .value (Opened.object h hname).awaits
    · simp at hs

/-! ### Inside a token -/

theorem isSource_name {left : List Char} {read : List UInt8} (h : Awaits stack source)
    (hvalue : Spelling value (read ++ left.map byte)) (hfits : Fits (room stack) value)
    (hs : State.step ⟨stack, .name left value⟩ b = .ok next) :
    IsSource next (source ++ read ++ [b]) := by
  cases left with
  | nil =>
    rw [List.map_nil, List.append_nil] at hvalue
    exact (h.held hvalue hfits).stepAfter (atByte_eq_ok_iff.mp hs)
  | cons c left =>
    simp only [State.step] at hs
    split at hs
    · next hc =>
      rw [List.map_cons, ← hc, byte_ofUInt8] at hvalue
      rw [List.append_assoc]
      cases hs
      -- behind its last character the name is a value
      cases left with
      | nil => exact .after (h.held hvalue hfits)
      | cons c' left =>
        rw [← List.singleton_append, ← List.append_assoc] at hvalue
        exact .name h hvalue hfits
    · simp at hs

/-- A number literal that may end here is a value. -/
theorem held_of_finish {digits : Digits} {read : List UInt8} (h : Awaits stack source)
    (hread : NumeralRead digits read) (hf : digits.finish = .ok value) :
    Held stack value (source ++ read) := by
  rcases numeral?_of_finish hf with ⟨numeral, hn, hrange, rfl⟩
  have hfits : Fits (room stack) (.number numeral) :=
    ⟨Nat.zero_le _, by simpa [numerals] using hrange⟩
  exact h.held (.number (hread.spelling hn)) hfits

theorem isSource_numeral {digits : Digits} {read : List UInt8} (h : Awaits stack source)
    (hread : NumeralRead digits read) (hs : State.step ⟨stack, .numeral digits⟩ b = .ok next) :
    IsSource next (source ++ read ++ [b]) := by
  simp only [State.step] at hs
  split at hs
  · simp at hs
  · next hp =>
    cases hs
    rw [List.append_assoc]
    exact .numeral h (hread.push hp)
  · -- the literal ended in front of this byte, which is one behind a value
    rw [closeNumeral] at hs
    split at hs
    · simp at hs
    · next hf => exact (held_of_finish h hread hf).stepAfter (atByte_eq_ok_iff.mp hs)

/-- The closing quote. -/
theorem stringSpelling_of_decode {content read : List UInt8} {text : List Char}
    (h : TextRead content .plain read) (hd : Text.decode content.reverse = (text, [])) :
    StringSpelling (String.ofList text) (byte '"' :: read ++ [byte '"']) := by
  have hchars := h.chars hd
  rw [← String.toList_ofList (l := text)] at hchars
  exact .mk hchars

theorem closesText_eq_true {place : Place} (h : closesText b place = true) :
    place = .plain ∧ b = byte '"' := by
  cases place with
  | plain =>
    rw [closesText, beq_iff_eq] at h
    exact ⟨rfl, eq_byte_of_ofUInt8 h⟩
  | escape | hex | pairBackslash | pairMark => cases h

theorem isSource_text {content read : List UInt8} {place : Place} (h : Awaits stack source)
    (hread : TextRead content place read)
    (hs : State.step ⟨stack, .text .value content place⟩ b = .ok next) :
    IsSource next (source ++ byte '"' :: read ++ [b]) := by
  rw [List.append_assoc]
  rcases step_text_eq_ok_iff.mp hs with ⟨hc, text, hd, rfl⟩ | ⟨hc, _, _, hp, rfl⟩
  · obtain ⟨rfl, rfl⟩ := closesText_eq_true hc
    exact .after (h.held (.string (stringSpelling_of_decode hread hd)) (fits_leaf rfl rfl))
  · exact .text h (hread.pushByte hc hp)

theorem isSource_key {members : List (String × Json)} {content blanks read : List UInt8}
    {place : Place} (h : Within stack members source) (hblanks : IsBlanks blanks)
    (hread : TextRead content place read)
    (hs : State.step ⟨stack, .text (.key members) content place⟩ b = .ok next) :
    IsSource next (source ++ (blanks ++ byte '"' :: read) ++ [b]) := by
  rw [List.append_assoc, List.append_assoc]
  rcases step_text_eq_ok_iff.mp hs with ⟨hc, text, hd, rfl⟩ | ⟨hc, _, _, hp, rfl⟩
  · obtain ⟨rfl, rfl⟩ := closesText_eq_true hc
    have hname := KeySpelling.mk hblanks (stringSpelling_of_decode hread hd) isBlanks_nil
    rw [List.append_nil] at hname
    exact .colon h hname
  · exact .key h hblanks (hread.pushByte hc hp)

/-! ## Runs -/

/-- One byte more is read. -/
theorem IsSource.step {state : State} (h : IsSource state source) (hs : state.step b = .ok next) :
    IsSource next (source ++ [b]) := by
  cases h with
  | value h => exact isSource_value h (atByte_eq_ok_iff.mp hs)
  | firstItem h hlt hblanks => exact isSource_firstItem h hlt hblanks (atByte_eq_ok_iff.mp hs)
  | nextItem h => exact isSource_nextItem h (atByte_eq_ok_iff.mp hs)
  | firstKey h hlt hblanks => exact isSource_firstKey h hlt hblanks (atByte_eq_ok_iff.mp hs)
  | nextKey h hblanks => exact isSource_nextKey h hblanks (atByte_eq_ok_iff.mp hs)
  | colon h hname => exact isSource_colon h hname (atByte_eq_ok_iff.mp hs)
  | name h hvalue hfits => exact isSource_name h hvalue hfits hs
  | numeral h hread => exact isSource_numeral h hread hs
  | text h hread => exact isSource_text h hread hs
  | key h hblanks hread => exact isSource_key h hblanks hread hs
  | after h => exact h.stepAfter (atByte_eq_ok_iff.mp hs)

/-- What a run adds to the source are the bytes that it reads. -/
theorem IsSource.run {state last : State} {bytes : List UInt8} (h : IsSource state source)
    (hrun : Reaches state bytes last) : IsSource last (source ++ bytes) := by
  induction hrun generalizing source with
  | refl _ => rwa [List.append_nil]
  | step hs _ ih =>
    have hall := ih (h.step hs)
    rwa [List.append_assoc] at hall

theorem finishAfter_eq_ok {document : Json} (h : finishAfter stack value = .ok document) :
    stack = [] ∧ value = document := by
  cases stack with
  | nil => exact ⟨rfl, by simpa [finishAfter] using h⟩
  | cons frame stack => cases frame <;> cases h

/-- A text may end behind a document, and inside a number that is one. -/
theorem finish_eq_ok {state : State} {document : Json} (h : state.finish = .ok document) :
    state = ⟨[], .after document⟩ ∨
      ∃ digits, state = ⟨[], .numeral digits⟩ ∧ digits.finish = .ok document := by
  rcases state with ⟨stack, phase⟩
  cases phase with
  | value | firstItem | nextItem | firstKey | nextKey | colon | name | text => cases h
  | numeral digits =>
    simp only [State.finish] at h
    cases hf : digits.finish with
    | error cause =>
      rw [hf] at h
      cases h
    | ok value =>
      rw [hf] at h
      rcases finishAfter_eq_ok h with ⟨rfl, rfl⟩
      exact .inr ⟨digits, rfl, hf⟩
  | after value =>
    rcases finishAfter_eq_ok h with ⟨rfl, rfl⟩
    exact .inl rfl

/-- A value behind which no bracket is open is a whole text. -/
theorem Held.text (h : Held [] value source) :
    TextSpelling value source ∧ Fits depthLimit value := by
  rcases h with ⟨hawaits, hvalue, hfits, hafter⟩
  rcases hawaits with ⟨hopened, hbefore⟩
  cases hopened with
  | top =>
    rw [List.nil_append, ← List.append_assoc]
    exact ⟨.mk hbefore hvalue hafter, hfits⟩

/-- What is read was a spelling of the document, and the document fits. -/
theorem spelling_of_read {document : Json} {bytes : List UInt8} (h : read bytes = .ok document) :
    TextSpelling document bytes ∧ Fits depthLimit document := by
  rcases read_eq_ok_iff.mp h with ⟨last, hrun, hfinish⟩
  have hsource : IsSource last ([] ++ bytes) :=
    IsSource.run (.value Opened.top.awaits) hrun
  rw [List.nil_append] at hsource
  rcases finish_eq_ok hfinish with rfl | ⟨digits, rfl, hf⟩
  · cases hsource with
    | after hheld => exact hheld.text
  · cases hsource with
    | numeral hawaits hread => exact (held_of_finish hawaits hread hf).text

end Readiness.Json
