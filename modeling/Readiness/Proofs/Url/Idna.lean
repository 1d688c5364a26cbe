import Mathlib.Data.List.TakeWhile
import Readiness.Proofs.Text.Line
import Readiness.Proofs.Text.Utf8
import Readiness.Proofs.Url.Encoding
import Readiness.Url.Idna

namespace Readiness.Url

/-! # Names in ASCII

Who brings names into ASCII is a parameter, and little is asked of it: a name that stands for itself
is only brought into lower case, and what arises from any name stays as it is from then on. Those who
know no names beyond ASCII are of this kind, and remain so if they learn of one.
-/

variable {name : List Char} {bytes : List UInt8} {c : Char}

/-- The bytes of a name. -/
def nameBytes (name : List Char) : List UInt8 := name.flatMap String.utf8EncodeChar

theorem nameBytes_inj {name' : List Char} (h : nameBytes name = nameBytes name') :
    name = name' := by
  have hdecode := Text.decode_encode name
  rw [← nameBytes, h, nameBytes, Text.decode_encode, Prod.mk.injEq] at hdecode
  exact hdecode.1.symm

/-- What is asked of those who bring names into ASCII. Which names there are is left to them. -/
class LawfulIdna [Idna] : Prop where
  /-- A name that stands for itself is brought into lower case, if it is a name at all. -/
  direct : ∀ name, Idna.isDirect name = true →
    Idna.toAscii? (nameBytes name) = Idna.directName? name
  /-- What arises holds nothing that no name can hold, so it is ASCII. -/
  allowed : ∀ bytes name, Idna.toAscii? bytes = some name →
    ∀ c ∈ name, Host.isForbiddenInName c = false
  /-- What arises is in lower case. -/
  lower : ∀ bytes name, Idna.toAscii? bytes = some name → ∀ c ∈ name, c.toLower = c
  /-- What arises stays as it is when it is brought into ASCII again. -/
  again : ∀ bytes name, Idna.toAscii? bytes = some name → Idna.toAscii? (nameBytes name) = some name
  /-- No name holds a bracket. -/
  bracket : ∀ bytes, 91 ∈ bytes → Idna.toAscii? bytes = none

/-! ## Characters of names -/

/-- What is allowed in a name is ASCII, and no percent sign. -/
theorem Host.ascii_of_allowed (h : isForbiddenInName c = false) : c ≠ '%' ∧ c.toNat < 0x80 := by
  rw [isForbiddenInName, Bool.or_eq_false_iff, Bool.or_eq_false_iff] at h
  obtain ⟨⟨-, hcontrol⟩, hpercent⟩ := h
  have hrange : ' '.toNat ≤ c.toNat ∧ c.toNat ≤ '~'.toNat := by
    simpa [controlSet, Char.le_def, UInt32.le_iff_toNat_le] using hcontrol
  exact ⟨by simpa using hpercent, Nat.lt_of_le_of_lt hrange.2 (by decide)⟩

/-- What is allowed in a name is allowed in lower case, too. -/
theorem Host.allowed_toLower (h : isForbiddenInName c = false) :
    isForbiddenInName c.toLower = false ∧ c.toLower.toLower = c.toLower :=
  Text.forall_of_lt
    (P := fun c => isForbiddenInName c = false →
      isForbiddenInName c.toLower = false ∧ c.toLower.toLower = c.toLower)
    (by decide) (ascii_of_allowed h).2 h

namespace Idna

/-! ## Names that stand for themselves -/

theorem isDirect_iff :
    isDirect name = true ↔ (∀ c ∈ name, c.toNat < 0x80) ∧
      ∀ label ∈ (name.map Char.toLower).splitOn '.', ¬ mark <+: label := by
  simp [isDirect, ← List.isPrefixOf_iff_prefix]

theorem mem_intercalate {label separator : List Char} {labels : List (List Char)}
    (hlabel : label ∈ labels) (hc : c ∈ label) : c ∈ separator.intercalate labels := by
  induction labels with
  | nil => cases hlabel
  | cons first labels ih =>
    cases labels with
    | nil =>
      rw [List.mem_singleton.mp hlabel] at hc
      simpa using hc
    | cons second labels =>
      rw [List.intercalate_cons_cons]
      rcases List.mem_cons.mp hlabel with rfl | hlabel
      · exact List.mem_append_left _ (List.mem_append_left _ hc)
      · exact List.mem_append_right _ (ih hlabel)

/-- No label of a name without hyphens is marked. -/
theorem isDirect_of_forall_ne (hlow : ∀ c ∈ name, c.toNat < 0x80) (hhyphen : ∀ c ∈ name, c ≠ '-') :
    isDirect name = true := by
  rw [isDirect_iff]
  refine ⟨hlow, ?_⟩
  intro label hlabel hmark
  -- a hyphen of a label is one of the name, and lower case makes none
  have hwhole : ['.'].intercalate ((name.map Char.toLower).splitOn '.') = name.map Char.toLower :=
    List.intercalate_splitOn '.'
  have hmem : '-' ∈ name.map Char.toLower :=
    hwhole ▸ mem_intercalate hlabel (hmark.subset (by decide))
  obtain ⟨c, hc, hlower⟩ := List.mem_map.mp hmem
  have hall : ∀ n : Fin 128, (Char.ofNat n.val).toLower = '-' → Char.ofNat n.val = '-' := by decide
  exact hhyphen c hc
    (Text.forall_of_lt (P := fun c => c.toLower = '-' → c = '-') hall (hlow c hc) hlower)

theorem directName?_eq_some {result : List Char} (h : directName? name = some result) :
    result = name.map Char.toLower ∧ ∀ c ∈ name, Host.isForbiddenInName c = false := by
  rw [directName?] at h
  split at h
  · cases h
  · next hallowed =>
    refine ⟨(Option.some.inj h).symm, ?_⟩
    simpa using hallowed

theorem directName?_of_allowed (h : ∀ c ∈ name, Host.isForbiddenInName c = false) :
    directName? name = some (name.map Char.toLower) := by
  rw [directName?, if_neg (by simpa using h)]

theorem map_toLower_eq_self (h : ∀ c ∈ name, c.toLower = c) : name.map Char.toLower = name :=
  (List.map_congr_left (g := id) h).trans (List.map_id name)

/-- The bytes of a name in ASCII are its characters. -/
theorem map_ofUInt8_nameBytes (hlow : ∀ c ∈ name, c.toNat < 0x80) :
    (nameBytes name).map Char.ofUInt8 = name := by
  induction name with
  | nil => rfl
  | cons c name ih =>
    rw [List.forall_mem_cons] at hlow
    have hc : Char.ofUInt8 (UInt8.ofNat c.toNat) = c := by
      apply Char.toNat_inj.mp
      exact Text.toNat_ofNat_of_lt (by omega)
    rw [nameBytes, List.flatMap_cons, List.map_append, ← nameBytes, ih hlow.2,
      Text.encodeChar_of_lt hlow.1, List.map_cons, hc]
    rfl

/-! ## Those who know no other names -/

theorem toAscii?_direct_eq (bytes : List UInt8) :
    direct.toAscii? bytes =
      if isDirect (bytes.map Char.ofUInt8) then directName? (bytes.map Char.ofUInt8) else none :=
  rfl

theorem toAscii?_direct (h : isDirect name = true) :
    direct.toAscii? (nameBytes name) = directName? name := by
  have hname := map_ofUInt8_nameBytes (isDirect_iff.mp h).1
  rw [toAscii?_direct_eq, hname, if_pos h]

/-- What they make of a name stands for itself, in lower case. -/
theorem toAscii?_direct_eq_some (h : direct.toAscii? bytes = some name) :
    isDirect name = true ∧ (∀ c ∈ name, Host.isForbiddenInName c = false) ∧
      ∀ c ∈ name, c.toLower = c := by
  rw [toAscii?_direct_eq] at h
  split at h
  · next hdirect =>
    obtain ⟨rfl, hallowed⟩ := directName?_eq_some h
    have hname : ∀ c ∈ (bytes.map Char.ofUInt8).map Char.toLower,
        Host.isForbiddenInName c = false ∧ c.toLower = c := by
      rw [List.forall_mem_map]
      intro c hc
      exact Host.allowed_toLower (hallowed c hc)
    have hsame : ((bytes.map Char.ofUInt8).map Char.toLower).map Char.toLower =
        (bytes.map Char.ofUInt8).map Char.toLower :=
      map_toLower_eq_self fun c hc => (hname c hc).2
    refine ⟨?_, fun c hc => (hname c hc).1, fun c hc => (hname c hc).2⟩
    -- the labels were looked at in lower case, so they are the same labels
    rw [isDirect_iff] at hdirect ⊢
    rw [hsame]
    exact ⟨fun c hc => (Host.ascii_of_allowed (hname c hc).1).2, hdirect.2⟩
  · cases h

theorem toAscii?_direct_again (h : direct.toAscii? bytes = some name) :
    direct.toAscii? (nameBytes name) = some name := by
  obtain ⟨hdirect, hallowed, hlower⟩ := toAscii?_direct_eq_some h
  rw [toAscii?_direct hdirect, directName?_of_allowed hallowed, map_toLower_eq_self hlower]

theorem toAscii?_direct_of_bracket (h : 91 ∈ bytes) : direct.toAscii? bytes = none := by
  have hmem : '[' ∈ bytes.map Char.ofUInt8 := List.mem_map.mpr ⟨91, h, by decide⟩
  have hany : (bytes.map Char.ofUInt8).any Host.isForbiddenInName = true :=
    List.any_eq_true.mpr ⟨'[', hmem, by decide⟩
  rw [toAscii?_direct_eq, directName?, if_pos hany, ite_self]

instance : LawfulIdna where
  direct _ h := toAscii?_direct h
  allowed _ _ h := (toAscii?_direct_eq_some h).2.1
  lower _ _ h := (toAscii?_direct_eq_some h).2.2
  again _ _ h := toAscii?_direct_again h
  bracket _ h := toAscii?_direct_of_bracket h

/-! ## Those who know one more -/

/-- A name beyond ASCII, and the one in ASCII that stands for it. -/
structure Entry where
  name : List Char
  ascii : List Char
  beyond : isDirect name = false
  marked : isDirect ascii = false
  allowed : ascii.any Host.isForbiddenInName = false
  lower : ascii.map Char.toLower = ascii
  bracket : 91 ∉ nameBytes name ++ nameBytes ascii

/-- Knows one name besides those that stand for themselves. -/
@[reducible] def knowing (entry : Entry) : Idna where
  toAscii? bytes :=
    if bytes = nameBytes entry.name ∨ bytes = nameBytes entry.ascii then some entry.ascii
    else direct.toAscii? bytes

theorem toAscii?_knowing_of_other {entry : Entry}
    (h : ¬ (bytes = nameBytes entry.name ∨ bytes = nameBytes entry.ascii)) :
    (knowing entry).toAscii? bytes = direct.toAscii? bytes :=
  if_neg h

theorem toAscii?_knowing_of_direct (entry : Entry) (h : isDirect name = true) :
    (knowing entry).toAscii? (nameBytes name) = direct.toAscii? (nameBytes name) := by
  apply toAscii?_knowing_of_other
  rintro (heq | heq)
  · rw [nameBytes_inj heq, entry.beyond] at h
    cases h
  · rw [nameBytes_inj heq, entry.marked] at h
    cases h

theorem toAscii?_knowing_eq_some {entry : Entry} (h : (knowing entry).toAscii? bytes = some name) :
    name = entry.ascii ∨ direct.toAscii? bytes = some name := by
  by_cases hknown : bytes = nameBytes entry.name ∨ bytes = nameBytes entry.ascii
  · have hascii : (knowing entry).toAscii? bytes = some entry.ascii := if_pos hknown
    rw [hascii, Option.some.injEq] at h
    exact .inl h.symm
  · rw [toAscii?_knowing_of_other hknown] at h
    exact .inr h

instance (entry : Entry) : @LawfulIdna (knowing entry) :=
  letI := knowing entry
  { direct := by
      intro name h
      exact (toAscii?_knowing_of_direct entry h).trans (toAscii?_direct h)
    allowed := by
      intro bytes name h
      rcases toAscii?_knowing_eq_some h with rfl | h
      · simpa using entry.allowed
      · exact (toAscii?_direct_eq_some h).2.1
    lower := by
      intro bytes name h
      rcases toAscii?_knowing_eq_some h with rfl | h
      · exact List.map_inj_left.mp (entry.lower.trans (List.map_id _).symm)
      · exact (toAscii?_direct_eq_some h).2.2
    again := by
      intro bytes name h
      rcases toAscii?_knowing_eq_some h with rfl | h
      · -- the name in ASCII is known as well, and stays as it is
        exact if_pos (.inr rfl)
      · have hdirect := (toAscii?_direct_eq_some h).1
        exact (toAscii?_knowing_of_direct entry hdirect).trans (toAscii?_direct_again h)
    bracket := by
      intro bytes h
      refine (toAscii?_knowing_of_other ?_).trans (toAscii?_direct_of_bracket h)
      rintro (rfl | rfl)
      · exact entry.bracket (List.mem_append_left _ h)
      · exact entry.bracket (List.mem_append_right _ h) }

/-- A name with an umlaut in it. -/
def bookEntry : Entry where
  name := "bücher".toList
  ascii := "xn--bcher-kva".toList
  beyond := by decide
  marked := by decide
  allowed := by decide
  lower := by decide
  bracket := by decide

end Idna
end Readiness.Url
