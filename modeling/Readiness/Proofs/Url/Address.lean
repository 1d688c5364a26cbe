import Mathlib.Data.List.Basic
import Mathlib.Data.List.TakeWhile
import Mathlib.Data.Nat.Digits.Defs
import Readiness.Proofs.Text.Delimited
import Readiness.Url.Address

namespace Readiness.Url

/-! # Addresses are read back

The text of an address is read as that address again. Its numbers are separated by a mark that no
digit is, so they are read one by one. Two colons in a row stand in the text of eight pieces once at
most, and how many zeros they stand for is known from the pieces that are left.
-/

/-! ## Numbers -/

theorem numberIn?_toDigits {base : Nat} (hbase : 1 < base) (hle : base ≤ 16) (n : Nat) :
    numberIn? base (Nat.toDigits base n) = some n := by
  induction n using Nat.strongRecOn with
  | ind n ih =>
    rw [Nat.toDigits_eq_if hbase]
    by_cases hlt : n < base
    · have hdigit := Text.hexDigit?_digitChar (Nat.lt_of_lt_of_le hlt hle)
      rw [if_pos hlt, numberIn?, List.foldlM_cons, hdigit]
      simp [hlt]
    · -- the last digit is read behind all others
      have hfront := ih (n / base) (Nat.div_lt_self (by omega) hbase)
      have hlast : n % base < base := Nat.mod_lt n (by omega)
      have hdigit := Text.hexDigit?_digitChar (Nat.lt_of_lt_of_le hlast hle)
      rw [numberIn?] at hfront
      rw [if_neg hlt, numberIn?, List.foldlM_append, hfront, Option.bind_eq_bind, Option.bind_some,
        List.foldlM_cons, hdigit]
      simp [hlast, Nat.div_add_mod]

/-- What is no digit in any base stands in no number. -/
theorem not_mem_toDigits {c : Char} (hc : Text.hexDigit? c = none) {base : Nat} (hbase : 1 < base)
    (hle : base ≤ 16) (n : Nat) : c ∉ Nat.toDigits base n := by
  intro hmem
  obtain ⟨d, hd, rfl⟩ := Text.exists_digitChar_of_mem_toDigits hbase hmem
  rw [Text.hexDigit?_digitChar (Nat.lt_of_lt_of_le hd hle)] at hc
  cases hc

/-! ## Four octets -/

namespace Address4

theorem partNumber?_toDigits (octet : UInt8) :
    partNumber? (Nat.toDigits 10 octet.toNat) = some octet.toNat := by
  have hall : ∀ n : Fin 256, partNumber? (Nat.toDigits 10 n.val) = some n.val := by decide +kernel
  exact hall ⟨octet.toNat, octet.toNat_lt⟩

theorem parts_text (address : Address4) :
    parts address.text =
      [address.first, address.second, address.third, address.fourth].map fun octet =>
        Nat.toDigits 10 octet.toNat := by
  have hpoint : ∀ part ∈ [address.first, address.second, address.third, address.fourth].map
      (fun octet => Nat.toDigits 10 octet.toNat), '.' ∉ part := by
    rw [List.forall_mem_map]
    intro octet _
    exact not_mem_toDigits (by decide) (by decide) (by decide) octet.toNat
  rw [parts, text, List.splitOn_intercalate '.' hpoint (by simp)]
  simp [Nat.toDigits_ne_nil]

theorem isMeant_text (address : Address4) : isMeant address.text = true := by
  rw [isMeant, parts_text]
  simp [partNumber?_toDigits]

theorem number?_octets (a b c d : UInt8) :
    number? [a.toNat, b.toNat, c.toNat, d.toNat] =
      some (((a.toNat * 256 + b.toNat) * 256 + c.toNat) * 256 + d.toNat) := by
  have ha := a.toNat_lt
  have hb := b.toNat_lt
  have hc := c.toNat_lt
  have hd := d.toNat_lt
  have hroom : room 1 = 256 := rfl
  simp only [number?, List.dropLast_cons_cons, List.dropLast_singleton, List.getLast_cons_cons,
    List.getLast_singleton, List.length_cons, List.length_nil, List.all_cons, List.all_nil,
    List.foldl_cons, List.foldl_nil]
  norm_num [hroom]
  omega

theorem ofNat_octets (a b c d : UInt8) :
    ofNat (((a.toNat * 256 + b.toNat) * 256 + c.toNat) * 256 + d.toNat) = ⟨a, b, c, d⟩ := by
  have ha := a.toNat_lt
  have hb := b.toNat_lt
  have hc := c.toNat_lt
  have hd := d.toNat_lt
  simp only [ofNat, Address4.mk.injEq, ← UInt8.toNat_inj, UInt8.toNat_ofNat']
  omega

/-- Four octets are read back. -/
theorem read?_text (address : Address4) : read? address.text = some address := by
  have hnumbers : (parts address.text).mapM partNumber? =
      some [address.first.toNat, address.second.toNat, address.third.toNat,
        address.fourth.toNat] := by
    simp [parts_text, partNumber?_toDigits]
  rw [read?, hnumbers, Option.bind_eq_bind, Option.bind_some, number?_octets]
  simp [ofNat_octets]

/-- What holds of the point and of all digits holds in the text of four octets. -/
theorem forall_mem_text {P : Char → Prop} (hpoint : P '.')
    (hdigit : ∀ d : Fin 10, P (Nat.digitChar d.val)) (address : Address4) :
    ∀ c ∈ address.text, P c := by
  apply Text.forall_mem_intercalate
  · rw [List.forall_mem_singleton]
    exact hpoint
  · rw [List.forall_mem_map]
    intro octet _ c hc
    obtain ⟨d, hd, rfl⟩ := Text.exists_digitChar_of_mem_toDigits (by decide) hc
    exact hdigit ⟨d, hd⟩

theorem text_ne_nil (address : Address4) : address.text ≠ [] := by
  intro h
  have hmeant := address.isMeant_text
  rw [h] at hmeant
  cases hmeant

end Address4

/-! ## Eight pieces -/

namespace Address6

variable {pieces : List UInt16} {text : List Char}

theorem joined_cons_cons (piece second : UInt16) (pieces : List UInt16) :
    joined (piece :: second :: pieces) =
      Nat.toDigits 16 piece.toNat ++ ':' :: joined (second :: pieces) := by
  rw [joined, List.map_cons, List.map_cons, List.intercalate_cons_cons, List.append_assoc,
    List.singleton_append, joined, List.map_cons]

theorem joined_singleton (piece : UInt16) : joined [piece] = Nat.toDigits 16 piece.toNat := by
  rw [joined, List.map_singleton, List.intercalate_singleton]

theorem ne_colon_of_mem_toDigits (piece : UInt16) : ∀ c ∈ Nat.toDigits 16 piece.toNat, c ≠ ':' := by
  rintro c hc rfl
  exact not_mem_toDigits (by decide) (by decide) (by decide) _ hc

/-- Pieces begin with a digit. -/
theorem exists_joined_cons (piece : UInt16) (pieces : List UInt16) :
    ∃ c text, joined (piece :: pieces) = c :: text ∧ c ≠ ':' := by
  obtain ⟨c, digits, hdigits⟩ :=
    List.exists_cons_of_ne_nil (Nat.toDigits_ne_nil (n := piece.toNat) (b := 16))
  have hc : c ≠ ':' := ne_colon_of_mem_toDigits piece c (hdigits ▸ List.mem_cons_self)
  cases pieces with
  | nil => exact ⟨c, digits, joined_singleton piece ▸ hdigits, hc⟩
  | cons second pieces =>
    refine ⟨c, digits ++ ':' :: joined (second :: pieces), ?_, hc⟩
    rw [joined_cons_cons, hdigits, List.cons_append]

/-- What holds of the colon and of all digits holds in pieces. -/
theorem forall_mem_joined {P : Char → Prop} (hcolon : P ':')
    (hdigit : ∀ d : Fin 16, P (Nat.digitChar d.val)) (pieces : List UInt16) :
    ∀ c ∈ joined pieces, P c := by
  apply Text.forall_mem_intercalate
  · rw [List.forall_mem_singleton]
    exact hcolon
  · rw [List.forall_mem_map]
    intro piece _ c hc
    obtain ⟨d, hd, rfl⟩ := Text.exists_digitChar_of_mem_toDigits (by decide) hc
    exact hdigit ⟨d, hd⟩

theorem forall_mem_text {P : Char → Prop} (hcolon : P ':')
    (hdigit : ∀ d : Fin 16, P (Nat.digitChar d.val)) (address : Address6) :
    ∀ c ∈ address.text, P c := by
  simp only [Address6.text]
  split
  · exact forall_mem_joined hcolon hdigit _
  · rw [List.forall_mem_append, List.forall_mem_append, List.forall_mem_cons,
      List.forall_mem_singleton]
    exact ⟨⟨forall_mem_joined hcolon hdigit _, hcolon, hcolon⟩, forall_mem_joined hcolon hdigit _⟩

/-! ### Pieces are read back -/

theorem piece?_toDigits (piece : UInt16) :
    piece? (Nat.toDigits 16 piece.toNat) = some piece := by
  have hlt : piece.toNat < 16 ^ 4 := piece.toNat_lt
  have hlong : (Nat.toDigits 16 piece.toNat).length ≤ 4 :=
    (Nat.length_toDigits_le_iff (by decide) (by decide)).mpr hlt
  have hshort : 1 ≤ (Nat.toDigits 16 piece.toNat).length :=
    List.length_pos_iff.mpr Nat.toDigits_ne_nil
  rw [piece?, if_pos ⟨hshort, hlong⟩, numberIn?_toDigits (by decide) (by decide), Option.map_some,
    UInt16.ofNat_toNat]

theorem pieces?_toDigits (pieces : List UInt16) :
    pieces? (pieces.map fun piece => Nat.toDigits 16 piece.toNat) = some pieces := by
  induction pieces with
  | nil => rfl
  | cons piece pieces ih =>
    cases pieces with
    | nil =>
      have hpoint : '.' ∉ Nat.toDigits 16 piece.toNat :=
        not_mem_toDigits (by decide) (by decide) (by decide) _
      simp [pieces?, hpoint, piece?_toDigits]
    | cons second pieces =>
      rw [List.map_cons] at ih
      rw [List.map_cons, List.map_cons, pieces?, ih, piece?_toDigits]
      · rfl
      · simp

theorem splitOn_joined (hne : pieces ≠ []) :
    (joined pieces).splitOn ':' = pieces.map fun piece => Nat.toDigits 16 piece.toNat := by
  apply List.splitOn_intercalate
  · rw [List.forall_mem_map]
    intro piece _ hmem
    exact ne_colon_of_mem_toDigits piece _ hmem rfl
  · simpa using hne

theorem side?_joined (pieces : List UInt16) : side? (joined pieces) = some pieces := by
  by_cases hne : pieces = []
  · subst hne
    rfl
  · obtain ⟨piece, others, rfl⟩ := List.exists_cons_of_ne_nil hne
    obtain ⟨c, text, htext, -⟩ := exists_joined_cons piece others
    rw [side?, if_neg (by simp [htext]), splitOn_joined hne, pieces?_toDigits]

/-! ### The run of zeros -/

theorem splitRun_append_of_forall_ne (h : ∀ c ∈ text, c ≠ ':') (rest : List Char) :
    splitRun (text ++ rest) = (splitRun rest).map fun (front, back) => (text ++ front, back) := by
  induction text with
  | nil => simp
  | cons c text ih =>
    rw [List.forall_mem_cons] at h
    rw [List.cons_append, splitRun.eq_def]
    split
    · next heq => exact absurd (List.cons.inj heq).1 h.1
    · next heq =>
      obtain ⟨rfl, rfl⟩ := List.cons.inj heq
      rw [ih h.2, Option.map_map]
      rfl
    · next heq => cases heq

theorem splitRun_colon {c : Char} (hc : c ≠ ':') (rest : List Char) :
    splitRun (':' :: c :: rest) =
      (splitRun (c :: rest)).map fun (front, back) => (':' :: front, back) := by
  rw [splitRun.eq_def]
  split
  · next heq => exact absurd (List.cons.inj (List.cons.inj heq).2).1 hc
  · next heq =>
    obtain ⟨rfl, rfl⟩ := List.cons.inj heq
    rfl
  · next heq => cases heq

/-- No two colons in a row stand in pieces, or at the end of them. -/
theorem splitRun_joined_append (hne : pieces ≠ []) (rest : List Char) :
    splitRun (joined pieces ++ rest) =
      (splitRun rest).map fun (front, back) => (joined pieces ++ front, back) := by
  induction pieces with
  | nil => exact absurd rfl hne
  | cons piece pieces ih =>
    cases pieces with
    | nil =>
      rw [joined_singleton]
      exact splitRun_append_of_forall_ne (ne_colon_of_mem_toDigits piece) rest
    | cons second pieces =>
      have hrest := ih (List.cons_ne_nil _ _)
      -- behind the colon a piece begins, so no other colon follows it
      obtain ⟨c, text, htext, hc⟩ := exists_joined_cons second pieces
      rw [joined_cons_cons, List.append_assoc,
        splitRun_append_of_forall_ne (ne_colon_of_mem_toDigits piece), List.cons_append, htext,
        List.cons_append, splitRun_colon hc, ← List.cons_append, ← htext, hrest, Option.map_map,
        Option.map_map]
      congr 1
      funext pair
      simp

theorem splitRun_joined (pieces : List UInt16) : splitRun (joined pieces) = none := by
  by_cases hne : pieces = []
  · subst hne
    rfl
  · have hnothing := splitRun_joined_append hne []
    rwa [List.append_nil] at hnothing

theorem splitRun_joined_run (front : List UInt16) (back : List Char) :
    splitRun (joined front ++ ':' :: ':' :: back) = some (joined front, back) := by
  by_cases hne : front = []
  · subst hne
    rfl
  · have hrun : splitRun (':' :: ':' :: back) = some ([], back) := rfl
    simp [splitRun_joined_append hne, hrun]

theorem take_zeroRun (pieces : List UInt16) :
    pieces.take (zeroRun pieces) = List.replicate (zeroRun pieces) 0 := by
  have hzeros : pieces.takeWhile (· == 0) = List.replicate (zeroRun pieces) 0 := by
    apply List.eq_replicate_of_mem
    intro piece hpiece
    exact beq_iff_eq.mp (List.mem_takeWhile_imp (p := (· == 0)) hpiece)
  rw [← hzeros]
  exact (List.prefix_iff_eq_take.mp (List.takeWhile_prefix _)).symm

/-- The pieces in front of the longest run of zeros, the run, and the pieces behind it are all
pieces. -/
theorem beforeRun_append (pieces : List UInt16) (hpos : 0 < longestRun pieces) :
    beforeRun (longestRun pieces) pieces ++ (List.replicate (longestRun pieces) 0 ++
      pieces.drop ((beforeRun (longestRun pieces) pieces).length + longestRun pieces)) = pieces := by
  induction pieces with
  | nil => cases hpos
  | cons piece pieces ih =>
    by_cases hrun : zeroRun (piece :: pieces) = longestRun (piece :: pieces)
    · have htake := take_zeroRun (piece :: pieces)
      rw [hrun] at htake
      rw [beforeRun, if_pos hrun, List.nil_append, List.length_nil, Nat.zero_add, ← htake,
        List.take_append_drop]
    · -- the longest run is not the first one, so it is the longest of what follows
      have hlater : longestRun (piece :: pieces) = longestRun pieces := by
        rw [longestRun] at hrun ⊢
        omega
      rw [hlater] at hpos hrun ⊢
      have hrest := ih hpos
      rw [beforeRun, if_neg hrun, List.length_cons, Nat.add_right_comm, List.drop_succ_cons,
        List.cons_append, hrest]

theorem ofPieces?_pieces (address : Address6) : ofPieces? address.pieces = some address := by
  rw [ofPieces?, dif_pos address.eight]

/-- Eight pieces are read back. -/
theorem read?_text (address : Address6) : read? address.text = some address := by
  have hne : address.pieces ≠ [] := by
    intro h
    have height := address.eight
    rw [h] at height
    cases height
  by_cases hrun : longestRun address.pieces < 2
  · have htext : address.text = joined address.pieces := by
      rw [text]
      exact if_pos hrun
    rw [htext, read?, splitRun_joined]
    simp only
    rw [splitOn_joined hne, pieces?_toDigits, Option.bind_eq_bind, Option.bind_some,
      ofPieces?_pieces]
  · have hsplit := beforeRun_append address.pieces (by omega)
    generalize hfront : beforeRun (longestRun address.pieces) address.pieces = front at hsplit
    generalize hback : address.pieces.drop (front.length + longestRun address.pieces) = back
      at hsplit
    have htext : address.text = joined front ++ ':' :: ':' :: joined back := by
      simp only [text, if_neg hrun, hfront, hback, List.append_assoc, List.cons_append,
        List.nil_append]
    have hpoint : (joined front).contains '.' = false := by
      rw [List.contains_eq_mem, decide_eq_false_iff_not]
      intro hmem
      exact forall_mem_joined (P := (· ≠ '.')) (by decide) (by decide) front _ hmem rfl
    -- as many zeros are missing as the run has
    have hlength := congrArg List.length hsplit
    rw [List.length_append, List.length_append, List.length_replicate, address.eight] at hlength
    have hknown : front.length + back.length ≤ 7 := by omega
    have hmissing : 8 - (front.length + back.length) = longestRun address.pieces := by omega
    rw [htext, read?, splitRun_joined_run]
    simp only [hpoint, side?_joined, Option.bind_eq_bind, Option.bind_some, Bool.false_eq_true,
      if_false, if_pos hknown, hmissing, List.append_assoc, hsplit, ofPieces?_pieces]

end Address6
end Readiness.Url
