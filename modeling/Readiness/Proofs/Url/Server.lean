import Mathlib.Data.List.TakeDrop
import Mathlib.Data.List.TakeWhile
import Readiness.Proofs.Number.Decimal
import Readiness.Proofs.Url.Idna
import Readiness.Url.Reader

namespace Readiness.Url

/-! # Servers from texts

A server is credentials up to the last `@`, a name, and a port behind a colon. A port that was
written as a number is read as that number, or the text is no server at all: a colon too many
leaves a port that is no number, and a bracket that is not closed leaves a name that is none.
-/

variable {scheme : Scheme} {text front back place digits name : List Char} {host : Host}
  {port : UInt16} {authority : Authority} {rest : List Char}

/-! ## ASCII -/

theorem lt_of_isAlphanum {c : Char} (h : c.isAlphanum = true) : c.toNat < 128 := by
  delta Char.isAlphanum Char.isAlpha Char.isUpper Char.isLower Char.isDigit at h
  simp only [Bool.or_eq_true, Bool.and_eq_true, decide_eq_true_eq, ge_iff_le,
    UInt32.le_iff_toNat_le] at h
  have hcase : ((65 ≤ c.toNat ∧ c.toNat ≤ 90) ∨ (97 ≤ c.toNat ∧ c.toNat ≤ 122)) ∨
      (48 ≤ c.toNat ∧ c.toNat ≤ 57) := h
  omega

/-! ## Credentials -/

theorem cutLast_snd (text : List Char) :
    (cutLast text).2 = (text.reverse.takeWhile (· != '@')).reverse := by
  rw [cutLast, List.span_eq_takeWhile_dropWhile]
  split <;> next h => exact congrArg List.reverse (Prod.mk.inj h).1.symm

/-- Without an `@` there are no credentials. -/
theorem cutLast_of_forall_ne (h : ∀ c ∈ text, c ≠ '@') : cutLast text = (none, text) := by
  have hall : ∀ c ∈ text.reverse, (c != '@') = true := by
    intro c hc
    exact bne_iff_ne.mpr (h c (List.mem_reverse.mp hc))
  rw [cutLast, List.span_eq_takeWhile_dropWhile, List.takeWhile_eq_self_iff.mpr hall,
    List.dropWhile_eq_nil_iff.mpr hall]
  simp

theorem cutLast_append (h : ∀ c ∈ back, c ≠ '@') :
    (cutLast (front ++ back)).2 = (cutLast front).2 ++ back := by
  have hall : ∀ c ∈ back.reverse, (c != '@') = true := by
    intro c hc
    exact bne_iff_ne.mpr (h c (List.mem_reverse.mp hc))
  rw [cutLast_snd, cutLast_snd, List.reverse_append, List.takeWhile_append_of_pos hall,
    List.reverse_append, List.reverse_reverse]

/-- The last `@` is the one that no other follows. -/
theorem cutLast_append_cons (h : ∀ c ∈ back, c ≠ '@') (front : List Char) :
    cutLast (front ++ '@' :: back) = (some front, back) := by
  have hall : ∀ c ∈ back.reverse, (c != '@') = true := by
    intro c hc
    exact bne_iff_ne.mpr (h c (List.mem_reverse.mp hc))
  rw [cutLast, List.span_eq_takeWhile_dropWhile, List.reverse_append, List.reverse_cons,
    List.append_assoc, List.takeWhile_append_of_pos hall, List.dropWhile_append_of_pos hall]
  simp

theorem mem_of_mem_cutLast {c : Char} (h : c ∈ (cutLast text).2) : c ∈ text := by
  rw [cutLast_snd, List.mem_reverse] at h
  exact List.mem_reverse.mp (List.takeWhile_subset _ h)

/-! ## Ports -/

/-- The port in a URL. It is left out if the scheme implies it. -/
def writtenPort (scheme : Scheme) (port : UInt16) : Option UInt16 :=
  if scheme.defaultPort? = some port then none else some port

theorem writtenPort_http (port : UInt16) :
    writtenPort .http port = if port = 80 then none else some port := by
  have hdefault : Scheme.http.defaultPort? = some port ↔ port = 80 := by
    rw [Scheme.defaultPort?, Option.some.injEq, eq_comm]
  simp only [writtenPort, hdefault]

theorem readPort?_toDigits (scheme : Scheme) (port : UInt16) :
    readPort? scheme (Nat.toDigits 10 port.toNat) = some (writtenPort scheme port) := by
  have hread := Decimal.readDigits_toDigits (Nat.le_of_lt_succ port.toNat_lt)
  have hport : UInt16.ofNat port.toNat = port := UInt16.ofNat_toNat
  rw [readPort?, if_neg (by simp), hread]
  simp only [Except.toOption, Option.bind_eq_bind, Option.bind_some, hport]
  rfl

theorem readPort?_eq_none {c : Char} (hmem : c ∈ digits) (hc : c.isDigit = false) :
    readPort? scheme digits = none := by
  rw [readPort?, if_neg (by simpa using List.ne_nil_of_mem hmem)]
  cases hread : Decimal.readDigits 65535 0 digits with
  | error fault => rfl
  | ok n =>
    rw [Decimal.isDigit_of_readDigits_eq_ok hread c hmem] at hc
    cases hc

/-! ## Colons and brackets -/

/-- Inside brackets nothing is cut off what does not close them. -/
theorem cutPort_true_append (h : ∀ c ∈ text, c ≠ ']') (rest : List Char) :
    cutPort true (text ++ rest) = (text ++ (cutPort true rest).1, (cutPort true rest).2) := by
  induction text with
  | nil => rfl
  | cons c text ih =>
    rw [List.forall_mem_cons] at h
    have hopen : (c == '[' || (true && c != ']')) = true := by simp [h.1]
    rw [List.cons_append, cutPort, if_neg (by simp), hopen, ih h.2]
    rfl

/-- Inside brackets that nothing closes there is no port. -/
theorem cutPort_true (h : ∀ c ∈ text, c ≠ ']') : cutPort true text = (text, none) := by
  have hwhole := cutPort_true_append h []
  rwa [List.append_nil, cutPort, List.append_nil] at hwhole

/-- The port begins at the colon in front of it, or at a colon before that, or the colon stands in
brackets. -/
theorem cutPort_append (hdigits : ∀ c ∈ digits, c.isDigit = true) (bracketed : Bool)
    (place : List Char) :
    cutPort bracketed (place ++ ':' :: digits) = (place, some digits) ∨
    (∃ name port, cutPort bracketed (place ++ ':' :: digits) = (name, some port) ∧
      port <:+ place ++ ':' :: digits ∧ ':' ∈ port) ∨
    (cutPort bracketed (place ++ ':' :: digits) = (place ++ ':' :: digits, none) ∧
      ('[' ∈ place ∨ bracketed = true)) := by
  induction place generalizing bracketed with
  | nil =>
    cases bracketed with
    | false => exact .inl rfl
    | true =>
      have hopen : ∀ c ∈ ':' :: digits, c ≠ ']' := by
        rw [List.forall_mem_cons]
        refine ⟨by decide, ?_⟩
        rintro c hc rfl
        cases hdigits _ hc
      exact .inr (.inr ⟨cutPort_true hopen, .inr rfl⟩)
  | cons c place ih =>
    rw [List.cons_append, cutPort]
    split
    · next hc =>
      refine .inr (.inl ⟨[], place ++ ':' :: digits, rfl, List.suffix_cons _ _, by simp⟩)
    · rcases ih (c == '[' || (bracketed && c != ']')) with
        heq | ⟨name, port, heq, hsuffix, hcolon⟩ | ⟨heq, hopen⟩
      · rw [heq]
        exact .inl rfl
      · rw [heq]
        exact .inr (.inl ⟨c :: name, port, rfl, hsuffix.trans (List.suffix_cons _ _), hcolon⟩)
      · rw [heq]
        refine .inr (.inr ⟨rfl, ?_⟩)
        rcases hopen with hmem | hopen
        · exact .inl (List.mem_cons_of_mem _ hmem)
        · simp only [Bool.or_eq_true, beq_iff_eq, Bool.and_eq_true] at hopen
          rcases hopen with rfl | hopen
          · exact .inl List.mem_cons_self
          · exact .inr hopen.1

/-- Nothing is cut off a name without colons and brackets. -/
theorem cutPort_false_append (h : ∀ c ∈ place, c ≠ ':' ∧ c ≠ '[') (rest : List Char) :
    cutPort false (place ++ rest) = (place ++ (cutPort false rest).1, (cutPort false rest).2) := by
  induction place with
  | nil => rfl
  | cons c place ih =>
    rw [List.forall_mem_cons] at h
    have hclosed : (c == '[' || (false && c != ']')) = false := by simp [h.1.2]
    rw [List.cons_append, cutPort, if_neg (by simp [h.1.1]), hclosed, ih h.2]
    rfl

theorem cutPort_of_forall_ne (h : ∀ c ∈ place, c ≠ ':' ∧ c ≠ '[') (digits : List Char) :
    cutPort false (place ++ ':' :: digits) = (place, some digits) := by
  have hcolon : cutPort false (':' :: digits) = ([], some digits) := rfl
  rw [cutPort_false_append h, hcolon, List.append_nil]

/-! ## Names -/

/-- The host of a special scheme is an address in brackets, or what its name in ASCII is. -/
theorem Host.readSpecial?_eq_some [Idna] (h : readSpecial? text = some host) :
    (text.head? = some '[' ∧ text.getLast? = some ']' ∧ ∃ address, host = .ipv6 address) ∨
    ∃ name, Idna.toAscii? (decode text) = some name ∧ name ≠ [] ∧
      ((Address4.isMeant name = false ∧ host = .domain name) ∨
        ∃ address, Address4.read? name = some address ∧ host = .ipv4 address) := by
  unfold readSpecial? at h
  split at h
  · next inner =>
    split at h
    · next hlast =>
      obtain ⟨address, -, rfl⟩ := Option.map_eq_some_iff.mp h
      refine .inl ⟨rfl, ?_, address, rfl⟩
      rw [List.getLast?_cons, hlast, Option.getD_some]
    · cases h
  · simp only [Option.bind_eq_bind, Option.bind_eq_some_iff] at h
    obtain ⟨name, hname, h⟩ := h
    refine .inr ⟨name, hname, ?_⟩
    split at h
    · cases h
    · next hne =>
      refine ⟨by simpa using hne, ?_⟩
      -- the name may still turn out to be an address
      by_cases hmeant : Address4.isMeant name = true
      · rw [if_pos hmeant] at h
        obtain ⟨address, haddress, rfl⟩ := Option.map_eq_some_iff.mp h
        exact .inr ⟨address, haddress, rfl⟩
      · rw [if_neg hmeant, Option.some.injEq] at h
        exact .inl ⟨by simpa using hmeant, h.symm⟩

theorem Host.readSpecial?_of_toAscii? [Idna] (hhead : text.head? ≠ some '[')
    (h : Idna.toAscii? (decode text) = some name) (hne : name ≠ []) :
    readSpecial? text =
      if Address4.isMeant name then (Address4.read? name).map .ipv4 else some (.domain name) := by
  unfold readSpecial?
  split
  · exact absurd rfl hhead
  · simp [h, hne]

theorem readHost?_http [Idna] (hne : text ≠ []) :
    readHost? .http text = Host.readSpecial? text := by
  rw [readHost?, if_neg (by simpa using hne)]
  rfl

theorem readSpecial?_of_readHost? [Idna] (h : readHost? .http text = some host) :
    Host.readSpecial? text = some host := by
  have hne : text ≠ [] := by
    rintro rfl
    cases h
  rwa [readHost?_http hne] at h

/-- A bracket that nothing closes at the end stands in no name. -/
theorem readHost?_eq_none_of_mem [Idna] [LawfulIdna] (hmem : '[' ∈ text)
    (hlast : text.getLast? ≠ some ']') : readHost? .http text = none := by
  rw [Option.eq_none_iff_forall_ne_some]
  intro host h
  rcases Host.readSpecial?_eq_some (readSpecial?_of_readHost? h) with ⟨-, hclosed, -⟩ |
    ⟨_, hname, -⟩
  · exact hlast hclosed
  · -- the bracket would be a part of the name
    have hbyte := mem_decode_of_mem (c := '[') (by decide) (by decide) (by decide) hmem
    rw [LawfulIdna.bracket _ hbyte] at hname
    cases hname

/-- Without a bracket in front and anything to decode, a host is what the name in ASCII of its text
is. -/
theorem readHost?_eq_some [Idna] (hpercent : ∀ c ∈ text, c ≠ '%') (hhead : text.head? ≠ some '[')
    (h : readHost? .http text = some host) :
    ∃ name, Idna.toAscii? (nameBytes text) = some name ∧
      (host = .domain name ∨
        ∃ address, Address4.read? name = some address ∧ host = .ipv4 address) := by
  rcases Host.readSpecial?_eq_some (readSpecial?_of_readHost? h) with ⟨hbracket, -⟩ |
    ⟨name, hname, -, hhost⟩
  · exact absurd hbracket hhead
  · rw [decode_of_forall_ne hpercent, ← nameBytes] at hname
    exact ⟨name, hname, hhost.imp_left And.right⟩

/-- An address in place of a name, in brackets or in four parts. -/
def IsLiteral (text : List Char) : Prop :=
  text.head? = some '[' ∨ ∃ address, Address4.read? (text.map Char.toLower) = some address

/-- A name that stands for itself and is no address is read as it is, in lower case. -/
theorem readHost?_of_not_isLiteral [Idna] [LawfulIdna] (hdirect : Idna.isDirect text = true)
    (hpercent : ∀ c ∈ text, c ≠ '%') (hliteral : ¬ IsLiteral text)
    (h : readHost? .http text = some host) : host = .domain (text.map Char.toLower) := by
  rw [IsLiteral, not_or, not_exists] at hliteral
  obtain ⟨name, hname, hhost⟩ := readHost?_eq_some hpercent hliteral.1 h
  rw [LawfulIdna.direct text hdirect] at hname
  obtain ⟨rfl, -⟩ := Idna.directName?_eq_some hname
  rcases hhost with rfl | ⟨address, haddress, -⟩
  · rfl
  · exact absurd haddress (hliteral.2 address)

/-! ## Whole servers -/

theorem Authority.read?_eq [Idna] (scheme : Scheme) (text : List Char) :
    Authority.read? scheme text =
      (readHost? scheme (cutPort false (cutLast text).2).1).bind fun host =>
        (readPort? scheme (((cutPort false (cutLast text).2).2.getD []).takeWhile
            (· != '\\'))).bind fun port =>
          some (⟨(cutLast text).1.bind Credentials.ofText?, host, port⟩,
            ((cutPort false (cutLast text).2).2.getD []).dropWhile (· != '\\')) := by
  rw [Authority.read?]
  simp only [List.span_eq_takeWhile_dropWhile]
  rfl

theorem isDigit_toDigits (port : UInt16) :
    ∀ c ∈ Nat.toDigits 10 port.toNat, c.isDigit = true := by
  intro c hc
  exact Nat.isDigit_of_mem_toDigits (by decide) (by decide) hc

theorem ne_of_isDigit {c d : Char} (hc : c.isDigit = true) (hd : d.isDigit = false) : c ≠ d := by
  rintro rfl
  rw [hc] at hd
  cases hd

/-- No mark but the colon stands in a port and in front of it. -/
theorem ne_of_mem_port {c d : Char} (hc : c ∈ ':' :: Nat.toDigits 10 port.toNat)
    (hd : d.isDigit = false) (hcolon : ':' ≠ d) : c ≠ d := by
  rcases List.mem_cons.mp hc with rfl | hc
  · exact hcolon
  · exact ne_of_isDigit (isDigit_toDigits port c hc) hd

/-- What holds of the colon and of all digits holds in a port. -/
theorem forall_mem_port {P : Char → Prop} (hcolon : P ':')
    (hdigit : ∀ n : Fin 128, (Char.ofNat n.val).isDigit = true → P (Char.ofNat n.val))
    (port : UInt16) : ∀ c ∈ ':' :: Nat.toDigits 10 port.toNat, P c := by
  rw [List.forall_mem_cons]
  refine ⟨hcolon, ?_⟩
  intro c hc
  have hc' := isDigit_toDigits port c hc
  have halphanum : c.isAlphanum = true := by rw [Char.isAlphanum, hc', Bool.or_true]
  exact Text.forall_of_lt (P := fun c => c.isDigit = true → P c) hdigit (lt_of_isAlphanum halphanum) hc'

/-- The port that is written behind a name is the one that is read. -/
theorem Authority.port_of_read? [Idna] [LawfulIdna] (hmark : ∀ c ∈ place, c ≠ '\\')
    (h : Authority.read? .http (place ++ ':' :: Nat.toDigits 10 port.toNat) =
      some (authority, rest)) :
    authority.port = writtenPort .http port ∧
      readHost? .http (cutLast place).2 = some authority.host := by
  have hdigits := isDigit_toDigits port
  have hat : ∀ c ∈ ':' :: Nat.toDigits 10 port.toNat, c ≠ '@' := by
    intro c hc
    exact ne_of_mem_port hc (by decide) (by decide)
  have hplain : ∀ c ∈ (cutLast place).2 ++ ':' :: Nat.toDigits 10 port.toNat,
      (c != '\\') = true := by
    intro c hc
    rw [bne_iff_ne]
    rcases List.mem_append.mp hc with hc | hc
    · exact hmark c (mem_of_mem_cutLast hc)
    · exact ne_of_mem_port hc (by decide) (by decide)
  rw [Authority.read?_eq, cutLast_append hat] at h
  rcases cutPort_append hdigits false (cutLast place).2 with
    heq | ⟨name, colons, heq, hsuffix, hcolon⟩ | ⟨heq, hopen⟩
  · have hwhole : (Nat.toDigits 10 port.toNat).takeWhile (· != '\\') =
        Nat.toDigits 10 port.toNat := by
      rw [List.takeWhile_eq_self_iff]
      intro c hc
      exact hplain c (List.mem_append_right _ (List.mem_cons_of_mem _ hc))
    rw [heq] at h
    simp only [Option.getD_some, hwhole, readPort?_toDigits, Option.bind_some,
      Option.bind_eq_some_iff] at h
    rcases h with ⟨host, hhost, h⟩
    rw [Option.some.injEq, Prod.mk.injEq] at h
    rw [← h.1]
    exact ⟨rfl, hhost⟩
  · -- one colon too many
    have hwhole : colons.takeWhile (· != '\\') = colons := by
      rw [List.takeWhile_eq_self_iff]
      intro c hc
      exact hplain c (hsuffix.subset hc)
    rw [heq] at h
    simp only [Option.getD_some, hwhole, readPort?_eq_none hcolon (by decide), Option.bind_none,
      Option.bind_eq_some_iff] at h
    rcases h with ⟨_, -, h⟩
    cases h
  · -- a bracket that is not closed
    have hlast : ((cutLast place).2 ++ ':' :: Nat.toDigits 10 port.toNat).getLast? ≠ some ']' := by
      rw [List.getLast?_append, List.getLast?_cons, Option.some_or, ← List.getLast?_cons]
      intro hlast
      exact ne_of_mem_port (List.mem_of_getLast? hlast) (by decide) (by decide) rfl
    have hbracket : '[' ∈ (cutLast place).2 ++ ':' :: Nat.toDigits 10 port.toNat := by
      rcases hopen with hopen | hopen
      · exact List.mem_append_left _ hopen
      · cases hopen
    rw [heq] at h
    simp only [readHost?_eq_none_of_mem hbracket hlast, Option.bind_none] at h
    cases h

/-! ## Names of letters -/

/-- A name of ASCII letters. -/
structure IsLetters (text : List Char) : Prop where
  ne_nil : text ≠ []
  letters : ∀ c ∈ text, c.isAlpha = true

theorem IsLetters.all {P : Char → Prop} (h : IsLetters text)
    (hP : ∀ n : Fin 128, (Char.ofNat n.val).isAlpha = true → P (Char.ofNat n.val)) :
    ∀ c ∈ text, P c := by
  intro c hc
  have halpha := h.letters c hc
  have halphanum : c.isAlphanum = true := by rw [Char.isAlphanum, halpha, Bool.true_or]
  exact Text.forall_of_lt (P := fun c => c.isAlpha = true → P c) hP (lt_of_isAlphanum halphanum) halpha

theorem numberIn?_eq_none {c : Char} (h : (Text.hexDigit? c).all (10 ≤ ·) = true)
    (text : List Char) : numberIn? 10 (c :: text) = none := by
  rw [numberIn?, List.foldlM_cons]
  cases hdigit : Text.hexDigit? c with
  | none => rfl
  | some d =>
    rw [hdigit, Option.all_some, decide_eq_true_eq] at h
    simp only [Option.bind_eq_bind, Option.bind_some, if_neg (Nat.not_lt.mpr h), Option.bind_none]

theorem IsLetters.parts_eq (h : IsLetters text) :
    Address4.parts (text.map Char.toLower) = [text.map Char.toLower] := by
  have hpoint : '.' ∉ text.map Char.toLower := by
    rw [List.mem_map]
    rintro ⟨c, hc, hlower⟩
    exact h.all (P := fun c => c.toLower ≠ '.') (by decide) c hc hlower
  have hne : ¬ [text.map Char.toLower].getLast? = some [] := by simpa using h.ne_nil
  rw [Address4.parts, List.splitOn_eq_singleton hpoint]
  exact if_neg hne

/-- Letters are no number: the first of them is no digit. -/
theorem IsLetters.partNumber?_eq_none (h : IsLetters text) :
    Address4.partNumber? (text.map Char.toLower) = none := by
  rcases List.exists_cons_of_ne_nil h.ne_nil with ⟨c, others, rfl⟩
  have hnumber := h.all (P := fun c => (Text.hexDigit? c.toLower).all (10 ≤ ·) = true)
    (by decide) c List.mem_cons_self
  have hzero := h.all (P := fun c => c.toLower ≠ '0') (by decide) c List.mem_cons_self
  rw [List.map_cons, Address4.partNumber?.eq_def]
  split
  · next heq => cases heq
  · next heq => exact absurd (List.cons.inj heq).1 hzero
  · exact numberIn?_eq_none hnumber _

/-- No name of letters is meant as an address. -/
theorem IsLetters.not_isMeant (h : IsLetters text) :
    Address4.isMeant (text.map Char.toLower) = false := by
  have hdigits : (text.map Char.toLower).all Char.isDigit = false := by
    rcases List.exists_cons_of_ne_nil h.ne_nil with ⟨c, others, rfl⟩
    have hdigit := h.all (P := fun c => c.toLower.isDigit = false) (by decide) c List.mem_cons_self
    rw [List.map_cons, List.all_cons, hdigit, Bool.false_and]
  rw [Address4.isMeant, h.parts_eq, List.getLast?_singleton]
  simp only [h.partNumber?_eq_none, hdigits, Bool.and_false, Option.isSome_none, Bool.or_self]

theorem IsLetters.not_isLiteral (h : IsLetters text) : ¬ IsLiteral text := by
  rintro (hbracket | ⟨address, hread⟩)
  · exact h.all (P := (· ≠ '[')) (by decide) _ (List.mem_of_head? hbracket) rfl
  · rw [Address4.read?, h.parts_eq, List.mapM_cons, h.partNumber?_eq_none] at hread
    cases hread

theorem IsLetters.isDirect (h : IsLetters text) : Idna.isDirect text = true :=
  Idna.isDirect_of_forall_ne (h.all (P := fun c => c.toNat < 0x80) (by decide))
    (h.all (P := (· ≠ '-')) (by decide))

theorem readHost?_of_isLetters [Idna] [LawfulIdna] (h : IsLetters text) :
    readHost? .http text = some (.domain (text.map Char.toLower)) := by
  have hallowed : ∀ c ∈ text, Host.isForbiddenInName c = false :=
    h.all (P := fun c => Host.isForbiddenInName c = false) (by decide)
  have hhead : text.head? ≠ some '[' := by
    intro hhead
    cases hallowed _ (List.mem_of_head? hhead)
  have hname : Idna.toAscii? (decode text) = some (text.map Char.toLower) := by
    rw [decode_of_forall_ne (h.all (P := (· ≠ '%')) (by decide)), ← nameBytes,
      LawfulIdna.direct text h.isDirect, Idna.directName?_of_allowed hallowed]
  have hne : text.map Char.toLower ≠ [] := by simpa using h.ne_nil
  rw [readHost?_http h.ne_nil, Host.readSpecial?_of_toAscii? hhead hname hne, h.not_isMeant]
  rfl

/-- A name of letters and a port are read as they are. -/
theorem Authority.read?_of_isLetters [Idna] [LawfulIdna] (h : IsLetters text) (port : UInt16) :
    Authority.read? .http (text ++ ':' :: Nat.toDigits 10 port.toNat) =
      some (⟨none, .domain (text.map Char.toLower), writtenPort .http port⟩, []) := by
  have hat : ∀ c ∈ text ++ ':' :: Nat.toDigits 10 port.toNat, c ≠ '@' := by
    intro c hc
    rcases List.mem_append.mp hc with hc | hc
    · exact h.all (P := (· ≠ '@')) (by decide) c hc
    · exact ne_of_mem_port hc (by decide) (by decide)
  have hname := h.all (P := fun c => c ≠ ':' ∧ c ≠ '[') (by decide)
  have hdigits : ∀ c ∈ Nat.toDigits 10 port.toNat, (c != '\\') = true := by
    intro c hc
    exact bne_iff_ne.mpr (ne_of_mem_port (List.mem_cons_of_mem _ hc) (by decide) (by decide))
  rw [Authority.read?_eq, cutLast_of_forall_ne hat]
  simp only [cutPort_of_forall_ne hname, readHost?_of_isLetters h, Option.getD_some,
    List.takeWhile_eq_self_iff.mpr hdigits, List.dropWhile_eq_nil_iff.mpr hdigits,
    readPort?_toDigits, Option.bind_some, Option.bind_none]

/-! ## Servers that a request can name -/

theorem push?_of_isPlain {c : Char} (h : ServerName.isPlain c = true) (state : ServerName.State) :
    state.push? c = some state := by
  unfold ServerName.State.push?
  rw [if_pos h]

theorem foldlM_push?_of_isPlain (h : ∀ c ∈ text, ServerName.isPlain c = true)
    (state : ServerName.State) : text.foldlM ServerName.State.push? state = some state := by
  induction text with
  | nil => rfl
  | cons c text ih =>
    rw [List.forall_mem_cons] at h
    rw [List.foldlM_cons, push?_of_isPlain h.1, Option.bind_eq_bind, Option.bind_some, ih h.2]

theorem isPlain_of_isDigit {c : Char} (h : c.isDigit = true) : ServerName.isPlain c = true := by
  rw [ServerName.isPlain, Char.isAlphanum, h, Bool.or_true, Bool.true_or]

theorem isValid_of_foldlM {state : ServerName.State} (hne : text ≠ []) (hat : '@' ∉ text)
    (hread : text.foldlM ServerName.State.push? .start = some state)
    (hend : state.isComplete = true) : ServerName.isValid text = true := by
  have hlast : text.getLast? ≠ some '@' := by
    intro hlast
    exact hat (List.mem_of_getLast? hlast)
  have hempty : text.isEmpty = false := by simpa using hne
  rw [ServerName.isValid, hread, Option.any_some, hend, bne_iff_ne.mpr hlast, hempty]
  rfl

/-- A name of letters can be sent, with a port or without one. -/
theorem isValid_of_isLetters (h : IsLetters text) (port : Option UInt16) :
    ServerName.isValid (Authority.text ⟨none, .domain (text.map Char.toLower), port⟩) = true := by
  have hplain : ∀ c ∈ text.map Char.toLower, ServerName.isPlain c = true := by
    intro c hc
    rcases List.mem_map.mp hc with ⟨d, hd, rfl⟩
    exact h.all (P := fun c => ServerName.isPlain c.toLower = true) (by decide) d hd
  have hat : '@' ∉ text.map Char.toLower := by
    intro hc
    cases hplain _ hc
  have hne : text.map Char.toLower ≠ [] := by simpa using h.ne_nil
  have hname := foldlM_push?_of_isPlain hplain .start
  rw [Authority.text, Option.map_none, Option.getD_none, List.nil_append, Host.text]
  cases port with
  | none =>
    rw [Option.map_none, marked, List.append_nil]
    exact isValid_of_foldlM hne hat hname rfl
  | some port =>
    have hdigits : ∀ c ∈ Nat.toDigits 10 port.toNat, ServerName.isPlain c = true := by
      intro c hc
      exact isPlain_of_isDigit (isDigit_toDigits port c hc)
    have hport : '@' ∉ ':' :: Nat.toDigits 10 port.toNat := by
      intro hc
      exact ne_of_mem_port hc (by decide) (by decide) rfl
    -- the colon in front of the port is the only one
    have hcolon : ServerName.State.push? .start ':' =
        some { ServerName.State.start with colons := 1 } := rfl
    rw [Option.map_some, marked]
    apply isValid_of_foldlM (by simp) (by simp only [List.mem_append, hat, hport, or_self,
      not_false_eq_true])
    · rw [List.foldlM_append, hname, Option.bind_eq_bind, Option.bind_some, List.foldlM_cons,
        hcolon, Option.bind_eq_bind, Option.bind_some, foldlM_push?_of_isPlain hdigits]
    · rfl

end Readiness.Url
