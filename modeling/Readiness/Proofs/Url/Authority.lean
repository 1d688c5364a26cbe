import Mathlib
import Readiness.Proofs.Url.Address
import Readiness.Proofs.Url.Reading
import Readiness.Proofs.Url.Server

namespace Readiness.Url

/-! # Servers are read back

A server that was read holds a name in lower case or an address, credentials with nothing to encode
in them, and no port that its scheme implies. No part holds a mark that would set it apart, unless
brackets hide it, so the text of a server is taken apart where it was put together.
-/

variable {text name rest : List Char} {host : Host} {credentials : Credentials}
  {authority : Authority} {c : Char}

/-! ## Hosts -/

namespace Host

/-- A name with nothing to decode in it, nothing to bring into lower case and nothing to refuse. -/
structure IsPlain (name : List Char) : Prop where
  ne_nil : name ≠ []
  allowed : ∀ c ∈ name, isForbiddenInName c = false
  lower : ∀ c ∈ name, c.toLower = c

theorem IsPlain.head?_ne (h : IsPlain name) : name.head? ≠ some '[' := by
  intro hhead
  cases h.allowed _ (List.mem_of_head? hhead)

theorem IsPlain.decode_eq (h : IsPlain name) : decode name = nameBytes name :=
  decode_of_forall_ne fun c hc => (ascii_of_allowed (h.allowed c hc)).1

theorem isPlain_address4 (address : Address4) : IsPlain address.text where
  ne_nil := address.text_ne_nil
  allowed := address.forall_mem_text (by decide) (by decide)
  lower := address.forall_mem_text (by decide) (by decide)

variable [Idna]

/-- A host as it is read. A name is brought into ASCII, and not meant as an address. -/
def IsNormal : Host → Prop
  | .domain name =>
    IsPlain name ∧ Address4.isMeant name = false ∧ Idna.toAscii? (nameBytes name) = some name
  | .ipv4 _ | .ipv6 _ => True
  | .verbatim _ => False

theorem isNormal_of_readSpecial? [LawfulIdna] (h : readSpecial? text = some host) :
    host.IsNormal := by
  rcases readSpecial?_eq_some h with ⟨-, -, address, rfl⟩ |
    ⟨name, hname, hne, ⟨hmeant, rfl⟩ | ⟨address, -, rfl⟩⟩
  · trivial
  · have hplain : IsPlain name :=
      ⟨hne, LawfulIdna.allowed _ _ hname, LawfulIdna.lower _ _ hname⟩
    exact ⟨hplain, hmeant, LawfulIdna.again _ _ hname⟩
  · trivial

theorem isNormal_of_readHost? [LawfulIdna] (h : readHost? .http text = some host) :
    host.IsNormal :=
  isNormal_of_readSpecial? (readSpecial?_of_readHost? h)

/-- Four octets stand for themselves. -/
theorem toAscii?_address4 [LawfulIdna] (address : Address4) :
    Idna.toAscii? (nameBytes address.text) = some address.text := by
  have hplain := isPlain_address4 address
  -- without hyphens no label is marked
  have hhyphen : ∀ c ∈ address.text, c ≠ '-' := address.forall_mem_text (by decide) (by decide)
  have hlow : ∀ c ∈ address.text, c.toNat < 0x80 := by
    intro c hc
    exact (ascii_of_allowed (hplain.allowed c hc)).2
  rw [LawfulIdna.direct _ (Idna.isDirect_of_forall_ne hlow hhyphen),
    Idna.directName?_of_allowed hplain.allowed, Idna.map_toLower_eq_self hplain.lower]

/-- A host is read back. -/
theorem readHost?_text [LawfulIdna] (h : host.IsNormal) :
    readHost? .http host.text = some host := by
  have hread : ∀ name, IsPlain name → Idna.toAscii? (nameBytes name) = some name →
      readHost? .http name = if Address4.isMeant name then (Address4.read? name).map .ipv4
        else some (.domain name) := by
    intro name hplain hname
    rw [← hplain.decode_eq] at hname
    rw [readHost?_http hplain.ne_nil, readSpecial?_of_toAscii? hplain.head?_ne hname hplain.ne_nil]
  cases host with
  | domain name =>
    rw [text, hread name h.1 h.2.2, h.2.1]
    rfl
  | ipv4 address =>
    rw [text, hread _ (isPlain_address4 address) (toAscii?_address4 address),
      if_pos address.isMeant_text, Address4.read?_text]
    rfl
  | ipv6 address =>
    rw [text, readHost?_http (List.cons_ne_nil _ _), readSpecial?]
    simp [Address6.read?_text]
  | verbatim text => exact h.elim

/-- What holds of all that is allowed in a name and of the marks of an address holds in a host. -/
theorem IsNormal.forall_mem_text {P : Char → Prop} (h : host.IsNormal)
    (hmarks : ∀ c ∈ ['[', ':', ']'], P c)
    (hname : ∀ c, isForbiddenInName c = false → c.toLower = c → P c) : ∀ c ∈ host.text, P c := by
  have hplain : ∀ name, IsPlain name → ∀ c ∈ name, P c := by
    intro name hplain c hc
    exact hname c (hplain.allowed c hc) (hplain.lower c hc)
  rw [List.forall_mem_cons, List.forall_mem_cons, List.forall_mem_singleton] at hmarks
  cases host with
  | domain name => exact hplain name h.1
  | ipv4 address => exact hplain _ (isPlain_address4 address)
  | ipv6 address =>
    have hdigit : ∀ d : Fin 16, isForbiddenInName (Nat.digitChar d.val) = false ∧
        (Nat.digitChar d.val).toLower = Nat.digitChar d.val := by decide
    rw [text, List.forall_mem_cons, List.forall_mem_append, List.forall_mem_singleton]
    refine ⟨hmarks.1, ?_, hmarks.2.2⟩
    exact address.forall_mem_text hmarks.2.1 fun d => hname _ (hdigit d).1 (hdigit d).2
  | verbatim text => exact h.elim

theorem IsNormal.text_ne_nil (h : host.IsNormal) : host.text ≠ [] := by
  cases host with
  | domain name => exact h.1.ne_nil
  | ipv4 address => exact address.text_ne_nil
  | ipv6 address => exact List.cons_ne_nil _ _
  | verbatim text => exact h.elim

/-! ### Ports behind hosts -/

/-- A host is not cut at a colon of its own: either it has none, or brackets hide it. -/
theorem IsNormal.cutPort_append (h : host.IsNormal) (rest : List Char) :
    cutPort false (host.text ++ rest) =
      (host.text ++ (cutPort false rest).1, (cutPort false rest).2) := by
  have hplain : ∀ name, IsPlain name → ∀ c ∈ name, c ≠ ':' ∧ c ≠ '[' := by
    intro name hplain c hc
    have hallowed := hplain.allowed c hc
    exact ⟨ne_of_set rfl hallowed, ne_of_set rfl hallowed⟩
  cases host with
  | domain name => exact cutPort_false_append (hplain name h.1) rest
  | ipv4 address => exact cutPort_false_append (hplain _ (isPlain_address4 address)) rest
  | ipv6 address =>
    have hinner : ∀ c ∈ address.text, c ≠ ']' := address.forall_mem_text (by decide) (by decide)
    have hclosed : cutPort true (']' :: rest) =
        (']' :: (cutPort false rest).1, (cutPort false rest).2) := rfl
    have hopen : cutPort false ('[' :: (address.text ++ ']' :: rest)) =
        ('[' :: (cutPort true (address.text ++ ']' :: rest)).1,
          (cutPort true (address.text ++ ']' :: rest)).2) := rfl
    have htext : Host.text (.ipv6 address) ++ rest = '[' :: (address.text ++ ']' :: rest) := by
      simp [text]
    rw [htext, hopen, cutPort_true_append hinner, hclosed]
    simp [text]
  | verbatim text => exact h.elim

/-- A host with a colon in it ends with a bracket. -/
theorem IsNormal.getLast?_of_mem (h : host.IsNormal) (hcolon : ':' ∈ host.text) :
    host.text.getLast? = some ']' := by
  cases host with
  | domain name => cases h.1.allowed _ hcolon
  | ipv4 address => cases (isPlain_address4 address).allowed _ hcolon
  | ipv6 address => rw [text, ← List.cons_append, List.getLast?_concat]
  | verbatim text => exact h.elim

end Host

/-! ## Credentials -/

namespace Credentials

/-- Credentials as they are read. Something is there, and a password is not empty. -/
structure IsNormal (credentials : Credentials) : Prop where
  user : IsEncoded userinfoSet credentials.user
  password : ∀ password, credentials.password = some password →
    IsEncoded userinfoSet password ∧ password ≠ []
  some : credentials.user ≠ [] ∨ credentials.password ≠ none

/-- The text of credentials without the sign behind them. -/
def bareText (credentials : Credentials) : List Char :=
  credentials.user ++ marked ':' credentials.password

theorem isNormal_of_ofText? (h : ofText? text = some credentials) : credentials.IsNormal := by
  have hencoded : ∀ text, IsEncoded userinfoSet (encode userinfoSet text) :=
    isEncoded_encode (by decide) (by decide)
  simp only [ofText?] at h
  split at h
  · cases h
  · next hsome =>
    rw [Option.some.injEq] at h
    rw [← h]
    -- either there is a user name, or a password is left
    rw [Bool.and_eq_true, not_and_or, List.isEmpty_iff, Option.isNone_iff_eq_none] at hsome
    constructor
    case user => exact hencoded _
    case password =>
      intro password hpassword
      obtain ⟨plain, hplain, rfl⟩ := Option.map_eq_some_iff.mp hpassword
      have hne := (Option.filter_eq_some_iff.mp hplain).2
      exact ⟨hencoded plain, encode_ne_nil (by simpa using hne)⟩
    case some =>
      rcases hsome with huser | hpassword
      · exact .inl (encode_ne_nil huser)
      · refine .inr ?_
        intro hnone
        exact hpassword (Option.map_eq_none_iff.mp hnone)

/-- Credentials are read back. -/
theorem ofText?_bareText (h : credentials.IsNormal) :
    ofText? credentials.bareText = some credentials := by
  have hcolon : ∀ c ∈ credentials.user, c ≠ ':' := by
    intro c hc
    exact ne_of_set rfl (h.user c hc)
  have hfilter : (credentials.password.filter fun password => !password.isEmpty) =
      credentials.password := by
    cases hpassword : credentials.password with
    | none => rfl
    | some password => simpa using (h.password password hpassword).2
  have hpassword : credentials.password.map (encode userinfoSet) = credentials.password :=
    map_encode_of_isEncoded fun password hpassword => (h.password password hpassword).1
  have hsome : ¬ (credentials.user.isEmpty && credentials.password.isNone) = true := by
    rw [Bool.and_eq_true, not_and_or, List.isEmpty_iff, Option.isNone_iff_eq_none]
    exact h.some
  simp only [ofText?, bareText, cut_append_marked hcolon, hfilter, if_neg hsome, hpassword,
    encode_of_forall_not h.user]

/-- What holds of the marks and of all that is left unencoded holds in credentials. -/
theorem IsNormal.forall_mem_text {P : Char → Prop} (h : credentials.IsNormal) (hcolon : P ':')
    (hat : P '@') (huser : ∀ c, userinfoSet c = false → P c) : ∀ c ∈ credentials.text, P c := by
  rw [text, List.forall_mem_append, List.forall_mem_append, List.forall_mem_singleton]
  refine ⟨⟨fun c hc => huser c (h.user c hc), forall_mem_marked hcolon ?_⟩, hat⟩
  intro password hpassword c hc
  exact huser c ((h.password password hpassword).1 c hc)

end Credentials

/-! ## Whole servers -/

namespace Authority

variable [Idna]

/-- A server over plain HTTP as it is read. -/
structure IsNormal (authority : Authority) : Prop where
  credentials : ∀ credentials, authority.credentials = some credentials → credentials.IsNormal
  host : authority.host.IsNormal
  port : authority.port ≠ some 80

omit [Idna] in
theorem ne_of_readPort? {digits : List Char} {port : Option UInt16}
    (h : readPort? .http digits = some port) : port ≠ some 80 := by
  rw [readPort?] at h
  split at h
  · cases h
    simp
  · simp only [Option.bind_eq_bind, Option.bind_eq_some_iff, Option.pure_def,
      Option.some.injEq] at h
    obtain ⟨n, -, h⟩ := h
    rintro rfl
    split at h
    · cases h
    · next hport =>
      rw [Option.some.injEq] at h
      rw [h] at hport
      exact hport rfl

theorem isNormal_of_read? [LawfulIdna] (h : read? .http text = some (authority, rest)) :
    authority.IsNormal := by
  rw [read?_eq] at h
  simp only [Option.bind_eq_some_iff, Option.some.injEq, Prod.mk.injEq] at h
  obtain ⟨host, hhost, port, hport, rfl, -⟩ := h
  refine ⟨?_, Host.isNormal_of_readHost? hhost, ne_of_readPort? hport⟩
  intro credentials hcredentials
  obtain ⟨front, -, hfront⟩ := Option.bind_eq_some_iff.mp hcredentials
  exact Credentials.isNormal_of_ofText? hfront

/-- The text of a port and the colon in front of it. -/
def portText (port : Option UInt16) : List Char :=
  marked ':' (port.map fun port => Nat.toDigits 10 port.toNat)

omit [Idna] in
theorem forall_mem_portText {P : Char → Prop} (hcolon : P ':')
    (hname : ∀ c, Host.isForbiddenInName c = false → P c) (port : Option UInt16) :
    ∀ c ∈ portText port, P c := by
  cases port with
  | none =>
    intro c hc
    cases hc
  | some port =>
    apply forall_mem_port hcolon
    intro n hdigit
    have hall : ∀ n : Fin 128, (Char.ofNat n.val).isDigit = true →
        Host.isForbiddenInName (Char.ofNat n.val) = false := by decide
    exact hname _ (hall n hdigit)

/-- What holds of the marks and of all that the parts may hold holds in a server. -/
theorem IsNormal.forall_mem_text {P : Char → Prop} (h : authority.IsNormal)
    (hmarks : ∀ c ∈ ['@', '[', ':', ']'], P c) (huser : ∀ c, userinfoSet c = false → P c)
    (hname : ∀ c, Host.isForbiddenInName c = false → P c) : ∀ c ∈ authority.text, P c := by
  rw [List.forall_mem_cons] at hmarks
  have hcolon := hmarks.2 ':' (by decide)
  rw [text, List.forall_mem_append, List.forall_mem_append]
  refine ⟨⟨?_, h.host.forall_mem_text hmarks.2 fun c hc _ => hname c hc⟩,
    forall_mem_portText hcolon hname authority.port⟩
  intro c hc
  cases hcredentials : authority.credentials with
  | none =>
    rw [hcredentials] at hc
    cases hc
  | some credentials =>
    rw [hcredentials] at hc
    exact (h.credentials credentials hcredentials).forall_mem_text hcolon hmarks.1 huser c hc

/-- Credentials end where they were put in front of a host. -/
theorem IsNormal.cutLast_text (h : authority.IsNormal) :
    cutLast authority.text =
      (authority.credentials.map Credentials.bareText,
        authority.host.text ++ portText authority.port) := by
  have hat : ∀ c ∈ authority.host.text ++ portText authority.port, c ≠ '@' := by
    have hname : ∀ c, Host.isForbiddenInName c = false → c ≠ '@' := fun c => ne_of_set rfl
    rw [List.forall_mem_append]
    exact ⟨h.host.forall_mem_text (by simp) fun c hc _ => hname c hc,
      forall_mem_portText (by decide) hname authority.port⟩
  have htext : authority.text = (authority.credentials.map Credentials.text).getD [] ++
      (authority.host.text ++ portText authority.port) := List.append_assoc _ _ _
  rw [htext]
  cases authority.credentials with
  | none => exact cutLast_of_forall_ne hat
  | some credentials =>
    have hcredentials : credentials.text = credentials.bareText ++ ['@'] := rfl
    rw [Option.map_some, Option.getD_some, hcredentials, List.append_assoc, List.singleton_append,
      cutLast_append_cons hat, Option.map_some]

theorem IsNormal.cutPort_text (h : authority.IsNormal) :
    cutPort false (authority.host.text ++ portText authority.port) =
      (authority.host.text, authority.port.map fun port => Nat.toDigits 10 port.toNat) := by
  have hport : cutPort false (portText authority.port) =
      ([], authority.port.map fun port => Nat.toDigits 10 port.toNat) := by
    cases authority.port <;> rfl
  rw [h.host.cutPort_append, hport, List.append_nil]

/-- A server is read back. -/
theorem read?_text [LawfulIdna] (h : authority.IsNormal) :
    read? .http authority.text = some (authority, []) := by
  have hport : ∀ port : Option UInt16, port ≠ some 80 →
      readPort? .http ((port.map fun port => Nat.toDigits 10 port.toNat).getD []) = some port := by
    intro port hne
    cases port with
    | none => rfl
    | some port =>
      rw [Option.map_some, Option.getD_some, readPort?_toDigits, writtenPort_http, if_neg]
      rintro rfl
      exact hne rfl
  have hdigits : ∀ c ∈ (authority.port.map fun port => Nat.toDigits 10 port.toNat).getD [],
      (c != '\\') = true := by
    intro c hc
    rw [bne_iff_ne]
    cases hport : authority.port with
    | none =>
      rw [hport] at hc
      cases hc
    | some port =>
      rw [hport] at hc
      exact ne_of_mem_port (List.mem_cons_of_mem _ hc) (by decide) (by decide)
  have hcredentials : (authority.credentials.map Credentials.bareText).bind Credentials.ofText? =
      authority.credentials := by
    cases hcredentials : authority.credentials with
    | none => rfl
    | some credentials =>
      rw [Option.map_some, Option.bind_some,
        Credentials.ofText?_bareText (h.credentials credentials hcredentials)]
  rw [read?_eq, h.cutLast_text]
  simp only [h.cutPort_text, Host.readHost?_text h.host, List.takeWhile_eq_self_iff.mpr hdigits,
    List.dropWhile_eq_nil_iff.mpr hdigits, hport _ h.port, hcredentials, Option.bind_some]

/-- The port that is implied is never spelled out. -/
theorem IsNormal.not_suffix [LawfulIdna] (h : authority.IsNormal) :
    ¬ [':', '8', '0'] <:+ authority.text := by
  rintro ⟨front, hfront⟩
  have hdigits : ∀ c ∈ [':', '8', '0'], c ≠ '@' := by simp
  have hplace : (cutLast authority.text).2 = (cutLast front).2 ++ [':', '8', '0'] := by
    rw [← hfront, cutLast_append hdigits]
  rw [h.cutLast_text] at hplace
  cases hport : authority.port with
  | none =>
    -- then the host would end with it, but a host with a colon ends with a bracket
    rw [hport] at hplace
    have hhost : authority.host.text = (cutLast front).2 ++ [':', '8', '0'] := by
      rw [← hplace]
      exact (List.append_nil _).symm
    have hlast := h.host.getLast?_of_mem (by simp [hhost])
    simp [hhost] at hlast
  | some port =>
    -- then the text would be read as a server without a port
    have heighty : Nat.toDigits 10 (80 : UInt16).toNat = ['8', '0'] := by decide
    have hbackslash : ∀ c ∈ front, c ≠ '\\' := by
      intro c hc
      refine h.forall_mem_text (by simp) (fun c => ne_of_set rfl) (fun c => ne_of_set rfl) c ?_
      rw [← hfront]
      exact List.mem_append_left _ hc
    have hread := read?_text h
    rw [← hfront, ← heighty] at hread
    have hnone := (port_of_read? hbackslash hread).1
    rw [hport, writtenPort_http, if_pos rfl] at hnone
    cases hnone

end Authority
end Readiness.Url
