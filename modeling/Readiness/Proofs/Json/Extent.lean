import Mathlib.Data.List.DropRight
import Readiness.Proofs.Json.Completeness
import Readiness.Proofs.Json.Soundness

namespace Readiness.Json

/-! # Where a text ends

A text that is an object is over with its last bracket. Behind it only blanks are read. Cut off
before it, the text has a fault: it is over too early, or a number literal that was cut is too
large without the rest of it.
-/

variable {state last : State} {stack : List Frame} {value : Json} {text core cut rest : List UInt8}
  {b : UInt8}

/-! ## Blanks at the end -/

/-- A text without the blanks at its end. -/
structure IsCore (text core : List UInt8) : Prop where
  split : ∃ blanks, text = core ++ blanks ∧ IsBlanks blanks
  last : ∀ b, core.getLast? = some b → ¬ IsBlanks [b]

theorem eq_false_of_getLast?_rdropWhile {p : UInt8 → Bool}
    (h : (text.rdropWhile p).getLast? = some b) : p b = false := by
  have hne : text.rdropWhile p ≠ [] := by
    intro hnil
    rw [hnil] at h
    cases h
  rw [List.getLast?_eq_some_getLast hne, Option.some.injEq] at h
  subst h
  simpa using List.rdropWhile_last_not p text hne

theorem exists_isCore (text : List UInt8) : ∃ core, IsCore text core := by
  let isBlankByte (b : UInt8) : Bool := isBlank (Char.ofUInt8 b)
  refine ⟨text.rdropWhile isBlankByte, ⟨text.rtakeWhile isBlankByte, ?_, ?_⟩, ?_⟩
  · exact List.rdropWhile_append_rtakeWhile.symm
  · rw [isBlanks_iff]
    intro b hb
    have hblank : isBlankByte b = true := List.mem_rtakeWhile_imp hb
    exact hblank
  · intro b hlast hblank
    have hnot : isBlankByte b = false := eq_false_of_getLast?_rdropWhile hlast
    exact Bool.false_ne_true (hnot.symm.trans (isBlanks_singleton_iff.mp hblank))

/-- What a cut takes off the core is not all blank. -/
theorem IsCore.exists_rest (h : IsCore text core) (hcut : cut <+: core) (hne : cut ≠ core) :
    ∃ rest, text = cut ++ rest ∧ ¬ IsBlanks rest := by
  rcases h.split with ⟨blanks, rfl, -⟩
  rcases hcut with ⟨more, rfl⟩
  have hmore : more ≠ [] := by
    rintro rfl
    exact hne (List.append_nil cut).symm
  refine ⟨more ++ blanks, List.append_assoc cut more blanks, ?_⟩
  intro hblanks
  -- the last byte of the core would be a blank
  have hlast : (cut ++ more).getLast? = some (more.getLast hmore) := by
    rw [List.getLast?_append_of_ne_nil cut hmore, List.getLast?_eq_some_getLast hmore]
  have hmem : more.getLast hmore ∈ more ++ blanks :=
    List.mem_append_left blanks (List.getLast_mem hmore)
  exact h.last _ hlast (isBlanks_singleton_iff.mpr (isBlanks_iff.mp hblanks _ hmem))

theorem exists_first_of_not_isBlanks (h : ¬ IsBlanks rest) :
    ∃ blanks b behind, rest = blanks ++ b :: behind ∧ IsBlanks blanks ∧ ¬ IsBlanks [b] := by
  induction rest with
  | nil => exact absurd isBlanks_nil h
  | cons b rest ih =>
    by_cases hb : IsBlanks [b]
    · have hrest : ¬ IsBlanks rest := by
        intro hblanks
        exact h (isBlanks_cons_iff.mpr ⟨hb, hblanks⟩)
      rcases ih hrest with ⟨blanks, first, behind, rfl, hblanks, hfirst⟩
      exact ⟨b :: blanks, first, behind, rfl, isBlanks_cons_iff.mpr ⟨hb, hblanks⟩, hfirst⟩
    · exact ⟨[], b, rest, rfl, isBlanks_nil, hb⟩

/-! ## Behind a document -/

/-- Behind a document a blank changes nothing. -/
theorem step_behind_of_isBlanks (value : Json) (h : IsBlanks [b]) :
    State.step ⟨[], .after value⟩ b = .ok ⟨[], .after value⟩ := by
  have hstep : State.step ⟨[], .after value⟩ b = atByte (stepAfter [] value (Char.ofUInt8 b)) := rfl
  rw [hstep, stepAfter_of_isBlank (isBlanks_singleton_iff.mp h)]
  rfl

/-- Any other byte is one too many. -/
theorem step_behind_of_not_isBlanks (value : Json) (h : ¬ IsBlanks [b]) :
    State.step ⟨[], .after value⟩ b = .error ⟨.trailingCharacters, 0⟩ := by
  rw [isBlanks_singleton_iff] at h
  simp [State.step, stepAfter, h, atByte, Except.mapError]

theorem reaches_behind_of_isBlanks (value : Json) (h : IsBlanks rest) :
    Reaches ⟨[], .after value⟩ rest ⟨[], .after value⟩ := by
  apply Reaches.of_stays
  intro b hb
  have hblank := isBlanks_iff.mp h b hb
  exact step_behind_of_isBlanks value (isBlanks_singleton_iff.mpr hblank)

theorem eq_of_reaches_behind (h : Reaches ⟨[], .after value⟩ rest last) :
    IsBlanks rest ∧ last = ⟨[], .after value⟩ := by
  induction rest with
  | nil =>
    cases h
    exact ⟨isBlanks_nil, rfl⟩
  | cons b rest ih =>
    cases h with
    | step hs hrest =>
      by_cases hb : IsBlanks [b]
      · rw [step_behind_of_isBlanks value hb] at hs
        cases hs
        rcases ih hrest with ⟨hblanks, hlast⟩
        exact ⟨isBlanks_cons_iff.mpr ⟨hb, hblanks⟩, hlast⟩
      · rw [step_behind_of_not_isBlanks value hb] at hs
        cases hs

/-- An object is complete behind its last bracket, before the text is known to end there. -/
theorem reaches_of_read_object {members : List (String × Json)}
    (h : read text = .ok (.object members)) :
    Reaches .initial text ⟨[], .after (.object members)⟩ := by
  rcases read_eq_ok_iff.mp h with ⟨last, hrun, hfinish⟩
  rcases finish_eq_ok hfinish with rfl | ⟨digits, -, hf⟩
  · exact hrun
  · rcases numeral?_of_finish hf with ⟨numeral, -, -, hnumber⟩
    cases hnumber

/-- More blanks at the end change nothing. -/
theorem read_append_blanks {members : List (String × Json)} (h : read text = .ok (.object members))
    (hblanks : IsBlanks rest) : read (text ++ rest) = .ok (.object members) := by
  have hrun := (reaches_of_read_object h).trans (reaches_behind_of_isBlanks _ hblanks)
  exact read_eq_ok_iff.mpr ⟨_, hrun, rfl⟩

/-- The first byte behind an object that is no blank is the fault. -/
theorem read_append_of_not_isBlanks {members : List (String × Json)} {blanks : List UInt8}
    (h : read text = .ok (.object members)) (hblanks : IsBlanks blanks) (hb : ¬ IsBlanks [b]) :
    read (text ++ (blanks ++ b :: rest)) =
      .error ⟨.trailingCharacters, Position.after (text ++ blanks ++ [b])⟩ := by
  have hrun := (reaches_of_read_object h).trans (reaches_behind_of_isBlanks _ hblanks)
  rw [← List.append_assoc]
  exact read_of_step_eq_error hrun (step_behind_of_not_isBlanks _ hb)

/-! ## The place of a byte -/

/-- The byte behind these bytes is in this line and column, both counted from one. -/
structure IsPlace (front : List UInt8) (line column : Nat) : Prop where
  line : line = 1 + front.count lineFeed
  column : ∃ before inside, front = before ++ inside ∧ lineFeed ∉ inside ∧
    (∀ b, before.getLast? = some b → b = lineFeed) ∧ column = inside.length + 1

/-- Behind these bytes a reader is in this line and has read so many bytes of it. Lines are counted
from one, and the bytes of a line from its beginning. -/
structure IsCounted (front : List UInt8) (line column : Nat) : Prop where
  line : line = 1 + front.count lineFeed
  column : ∃ before inside, front = before ++ inside ∧ lineFeed ∉ inside ∧
    (∀ b, before.getLast? = some b → b = lineFeed) ∧ column = inside.length

theorem isCounted_after (front : List UInt8) :
    IsCounted front (Position.after front).line (Position.after front).column := by
  constructor
  case line => rfl
  case column =>
    let inLine (b : UInt8) : Bool := b != lineFeed
    refine ⟨front.rdropWhile inLine, front.rtakeWhile inLine, ?_, ?_, ?_, ?_⟩
    · exact List.rdropWhile_append_rtakeWhile.symm
    · intro hmem
      have hinside := List.mem_rtakeWhile_imp hmem
      exact bne_iff_ne.mp hinside rfl
    · intro b hlast
      have hend : inLine b = false := eq_false_of_getLast?_rdropWhile hlast
      exact bne_eq_false_iff_eq.mp hend
    · rw [List.rtakeWhile, List.length_reverse]
      rfl

/-- In the first line the bytes are all counted. -/
theorem IsCounted.column_eq {front : List UInt8} {line column : Nat}
    (h : IsCounted front line column) (hline : lineFeed ∉ front) : column = front.length := by
  rcases h.column with ⟨before, inside, rfl, -, hbefore, rfl⟩
  cases hlast : before.getLast? with
  | none => rw [List.getLast?_eq_none_iff.mp hlast, List.nil_append]
  | some b =>
    have hmem : b ∈ before := List.mem_of_getLast? hlast
    rw [hbefore b hlast] at hmem
    exact absurd (List.mem_append_left inside hmem) hline

/-- A byte that ends no line is in the place after it. -/
theorem isPlace_after {front : List UInt8} (h : b ≠ lineFeed) :
    IsPlace front (Position.after (front ++ [b])).line (Position.after (front ++ [b])).column := by
  have hcolumn : (Position.after (front ++ [b])).column = (Position.after front).column + 1 := by
    simp [Position.after, h]
  rcases (isCounted_after front).column with ⟨before, inside, hfront, hinside, hbefore, hlength⟩
  constructor
  case line => simp [Position.after, h]
  case column => exact ⟨before, inside, hfront, hinside, hbefore, by rw [hcolumn, hlength]⟩

/-! ## Number literals in a text -/

/-- A number literal of a text: it begins where a value may start, and no byte behind it goes on
with it. -/
structure IsLiteral (front literal behind : List UInt8) : Prop where
  start : ∃ stack, Awaits stack front
  spelling : ∃ numeral, NumeralSpelling numeral literal
  ends : ∀ b, behind.head? = some b → Delimits (Char.ofUInt8 b)

/-- Two parts of a text meet inside a number literal: each of them has some of it. -/
def MeetInLiteral (cut rest : List UInt8) : Prop :=
  ∃ front read more behind, cut = front ++ read ∧ rest = more ++ behind ∧ read ≠ [] ∧ more ≠ [] ∧
    IsLiteral front (read ++ more) behind

theorem delimits_of_stepAfter {c : Char} {next : State} (h : stepAfter stack value c = .ok next) :
    Delimits c := by
  unfold stepAfter at h
  split at h
  · next hblank => exact delimits_of_isBlank hblank
  · split at h
    · cases h
    all_goals
      split at h
      · next hc =>
        subst hc
        decide
      · split at h
        · next hc =>
          subst hc
          decide
        · cases h

theorem NumeralRead.ne_nil {digits : Digits} {read : List UInt8} (h : NumeralRead digits read) :
    read ≠ [] := by
  cases h with
  | sign | point | fraction | mark | markSign | exponent => simp
  | whole _ hwhole => simpa [digitBytes] using fun _ => hwhole.1

/-- A literal that is begun is read to its end, which is where its number is complete. -/
theorem NumeralRead.exists_end {digits : Digits} {read : List UInt8} (h : NumeralRead digits read)
    (hrun : Reaches ⟨stack, .numeral digits⟩ rest last)
    (hlast : ∀ stack digits, last ≠ ⟨stack, .numeral digits⟩) :
    ∃ more behind numeral, rest = more ++ behind ∧ NumeralSpelling numeral (read ++ more) ∧
      Reaches ⟨stack, .after (.number numeral)⟩ behind last ∧
      (∀ b, behind.head? = some b → Delimits (Char.ofUInt8 b)) ∧
      (more = [] → digits.finish = .ok (.number numeral)) := by
  induction rest generalizing digits read with
  | nil =>
    cases hrun
    exact absurd rfl (hlast stack digits)
  | cons b rest ih =>
    cases hrun with
    | step hs hrest =>
      simp only [State.step] at hs
      split at hs
      · cases hs
      · next digits' hpush =>
        cases hs
        rcases ih (h.push hpush) hrest with
          ⟨more, behind, numeral, rfl, hspelling, hbehind, hends, -⟩
        rw [List.append_assoc, List.singleton_append] at hspelling
        exact ⟨b :: more, behind, numeral, rfl, hspelling, hbehind, hends, by simp⟩
      · -- the byte is the first one behind the literal
        rw [closeNumeral] at hs
        split at hs
        · cases hs
        · next value hf =>
          rcases numeral?_of_finish hf with ⟨numeral, hn, -, rfl⟩
          have hdelimits := delimits_of_stepAfter (atByte_eq_ok_iff.mp hs)
          refine ⟨[], b :: rest, numeral, rfl, ?_, .step hs hrest, ?_, fun _ => hf⟩
          · rw [List.append_nil]
            exact h.spelling hn
          · intro b' hhead
            cases hhead
            exact hdelimits

/-! ## Cut texts -/

/-- The causes that say that a text is over too early. -/
inductive Cause.IsEnd : Cause → Prop where
  | inValue : Cause.IsEnd .endInValue
  | inList : Cause.IsEnd .endInList
  | inObject : Cause.IsEnd .endInObject
  | inString : Cause.IsEnd .endInString

theorem Cause.IsEnd.message {cause : Cause} (h : cause.IsEnd) :
    ∃ more, cause.message = "EOF while parsing" ++ more := by
  cases h with
  | inValue => exact ⟨" a value", rfl⟩
  | inList => exact ⟨" a list", rfl⟩
  | inObject => exact ⟨" an object", rfl⟩
  | inString => exact ⟨" a string", rfl⟩

theorem isEnd_of_finishAfter {cause : Cause} (h : finishAfter stack value = .error cause) :
    cause.IsEnd := by
  cases stack with
  | nil => cases h
  | cons frame outer =>
    cases frame with
    | array items =>
      cases h
      exact .inList
    | object members key =>
      cases h
      exact .inObject

/-- A literal that may not end here wants more, or is too large so far. -/
theorem cause_of_finish_eq_error {digits : Digits} {cause : Cause}
    (h : digits.finish = .error cause) : cause.IsEnd ∨ cause = .numberOutOfRange := by
  rw [Digits.finish] at h
  split at h
  · cases h
    exact .inl .inValue
  · split at h
    · cases h
      exact .inr rfl
    · cases h

/-- Where a text may not end, it is over too early, or in a number that is too large so far. -/
theorem finish_eq_error {cause : Cause} (h : state.finish = .error cause) :
    cause.IsEnd ∨ cause = .numberOutOfRange ∧
      ∃ stack digits, state = ⟨stack, .numeral digits⟩ ∧ digits.finish = .error cause := by
  rcases state with ⟨stack, phase⟩
  cases phase with
  | value | nextItem | nextKey | name =>
    cases h
    exact .inl .inValue
  | firstItem =>
    cases h
    exact .inl .inList
  | firstKey | colon =>
    cases h
    exact .inl .inObject
  | text =>
    cases h
    exact .inl .inString
  | after value => exact .inl (isEnd_of_finishAfter h)
  | numeral digits =>
    simp only [State.finish] at h
    cases hf : digits.finish with
    | ok value =>
      rw [hf] at h
      exact .inl (isEnd_of_finishAfter h)
    | error cause' =>
      rw [hf] at h
      cases h
      rcases cause_of_finish_eq_error hf with hend | hrange
      · exact .inl hend
      · exact .inr ⟨hrange, stack, digits, rfl, hf⟩

/-- An object that is cut off before its last bracket is not read. The fault is in the end of
what is left. -/
theorem read_of_cut {members : List (String × Json)} (h : read (cut ++ rest) = .ok (.object members))
    (hrest : ¬ IsBlanks rest) :
    ∃ cause, read cut = .error ⟨cause, Position.after cut⟩ ∧
      (cause.IsEnd ∨ cause = .numberOutOfRange ∧ MeetInLiteral cut rest) := by
  rcases (reaches_of_read_object h).split with ⟨middle, hcut, hrun⟩
  have hsource : IsSource middle ([] ++ cut) := IsSource.run (.value Opened.top.awaits) hcut
  rw [List.nil_append] at hsource
  have hlast : ∀ stack digits,
      (⟨[], .after (.object members)⟩ : State) ≠ ⟨stack, .numeral digits⟩ := by
    intro stack digits hne
    cases hne
  cases hfinish : middle.finish with
  | ok document =>
    exfalso
    rcases finish_eq_ok hfinish with rfl | ⟨digits, rfl, -⟩
    · exact hrest (eq_of_reaches_behind hrun).1
    · -- a number that is a whole text does not become an object
      cases hsource with
      | numeral hawaits hread =>
        rcases hread.exists_end hrun hlast with ⟨more, behind, numeral, -, -, hbehind, -, -⟩
        cases (eq_of_reaches_behind hbehind).2
  | error cause =>
    refine ⟨cause, read_of_finish_eq_error hcut hfinish, ?_⟩
    rcases finish_eq_error hfinish with hend | ⟨hcause, stack, digits, rfl, hf⟩
    · exact .inl hend
    · cases hsource with
      | @numeral _ _ front read hawaits hread =>
        rcases hread.exists_end hrun hlast with
          ⟨more, behind, numeral, rfl, hspelling, -, hends, hnothing⟩
        have hmore : more ≠ [] := by
          intro hnil
          rw [hnothing hnil] at hf
          cases hf
        exact .inr ⟨hcause, front, read, more, behind, rfl, rfl, hread.ne_nil, hmore,
          ⟨stack, hawaits⟩, ⟨numeral, hspelling⟩, hends⟩

end Readiness.Json
