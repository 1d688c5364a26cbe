import Readiness.Proofs.Settings.Reading

namespace Readiness.Settings

/-! # Ports that are none

A text in place of a port is rejected for one of three reasons: nothing stands there, its digits
make a number that is too large, or something else than digits stands there. Of the last two, the
one that shows first from the left is told.
-/

variable {lookup : Variable → Option String} {text : String} {cause : Decimal.Fault}

/-- The words for each kind of problem with a port. -/
def portWords : List (Decimal.Fault × String) :=
  [(.empty, "cannot parse integer from empty string"),
    (.tooLarge, "number too large to fit in target type"),
    (.invalidDigit, "invalid digit found in string")]

theorem message_mem_portWords (cause : Decimal.Fault) : (cause, cause.message) ∈ portWords := by
  cases cause <;> simp [portWords, Decimal.Fault.message]

/-- A text that holds no port is rejected with what is wrong with it, white space around it aside. -/
theorem readPort_of_not_holdsPort (h : ¬ HoldsPort text) :
    ∃ cause, Decimal.read 65535 (Text.trim text.toList) = .error cause ∧
      readPort text = .error (.invalidPort text cause) := by
  cases hread : Decimal.read 65535 (Text.trim text.toList) with
  | ok n => exact absurd ⟨n, read_trim_eq_ok_iff.mp hread⟩ h
  | error cause =>
    refine ⟨cause, rfl, ?_⟩
    rw [readPort, hread]

theorem message_invalidPort (text : String) (cause : Decimal.Fault) :
    (SettingsError.invalidPort text cause).message =
      "GRAPH_NODE_GRAPHQL_PORT must be a port number, got " ++ Text.quoted text ++ ": " ++
        cause.message := by
  have hwords : Variable.key .port ++ " must be a port number, got " =
      "GRAPH_NODE_GRAPHQL_PORT must be a port number, got " := by decide
  rw [← hwords]
  rfl

/-- Which problem with a port is reported, and in which words. -/
theorem cause_of_bad_port (lookup : Variable → Option String) (text : String)
    (hport : lookup .port = some text) (hbad : ¬ HoldsPort text) :
    ∃ inner digits cause words, Text.IsTrimmed text.toList inner ∧
      Decimal.IsRun (Decimal.unsigned inner) digits ∧
      Decimal.IsFault 65535 inner digits cause ∧ (cause, words) ∈ portWords ∧
      ofLookup lookup = .error (.invalidPort text cause) ∧
      (SettingsError.invalidPort text cause).message =
        "GRAPH_NODE_GRAPHQL_PORT must be a port number, got " ++ Text.quoted text ++ ": " ++
          words := by
  rcases readPort_of_not_holdsPort hbad with ⟨cause, hread, hreadPort⟩
  rcases Decimal.exists_isRun (Decimal.unsigned (Text.trim text.toList)) with ⟨digits, hrun⟩
  exact ⟨_, digits, cause, _, Text.isTrimmed_trim text.toList, hrun,
    Decimal.isFault_of_read hrun hread, message_mem_portWords cause,
    (Reads.badPort hport hreadPort).eq, message_invalidPort text cause⟩

/-- Variables that hold nothing but a text in place of the port. -/
def onlyPort (text : String) : Variable → Option String
  | .port => some text
  | _ => none

/-- Digits that are too many count before what follows them, and what is no digit counts before
the digit that would be one too many. -/
theorem cause_of_long_ports :
    (∃ inner digits, Text.IsTrimmed " +65536x".toList inner ∧
      Decimal.IsRun (Decimal.unsigned inner) digits ∧
      Decimal.IsFault 65535 inner digits .tooLarge) ∧
    (∃ inner digits, Text.IsTrimmed "65535x6".toList inner ∧
      Decimal.IsRun (Decimal.unsigned inner) digits ∧
      Decimal.IsFault 65535 inner digits .invalidDigit) := by
  have hlong : readPort " +65536x" = .error (.invalidPort " +65536x" .tooLarge) := by decide +kernel
  have hmixed : readPort "65535x6" = .error (.invalidPort "65535x6" .invalidDigit) := by
    decide +kernel
  constructor
  · rcases cause_of_bad_port (onlyPort " +65536x") _ rfl (readPort_eq_error hlong).1 with
      ⟨inner, digits, cause, -, htrimmed, hrun, hfault, -, hresult, -⟩
    rw [(Reads.badPort rfl hlong).eq] at hresult
    cases hresult
    exact ⟨inner, digits, htrimmed, hrun, hfault⟩
  · rcases cause_of_bad_port (onlyPort "65535x6") _ rfl (readPort_eq_error hmixed).1 with
      ⟨inner, digits, cause, -, htrimmed, hrun, hfault, -, hresult, -⟩
    rw [(Reads.badPort rfl hmixed).eq] at hresult
    cases hresult
    exact ⟨inner, digits, htrimmed, hrun, hfault⟩

end Readiness.Settings
