import Readiness.Proofs.Settings.Port
import Readiness.Proofs.Span

namespace Readiness

/-! # What is told apart

Two errors that tell different texts are different to a reader, and so are two settings. Whatever a
text holds, it is quoted in such a way that it cannot pass for the end of the quotation, for another
text, or for several.
-/

open Text (isPrefixFree_quoted isPrefixFree_quotedList toString_append_inj)

/-! ## Errors -/

theorem ProbeError.message_noData_inj {errors errors' : List String} :
    (noData errors).message = (noData errors').message ↔ errors = errors' := by
  constructor
  · intro h
    have hlists : "response has no data (errors: " ++ Text.quotedList errors ++ ")" =
        "response has no data (errors: " ++ Text.quotedList errors' ++ ")" := h
    rw [String.append_assoc, String.append_assoc, String.append_right_inj] at hlists
    exact (isPrefixFree_quotedList _ _ _ _ hlists).1
  · rintro rfl
    rfl

theorem Decimal.Fault.message_inj {cause cause' : Fault} (h : cause.message = cause'.message) :
    cause = cause' := by
  cases cause <;> cases cause' <;> first | rfl | exact absurd h (by decide)

theorem SettingsError.message_invalidPort_inj {value value' : String}
    {cause cause' : Decimal.Fault} :
    (invalidPort value cause).message = (invalidPort value' cause').message ↔
      value = value' ∧ cause = cause' := by
  constructor
  · intro h
    rw [Settings.message_invalidPort, Settings.message_invalidPort, String.append_assoc,
      String.append_assoc, String.append_assoc, String.append_assoc, String.append_right_inj] at h
    rcases isPrefixFree_quoted _ _ _ _ h with ⟨rfl, hcause⟩
    rw [String.append_right_inj] at hcause
    exact ⟨rfl, Decimal.Fault.message_inj hcause⟩
  · rintro ⟨rfl, rfl⟩
    rfl

theorem SettingsError.message_invalidTimeout (value : String) :
    (invalidTimeout value).message =
      Variable.key .timeout ++ " must be a positive number of seconds, got " ++ Text.quoted value :=
  rfl

theorem SettingsError.message_invalidTimeout_inj {value value' : String} :
    (invalidTimeout value).message = (invalidTimeout value').message ↔ value = value' := by
  constructor
  · intro h
    rw [message_invalidTimeout, message_invalidTimeout, String.append_right_inj] at h
    exact isPrefixFree_quoted.inj h
  · rintro rfl
    rfl

/-! ## Settings -/

theorem Settings.description_eq (settings : Settings) :
    settings.description = "ProbeConfig \x7b host: " ++ Text.quoted settings.host ++ ", port: " ++
      toString settings.port.toNat ++ ", deployment_name: " ++ Text.quoted settings.deployment ++
      ", timeout: " ++ settings.timeout.text ++ " \x7d" :=
  rfl

theorem Settings.description_inj {settings settings' : Settings} :
    settings.description = settings'.description ↔ settings = settings' := by
  constructor
  · intro h
    rw [description_eq, description_eq] at h
    simp only [String.append_assoc, String.append_right_inj] at h
    rcases isPrefixFree_quoted _ _ _ _ h with ⟨hhost, hport⟩
    rw [String.append_right_inj] at hport
    rcases toString_append_inj (by decide) hport with ⟨hnumber, hdeployment⟩
    rcases isPrefixFree_quoted _ _ _ _ hdeployment with ⟨hname, htimeout⟩
    rw [String.append_right_inj, String.append_left_inj, Span.text_inj] at htimeout
    cases settings
    cases settings'
    rw [mk.injEq]
    exact ⟨hhost, UInt16.toNat_inj.mp hnumber, hname, htimeout⟩
  · rintro rfl
    rfl

/-- Errors about texts tell the texts apart, and the descriptions of settings tell the settings
apart. -/
theorem texts_tell_apart :
    (∀ errors errors', (ProbeError.noData errors).message = (ProbeError.noData errors').message ↔
      errors = errors') ∧
    (∀ value value' cause cause', (SettingsError.invalidPort value cause).message =
      (SettingsError.invalidPort value' cause').message ↔ value = value' ∧ cause = cause') ∧
    (∀ value value', (SettingsError.invalidTimeout value).message =
      (SettingsError.invalidTimeout value').message ↔ value = value') ∧
    ∀ settings settings' : Settings, settings.description = settings'.description ↔
      settings = settings' :=
  ⟨fun _ _ => ProbeError.message_noData_inj,
    fun _ _ _ _ => SettingsError.message_invalidPort_inj,
    fun _ _ => SettingsError.message_invalidTimeout_inj,
    fun _ _ => Settings.description_inj⟩

end Readiness
