import RemoteRecords.Service.Fault
import RemoteRecords.Settings.Basic
import RemoteRecords.Text.Blank
import RemoteRecords.Text.Integer

/-!
# Overrides of settings

Named variables replace the address, the version and the timeout of settings. The
timeout is read last, so its fault leaves nothing half done: either all overrides
take effect or none.

* `override_eq_error_iff`: only a timeout that cannot be read is a fault;
* `override_of_override`: overrides that took effect change nothing a second time.
-/

namespace RemoteRecords.Settings

/-- The variable for the address. -/
def urlVariable : String := "CLOUDRECORD_URL"

/-- The variable for the version. -/
def versionVariable : String := "CLOUDRECORD_VERSION"

/-- The variable for the timeout. -/
def timeoutVariable : String := "CLOUDRECORD_CONNECT_TIMEOUT_SECS"

/-- The fault of a timeout that is no number of seconds. -/
def timeoutFault (cause : Text.IntegerFault) : Fault :=
  .settings (timeoutVariable ++ " must be a whole number of seconds: " ++ cause.message)

/-- Reads a timeout, which may stand between blanks. -/
def readTimeout (s : String) : Except Fault UInt64 :=
  (Text.readUInt64 (Text.trim s.toList)).mapError timeoutFault

/-- Replaces what `lookup` has a variable for. -/
def override (lookup : String → Option String) (s : Settings) : Except Fault Settings := do
  let url := (lookup urlVariable).getD s.url
  let version := (lookup versionVariable).getD s.version
  let timeout ← match lookup timeoutVariable with
    | none => pure s.timeout
    | some text => readTimeout text
  return { s with url, version, timeout }

variable {lookup : String → Option String} {s : Settings}

theorem readTimeout_eq_error_iff {written : String} {fault : Fault} :
    readTimeout written = .error fault ↔
      ∃ cause, Text.readUInt64 (Text.trim written.toList) = .error cause ∧
        fault = timeoutFault cause := by
  unfold readTimeout
  cases Text.readUInt64 (Text.trim written.toList) with
  | ok timeout => exact ⟨nofun, nofun⟩
  | error cause =>
    constructor
    · intro h
      exact ⟨cause, rfl, (Except.error.inj h).symm⟩
    · rintro ⟨_, hcause, rfl⟩
      rw [Except.error.inj hcause]
      rfl

theorem override_eq_error_iff {fault : Fault} :
    s.override lookup = .error fault ↔
      ∃ written cause, lookup timeoutVariable = some written ∧
        Text.readUInt64 (Text.trim written.toList) = .error cause ∧ fault = timeoutFault cause := by
  unfold override
  cases lookup timeoutVariable with
  | none => simp [bind, Except.bind, pure, Except.pure]
  | some written =>
    cases hr : readTimeout written with
    | ok timeout => simp [hr, bind, Except.bind, pure, Except.pure, ← readTimeout_eq_error_iff]
    | error other => simp [hr, bind, Except.bind, ← readTimeout_eq_error_iff]

theorem override_of_override {overridden : Settings} (h : s.override lookup = .ok overridden) :
    overridden.override lookup = .ok overridden := by
  unfold override at h ⊢
  cases ht : lookup timeoutVariable with
  | none =>
    rw [ht] at h
    obtain rfl := Except.ok.inj h
    cases lookup urlVariable <;> cases lookup versionVariable <;> rfl
  | some written =>
    cases hr : readTimeout written with
    | error fault => simp [ht, hr, bind, Except.bind] at h
    | ok timeout =>
      simp only [ht, hr] at h ⊢
      obtain rfl := Except.ok.inj h
      cases lookup urlVariable <;> cases lookup versionVariable <;> rfl

end RemoteRecords.Settings
