import BenchScript.Script.Error

set_option autoImplicit false

namespace BenchScript

structure Settings where
  callDepthBudget : Nat := 10
  /-- From this many hexadecimal digits on, text goes out as text and not as raw bytes. -/
  hexInlineLimit : Nat := maxInlineLimit
  /-- How long a read from the device may take, in milliseconds. -/
  readTimeout : Option Nat := none
  /-- Where rows go that are to be kept in no particular file. -/
  defaultOutput : Option Text := none
deriving DecidableEq, Repr

namespace Settings

/-- Settings that an engine can work with: raw bytes always fit one frame. -/
def Valid (settings : Settings) : Prop :=
  0 < settings.hexInlineLimit ∧ settings.hexInlineLimit ≤ maxInlineLimit

instance (settings : Settings) : Decidable settings.Valid :=
  inferInstanceAs (Decidable (_ ∧ _))

def check (settings : Settings) : Except ConfigError Unit :=
  if settings.hexInlineLimit = 0 then .error .zeroInlineLimit
  else if settings.hexInlineLimit > maxInlineLimit then .error .inlineLimitTooLarge
  else .ok ()

theorem check_eq_ok_iff (settings : Settings) : settings.check = .ok () ↔ settings.Valid := by
  unfold check Valid
  split
  · simp; omega
  · split <;> simp <;> omega

def defaultTimeout : Nat := 5000

def timeout (settings : Settings) : Nat := settings.readTimeout.getD defaultTimeout

end Settings
end BenchScript
