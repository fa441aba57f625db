import Mathlib.Tactic.Common

/-!
# Safety checks

`safety.c` keeps a list of entries and, on `safety_check`, calls back for each one that does not report OK. An entry's report is an input here: it is what `safety_entry_check` answers during the step.
-/

namespace Evse

/-- `safety_entry_status_t`. -/
inductive SafetyStatus where
  | unknown | ok | abnormalFrequency | samplingError | stale | emergencyStop
  deriving DecidableEq, Repr

/-- The names the charger registers its entries under: `"ip"`, `"op"`, `"es"`. -/
inductive SafetyName where
  | ip | op | es
  | other (name : String)
  deriving DecidableEq, Repr

structure SafetyEntry where
  name : SafetyName
  status : SafetyStatus
  deriving DecidableEq, Repr

/-- `safety_check`: no entries to ask without a safety instance. -/
def safetyCheck {γ : Type} (self : Option (List SafetyEntry)) (cb : SafetyEntry → γ → γ) (ctx : γ) : γ :=
  match self with
  | none => ctx
  | some entries => entries.foldl (fun ctx entry => if entry.status ≠ .ok then cb entry ctx else ctx) ctx

/-- The connector's `on_safety_check` for one name: the last entry of that name that is not OK. -/
def onSafetyCheck (name : SafetyName) (entry : SafetyEntry) (status : SafetyStatus) : SafetyStatus :=
  if entry.name = name then entry.status else status

def isInputPowerOk (safety : Option (List SafetyEntry)) : Bool :=
  safetyCheck safety (onSafetyCheck .ip) .ok = .ok

def isOutputPowerOk (safety : Option (List SafetyEntry)) : Bool :=
  safetyCheck safety (onSafetyCheck .op) .ok = .ok

def isEmergencyStop (safety : Option (List SafetyEntry)) : Bool :=
  safetyCheck safety (onSafetyCheck .es) .unknown = .emergencyStop

end Evse
