import Mathlib.Logic.Basic

/-! The exceptions of the automation package, with the data each one carries. -/

set_option autoImplicit false

namespace VmDeploy

/-- `exceptions.py`, and the built-in exceptions that pass through the package. -/
inductive PyError where
  | vmDeployError (message : String)
  | configurationError (message : String)
  | sshConnectionError (message : String)
  | remoteCommandError (command : String) (exitStatus : Nat) (stdout stderr : String)
  | virtualBoxError (argsUsed : List String) (exitStatus : Int) (stderr : String)
  | provisioningTimeoutError (message : String)
  | osError (message : String)
  | inventoryError (message : String)
  | decryptionError (message : String)
  | recursionError
  | valueError (message : String)
  deriving DecidableEq, Repr

/-- What `except InventoryError` takes, with its text. -/
def PyError.inventoryText : PyError → Option String
  | .inventoryError message | .decryptionError message => some message
  | _ => none

/-- Every error of the package derives from `VmDeployError`. -/
def isVmDeployError : PyError → Bool
  | .osError _ | .recursionError | .valueError _ => false
  | _ => true

-- What returns has gone through each of its parts.
theorem of_bind_ok {A B : Type} {first : Except PyError A} {next : A → Except PyError B} {value : B}
    (returns : first >>= next = .ok value) : ∃ middle, first = .ok middle ∧ next middle = .ok value := by
  cases first with
  | error failure => cases returns
  | ok middle => exact ⟨middle, rfl, returns⟩

end VmDeploy
