import Mathlib.Order.Basic
import Mathlib.Tactic.Common

/-!
# Types of the daemon

Enumerations that several parts of the daemon share.
-/

namespace NetworkManager.Core

inductive AddrFamily
  | inet
  | inet6
  deriving DecidableEq

inductive NMDeviceState
  | unknown
  | unmanaged
  | unavailable
  | disconnected
  | prepare
  | config
  | needAuth
  | ipConfig
  | ipCheck
  | secondaries
  | activated
  | deactivating
  | failed
  deriving DecidableEq

namespace NMDeviceState

def toNat : NMDeviceState → ℕ
  | unknown => 0
  | unmanaged => 10
  | unavailable => 20
  | disconnected => 30
  | prepare => 40
  | config => 50
  | needAuth => 60
  | ipConfig => 70
  | ipCheck => 80
  | secondaries => 90
  | activated => 100
  | deactivating => 110
  | failed => 120

instance : LE NMDeviceState := ⟨fun a b => a.toNat ≤ b.toNat⟩

instance : LT NMDeviceState := ⟨fun a b => a.toNat < b.toNat⟩

instance : DecidableLE NMDeviceState := fun a b => inferInstanceAs (Decidable (a.toNat ≤ b.toNat))

instance : DecidableLT NMDeviceState := fun a b => inferInstanceAs (Decidable (a.toNat < b.toNat))

end NMDeviceState
end NetworkManager.Core
