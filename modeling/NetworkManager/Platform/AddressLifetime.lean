import Mathlib.Algebra.Order.Ring.Int

/-!
# Lifetimes of addresses

The timestamp, lifetime and preferred lifetime that IPv4 and IPv6 addresses share.
The clock does not advance while addresses are compared and synchronized.
-/

namespace NetworkManager.Platform

def lifetimePermanent : ℕ := 2 ^ 32 - 1

structure AddressLifetime where
  timestamp : ℕ
  lifetime : ℕ
  preferred : ℕ
  deriving DecidableEq, Inhabited

def lifetimeRebaseRelativeTimeOnNow (timestamp duration now : ℕ) : ℕ :=
  if duration = lifetimePermanent then lifetimePermanent
  else
    let timestamp := if timestamp = 0 then now else timestamp
    let t : ℤ := timestamp + duration - now
    if t ≤ 0 then 0
    else if t ≥ lifetimePermanent then lifetimePermanent - 1
    else t.toNat

namespace AddressLifetime

/-- `nmp_utils_lifetime_get()`: the remaining lifetime and `out_preferred`. -/
def get (a : AddressLifetime) (now : ℕ) : ℕ × ℕ :=
  if a.timestamp = 0 ∧ a.lifetime = 0 then (lifetimePermanent, lifetimePermanent)
  else
    let tLifetime := lifetimeRebaseRelativeTimeOnNow a.timestamp a.lifetime now
    if tLifetime = 0 then (0, 0)
    else
      let tPreferred := lifetimeRebaseRelativeTimeOnNow a.timestamp a.preferred now
      (tLifetime, min tPreferred tLifetime)

def expired (a : AddressLifetime) (now : ℕ) : Bool := (a.get now).1 = 0

/-- What the kernel reports for an address that was just configured with the remaining
lifetimes of `a`. -/
def configure (a : AddressLifetime) (now : ℕ) : AddressLifetime :=
  ⟨now, (a.get now).1, (a.get now).2⟩

end AddressLifetime
end NetworkManager.Platform
