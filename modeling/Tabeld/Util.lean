import Tabeld.Kdump.Compact
import Tabeld.Shared.BitString

set_option autoImplicit false

namespace Tabeld.Util

open Kdump

def isDefault (address : Addr6) (plen : Nat) : Bool :=
  plen == 0 || (plen == 96 && decide (V4Mapped address))

def NoStrayBits (address : Addr6) (plen : Nat) : Prop :=
  ∀ i < 128, plen ≤ i → BitString.bitAt address.b i = false

instance (address : Addr6) (plen : Nat) : Decidable (NoStrayBits address plen) :=
  inferInstanceAs (Decidable (∀ i < 128, _ → _))

theorem eq_zero_of_noStrayBits (address : Addr6) (bits : NoStrayBits address 0) :
    address = .zero := by
  obtain ⟨bytes, size⟩ := address
  have agree : BitString.Agree (8 * bytes.length) bytes (List.replicate 16 0) := by
    intro i bound
    rw [BitString.bitAt_zeros]
    exact bits i (by omega) (Nat.zero_le _)
  rw [Addr6.zero, Addr6.mk.injEq]
  exact BitString.eq_of_agree size agree

theorem plen_of_v4Mapped (address : Addr6) (plen : Nat) (bits : NoStrayBits address plen)
    (mapped : V4Mapped address) : 96 ≤ plen := by
  by_contra short
  -- the last bit of ::ffff:0:0/96 is set
  have clear := bits 95 (by omega) (by omega)
  have byte : address.b.getD 11 0 = 0xFF := by
    have taken : (address.b.take 12).getD 11 0 = (List.take 12 v4prefix.b).getD 11 0 := by
      rw [mapped]
    simpa [List.getD, v4prefix] using taken
  have set : BitString.bitAt address.b 95 = (0xFF : UInt8).toNat.testBit 0 := by
    rw [BitString.bitAt, byte]
  rw [set] at clear
  revert clear
  decide

end Tabeld.Util
