import Mathlib.Algebra.Ring.Nat

/-!
# Address ranges

A range of addresses is given by its lowest address and the number of its host bits, and the lowest
address is aligned to the host bits.  Membership is decided by masking the host bits, containment of
ranges by their two ends; the two agree.
-/

/-- A range of `2 ^ hostBits` addresses. -/
structure AddressRange where
  network : Nat
  hostBits : Nat
  aligned : 2 ^ hostBits ∣ network
  deriving DecidableEq, Repr

namespace AddressRange

/-- The highest address of the range. -/
def broadcast (r : AddressRange) : Nat := r.network + (2 ^ r.hostBits - 1)

/-- Whether the address without its host bits is the network. -/
def covers (r : AddressRange) (address : Nat) : Bool :=
  address / 2 ^ r.hostBits * 2 ^ r.hostBits = r.network

/-- Whether the range lies between the ends of another. -/
def subnetOf (r s : AddressRange) : Bool :=
  decide (s.network ≤ r.network) && decide (r.broadcast ≤ s.broadcast)

theorem covers_iff (r : AddressRange) (address : Nat) :
    r.covers address = true ↔ r.network ≤ address ∧ address ≤ r.broadcast := by
  obtain ⟨k, hk⟩ := r.aligned
  have hpos : 0 < 2 ^ r.hostBits := Nat.two_pow_pos _
  have hmod := Nat.div_add_mod address (2 ^ r.hostBits)
  have hlt := Nat.mod_lt address hpos
  rw [covers, broadcast, decide_eq_true_eq, hk, Nat.mul_comm]
  constructor
  · intro heq
    have hquot : address / 2 ^ r.hostBits = k := Nat.eq_of_mul_eq_mul_left hpos heq
    rw [hquot] at hmod
    omega
  · rintro ⟨hle, hge⟩
    have hquot : address / 2 ^ r.hostBits = k := by
      refine Nat.div_eq_of_lt_le ?_ ?_
      · rwa [Nat.mul_comm]
      · rw [Nat.succ_mul, Nat.mul_comm]
        omega
    rw [hquot]

/-- An address of a range is one of every range around it. -/
theorem covers_of_subnetOf {r s : AddressRange} (h : r.subnetOf s = true) {address : Nat}
    (ha : r.covers address = true) : s.covers address = true := by
  simp only [subnetOf, Bool.and_eq_true, decide_eq_true_eq] at h
  rw [covers_iff] at ha ⊢
  exact ⟨Nat.le_trans h.1 ha.1, Nat.le_trans ha.2 h.2⟩

end AddressRange
