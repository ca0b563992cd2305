import Mathlib.Algebra.Ring.Nat

/-!
# A clock that wraps

A counter of `w` bits shows the time modulo `2 ^ w`, and the difference of two
readings is the time between them modulo `2 ^ w`, whichever is the larger
number. So a limit on the difference is a limit on the time, for as long as less
than a whole turn of the clock goes by between two looks at it.
-/

namespace Lib.Clock

/-- The reading of the clock at a time. -/
def reading (w time : Nat) : BitVec w := BitVec.ofNat w time

/-- The difference of two readings. -/
theorem toNat_sub_reading (w : Nat) {start now : Nat} (h : start ≤ now) :
    (reading w now - reading w start).toNat = (now - start) % 2 ^ w := by
  obtain ⟨more, rfl⟩ := Nat.exists_eq_add_of_le h
  rw [reading, reading, BitVec.ofNat_add, BitVec.add_comm, BitVec.add_sub_cancel,
    BitVec.toNat_ofNat, Nat.add_sub_cancel_left]

end Lib.Clock
