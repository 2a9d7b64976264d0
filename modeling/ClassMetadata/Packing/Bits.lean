/-!
# Numbers as bits

The bits of a number, lowest bit first. Bits that were read as a number are written as the same bits
again (`ofNat_toNat`).
-/

namespace ClassMetadata.Packing.Bits

/-- The low `width` bits of a number. -/
def ofNat : Nat → Nat → List Bool
  | 0, _ => []
  | width + 1, n => (n % 2 == 1) :: ofNat width (n / 2)

/-- The number with these bits. -/
def toNat : List Bool → Nat
  | [] => 0
  | b :: bits => b.toNat + 2 * toNat bits

/-- A number is cut down to as many bits as are asked for. -/
@[simp] theorem length_ofNat (width n : Nat) : (ofNat width n).length = width := by
  induction width generalizing n with
  | zero => rfl
  | succ width ih => simp [ofNat, ih]

/-- Bits read as a number and written again are the same bits. -/
theorem ofNat_toNat (bits : List Bool) : ofNat bits.length (toNat bits) = bits := by
  induction bits with
  | nil => rfl
  | cons b bits ih =>
    have bit := b.toNat_lt
    have low : (b.toNat + 2 * toNat bits) % 2 = b.toNat := by omega
    have high : (b.toNat + 2 * toNat bits) / 2 = toNat bits := by omega
    simp only [List.length_cons, ofNat, toNat, low, high, ih]
    cases b <;> rfl

end ClassMetadata.Packing.Bits
