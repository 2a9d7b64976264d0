/-!
# Varints

A number in groups of seven bits, least significant group first. A group is the low part of a byte;
the high bit of the byte says that another group follows.

* `Varint.encode n` is the shortest form: its last group is not zero unless `n` is.
-/

namespace ClassMetadata.Varint

/-- The shortest sequence of groups for a number. -/
def encode (n : Nat) : List UInt8 :=
  if n < 128 then [UInt8.ofNat n] else UInt8.ofNat (n % 128 + 128) :: encode (n / 128)

/-- The part of the number that a byte carries. -/
def group (byte : UInt8) : Nat := byte.toNat % 128

/-- The byte says that another group follows. -/
def continues (byte : UInt8) : Bool := 128 ≤ byte.toNat

/-- A number of 64 bits has no room for this group: the tenth group has one bit of room, and there
is no eleventh. Groups are counted from zero. -/
def exceeds (index : Nat) (byte : UInt8) : Bool :=
  9 < index || index == 9 && 1 < group byte

/-- The groups of a number written out: at least one byte. -/
theorem encode_ne_nil (n : Nat) : encode n ≠ [] := by
  rw [encode]; split <;> simp

end ClassMetadata.Varint
