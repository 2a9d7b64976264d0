import ClassMetadata.Text.Numeral

/-!
# Wire types, keys and faults

A message is a sequence of fields. A field is a key, which holds a field number and a `WireType`,
followed by a payload whose layout the wire type tells. The two travel in one number: the type in
its low three bits, the field number above them.
-/

namespace ClassMetadata

/-- The layout of a field's payload. -/
inductive WireType where
  /-- A number in groups of seven bits. -/
  | varint
  /-- Eight bytes. -/
  | fixed64
  /-- A length and then as many bytes. -/
  | lengthDelimited
  /-- Four bytes. -/
  | fixed32
  deriving DecidableEq, Repr

namespace WireType

/-- The number that stands for a wire type in a key. -/
def code : WireType → Nat
  | varint => 0
  | fixed64 => 1
  | lengthDelimited => 2
  | fixed32 => 5

/-- The wire type that a number stands for. -/
def ofCode? : Nat → Option WireType
  | 0 => some varint
  | 1 => some fixed64
  | 2 => some lengthDelimited
  | 5 => some fixed32
  | _ => none

/-- The name of a wire type in reports. -/
def name : WireType → String
  | varint => "Varint"
  | fixed64 => "Fixed64"
  | lengthDelimited => "LengthDelimited"
  | fixed32 => "Fixed32"

/-- A wire type is read back from its number. -/
@[simp] theorem ofCode?_code (type : WireType) : ofCode? type.code = some type := by
  cases type <;> rfl

/-- The number of a wire type has three bits. -/
theorem code_lt (type : WireType) : type.code < 8 := by
  cases type <;> decide

end WireType

/-- The number of a field and the layout of its payload. -/
structure Key where
  field : UInt32
  type : WireType
  deriving DecidableEq, Repr

/-- The number that holds both parts of a key. -/
def Key.toNat (key : Key) : Nat := key.field.toNat * 8 + key.type.code

/-- Why bytes cannot be read as the fields of a message. Offsets count bytes from the start of the
message. -/
inductive WireError where
  /-- The bytes stop inside a number or inside a payload of fixed size. -/
  | unexpectedEnd (offset : Nat)
  /-- The number that starts here is too large for its place. -/
  | varintOverflow (offset : Nat)
  /-- The key that starts here has no known wire type. -/
  | invalidWireType (code : Nat) (offset : Nat)
  /-- The length that starts here is larger than what is left. -/
  | lengthOverflow (length : UInt64) (offset : Nat)
  /-- The key that starts here has field number zero. -/
  | invalidFieldNumber (offset : Nat)
  deriving DecidableEq, Repr

/-- The wording of a wire fault. -/
def WireError.message : WireError → String
  | unexpectedEnd offset => "Unexpected end of data at offset " ++ Text.showNat offset
  | varintOverflow offset => "Varint overflow at offset " ++ Text.showNat offset
  | invalidWireType code offset =>
    "Invalid wire type " ++ Text.showNat code ++ " at offset " ++ Text.showNat offset
  | lengthOverflow length offset =>
    "Length " ++ Text.showNat length.toNat ++ " at offset " ++ Text.showNat offset
      ++ " exceeds the enclosing message"
  | invalidFieldNumber offset => "Invalid field number 0 at offset " ++ Text.showNat offset

end ClassMetadata
