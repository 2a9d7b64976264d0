import ClassMetadata.Decoding.StringTable
import ClassMetadata.Wire.Field

/-!
# Bindings to host members

The payload of the host-binding extension is a message of its own. For a constructor or function it
is a `HostSignature`, a name and a descriptor that may each be absent; for a property it is a
`PropertyBinding` of up to four of them. Of repeated fields the last counts, and fields of other
numbers or wire types are passed over.

A descriptor makes a signature: with the name in front, or the name and a colon for a field. Without
a descriptor there is no signature, and without a name the declaration provides one.
-/

namespace ClassMetadata

/-- The name and the descriptor of a host member. -/
structure HostSignature where
  name : Option String
  descriptor : Option String
  deriving DecidableEq, Repr

namespace HostSignature

/-- Neither name nor descriptor. -/
def empty : HostSignature := ⟨none, none⟩

/-- What one more field makes of a signature. -/
def addField (table : StringTable) (s : HostSignature) : Field → Except DecodeError HostSignature
  | .unreadable e => throw (.wire e)
  | .broken _ e => throw (.wire e)
  | .whole key _ (.varint index) =>
    match key.field.toNat with
    | 1 => return { s with name := some (← table.get index) }
    | 2 => return { s with descriptor := some (← table.get index) }
    | _ => return s
  | .whole _ _ _ => return s

/-- The signature that a message holds. -/
def read (table : StringTable) (message : List UInt8) : Except DecodeError HostSignature :=
  (fieldsOf message).foldlM (addField table) empty

/-- The name, or what the declaration provides for it. -/
def nameOr (s : HostSignature) (defaultName : String) : String := s.name.getD defaultName

/-- The signature of a method. -/
def method (s : HostSignature) (defaultName : String) : Option String :=
  s.descriptor.map (s.nameOr defaultName ++ ·)

/-- The signature of a field. -/
def field (s : HostSignature) (defaultName : String) : Option String :=
  s.descriptor.map (s.nameOr defaultName ++ ":" ++ ·)

end HostSignature

/-- The host members of a property. -/
structure PropertyBinding where
  field : Option HostSignature
  /-- The method that carries the property's annotations. -/
  carrier : Option HostSignature
  getter : Option HostSignature
  setter : Option HostSignature
  deriving DecidableEq, Repr

namespace PropertyBinding

/-- No host members. -/
def empty : PropertyBinding := ⟨none, none, none, none⟩

/-- What one more field makes of a binding. -/
def addField (table : StringTable) (b : PropertyBinding) :
    Field → Except DecodeError PropertyBinding
  | .unreadable e => throw (.wire e)
  | .broken _ e => throw (.wire e)
  | .whole key _ (.block message) =>
    match key.field.toNat with
    | 1 => return { b with field := some (← HostSignature.read table message) }
    | 2 => return { b with carrier := some (← HostSignature.read table message) }
    | 3 => return { b with getter := some (← HostSignature.read table message) }
    | 4 => return { b with setter := some (← HostSignature.read table message) }
    | _ => return b
  | .whole _ _ _ => return b

/-- The binding that a message holds. -/
def read (table : StringTable) (message : List UInt8) : Except DecodeError PropertyBinding :=
  (fieldsOf message).foldlM (addField table) empty

end PropertyBinding

end ClassMetadata
