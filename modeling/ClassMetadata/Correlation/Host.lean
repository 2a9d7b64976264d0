import ClassMetadata.Header.Container

/-!
# Host types

A type as the host's reflection shows it. Types are told apart by their identity. Methods and fields
are known by handles; the signatures of both are written as metadata write them.
-/

namespace ClassMetadata

/-- What reflection tells of the types in `H`, with identities in `ι` and with the handles of
methods in `μ` and of fields in `φ`. -/
class HostType (H : Type) (ι μ φ : outParam Type) where
  /-- The identity of a type. -/
  id : H → ι
  /-- The name of a type in reports. -/
  name : H → String
  /-- The metadata container of a type, if it has one. -/
  container : H → Option Container
  /-- The methods of a type, in order. -/
  methods : H → List μ
  /-- The signature of a method. -/
  methodSignature : H → μ → String
  /-- The signature of a field. -/
  fieldSignature : H → φ → String
  /-- The simple name of a field. -/
  fieldName : H → φ → String

end ClassMetadata
