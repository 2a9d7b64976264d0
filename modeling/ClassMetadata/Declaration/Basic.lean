import ClassMetadata.Flags

/-!
# Members of a class

Functions, constructors and properties with everything that metadata says about them. A signature is
the text under which the host knows a member: the name and then the descriptor of a method, or the
name of a field, a colon and its type.
-/

namespace ClassMetadata

/-- A value parameter of a constructor or function. -/
structure ParameterDecl where
  flags : Flags
  name : String
  deriving DecidableEq, Repr

/-- A constructor or function. -/
structure FunctionDecl where
  flags : Flags
  name : String
  /-- The host method. -/
  signature : Option String
  parameters : List ParameterDecl
  deriving DecidableEq, Repr

namespace FunctionDecl

/-- The name that constructors have. -/
def constructorName : String := "<init>"

/-- The function bears the name of constructors. -/
def isConstructor (f : FunctionDecl) : Bool := f.name == constructorName

/-- One of the function's parameters has a default value. -/
def hasDefaultParameter (f : FunctionDecl) : Bool :=
  f.parameters.any (·.flags.test .declaresDefaultValue)

end FunctionDecl

/-- A property. -/
structure PropertyDecl where
  flags : Flags
  name : String
  /-- The flags of the getter, where they are given. -/
  getterFlags : Option Flags
  /-- The flags of the setter, where they are given. -/
  setterFlags : Option Flags
  /-- The host field that holds the property's value. -/
  fieldSignature : Option String
  /-- The host method that reads the property. -/
  getterSignature : Option String
  /-- The host method that writes the property. -/
  setterSignature : Option String
  /-- The synthetic host method that carries the property's annotations. -/
  carrierSignature : Option String
  deriving DecidableEq, Repr

end ClassMetadata
