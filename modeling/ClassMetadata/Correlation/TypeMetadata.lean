import ClassMetadata.Correlation.Error
import ClassMetadata.Correlation.MethodIndex
import ClassMetadata.Declaration.Class

/-!
# A host type and its class

`TypeMetadata` holds a host type and the class that its metadata declare, and answers questions
about members: which property a field belongs to, which host methods read it or carry its
annotations.

* The methods of the host are enumerated when a signature has to be found among them for the first
  time, and never again; `enumerations` counts.
* What was found for a field is kept and given again for every field equal to it. A failure to find
  the property is not kept.
-/

namespace ClassMetadata

/-- A member that metadata name: found on the host, or missing there. -/
inductive Resolved (μ : Type) where
  | found (method : μ)
  | missing
  deriving DecidableEq, Repr

namespace Resolved

variable {μ : Type}

/-- The outcome of a search. -/
def ofSearch : Option μ → Resolved μ
  | some method => found method
  | none => missing

/-- The member is missing. -/
def isMissing : Resolved μ → Bool
  | found _ => false
  | missing => true

end Resolved

/-- A host type, its class, and what was found out about them. -/
structure TypeMetadata (H μ φ : Type) where
  host : H
  decl : ClassDecl
  /-- The host's methods by signature, once they were enumerated. -/
  index : Option (MethodIndex μ)
  /-- How often the host's methods were enumerated. -/
  enumerations : Nat
  /-- The annotation carriers that were found, by field. -/
  carriers : List (φ × Option (Resolved μ))
  /-- The getters that were found, by field. -/
  getters : List (φ × Option μ)

namespace TypeMetadata

variable {H ι μ φ : Type} [HostType H ι μ φ]

/-- A host type and its class, before any question. -/
def ofDecl (host : H) (decl : ClassDecl) : TypeMetadata H μ φ :=
  ⟨host, decl, none, 0, [], []⟩

/-! ## Functions and properties -/

/-- The declaration of a host method. -/
def functionOf (t : TypeMetadata H μ φ) (method : μ) : Option FunctionDecl :=
  t.decl.functionBySignature (HostType.methodSignature t.host method)

/-- What the host puts behind the name of a property that is delegated. -/
def delegateMark : List Char := "$delegate".toList

/-- The property name that a field name stands for: without one mark of delegation at its end. -/
def candidate (fieldName : String) : String :=
  let cs := fieldName.toList
  if delegateMark.isSuffixOf cs then
    String.ofList (cs.take (cs.length - delegateMark.length))
  else fieldName

/-- The property that a field belongs to: the one that has its signature, or else the only one that
has a field and the right name. -/
def findProperty (t : TypeMetadata H μ φ) (field : φ) : Except ResolveError PropertyDecl :=
  match t.decl.propertyByField (HostType.fieldSignature t.host field) with
  | some property => .ok property
  | none =>
    let fieldName := HostType.fieldName t.host field
    match t.decl.fieldProperties.filter (·.name == candidate fieldName) with
    | [property] => .ok property
    | matching =>
      .error (.propertyNotFound (HostType.name t.host ++ "." ++ fieldName) (candidate fieldName)
        matching.length)

/-! ## Host methods -/

/-- The host's methods by signature, enumerated if they were not. -/
def methodIndex (t : TypeMetadata H μ φ) : MethodIndex μ × TypeMetadata H μ φ :=
  match t.index with
  | some index => (index, t)
  | none =>
    let index := MethodIndex.ofHost t.host
    (index, { t with index := some index, enumerations := t.enumerations + 1 })

/-- The search for the host method that has a signature; without a signature there is no search. -/
def search (t : TypeMetadata H μ φ) : Option String → Option (Option μ) × TypeMetadata H μ φ
  | none => (none, t)
  | some signature =>
    let (index, t) := t.methodIndex
    (some (index.get? signature), t)

/-- The method that carries the annotations of a field's property, if the property has one. -/
def carrier [BEq φ] (t : TypeMetadata H μ φ) (field : φ) :
    Except ResolveError (Option (Resolved μ)) × TypeMetadata H μ φ :=
  match t.carriers.lookup field with
  | some answer => (.ok answer, t)
  | none =>
    match t.findProperty field with
    | .error e => (.error e, t)
    | .ok property =>
      let (result, t) := t.search property.carrierSignature
      let answer := result.map Resolved.ofSearch
      (.ok answer, { t with carriers := t.carriers ++ [(field, answer)] })

/-- The method that reads a field's property, if the property names one and the host declares it. -/
def getter [BEq φ] (t : TypeMetadata H μ φ) (field : φ) :
    Except ResolveError (Option μ) × TypeMetadata H μ φ :=
  match t.getters.lookup field with
  | some answer => (.ok answer, t)
  | none =>
    match t.findProperty field with
    | .error e => (.error e, t)
    | .ok property =>
      let (result, t) := t.search property.getterSignature
      let answer := result.join
      (.ok answer, { t with getters := t.getters ++ [(field, answer)] })

end TypeMetadata

end ClassMetadata
