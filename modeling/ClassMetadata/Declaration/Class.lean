import ClassMetadata.Declaration.Basic
import ClassMetadata.Declaration.SignatureTable

/-!
# Classes

A class with its members and two tables: one from the signatures of constructors and functions, one
from the signatures of the fields behind properties. A class is built by edits, one member at a
time.

* A constructor equal to an earlier one is not added again, though it takes its signature back.
* Of members with one signature, the one added last has it.
* While a class is built, a signature belongs to a `Slot`. A class that is looked at counts its
  constructors and functions through, and a signature belongs to an offset (`ClassDecl.offsets`).
-/

namespace ClassMetadata

/-- A place in the constructors or in the functions of a class. -/
inductive Slot where
  | constructor (position : Nat)
  | function (position : Nat)
  deriving DecidableEq, Repr

/-- The offset of a slot behind `constructors` constructors, which are counted before the functions.
-/
def Slot.offset (constructors : Nat) : Slot → Nat
  | constructor position => position
  | function position => constructors + position

/-- A class and what it declares. -/
structure ClassDecl where
  flags : Flags
  name : String
  /-- The simple name of the companion object. -/
  companion : Option String
  constructors : List FunctionDecl
  functions : List FunctionDecl
  properties : List PropertyDecl
  /-- The constructor or function that has a signature. -/
  functionTable : SignatureTable Slot
  /-- The property that has a field signature. -/
  fieldTable : SignatureTable Nat
  deriving DecidableEq, Repr

namespace ClassDecl

/-- A class that declares nothing. -/
def empty (flags : Flags) (name : String) : ClassDecl :=
  ⟨flags, name, none, [], [], [], .empty, .empty⟩

/-! ## Building -/

/-- The class with one more constructor, unless it has an equal one. -/
def addConstructor (c : ClassDecl) (f : FunctionDecl) : ClassDecl :=
  { c with
    constructors := if f ∈ c.constructors then c.constructors else c.constructors ++ [f]
    functionTable := c.functionTable.insert? f.signature (.constructor (c.constructors.idxOf f)) }

/-- The class with one more function. -/
def addFunction (c : ClassDecl) (f : FunctionDecl) : ClassDecl :=
  { c with
    functions := c.functions ++ [f]
    functionTable := c.functionTable.insert? f.signature (.function c.functions.length) }

/-- The class with one more property. -/
def addProperty (c : ClassDecl) (p : PropertyDecl) : ClassDecl :=
  { c with
    properties := c.properties ++ [p]
    fieldTable := c.fieldTable.insert? p.fieldSignature c.properties.length }

/-- One step in building a class. -/
inductive Edit where
  | flags (flags : Flags)
  | name (name : String)
  | companion (name : String)
  | constructor (f : FunctionDecl)
  | function (f : FunctionDecl)
  | property (p : PropertyDecl)
  deriving DecidableEq, Repr

/-- The class after an edit. -/
def edit (c : ClassDecl) : Edit → ClassDecl
  | .flags flags => { c with flags := flags }
  | .name name => { c with name := name }
  | .companion name => { c with companion := some name }
  | .constructor f => c.addConstructor f
  | .function f => c.addFunction f
  | .property p => c.addProperty p

/-- The class that edits build from an empty one. -/
def build (flags : Flags) (name : String) (edits : List Edit) : ClassDecl :=
  edits.foldl edit (empty flags name)

/-! ## Looking up -/

/-- The constructor or function in a slot. -/
def member? (c : ClassDecl) : Slot → Option FunctionDecl
  | .constructor position => c.constructors[position]?
  | .function position => c.functions[position]?

/-- The offset of the constructor or function that has a signature. -/
def offsets (c : ClassDecl) : SignatureTable Nat :=
  c.functionTable.map (Slot.offset c.constructors.length)

/-- The constructor or function at an offset. -/
def memberAt? (c : ClassDecl) (offset : Nat) : Option FunctionDecl :=
  if offset < c.constructors.length then c.constructors[offset]?
  else c.functions[offset - c.constructors.length]?

/-- The constructor or function that has a signature. -/
def functionBySignature (c : ClassDecl) (signature : String) : Option FunctionDecl :=
  (c.offsets.get? signature).bind c.memberAt?

/-- The constructors and functions under their signatures, in the order of the table. -/
def functionsBySignature (c : ClassDecl) : List (String × FunctionDecl) :=
  c.offsets.entries.filterMap fun (signature, offset) => (c.memberAt? offset).map (signature, ·)

/-- The property that has a field signature. -/
def propertyByField (c : ClassDecl) (signature : String) : Option PropertyDecl :=
  (c.fieldTable.get? signature).bind (c.properties[·]?)

/-- The properties under their field signatures, in the order of the table. -/
def propertiesByField (c : ClassDecl) : List (String × PropertyDecl) :=
  c.fieldTable.entries.filterMap fun (signature, position) =>
    c.properties[position]?.map (signature, ·)

/-- The properties that have a field signature, in the order of the table. -/
def fieldProperties (c : ClassDecl) : List PropertyDecl := c.propertiesByField.map Prod.snd

/-- One of the constructors has a parameter with a default value. -/
def hasDefaultParameter (c : ClassDecl) : Bool :=
  c.constructors.any (·.hasDefaultParameter)

/-- Two classes declare the same; the order of their tables does not count. -/
def agrees (c d : ClassDecl) : Bool :=
  c.flags == d.flags && c.name == d.name && c.companion == d.companion
    && c.constructors == d.constructors && c.functions == d.functions
    && c.properties == d.properties
    && c.offsets.agrees d.offsets && c.fieldTable.agrees d.fieldTable

end ClassDecl

end ClassMetadata
