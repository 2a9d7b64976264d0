import ClassMetadata.Wire.Basic

/-!
# Declaration nodes

A class is encoded as a tree of messages, one for each declaration. A `NodeKind` is what a message
declares, and `NodeKind.role?` is the schema: which field numbers a kind of node knows and what they
stand for. A known field has to come in the wire type of its role.
-/

namespace ClassMetadata

/-- What a message of the tree declares. -/
inductive NodeKind where
  | classNode | constructor | function | property | parameter
  deriving DecidableEq, Repr

/-- The words for a kind of declaration. -/
def NodeKind.words : NodeKind → String
  | classNode => "class"
  | constructor => "constructor"
  | function => "function"
  | property => "property"
  | parameter => "value parameter"

/-- What a known field of a node stands for. -/
inductive Role where
  /-- The flags of the declaration. -/
  | flags
  /-- The place of its name in the string table. -/
  | name
  /-- The place of the companion's name in the string table. -/
  | companion
  /-- The flags of a property's getter. -/
  | getterFlags
  /-- The flags of a property's setter. -/
  | setterFlags
  /-- A nested declaration. -/
  | child (kind : NodeKind)
  deriving DecidableEq, Repr

/-- The wire type in which a role has to come. -/
def Role.wireType : Role → WireType
  | child _ => .lengthDelimited
  | _ => .varint

namespace NodeKind

/-- The role of a field number in a kind of node, if it has one there. -/
def role? : NodeKind → Nat → Option Role
  | _, 1 => some .flags
  | classNode, 3 => some .name
  | classNode, 4 => some .companion
  | classNode, 8 => some (.child .constructor)
  | classNode, 9 => some (.child .function)
  | classNode, 10 => some (.child .property)
  | constructor, 2 => some (.child .parameter)
  | function, 2 => some .name
  | function, 6 => some (.child .parameter)
  | property, 2 => some .name
  | property, 7 => some .getterFlags
  | property, 8 => some .setterFlags
  | parameter, 2 => some .name
  | _, _ => none

/-- The kinds of node that carry extensions: the members of a class. -/
def isExtensible : NodeKind → Bool
  | constructor | function | property => true
  | classNode | parameter => false

end NodeKind

/-- The field numbers from here on hold extensions. -/
def extensionBase : Nat := 100

/-- The extension that binds a member to its counterparts on the host. -/
def hostBindingTag : Nat := 100

end ClassMetadata
