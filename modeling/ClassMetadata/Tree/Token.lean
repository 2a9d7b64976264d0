import ClassMetadata.Tree.Node

/-!
# Tokens

The declaration tree as a flat sequence: a declaration begins, ends, or has some detail told about
it. Names are places in the string table.
-/

namespace ClassMetadata

/-- Something that one field tells about the declaration in which it stands. -/
inductive Detail where
  | flags (bits : UInt32)
  | name (index : UInt64)
  /-- The name of the companion object. -/
  | companion (index : UInt64)
  | getterFlags (bits : UInt32)
  | setterFlags (bits : UInt32)
  | extension (tag : UInt32) (payload : List UInt8)
  deriving DecidableEq, Repr

/-- One token of the sequence. -/
inductive Token where
  /-- A declaration begins. -/
  | enter (kind : NodeKind)
  /-- The innermost open declaration ends. -/
  | exit (kind : NodeKind)
  /-- A detail of the innermost open declaration. -/
  | detail (detail : Detail)
  deriving DecidableEq, Repr

end ClassMetadata
