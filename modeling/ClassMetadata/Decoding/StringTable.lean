import ClassMetadata.Decoding.Error

/-!
# The string table

The strings that a declaration tree refers to by their place, counted from zero.
-/

namespace ClassMetadata

/-- The strings of a header. -/
structure StringTable where
  strings : List String
  deriving DecidableEq, Repr

/-- The string at a place of the table. -/
def StringTable.get (table : StringTable) (index : UInt64) : Except DecodeError String :=
  match table.strings[index.toNat]? with
  | some string => .ok string
  | none => .error (.invalidStringIndex index table.strings.length)

end ClassMetadata
