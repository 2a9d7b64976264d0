/-!
# Metadata containers

Compiled classes carry their metadata in a container: values under text keys, of four shapes. All
that is known of a container is what it holds under a key.
-/

namespace ClassMetadata

/-- The shape of a value. -/
inductive Shape where
  | int | ints | string | strings
  deriving DecidableEq, Repr

/-- The words for a shape. -/
def Shape.words : Shape → String
  | int => "int"
  | ints => "int array"
  | string => "string"
  | strings => "string array"

/-- A value in a container. -/
inductive ContainerValue where
  | int (value : Int32)
  | ints (values : List Int32)
  | string (value : String)
  | strings (values : List String)
  deriving DecidableEq, Repr

/-- The shape of a value. -/
def ContainerValue.shape : ContainerValue → Shape
  | int _ => .int
  | ints _ => .ints
  | string _ => .string
  | strings _ => .strings

/-- What a container holds under each key. -/
abbrev Container := String → Option ContainerValue

/-- The container that holds these values and no others. -/
def Container.ofEntries (entries : List (String × ContainerValue)) : Container :=
  fun key => List.lookup key entries

end ClassMetadata
