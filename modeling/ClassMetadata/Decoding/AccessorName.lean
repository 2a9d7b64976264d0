import ClassMetadata.Text.LetterCase

/-!
# Names of accessors

What the host calls the accessors of a property unless the metadata says otherwise. A property whose
name is `is` and then something that does not begin in lower case is read by its own name.
-/

namespace ClassMetadata.AccessorName

/-- What follows `is` in a name that reads as a question: `isOpen`, but not `island` or `is`. -/
def question? : List Char → Option (List Char)
  | 'i' :: 's' :: c :: rest => if Text.isLowercase c then none else some (c :: rest)
  | _ => none

/-- The name of a property's getter. -/
def getter (property : String) : String :=
  match question? property.toList with
  | some _ => property
  | none => "get" ++ String.ofList (Text.capitalize property.toList)

/-- The name of a property's setter. -/
def setter (property : String) : String :=
  match question? property.toList with
  | some rest => "set" ++ String.ofList rest
  | none => "set" ++ String.ofList (Text.capitalize property.toList)

/-- The name of the synthetic method that carries a property's annotations. -/
def carrier (property : String) : String := property ++ "$annotations"

end ClassMetadata.AccessorName
