import ClassMetadata.Decoding.Error

/-!
# Errors of correlation

Why a question about a host type and its metadata has no answer.
-/

namespace ClassMetadata

/-- Why a member of a host type cannot be matched with its declaration. -/
inductive ResolveError where
  /-- The metadata of the type cannot be decoded. -/
  | decode (error : DecodeError)
  /-- The type has no metadata. -/
  | missingMetadata (typeName : String)
  /-- Not exactly one property is called `candidate`, after the host's field `field`. -/
  | propertyNotFound (field candidate : String) (matching : Nat)
  deriving DecidableEq, Repr

/-- The wording of a correlation error. -/
def ResolveError.message : ResolveError → String
  | decode error => error.message
  | missingMetadata typeName => "Type " ++ typeName ++ " has no class metadata"
  | propertyNotFound field candidate matching =>
    "No unique property for field " ++ field ++ ": " ++ Text.showNat matching
      ++ " properties named `" ++ candidate ++ "`"

/-- Why a question is not answered. -/
inductive QueryError where
  /-- There is nothing to answer from. -/
  | unresolved (error : ResolveError)
  /-- A member was demanded that the metadata name and the host does not declare. -/
  | missingMember
  deriving DecidableEq, Repr

/-- The wording of an unanswered question. -/
def QueryError.message : QueryError → String
  | unresolved error => error.message
  | missingMember => "called `unwrap_found` on a missing member"

end ClassMetadata
