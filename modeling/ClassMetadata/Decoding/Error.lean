import ClassMetadata.Header.Key
import ClassMetadata.Tree.Node
import ClassMetadata.Version

/-!
# Decoding errors

Why metadata cannot be decoded into a class.
-/

namespace ClassMetadata

/-- Why metadata cannot be decoded. -/
inductive DecodeError where
  /-- A part of the header is missing or has the wrong form. -/
  | malformedHeader (key : HeaderKey) (fault : HeaderFault)
  /-- The version is older than the settings allow. -/
  | unsupportedVersion (version minimum : Version)
  /-- The version is newer than the settings allow. -/
  | incompatibleVersion (version maximum : Version)
  /-- The metadata describes something other than a class. -/
  | unsupportedKind (raw : Int32)
  /-- The metadata comes from a pre-release compiler and the settings refuse those. -/
  | preRelease
  /-- A character of the packed data, found in string `index` at place `offset`, is too large. -/
  | malformedData (index offset : Nat) (char : Char) (limit : Nat)
  /-- A message of the tree cannot be read. -/
  | wire (error : WireError)
  /-- A place in the string table lies outside of it. -/
  | invalidStringIndex (index : UInt64) (size : Nat)
  /-- A declaration has no name. -/
  | missingName (node : NodeKind)
  /-- A known field comes in the wrong wire type. -/
  | unexpectedField (node : NodeKind) (field : UInt32) (type : WireType)
  deriving DecidableEq, Repr

/-- The wording of a decoding error. -/
def DecodeError.message : DecodeError → String
  | malformedHeader key fault =>
    "Malformed metadata header: field `" ++ key.text ++ "` " ++ fault.message
  | unsupportedVersion version minimum =>
    "Unsupported metadata version " ++ version.text ++ " (minimum supported: " ++ minimum.text
      ++ "). Check that your compiler toolchain is up to date"
  | incompatibleVersion version maximum =>
    "Incompatible metadata version " ++ version.text ++ " (maximum supported: " ++ maximum.text
      ++ ")"
  | unsupportedKind raw => "Unsupported metadata kind: " ++ Text.showInt raw.toInt
  | preRelease => "Metadata was produced by a pre-release compiler"
  | malformedData index offset char limit =>
    "Malformed encoded data in d1[" ++ Text.showNat index ++ "] at char " ++ Text.showNat offset
      ++ ": char " ++ String.ofList (Text.codePoint char) ++ " exceeds 0x"
      ++ String.ofList (Text.hexadecimal limit)
  | wire error => "Wire error: " ++ error.message
  | invalidStringIndex index size =>
    "String table index " ++ Text.showNat index.toNat ++ " out of range (table size "
      ++ Text.showNat size ++ ")"
  | missingName node => node.words ++ " declaration has no name"
  | unexpectedField node field type =>
    "Field " ++ Text.showNat field.toNat ++ " of " ++ node.words ++ " has unexpected wire type "
      ++ type.name

end ClassMetadata
