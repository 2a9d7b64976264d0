import ClassMetadata.Encoding.Class
import ClassMetadata.Header.Basic
import ClassMetadata.Packing.Basic

/-!
# From a class to a header

`ClassDecl.encode` packs the message of a class and its string table into a header.
-/

namespace ClassMetadata

/-- What a header says beside the class. -/
structure EncodeOptions where
  version : Version
  scheme : Packing.Scheme
  extraString : String
  packageName : Option String
  extraInt : Option Int32
  deriving DecidableEq, Repr

/-- The options when nothing is said. -/
def EncodeOptions.default : EncodeOptions := ⟨.current, .bytewise, "", none, none⟩

/-- The header that describes a class. -/
def ClassDecl.encode (c : ClassDecl) (options : EncodeOptions) : Header where
  kind := .classFile
  version := options.version
  data := Packing.encode options.scheme c.message
  strings := c.stringTable
  extraString := options.extraString
  packageName := options.packageName
  extraInt := options.extraInt

end ClassMetadata
