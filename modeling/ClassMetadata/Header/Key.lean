import ClassMetadata.Header.Container
import ClassMetadata.Text.Numeral

/-!
# Header keys

The keys under which a container holds the parts of a metadata header, and what can be wrong with a
value found there.
-/

namespace ClassMetadata

/-- A part of a header. -/
inductive HeaderKey where
  | kind | version | data | strings | extraString | packageName | extraInt
  deriving DecidableEq, Repr

/-- The key of a part in the container. -/
def HeaderKey.text : HeaderKey → String
  | kind => "k"
  | version => "mv"
  | data => "d1"
  | strings => "d2"
  | extraString => "xs"
  | packageName => "pn"
  | extraInt => "xi"

/-- What is wrong with the value of a part. -/
inductive HeaderFault where
  /-- There is no value. -/
  | missing
  /-- The value has another shape. -/
  | wrongShape (expected found : Shape)
  /-- A version has fewer than three components. -/
  | shortVersion (components : Nat)
  /-- A component of a version is negative. -/
  | negativeComponent (component : Int32)
  deriving DecidableEq, Repr

/-- The wording of a fault, to be read after the key. -/
def HeaderFault.message : HeaderFault → String
  | missing => "is missing"
  | wrongShape expected found => "expected " ++ expected.words ++ ", found " ++ found.words
  | shortVersion components => "needs 3 components, found " ++ Text.showNat components
  | negativeComponent component => "negative component " ++ Text.showInt component.toInt

end ClassMetadata
