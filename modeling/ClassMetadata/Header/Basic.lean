import ClassMetadata.Decoding.Error

/-!
# Metadata headers

A header says what its metadata describes and in which version, and holds the packed declaration
tree and the table of the strings that the tree refers to by number.

* `Header.read` takes a header out of a container; of several faults it reports the one that comes
  first in the order of `HeaderKey`.
* `Header.entries` are the container's values again.
-/

namespace ClassMetadata

/-- What metadata describes. -/
inductive MetadataKind where
  /-- A class, interface or object. -/
  | classFile
  /-- The top-level declarations of one source file. -/
  | fileFacade
  /-- A class that the compiler made up. -/
  | syntheticClass
  /-- A facade over several files. -/
  | multiFileClassFacade
  /-- One part of such a facade. -/
  | multiFileClassPart
  /-- Something that no other kind stands for. -/
  | unknown (raw : Int32)
  deriving DecidableEq, Repr

namespace MetadataKind

/-- The kind that a number stands for. -/
def ofRaw (raw : Int32) : MetadataKind :=
  match raw.toInt with
  | 1 => classFile
  | 2 => fileFacade
  | 3 => syntheticClass
  | 4 => multiFileClassFacade
  | 5 => multiFileClassPart
  | _ => unknown raw

/-- The number that stands for a kind. -/
def raw : MetadataKind → Int32
  | classFile => 1
  | fileFacade => 2
  | syntheticClass => 3
  | multiFileClassFacade => 4
  | multiFileClassPart => 5
  | unknown raw => raw

/-- The name of a kind in reports. -/
def name : MetadataKind → String
  | classFile => "Class"
  | fileFacade => "FileFacade"
  | syntheticClass => "SyntheticClass"
  | multiFileClassFacade => "MultiFileClassFacade"
  | multiFileClassPart => "MultiFileClassPart"
  | unknown _ => "Unknown"

end MetadataKind

/-- A trait of the compilation that made the metadata. -/
inductive ExtraFlag where
  | multiFilePartsInherit | preRelease | script | strictVersionSemantics | irBackend
  deriving DecidableEq, Repr

namespace ExtraFlag

/-- Every trait, from the lowest bit on. -/
def all : List ExtraFlag :=
  [multiFilePartsInherit, preRelease, script, strictVersionSemantics, irBackend]

/-- The bit of a trait. -/
def bit : ExtraFlag → Nat
  | multiFilePartsInherit => 0
  | preRelease => 1
  | script => 2
  | strictVersionSemantics => 3
  | irBackend => 4

/-- The name of a trait in reports. -/
def name : ExtraFlag → String
  | multiFilePartsInherit => "MULTI_FILE_PARTS_INHERIT"
  | preRelease => "PRE_RELEASE"
  | script => "SCRIPT"
  | strictVersionSemantics => "STRICT_VERSION_SEMANTICS"
  | irBackend => "IR_BACKEND"

end ExtraFlag

/-- The header of one class's metadata. -/
structure Header where
  kind : MetadataKind
  version : Version
  /-- The packed declaration tree. -/
  data : List String
  /-- The string table. -/
  strings : List String
  extraString : String
  packageName : Option String
  extraInt : Option Int32
  deriving DecidableEq, Repr

namespace Header

/-- The header has a compilation trait; without an extra number it has none. -/
def has (header : Header) (flag : ExtraFlag) : Bool :=
  (header.extraInt.getD 0).toBitVec.getLsbD flag.bit

/-- The compilation traits of a header, from the lowest bit on. -/
def extraFlags (header : Header) : List ExtraFlag :=
  ExtraFlag.all.filter header.has

/-- The compilation traits of a header as one number. -/
def extraBits (header : Header) : Nat :=
  header.extraFlags.foldl (fun bits flag => bits + (1 <<< flag.bit)) 0

/-- The value of a part that has to be there. -/
def required (container : Container) (key : HeaderKey) : Except DecodeError ContainerValue :=
  match container key.text with
  | some value => .ok value
  | none => .error (.malformedHeader key .missing)

/-- The fault of a value that has not the shape of its part. -/
def wrongShape {α : Type} (key : HeaderKey) (expected : Shape) (found : ContainerValue) :
    Except DecodeError α :=
  .error (.malformedHeader key (.wrongShape expected found.shape))

/-- The number under a key. -/
def readInt (container : Container) (key : HeaderKey) : Except DecodeError Int32 := do
  match ← required container key with
  | .int value => return value
  | other => wrongShape key .int other

/-- The text under a key. -/
def readString (container : Container) (key : HeaderKey) : Except DecodeError String := do
  match ← required container key with
  | .string value => return value
  | other => wrongShape key .string other

/-- The texts under a key. -/
def readStrings (container : Container) (key : HeaderKey) : Except DecodeError (List String) := do
  match ← required container key with
  | .strings values => return values
  | other => wrongShape key .strings other

/-- The text under a key that may be absent. -/
def readString? (container : Container) (key : HeaderKey) : Except DecodeError (Option String) :=
  match container key.text with
  | none => .ok none
  | some (.string value) => .ok (some value)
  | some other => wrongShape key .string other

/-- The number under a key that may be absent. -/
def readInt? (container : Container) (key : HeaderKey) : Except DecodeError (Option Int32) :=
  match container key.text with
  | none => .ok none
  | some (.int value) => .ok (some value)
  | some other => wrongShape key .int other

/-- A component of a version, which is not negative. -/
def readComponent (component : Int32) : Except DecodeError UInt32 :=
  if component.toInt < 0 then
    .error (.malformedHeader .version (.negativeComponent component))
  else .ok component.toUInt32

/-- The version: the first three of at least three components. -/
def readVersion (container : Container) : Except DecodeError Version := do
  match ← required container .version with
  | .ints (major :: minor :: patch :: _) =>
    return ⟨← readComponent major, ← readComponent minor, ← readComponent patch⟩
  | .ints components =>
    throw (.malformedHeader .version (.shortVersion components.length))
  | other => wrongShape .version .ints other

/-- The header that a container holds. -/
def read (container : Container) : Except DecodeError Header := do
  let kind ← readInt container .kind
  let version ← readVersion container
  let data ← readStrings container .data
  let strings ← readStrings container .strings
  let extraString ← readString container .extraString
  let packageName ← readString? container .packageName
  let extraInt ← readInt? container .extraInt
  return ⟨.ofRaw kind, version, data, strings, extraString, packageName, extraInt⟩

/-- The values that hold a header, under their keys. -/
def entries (header : Header) : List (String × ContainerValue) :=
  [(HeaderKey.kind.text, .int header.kind.raw),
   (HeaderKey.version.text, .ints header.version.toArray),
   (HeaderKey.data.text, .strings header.data),
   (HeaderKey.strings.text, .strings header.strings),
   (HeaderKey.extraString.text, .string header.extraString)]
    ++ (header.packageName.map fun name => (HeaderKey.packageName.text, .string name)).toList
    ++ (header.extraInt.map fun n => (HeaderKey.extraInt.text, .int n)).toList

/-- The container that holds a header. -/
def container (header : Header) : Container := .ofEntries header.entries

end Header

end ClassMetadata
