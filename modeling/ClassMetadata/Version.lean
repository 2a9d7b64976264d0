import ClassMetadata.Text.Blank
import ClassMetadata.Text.Numeral
import ClassMetadata.Text.Separator

/-!
# Format versions

A version has three components and is ordered by the first in which two versions differ. Its text is
the components in decimal with points in between. `Version.ofText` reads that text, with blanks
around it and with any numeral that `Text.word?` accepts.
-/

namespace ClassMetadata

/-- The version of the metadata format. -/
structure Version where
  major : UInt32
  minor : UInt32
  patch : UInt32
  deriving DecidableEq, Repr

/-- Why a text is no version; `text` is the whole text. -/
inductive VersionError where
  /-- There are not three parts between points. -/
  | format (text : String)
  /-- A part is no numeral for a 32-bit word. -/
  | component (part : String) (text : String)
  deriving DecidableEq, Repr

/-- The wording of a fault in a version's text. -/
def VersionError.message : VersionError → String
  | format text => "Invalid version format: " ++ text
  | component part text => "Invalid version component `" ++ part ++ "` in " ++ text

namespace Version

/-- The oldest version that is accepted when nothing else is asked for. -/
def minimumSupported : Version := ⟨1, 1, 0⟩

/-- The version that is written when nothing else is asked for. -/
def current : Version := ⟨1, 9, 0⟩

/-- Versions are compared part by part, the major one first. -/
instance : Ord Version where
  compare v w :=
    (compare v.major w.major).then ((compare v.minor w.minor).then (compare v.patch w.patch))

/-- A version is older when it comes before in that order. -/
instance : LT Version := ltOfOrd

/-- The components as signed numbers, bit for bit. -/
def toArray (v : Version) : List Int32 :=
  [v.major.toInt32, v.minor.toInt32, v.patch.toInt32]

/-- The text of a version. -/
def text (v : Version) : String :=
  Text.showNat v.major.toNat ++ "." ++ Text.showNat v.minor.toNat ++ "."
    ++ Text.showNat v.patch.toNat

/-- The version that a text shows. -/
def ofText (text : String) : Except VersionError Version :=
  match Text.splitOn '.' (Text.trim text.toList) with
  | [major, minor, patch] => do
    let component (part : List Char) : Except VersionError UInt32 :=
      match Text.word? part with
      | some n => .ok n
      | none => .error (.component (String.ofList part) text)
    return ⟨← component major, ← component minor, ← component patch⟩
  | _ => .error (.format text)

end Version

end ClassMetadata
