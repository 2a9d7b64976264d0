import ClassMetadata.Text.LetterCase.Table

/-!
# Letter case

Which characters count as lower case, and what upper case a character has. The upper case of one
character may be several characters, as for `ß`; a character without any is its own upper case.

* `capitalize` puts the first character of a text into upper case and keeps the rest.
-/

namespace ClassMetadata.Text

/-- The character has the `Lowercase` property. -/
def isLowercase (c : Char) : Bool :=
  LetterCase.lowercase.any (·.contains c.toNat)

/-- The upper case of a character. -/
def upperCase (c : Char) : List Char :=
  match LetterCase.expansions.lookup c with
  | some chars => chars
  | none =>
    match LetterCase.shifts.find? (·.1.contains c.toNat) with
    | some (_, shift) => [Char.ofNat (c.toNat + shift).toNat]
    | none => [c]

/-- The text with its first character in upper case. -/
def capitalize : List Char → List Char
  | [] => []
  | c :: cs => upperCase c ++ cs

end ClassMetadata.Text
