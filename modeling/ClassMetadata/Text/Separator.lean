/-!
# Separators in text

Two ways to take a text apart at a character.

* `splitOn` cuts at every occurrence: `n` separators make `n + 1` parts, which may be empty.
* `breakAt` cuts in front of the first occurrence, if there is one.
-/

namespace ClassMetadata.Text

/-- The parts of a text between the occurrences of `separator`. -/
def splitOn (separator : Char) : List Char → List (List Char)
  | [] => [[]]
  | c :: cs =>
    if c = separator then [] :: splitOn separator cs
    else
      match splitOn separator cs with
      | [] => [[c]]
      | part :: parts => (c :: part) :: parts

/-- The text before the first `separator`, and the text from that separator on. -/
def breakAt (separator : Char) : List Char → Option (List Char × List Char)
  | [] => none
  | c :: cs =>
    if c = separator then some ([], c :: cs)
    else (breakAt separator cs).map fun (before, after) => (c :: before, after)

end ClassMetadata.Text
