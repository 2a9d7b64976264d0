/-!
# Blank characters

The characters of Unicode's `White_Space` property, and trimming: `trim` takes them away at both
ends of a text and nowhere else.
-/

namespace ClassMetadata.Text

/-- The characters of the `White_Space` property. -/
def blanks : List Char :=
  ['\t', '\n', '\x0b', '\x0c', '\r', ' ', '\u0085', '\u00a0', '\u1680',
   '\u2000', '\u2001', '\u2002', '\u2003', '\u2004', '\u2005', '\u2006', '\u2007', '\u2008',
   '\u2009', '\u200a', '\u2028', '\u2029', '\u202f', '\u205f', '\u3000']

/-- The character is blank. -/
def isBlank (c : Char) : Bool := blanks.contains c

/-- The text without the blanks that it starts with. -/
def trimStart (cs : List Char) : List Char := cs.dropWhile isBlank

/-- The text without the blanks that it ends with. -/
def trimEnd (cs : List Char) : List Char := (trimStart cs.reverse).reverse

/-- The text without the blanks at either end. -/
def trim (cs : List Char) : List Char := trimEnd (trimStart cs)

end ClassMetadata.Text
