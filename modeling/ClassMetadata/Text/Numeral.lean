/-!
# Numerals

Natural numbers as text, in decimal and in hexadecimal, and the decimal numerals that are accepted
for a 32-bit word.

* `decimal n` and `hexadecimal n` use the fewest digits that show `n`, and at least one.
* `word? cs` reads an optional `+` and then one or more ASCII digits, leading zeros allowed, whose
  value fits into 32 bits. No other sign, separator or kind of digit is accepted.
-/

namespace ClassMetadata.Text

/-- The digit character of a number below sixteen. -/
def digitChar (n : Nat) : Char :=
  if n < 10 then Char.ofNat ('0'.toNat + n) else Char.ofNat ('a'.toNat + (n - 10))

/-- The decimal digits of a number, most significant first. -/
def decimal (n : Nat) : List Char :=
  if n < 10 then [digitChar n] else decimal (n / 10) ++ [digitChar (n % 10)]

/-- The hexadecimal digits of a number, most significant first, in lower case. -/
def hexadecimal (n : Nat) : List Char :=
  if n < 16 then [digitChar n] else hexadecimal (n / 16) ++ [digitChar (n % 16)]

/-- A code point as charts write it: `U+` and at least four hexadecimal digits in upper case. -/
def codePoint (c : Char) : List Char :=
  let digits := (hexadecimal c.toNat).map Char.toUpper
  ['U', '+'] ++ List.replicate (4 - digits.length) '0' ++ digits

/-- A number in decimal, as text. -/
def showNat (n : Nat) : String :=
  String.ofList (decimal n)

/-- An integer in decimal, as text: a minus sign before the digits of a negative one. -/
def showInt (n : Int) : String :=
  if n < 0 then "-" ++ showNat n.natAbs else showNat n.natAbs

/-- The value of an ASCII decimal digit. -/
def digit? (c : Char) : Option Nat :=
  if '0' ≤ c ∧ c ≤ '9' then some (c.toNat - '0'.toNat) else none

/-- The number that a run of decimal digits shows after the digits of `value`. -/
def digits? (value : Nat) : List Char → Option Nat
  | [] => some value
  | c :: cs =>
    match digit? c with
    | some d => digits? (10 * value + d) cs
    | none => none

/-- The number that a text of one or more decimal digits shows. -/
def natural? : List Char → Option Nat
  | [] => none
  | cs => digits? 0 cs

/-- The text without a plus sign at its start. -/
def dropPlus : List Char → List Char
  | '+' :: cs => cs
  | cs => cs

/-- The 32-bit word that a numeral shows. -/
def word? (cs : List Char) : Option UInt32 :=
  match natural? (dropPlus cs) with
  | some n => if n < UInt32.size then some (UInt32.ofNat n) else none
  | none => none

end ClassMetadata.Text
