import ClassMetadata.Decoding.Error
import ClassMetadata.Packing.Bits
import ClassMetadata.Packing.Pieces

/-!
# Bytes packed into strings

A header holds the bytes of the declaration tree as characters of a few strings. There are two
schemes.

* Bytewise: a first character U+0000, and then one character for each byte.
* Septets: the bytes as one stream of bits, lowest bit first, in units of seven bits. A unit `u` is
  the character `(u + 1) mod 128`. A first character U+FFFF says nothing; it stands where a first
  unit would look like the mark of the other scheme.

The first character of the first string decides on the scheme. Where the strings are split plays no
other part.
-/

namespace ClassMetadata.Packing

/-- A way to pack bytes into characters. -/
inductive Scheme where
  | bytewise | septets
  deriving DecidableEq, Repr

/-- The first character of bytewise data. -/
def bytewiseMark : Char := '\x00'

/-- The first character of septets, where one is needed. -/
def septetMark : Char := '\uffff'

/-- The longest string that packing makes. -/
def maxPieceLength : Nat := 32767

/-! ## Septets -/

/-- The character for a unit of seven bits. -/
def septetChar (unit : Nat) : Char := Char.ofNat ((unit + 1) % 128)

/-- The unit of seven bits that a character stands for. -/
def septet (c : Char) : Nat := (c.toNat + 127) % 128

/-- A stream of bits on its way into units of another width: the units that are complete, and the bits
behind them, which are the low `count` bits of a word. -/
structure Regrouping where
  units : Array UInt8
  word : UInt32
  count : Nat

namespace Regrouping

/-- No bits at all. -/
def start : Regrouping := ⟨#[], 0, 0⟩

/-- Puts a unit of `width` bits behind the bits that are there. -/
def put (r : Regrouping) (width : Nat) (unit : UInt32) : Regrouping :=
  { r with word := r.word ||| unit <<< UInt32.ofNat r.count, count := r.count + width }

/-- Makes a unit of the first `width` bits, which the mask cuts out. -/
def take (r : Regrouping) (width : Nat) (mask : UInt32) : Regrouping :=
  ⟨r.units.push (r.word &&& mask).toUInt8, r.word >>> UInt32.ofNat width, r.count - width⟩

/-- Puts seven bits behind the others, and makes a byte if there are enough for one. -/
def putSeptet (r : Regrouping) (unit : UInt32) : Regrouping :=
  let r := r.put 7 unit
  if 8 ≤ r.count then r.take 8 0xff else r

/-- Makes units of seven bits as long as there are enough for one. -/
def takeSeptets (r : Regrouping) : Regrouping :=
  if 7 ≤ r.count then (r.take 7 0x7f).takeSeptets else r
termination_by r.count
decreasing_by
  simp only [take]
  omega

/-- Puts eight bits behind the others, and makes all the units that it can. -/
def putByte (r : Regrouping) (byte : UInt8) : Regrouping := (r.put 8 byte.toUInt32).takeSeptets

/-- The units, with one more for bits that do not fill one. -/
def flush (r : Regrouping) : Array UInt8 :=
  if 0 < r.count then r.units.push (r.word &&& 0x7f).toUInt8 else r.units

end Regrouping

/-- The units of bytes; the last unit is filled up with zero bits. -/
def septetsOfBytes (bytes : List UInt8) : List Nat :=
  (bytes.foldl Regrouping.putByte .start).flush.toList.map UInt8.toNat

/-- The bytes of units; bits that do not fill a byte are dropped. -/
def bytesOfSeptets (units : List Nat) : List UInt8 :=
  let r := units.foldl (fun r unit => r.putSeptet (.ofNat unit)) Regrouping.start
  r.units.toList.take (7 * units.length / 8)

/-! ## Packing -/

/-- The characters of packed bytes. -/
def encodeChars : Scheme → List UInt8 → List Char
  | .bytewise, bytes => bytewiseMark :: bytes.map fun b => Char.ofNat b.toNat
  | .septets, bytes =>
    let chars := (septetsOfBytes bytes).map septetChar
    if chars.head? = some bytewiseMark then septetMark :: chars else chars

/-- Packs bytes into strings. -/
def encode (scheme : Scheme) (bytes : List UInt8) : List String :=
  (pieces maxPieceLength (encodeChars scheme bytes)).map String.ofList

/-! ## Unpacking -/

/-- A character of packed data, with the string it stands in and its place there. -/
structure Located where
  index : Nat
  offset : Nat
  char : Char

/-- Every character of the strings, in order. -/
def locate (strings : List String) : List Located :=
  strings.zipIdx.flatMap fun (string, index) =>
    string.toList.zipIdx.map fun (char, offset) => ⟨index, offset, char⟩

/-- The character, if its number does not exceed the limit. -/
def Located.within (limit : Nat) (c : Located) : Except DecodeError Char :=
  if c.char.toNat ≤ limit then .ok c.char
  else .error (.malformedData c.index c.offset c.char limit)

/-- The scheme of packed data, and how many characters belong to its mark. -/
def scheme (strings : List String) : Scheme × Nat :=
  match strings.head?.bind (·.toList.head?) with
  | some c =>
    if c = bytewiseMark then (.bytewise, 1)
    else if c = septetMark then (.septets, 1)
    else (.septets, 0)
  | none => (.septets, 0)

/-- The largest number of a character after the mark. -/
def Scheme.limit : Scheme → Nat
  | bytewise => 0xff
  | septets => 0x7f

/-- The bytes of characters that keep to the limit of their scheme. -/
def Scheme.bytes : Scheme → List Char → List UInt8
  | bytewise, chars => chars.map fun c => UInt8.ofNat c.toNat
  | septets, chars => bytesOfSeptets (chars.map septet)

/-- Unpacks strings into bytes. -/
def decode (strings : List String) : Except DecodeError (List UInt8) := do
  let (scheme, mark) := scheme strings
  let chars ← ((locate strings).drop mark).mapM (Located.within scheme.limit)
  return scheme.bytes chars

end ClassMetadata.Packing
