import ClassMetadata.Wire.Basic
import ClassMetadata.Wire.Varint

/-!
# Reading a message from its start

A `Cursor` is a place in a message: how many bytes lie behind it, and those that lie ahead. A
`Reader` moves a cursor forward. When it fails, the cursor stays where the failure was noticed and
may be used again, so every reader says both what it found and where it stopped.

* `Reader.payload` reads the payload of any wire type; `Reader.skip` is the same and forgets it.
* Whatever a reader does, the bytes ahead become a suffix of what they were and the position counts
  the difference.
-/

namespace ClassMetadata

/-- A place in a message. -/
structure Cursor where
  position : Nat
  ahead : List UInt8
  deriving DecidableEq, Repr

namespace Cursor

/-- The start of a message. -/
def ofBytes (bytes : List UInt8) : Cursor := ⟨0, bytes⟩

/-- The number of bytes ahead. -/
def remaining (c : Cursor) : Nat := c.ahead.length

/-- There are bytes ahead. -/
def hasMore (c : Cursor) : Bool := !c.ahead.isEmpty

end Cursor

/-- A payload, as its wire type lays it out. -/
inductive Payload where
  | varint (value : UInt64)
  | fixed64 (bytes : List UInt8)
  | block (bytes : List UInt8)
  | fixed32 (bytes : List UInt8)
  deriving DecidableEq, Repr

/-- A step over a message that finds a value or fails, and says in both cases where it stopped. -/
abbrev Reader := EStateM WireError Cursor

namespace Reader

/-- The number in the groups ahead, of which `index` were read before; `start` is where the number
began. -/
def groups (start index : Nat) : List UInt8 → EStateM.Result WireError Cursor Nat
  | [] => .error (.unexpectedEnd (start + index)) ⟨start + index, []⟩
  | byte :: ahead =>
    if Varint.exceeds index byte then
      .error (.varintOverflow start) ⟨start + index + 1, ahead⟩
    else if Varint.continues byte then
      match groups start (index + 1) ahead with
      | .ok high c => .ok (Varint.group byte + 128 * high) c
      | .error e c => .error e c
    else .ok (Varint.group byte) ⟨start + index + 1, ahead⟩

/-- The number at the cursor, of at most 64 bits. -/
def varint : Reader UInt64 := fun c =>
  match groups c.position 0 c.ahead with
  | .ok n c' => .ok (UInt64.ofNat n) c'
  | .error e c' => .error e c'

/-- The number at the cursor, of at most 32 bits. -/
def word : Reader UInt32 := do
  let start := (← get).position
  let n ← varint
  if n.toNat < UInt32.size then return UInt32.ofNat n.toNat else throw (.varintOverflow start)

/-- The key at the cursor. -/
def key : Reader Key := do
  let start := (← get).position
  let n ← varint
  match WireType.ofCode? (n.toNat % 8) with
  | none => throw (.invalidWireType (n.toNat % 8) start)
  | some type =>
    if UInt32.size ≤ n.toNat / 8 then throw (.varintOverflow start)
    else if n.toNat / 8 = 0 then throw (.invalidFieldNumber start)
    else return ⟨UInt32.ofNat (n.toNat / 8), type⟩

/-- The next `count` bytes, if there are as many; else `fault`, from the same place. -/
def take (count : Nat) (fault : Nat → WireError) : Reader (List UInt8) := fun c =>
  let bytes := c.ahead.take count
  if bytes.length = count then .ok bytes ⟨c.position + count, c.ahead.drop count⟩
  else .error (fault c.position) c

/-- The length at the cursor and as many bytes. -/
def block : Reader (List UInt8) := do
  let start := (← get).position
  let length ← varint
  take length.toNat fun _ => .lengthOverflow length start

/-- The payload at the cursor, of a given layout. -/
def payload : WireType → Reader Payload
  | .varint => do return .varint (← varint)
  | .fixed64 => do return .fixed64 (← take 8 .unexpectedEnd)
  | .lengthDelimited => do return .block (← block)
  | .fixed32 => do return .fixed32 (← take 4 .unexpectedEnd)

/-- Passes over a payload of a given layout. -/
def skip (type : WireType) : Reader Unit := do
  discard (payload type)

end Reader

end ClassMetadata
