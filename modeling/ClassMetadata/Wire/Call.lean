import ClassMetadata.Wire.Cursor

/-!
# Calls on a cursor

The ways to read at a cursor, as data, so that a sequence of them can be run and looked at. A call
that fails does not end the sequence: the next one starts where it stopped.
-/

namespace ClassMetadata

/-- One way to read at a cursor. -/
inductive ReadCall where
  | varint
  | word
  | key
  | block
  | skip (type : WireType)
  deriving DecidableEq, Repr

/-- What a call has found. -/
inductive ReadValue where
  | varint (value : UInt64)
  | word (value : UInt32)
  | key (key : Key)
  | block (bytes : List UInt8)
  | skipped
  deriving DecidableEq, Repr

/-- What a call came to, and the cursor after it. -/
structure ReadStep where
  outcome : Except WireError ReadValue
  cursor : Cursor

namespace ReadCall

/-- The reader that a call stands for. -/
def reader : ReadCall → Reader ReadValue
  | varint => do return .varint (← Reader.varint)
  | word => do return .word (← Reader.word)
  | key => do return .key (← Reader.key)
  | block => do return .block (← Reader.block)
  | skip type => do
    Reader.skip type
    return .skipped

/-- The call made at a cursor. -/
def run (call : ReadCall) (c : Cursor) : ReadStep :=
  match call.reader c with
  | .ok value c' => ⟨.ok value, c'⟩
  | .error e c' => ⟨.error e, c'⟩

/-- The calls made one after the other. -/
def runAll : List ReadCall → Cursor → List ReadStep
  | [], _ => []
  | call :: calls, c =>
    let step := call.run c
    step :: runAll calls step.cursor

end ReadCall

end ClassMetadata
