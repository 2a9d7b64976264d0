import ClassMetadata.Wire.Basic
import ClassMetadata.Wire.Varint

/-!
# Writing a message

A `Write` is one thing to put at the end of a message: a bare number or key, or a whole field. The
field of a nested message holds the writes that make up its body. `Write.bytes` gives the bytes of a
write, and a message is the bytes of its writes one after the other.
-/

namespace ClassMetadata

/-- One thing to write. -/
inductive Write where
  /-- A number by itself. -/
  | varint (value : UInt64)
  /-- A key by itself. -/
  | key (key : Key)
  /-- A field with a number. -/
  | uint (field : UInt32) (value : UInt64)
  /-- A length-delimited field. -/
  | block (field : UInt32) (bytes : List UInt8)
  /-- A field of four bytes. -/
  | fixed32 (field : UInt32) (value : UInt32)
  /-- A field of eight bytes. -/
  | fixed64 (field : UInt32) (value : UInt64)
  /-- A length-delimited field whose bytes are a message. -/
  | message (field : UInt32) (body : List Write)

namespace Write

/-- The low `count` bytes of a number, least significant first. -/
def littleEndian (count : Nat) (n : Nat) : List UInt8 :=
  match count with
  | 0 => []
  | count + 1 => UInt8.ofNat (n % 256) :: littleEndian count (n / 256)

/-- The bytes of a key. -/
def keyBytes (key : Key) : List UInt8 := Varint.encode key.toNat

/-- The bytes of a length-delimited field. -/
def blockBytes (field : UInt32) (bytes : List UInt8) : List UInt8 :=
  keyBytes ⟨field, .lengthDelimited⟩ ++ Varint.encode bytes.length ++ bytes

mutual

/-- The bytes of a write. -/
def bytes : Write → List UInt8
  | varint value => Varint.encode value.toNat
  | key k => keyBytes k
  | uint field value => keyBytes ⟨field, .varint⟩ ++ Varint.encode value.toNat
  | block field payload => blockBytes field payload
  | fixed32 field value => keyBytes ⟨field, .fixed32⟩ ++ littleEndian 4 value.toNat
  | fixed64 field value => keyBytes ⟨field, .fixed64⟩ ++ littleEndian 8 value.toNat
  | message field body => blockBytes field (bytesOf body)

/-- The bytes of writes, one after the other. -/
def bytesOf : List Write → List UInt8
  | [] => []
  | w :: ws => w.bytes ++ bytesOf ws

end

end Write

end ClassMetadata
