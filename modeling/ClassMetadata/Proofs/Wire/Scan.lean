import Mathlib.Data.List.Forall2
import ClassMetadata.Proofs.Wire.RoundTrip
import ClassMetadata.Wire.Call

/-!
# Going through a written message

A message is gone through by reading a key and making the call that its wire type asks for: numbers
and length-delimited payloads are read, the other payloads are passed over. This is repeated for as
long as there are bytes ahead (`Reader.scan`).

* `Write.Whole` are the writes that put whole fields into a message, at every depth.
* `Write.Recovers` relates such a write to what was found for it. Of a nested message the bytes are
  found, and they are gone through in turn.
* `Write.scans_bytesOf`: going through what was written finds what was written, field by field, and
  stops at the end.
-/

namespace ClassMetadata

/-- The call that takes a payload: what has no fixed size is read, the rest is passed over. -/
def WireType.call : WireType → ReadCall
  | varint => .varint
  | lengthDelimited => .block
  | fixed32 => .skip .fixed32
  | fixed64 => .skip .fixed64

/-- A field as it was found: its key, where its payload starts and stops, and what the call for it
made of the payload. -/
structure Found where
  key : Key
  start : Nat
  value : ReadValue
  stop : Nat
  deriving DecidableEq, Repr

/-- Calls only move forward. -/
lemma ReadCall.reader_forward : ∀ call : ReadCall, call.reader.Forward
  | varint => .bind Reader.varint_forward fun _ => .pure _
  | word => .bind Reader.word_forward fun _ => .pure _
  | key => .bind Reader.key_forward fun _ => .pure _
  | block => .bind Reader.block_forward fun _ => .pure _
  | skip type => .bind (Reader.skip_forward type) fun _ => .pure _

namespace Reader

/-- Goes through the fields ahead, by the wire types of their keys, until no bytes are left. -/
def scan : Reader (List Found) := fun c =>
  if c.hasMore then
    match _hkey : key c with
    | .error e c₁ => .error e c₁
    | .ok k c₁ =>
      match _hvalue : k.type.call.reader c₁ with
      | .error e c₂ => .error e c₂
      | .ok value c₂ =>
        match scan c₂ with
        | .error e c₃ => .error e c₃
        | .ok found c₃ => .ok (⟨k, c₁.position, value, c₂.position⟩ :: found) c₃
  else .ok [] c
termination_by c => c.ahead.length
decreasing_by
  have := key_advances _ _ _ _hkey
  have := Advances.of_forward (ReadCall.reader_forward _) _ _ _ _hvalue
  omega

/-- At the end a scan finds nothing. -/
lemma scan_of_not_hasMore {c : Cursor} (h : ¬ c.hasMore = true) : scan c = .ok [] c := by
  rw [scan, if_neg h]

/-- A key and its call find the first field; the others are gone through from there. -/
lemma scan_of_call {c c₁ c₂ c₃ : Cursor} {k : Key} {value : ReadValue} {found : List Found}
    (hkey : key c = .ok k c₁) (hcall : k.type.call.reader c₁ = .ok value c₂)
    (hrest : scan c₂ = .ok found c₃) :
    scan c = .ok (⟨k, c₁.position, value, c₂.position⟩ :: found) c₃ := by
  rw [scan, if_pos (Cursor.hasMore_of_key hkey)]
  split
  · rename_i h
    rw [hkey] at h
    cases h
  · rename_i h
    rw [hkey] at h
    cases h
    split
    · rename_i h
      rw [hcall] at h
      cases h
    · rename_i h
      rw [hcall] at h
      cases h
      rw [hrest]

end Reader

namespace Payload

/-- What the call for a payload finds. -/
def value : Payload → ReadValue
  | varint n => .varint n
  | block bytes => .block bytes
  | fixed32 _ | fixed64 _ => .skipped

/-- Any payload can be passed over. -/
lemma skip_finds {p : Payload} (h : p.Fits) : (Reader.skip p.type).Finds p.bytes () := by
  rw [← List.append_nil p.bytes]
  exact (Reader.payload_finds h).bind (.pure _)

/-- The call for a payload takes all its bytes and no others. -/
lemma call_finds {p : Payload} (h : p.Fits) : p.type.call.reader.Finds p.bytes p.value := by
  rw [← List.append_nil p.bytes]
  cases p with
  | varint n => exact (Reader.varint_finds n).bind (.pure _)
  | block bytes => exact (Reader.block_finds h).bind (.pure _)
  | fixed32 bytes | fixed64 bytes => exact (skip_finds h).bind (.pure _)

end Payload

/-- Going through these bytes finds these fields without a fault, and nothing is left. -/
def Scans (bytes : List UInt8) (found : List Found) : Prop :=
  ∃ last, Reader.scan (.ofBytes bytes) = .ok found last ∧
    last.hasMore = false ∧ last.position = bytes.length

namespace Write

/-- The write is a whole field with a number from one on, and if the field is a nested message, the
writes in its body are such fields again. -/
inductive Whole : Write → Prop where
  | uint {field : UInt32} {value : UInt64} : field ≠ 0 → Whole (.uint field value)
  | block {field : UInt32} {bytes : List UInt8} : field ≠ 0 → Whole (.block field bytes)
  | fixed32 {field : UInt32} {value : UInt32} : field ≠ 0 → Whole (.fixed32 field value)
  | fixed64 {field : UInt32} {value : UInt64} : field ≠ 0 → Whole (.fixed64 field value)
  | message {field : UInt32} {body : List Write} :
    field ≠ 0 → (∀ w ∈ body, Whole w) → Whole (.message field body)

/-- What was found for a write is what was written: its number and its wire type, the number or the
bytes that it carries, and for a payload of fixed size as many bytes passed over. The bytes of a
nested message can be gone through in turn, and what is found there is what its body wrote. -/
inductive Recovers : Write → Found → Prop where
  | uint {field : UInt32} {value : UInt64} {start stop : Nat} :
    Recovers (.uint field value) ⟨⟨field, .varint⟩, start, .varint value, stop⟩
  | block {field : UInt32} {bytes : List UInt8} {start stop : Nat} :
    Recovers (.block field bytes) ⟨⟨field, .lengthDelimited⟩, start, .block bytes, stop⟩
  | fixed32 {field : UInt32} {value : UInt32} {start : Nat} :
    Recovers (.fixed32 field value) ⟨⟨field, .fixed32⟩, start, .skipped, start + 4⟩
  | fixed64 {field : UInt32} {value : UInt64} {start : Nat} :
    Recovers (.fixed64 field value) ⟨⟨field, .fixed64⟩, start, .skipped, start + 8⟩
  | message {field : UInt32} {body : List Write} {start stop : Nat} {found : List Found} :
    Scans (bytesOf body) found → List.Forall₂ Recovers body found →
    Recovers (.message field body) ⟨⟨field, .lengthDelimited⟩, start, .block (bytesOf body), stop⟩

/-- A number is written in as many bytes as are asked for. -/
lemma length_littleEndian (count n : Nat) : (littleEndian count n).length = count := by
  induction count generalizing n with
  | zero => rfl
  | succ count ih => rw [littleEndian, List.length_cons, ih]

/-- The write can be read back, and what is found for it, wherever it stands, is what was
written. -/
def ReadBack (w : Write) : Prop :=
  ∃ key payload, w.content? = some (key, payload) ∧ key.field ≠ 0 ∧ payload.Fits ∧
    ∀ start, Recovers w ⟨key, start, payload.value, start + payload.bytes.length⟩

/-- Going through writes that can each be read back finds them one by one, up to where they stop. -/
lemma scan_bytesOf {ws : List Write} (h : ∀ w ∈ ws, w.ReadBack) (position : Nat) :
    ∃ found, Reader.scan ⟨position, bytesOf ws⟩ = .ok found ⟨position + (bytesOf ws).length, []⟩ ∧
      List.Forall₂ Recovers ws found := by
  induction ws generalizing position with
  | nil => exact ⟨[], Reader.scan_of_not_hasMore (by simp [Cursor.hasMore, bytesOf]), .nil⟩
  | cons w ws ih =>
    obtain ⟨key, payload, hcontent, hfield, hfits, recovers⟩ := h w List.mem_cons_self
    obtain ⟨hbytes, htype⟩ := bytes_of_content? hcontent
    obtain ⟨found, hrest, each⟩ :=
      ih (fun w hw => h w (List.mem_cons_of_mem _ hw)) (position + w.bytes.length)
    have hkey := Reader.key_finds hfield position (payload.bytes ++ bytesOf ws)
    have hcall := payload.call_finds hfits (position + (keyBytes key).length) (bytesOf ws)
    rw [htype] at hcall
    rw [hbytes, List.length_append, ← Nat.add_assoc] at hrest
    refine ⟨_, ?_, .cons (recovers (position + (keyBytes key).length)) each⟩
    rw [bytesOf, hbytes, List.append_assoc, Reader.scan_of_call hkey hcall hrest]
    simp only [List.length_append, Nat.add_assoc]

/-- Writes that can each be read back are found whole in a message of their own. -/
lemma scans_of_readBack {ws : List Write} (h : ∀ w ∈ ws, w.ReadBack) :
    ∃ found, Scans (bytesOf ws) found ∧ List.Forall₂ Recovers ws found := by
  obtain ⟨found, hscan, each⟩ := scan_bytesOf h 0
  exact ⟨found, ⟨_, hscan, rfl, Nat.zero_add _⟩, each⟩

/-- Whole fields can be read back, to the bottom of what they nest. -/
lemma Whole.readBack {w : Write} (h : w.Whole) (size : w.bytes.length < 2 ^ 64) : w.ReadBack := by
  induction h with
  | uint hfield => exact ⟨_, _, rfl, hfield, trivial, fun _ => .uint⟩
  | @block field bytes hfield =>
    refine ⟨_, _, rfl, hfield, ?_, fun _ => .block⟩
    rw [Write.bytes, blockBytes, List.length_append] at size
    exact Nat.lt_of_le_of_lt (Nat.le_add_left _ _) size
  | @fixed32 field value hfield =>
    have four := length_littleEndian 4 value.toNat
    refine ⟨_, _, rfl, hfield, four, fun start => ?_⟩
    rw [Payload.bytes, four]
    exact .fixed32
  | @fixed64 field value hfield =>
    have eight := length_littleEndian 8 value.toNat
    refine ⟨_, _, rfl, hfield, eight, fun start => ?_⟩
    rw [Payload.bytes, eight]
    exact .fixed64
  | @message field body hfield _ ih =>
    rw [bytes, blockBytes, List.length_append] at size
    have fits : (bytesOf body).length < 2 ^ 64 := Nat.lt_of_le_of_lt (Nat.le_add_left _ _) size
    obtain ⟨found, scans, each⟩ := scans_of_readBack fun w hw =>
      ih w hw (Nat.lt_of_le_of_lt (length_le_of_mem hw) fits)
    exact ⟨_, _, rfl, hfield, fits, fun _ => .message scans each⟩

/-- Going through a message of whole fields finds without a fault what was written, in order and to the
bottom of what it nests, and stops at its end. Messages that fit into memory are shorter than a number
of 64 bits can tell. -/
theorem scans_bytesOf {ws : List Write} (whole : ∀ w ∈ ws, w.Whole)
    (size : (bytesOf ws).length < 2 ^ 64) :
    ∃ found, Scans (bytesOf ws) found ∧ List.Forall₂ Recovers ws found :=
  scans_of_readBack fun w hw =>
    (whole w hw).readBack (Nat.lt_of_le_of_lt (length_le_of_mem hw) size)

/-- A message nested in a message, with a field of each kind around and inside. -/
def nestedFields : List Write :=
  [.uint 1 300, .message 2 [.fixed32 3 7, .message 4 [.block 4294967295 [1, 2]]], .fixed64 6 0]

/-- Nested fields of every layout are found again. -/
theorem scans_bytesOf_nestedFields : (∀ w ∈ nestedFields, w.Whole) ∧
    (bytesOf nestedFields).length < 2 ^ 64 ∧
    ∃ found, Scans (bytesOf nestedFields) found ∧ List.Forall₂ Recovers nestedFields found := by
  have inner : ∀ w ∈ [block 4294967295 [1, 2]], w.Whole :=
    List.forall_mem_singleton.2 (.block (by decide))
  have middle : ∀ w ∈ [fixed32 3 7, .message 4 [.block 4294967295 [1, 2]]], w.Whole :=
    List.forall_mem_cons.2 ⟨.fixed32 (by decide),
      List.forall_mem_singleton.2 (.message (by decide) inner)⟩
  have whole : ∀ w ∈ nestedFields, w.Whole :=
    List.forall_mem_cons.2 ⟨.uint (by decide), List.forall_mem_cons.2
      ⟨.message (by decide) middle, List.forall_mem_singleton.2 (.fixed64 (by decide))⟩⟩
  have size : (bytesOf nestedFields).length < 2 ^ 64 := by decide +kernel
  exact ⟨whole, size, scans_bytesOf whole size⟩

end Write

end ClassMetadata
