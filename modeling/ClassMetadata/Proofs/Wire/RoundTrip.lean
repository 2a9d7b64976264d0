import Mathlib.Algebra.Group.Nat.Even
import ClassMetadata.Proofs.Wire.Fields
import ClassMetadata.Wire.Write

/-!
# What is written is read back

The fields of a message that was written are the fields that were put into it.

* `Reader.Finds` says that a reader takes exactly some bytes and makes a value of them, wherever
  they stand and whatever follows. There is one lemma for each part of a field.
* `Write.Shows` relates a field that is written to the field that is read, and `fields_bytesOf`
  carries this through a message.
-/

namespace ClassMetadata

namespace Reader

variable {α β : Type}

/-- The reader takes these bytes and makes this value of them, whatever follows. -/
def Finds (r : Reader α) (bytes : List UInt8) (a : α) : Prop :=
  ∀ position rest, r ⟨position, bytes ++ rest⟩ = .ok a ⟨position + bytes.length, rest⟩

/-- A value is found in no bytes. -/
lemma Finds.pure (a : α) : Finds (Pure.pure a : Reader α) [] a := fun _ _ => rfl

/-- Two steps take the bytes of the one and then those of the other. -/
lemma Finds.bind {r : Reader α} {f : α → Reader β} {p q : List UInt8} {a : α} {b : β}
    (hr : r.Finds p a) (hf : (f a).Finds q b) : (r >>= f).Finds (p ++ q) b := by
  intro position rest
  rw [bind_apply, List.append_assoc, hr]
  show f a _ = _
  rw [hf, List.length_append, Nat.add_assoc]

/-- A reader that asks for its cursor finds what it finds at any. -/
lemma Finds.of_get {f : Cursor → Reader β} {p : List UInt8} {b : β} (hf : ∀ c, (f c).Finds p b) :
    (get >>= f).Finds p b := fun position rest => hf _ position rest

/-- The last group of a number stands for itself. -/
lemma group_low {n : Nat} (h : n < 128) :
    Varint.group (UInt8.ofNat n) = n ∧ Varint.continues (UInt8.ofNat n) = false := by
  have byte : (UInt8.ofNat n).toNat = n := by
    rw [UInt8.toNat_ofNat']
    omega
  simp only [Varint.group, Varint.continues, byte, decide_eq_false_iff_not]
  omega

/-- Every other group has the high bit of its byte set. -/
lemma group_high (n : Nat) : Varint.group (UInt8.ofNat (n % 128 + 128)) = n % 128 ∧
    Varint.continues (UInt8.ofNat (n % 128 + 128)) = true := by
  have byte : (UInt8.ofNat (n % 128 + 128)).toNat = n % 128 + 128 := by
    rw [UInt8.toNat_ofNat']
    omega
  simp only [Varint.group, Varint.continues, byte, decide_eq_true_eq]
  omega

/-- A group has room where it is written. -/
lemma not_exceeds {n index : Nat} {byte : UInt8} (hindex : index ≤ 9)
    (hn : n * 128 ^ index < 2 ^ 64) (hbyte : Varint.group byte ≤ n) :
    Varint.exceeds index byte = false := by
  simp only [Varint.exceeds, Bool.or_eq_false_iff, Bool.and_eq_false_iff, decide_eq_false_iff_not,
    beq_eq_false_iff_ne]
  refine ⟨by omega, ?_⟩
  by_cases h : index = 9
  · -- nine groups have 63 bits, which leaves one for the tenth
    subst h
    right
    omega
  · exact .inl h

/-- A number is read back from its groups. -/
lemma groups_encode {n index : Nat} (start : Nat) (hindex : index ≤ 9)
    (hn : n * 128 ^ index < 2 ^ 64) (rest : List UInt8) :
    groups start index (Varint.encode n ++ rest) =
      .ok n ⟨start + index + (Varint.encode n).length, rest⟩ := by
  induction n using Nat.strongRecOn generalizing index with
  | ind n ih =>
    rw [Varint.encode]
    split
    · rename_i small
      obtain ⟨hgroup, hlast⟩ := group_low small
      rw [List.singleton_append, groups, not_exceeds hindex hn (Nat.le_of_eq hgroup), hlast, hgroup]
      rfl
    · rename_i large
      obtain ⟨hgroup, hmore⟩ := group_high n
      -- a tenth group that is not the last would stand for at least `128 * 128 ^ 9`
      have room : index < 9 := by
        by_contra h
        have : index = 9 := by omega
        subst this
        omega
      have high : n / 128 * 128 ^ (index + 1) < 2 ^ 64 := by
        calc n / 128 * 128 ^ (index + 1) = n / 128 * 128 * 128 ^ index := by
              rw [Nat.pow_succ, Nat.mul_assoc, Nat.mul_comm 128]
          _ ≤ n * 128 ^ index := Nat.mul_le_mul_right _ (Nat.div_mul_le_self n 128)
          _ < 2 ^ 64 := hn
      have low : Varint.group (UInt8.ofNat (n % 128 + 128)) ≤ n := by
        rw [hgroup]
        exact Nat.mod_le n 128
      rw [List.cons_append, groups, not_exceeds hindex hn low, hmore,
        ih (n / 128) (by omega) room high, hgroup]
      show EStateM.Result.ok (n % 128 + 128 * (n / 128)) _ = _
      rw [Nat.mod_add_div, List.length_cons]
      congr 2
      omega

/-- A number is found in its bytes. -/
lemma varint_finds (value : UInt64) : varint.Finds (Varint.encode value.toNat) value := by
  intro position rest
  have fits : value.toNat * 128 ^ 0 < 2 ^ 64 := by
    have := value.toNat_lt
    omega
  rw [varint, groups_encode position (by omega) fits]
  show EStateM.Result.ok (UInt64.ofNat value.toNat) _ = _
  rw [UInt64.ofNat_toNat]
  rfl

/-- A key is read back, unless its field number is zero. -/
lemma key_finds {key : Key} (h : key.field ≠ 0) : Reader.key.Finds (Write.keyBytes key) key := by
  obtain ⟨field, type⟩ := key
  have number := field.toNat_lt
  have code := type.code_lt
  have fits : (UInt64.ofNat (field.toNat * 8 + type.code)).toNat = field.toNat * 8 + type.code := by
    rw [UInt64.toNat_ofNat']
    omega
  have nonzero : field.toNat ≠ 0 := fun e => h (UInt32.toNat_inj.1 e)
  have size : UInt32.size = 2 ^ 32 := rfl
  have low : (field.toNat * 8 + type.code) % 8 = type.code := by omega
  have high : (field.toNat * 8 + type.code) / 8 = field.toNat := by omega
  have value := varint_finds (UInt64.ofNat (field.toNat * 8 + type.code))
  rw [fits] at value
  refine Finds.of_get fun c => ?_
  -- the checks that follow the number take no bytes
  rw [← List.append_nil (Write.keyBytes _)]
  refine value.bind ?_
  rw [fits, low, high, WireType.ofCode?_code]
  show Finds (if _ then _ else _) _ _
  rw [if_neg (by omega), if_neg nonzero, UInt32.ofNat_toNat]
  exact Finds.pure _

/-- As many bytes are found as are asked for. -/
lemma take_finds (bytes : List UInt8) (fault : Nat → WireError) :
    (take bytes.length fault).Finds bytes bytes := by
  intro position rest
  simp [take]

/-- A block is found in its length and its bytes. -/
lemma block_finds {bytes : List UInt8} (h : bytes.length < 2 ^ 64) :
    block.Finds (Varint.encode bytes.length ++ bytes) bytes := by
  have fits : (UInt64.ofNat bytes.length).toNat = bytes.length := by
    rw [UInt64.toNat_ofNat']
    omega
  have length := varint_finds (UInt64.ofNat bytes.length)
  rw [fits] at length
  refine Finds.of_get fun c => length.bind ?_
  rw [fits]
  exact take_finds bytes _

end Reader

namespace Payload

/-- The wire type of the payload. -/
def type : Payload → WireType
  | varint _ => .varint
  | fixed64 _ => .fixed64
  | block _ => .lengthDelimited
  | fixed32 _ => .fixed32

/-- The bytes of the payload. -/
def bytes : Payload → List UInt8
  | varint value => Varint.encode value.toNat
  | fixed64 payload | fixed32 payload => payload
  | block payload => Varint.encode payload.length ++ payload

/-- The payload has as many bytes as its layout allows. -/
def Fits : Payload → Prop
  | varint _ => True
  | fixed64 payload => payload.length = 8
  | block payload => payload.length < 2 ^ 64
  | fixed32 payload => payload.length = 4

end Payload

/-- A payload is found in its bytes. -/
lemma Reader.payload_finds {p : Payload} (h : p.Fits) : (payload p.type).Finds p.bytes p := by
  cases p with
  | varint value =>
    rw [← List.append_nil (Payload.bytes _)]
    exact (varint_finds value).bind (.pure _)
  | fixed64 payload =>
    rw [← List.append_nil (Payload.bytes _)]
    have taken := take_finds payload .unexpectedEnd
    rw [h] at taken
    exact taken.bind (.pure _)
  | block payload =>
    rw [← List.append_nil (Payload.bytes _)]
    exact (block_finds h).bind (.pure _)
  | fixed32 payload =>
    rw [← List.append_nil (Payload.bytes _)]
    have taken := take_finds payload .unexpectedEnd
    rw [h] at taken
    exact taken.bind (.pure _)

namespace Write

/-- The key and the payload of a write, if it is a whole field. -/
def content? : Write → Option (Key × Payload)
  | varint _ | key _ => none
  | uint field value => some (⟨field, .varint⟩, .varint value)
  | block field bytes => some (⟨field, .lengthDelimited⟩, .block bytes)
  | fixed32 field value => some (⟨field, .fixed32⟩, .fixed32 (littleEndian 4 value.toNat))
  | fixed64 field value => some (⟨field, .fixed64⟩, .fixed64 (littleEndian 8 value.toNat))
  | message field body => some (⟨field, .lengthDelimited⟩, .block (bytesOf body))

/-- The field that is read is the field that was written. -/
def Shows (w : Write) (f : Field) : Prop :=
  ∃ key offset payload, w.content? = some (key, payload) ∧ f = .whole key offset payload

/-- The write is a whole field that can be read back. -/
def Readable (w : Write) : Prop :=
  ∃ key payload, w.content? = some (key, payload) ∧ key.field ≠ 0 ∧ payload.Fits

/-- The bytes of a write are those of its key and its payload. -/
lemma bytes_of_content? {w : Write} {key : Key} {payload : Payload}
    (h : w.content? = some (key, payload)) :
    w.bytes = keyBytes key ++ payload.bytes ∧ payload.type = key.type := by
  cases w with
  | varint _ | key _ => cases h
  | block field payload | message field body =>
    cases h
    rw [bytes, blockBytes, List.append_assoc]
    exact ⟨rfl, rfl⟩
  | uint field value | fixed32 field value | fixed64 field value =>
    cases h
    rw [bytes]
    exact ⟨rfl, rfl⟩

/-- The fields of a written message are the fields that were written, one by one. -/
theorem fields_bytesOf {ws : List Write} (h : ∀ w ∈ ws, w.Readable) (position : Nat) :
    List.Forall₂ Shows ws (Cursor.fields ⟨position, bytesOf ws⟩) := by
  induction ws generalizing position with
  | nil =>
    rw [Cursor.fields_of_not_hasMore (by simp [Cursor.hasMore, bytesOf])]
    exact .nil
  | cons w ws ih =>
    obtain ⟨key, payload, hcontent, hfield, hfits⟩ := h w (List.mem_cons_self)
    obtain ⟨hbytes, htype⟩ := bytes_of_content? hcontent
    have hpayload := Reader.payload_finds hfits (position + (keyBytes key).length) (bytesOf ws)
    rw [htype] at hpayload
    rw [bytesOf, hbytes, List.append_assoc,
      Cursor.fields_of_payload (Reader.key_finds hfield position _) hpayload]
    exact .cons ⟨key, _, payload, hcontent, rfl⟩ (ih (fun w hw => h w (List.mem_cons_of_mem _ hw)) _)

/-- A write takes no more bytes than the message that it is part of. -/
lemma length_le_of_mem {w : Write} {ws : List Write} (h : w ∈ ws) :
    w.bytes.length ≤ (bytesOf ws).length := by
  induction ws with
  | nil => cases h
  | cons w' ws ih =>
    rw [bytesOf, List.length_append]
    rcases List.mem_cons.1 h with rfl | h
    · omega
    · have := ih h
      omega

end Write

end ClassMetadata
