import ClassMetadata.Wire.Progress

/-!
# The fields of a message

`Cursor.fields` lists what is ahead field by field, up to the first fault. A fault is part of the
list, in its place, so whoever goes through the fields in order meets it exactly when it is due: a
field that cannot be used for another reason is found before a fault in its payload or behind it.

* A length-delimited field takes two bytes more than its payload, at least; any other takes one, at
  least. So the list weighs no more than the bytes it was read from (`Cursor.weight_fields_le`).
-/

namespace ClassMetadata

/-- What stands at one place in a message. -/
inductive Field where
  /-- A key and a payload, which begins at `offset`. -/
  | whole (key : Key) (offset : Nat) (payload : Payload)
  /-- A key whose payload cannot be read; nothing follows. -/
  | broken (key : Key) (error : WireError)
  /-- Bytes that are no key; nothing follows. -/
  | unreadable (error : WireError)
  deriving DecidableEq, Repr

namespace Field

/-- A number of bytes that the field takes at least. -/
def weight : Field → Nat
  | whole _ _ (.block bytes) => bytes.length + 2
  | _ => 1

/-- The weights of fields, taken together. -/
def totalWeight : List Field → Nat
  | [] => 0
  | f :: fields => f.weight + totalWeight fields

/-- No fields weigh nothing. -/
@[simp] theorem totalWeight_nil : totalWeight [] = 0 := rfl

/-- Fields weigh what the first one weighs and the others. -/
@[simp] theorem totalWeight_cons (f : Field) (fields : List Field) :
    totalWeight (f :: fields) = f.weight + totalWeight fields := rfl

end Field

/-- The payload of a field takes at least as many bytes as it weighs. -/
theorem Reader.payload_weight {key : Key} (offset : Nat) {c c' : Cursor} {p : Payload}
    (h : payload key.type c = .ok p c') :
    c'.ahead.length + (Field.whole key offset p).weight ≤ c.ahead.length + 1 := by
  have forward := Advances.of_forward (payload_forward key.type) _ _ _ h
  cases ht : key.type <;> rw [ht] at h <;> obtain ⟨a, c₁, h₁, h₂⟩ := bind_eq_ok h <;>
    cases h₂ <;> try (simp only [Field.weight]; omega)
  obtain ⟨_, c₂, h₂, h₃⟩ := bind_eq_ok h₁
  cases h₂
  obtain ⟨n, c₃, h₄, h₅⟩ := bind_eq_ok h₃
  have first := varint_advances _ _ _ h₄
  have second := take_advances _ _ _ _ _ h₅
  have bytes : a.length = n.toNat := by
    unfold take at h₅
    dsimp only at h₅
    split at h₅
    · cases h₅; assumption
    · cases h₅
  simp only [Field.weight]
  omega

namespace Cursor

/-- The fields ahead, up to the end of the message or the first fault. -/
def fields (c : Cursor) : List Field :=
  if c.hasMore then
    match _hkey : Reader.key c with
    | .error e _ => [.unreadable e]
    | .ok key c₁ =>
      match _hpayload : Reader.payload key.type c₁ with
      | .error e _ => [.broken key e]
      | .ok payload c₂ => .whole key c₁.position payload :: fields c₂
  else []
termination_by c.ahead.length
decreasing_by
  have := Reader.key_advances _ _ _ _hkey
  have := Reader.Advances.of_forward (Reader.payload_forward _) _ _ _ _hpayload
  omega

/-- The fields of a message weigh no more than its bytes. -/
theorem weight_fields_le (c : Cursor) : Field.totalWeight c.fields ≤ c.ahead.length := by
  fun_induction fields c with
  | case1 c more e c₁ hkey =>
    have : c.ahead ≠ [] := by simpa [hasMore] using more
    have := List.length_pos_iff.2 this
    simp only [Field.totalWeight_cons, Field.totalWeight_nil, Field.weight]
    omega
  | case2 c more key c₁ hkey e c₂ hpayload =>
    have := Reader.key_advances _ _ _ hkey
    simp only [Field.totalWeight_cons, Field.totalWeight_nil, Field.weight]
    omega
  | case3 c more key c₁ hkey payload c₂ hpayload ih =>
    have := Reader.key_advances _ _ _ hkey
    have := Reader.payload_weight c₁.position hpayload
    rw [Field.totalWeight_cons]
    omega
  | case4 c more => simp

end Cursor

/-- The fields of a message. -/
def fieldsOf (message : List UInt8) : List Field := (Cursor.ofBytes message).fields

/-- The fields of a message weigh no more than its bytes. -/
theorem weight_fieldsOf_le (message : List UInt8) :
    Field.totalWeight (fieldsOf message) ≤ message.length :=
  (Cursor.ofBytes message).weight_fields_le

end ClassMetadata
