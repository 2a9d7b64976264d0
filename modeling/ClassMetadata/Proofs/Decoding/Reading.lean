import ClassMetadata.Proofs.Decoding.Schema
import ClassMetadata.Proofs.Wire.Whole

/-!
# Reading a message from its fields

What a message comes to when it is accepted, told from its bytes alone: it is the bytes of one field
behind those of another, and each field has its effect on what was read before.

* `effect` is what a field does by a schema, and `Placeless` says that it is the same wherever the
  field stands.
* `Reads` is the relation between a message and what reading makes of it. `readMessage_iff` ties it
  to the loop, `Reads.append_iff` goes through the first field and `Reads.append` joins messages.
-/

namespace ClassMetadata

/-- A result without its error is there when there is no error. -/
lemma toOption_eq_some {ε α : Type} {x : Except ε α} {a : α} :
    x.toOption = some a ↔ x = .ok a := by
  cases x with
  | error e => exact ⟨nofun, nofun⟩
  | ok b => exact ⟨fun h => congrArg _ (Option.some.inj h), fun h => congrArg _ (Except.ok.inj h)⟩

/-- To forget errors goes past sequencing. -/
lemma toOption_bind {ε α β : Type} (x : Except ε α) (f : α → Except ε β) :
    (x >>= f).toOption = x.toOption.bind fun a => (f a).toOption := by
  cases x <;> rfl

namespace Descent

variable {σ : Type}

/-- What was read so far after one more field, if the schema accepts the field. -/
def effect (schema : Schema σ) (s : σ) (key : Key) (payload : Payload) : Option σ :=
  (absorb schema s (.whole key 0 payload)).toOption

/-- Where a field stands makes no difference to what it does. -/
def Placeless (schema : Schema σ) : Prop :=
  ∀ s key offset payload, payload.type = key.type →
    (absorb schema s (.whole key offset payload)).toOption = effect schema s key payload

/-- Reading a message, field by field, makes this of what was read before. -/
inductive Reads (schema : Schema σ) : σ → List UInt8 → σ → Prop where
  | nil (s : σ) : Reads schema s [] s
  | field {s s₁ s₂ : σ} {bytes rest : List UInt8} {key : Key} {payload : Payload}
    (spelled : Spells bytes key payload) (head : effect schema s key payload = some s₁)
    (tail : Reads schema s₁ rest s₂) : Reads schema s (bytes ++ rest) s₂

variable {schema : Schema σ} {s s₁ s' : σ} {bytes rest : List UInt8} {key : Key} {payload : Payload}

/-- A field that is accepted is read before what follows. -/
lemma readMessage_append (placeless : Placeless schema) (spelled : Spells bytes key payload)
    (head : effect schema s key payload = some s₁) (position : Nat) :
    readMessage schema s ⟨position, bytes ++ rest⟩ =
      readMessage schema s₁ ⟨position + bytes.length, rest⟩ := by
  obtain ⟨offset, hfields⟩ := spelled.fields_append position rest
  have absorbed : absorb schema s (.whole key offset payload) = .ok s₁ := by
    rw [← toOption_eq_some, placeless s key offset payload spelled.type_eq, head]
  rw [readMessage_eq_foldlM, readMessage_eq_foldlM, hfields, List.foldlM_cons, absorbed]
  rfl

/-- The loop accepts a message and makes something of it exactly when reading does. -/
theorem readMessage_iff (placeless : Placeless schema) {message : List UInt8} (position : Nat) :
    readMessage schema s ⟨position, message⟩ = .ok s' ↔ Reads schema s message s' := by
  refine ⟨fun h => ?_, fun h => ?_⟩
  · generalize hc : Cursor.mk position message = c at h
    have hahead : message = c.ahead := by rw [← hc]
    rw [hahead]
    clear hc hahead
    -- on the loop, which goes on behind the bytes of a field
    fun_induction readMessage schema s c with
    | case1 | case2 | case3 | case4 => cases h
    | case5 s c more key c₁ hkey step hschema payload c₂ hpayload s₁ hstep ih =>
      obtain ⟨bytes, hbytes, spelled⟩ := Spells.of_read hkey hpayload
      rw [hbytes]
      refine .field spelled ?_ (ih h)
      rw [← placeless s key c₁.position payload spelled.type_eq, toOption_eq_some, absorb, hschema]
      exact hstep
    | case6 s c more =>
      cases h
      rw [Cursor.hasMore, Bool.not_eq_true, Bool.not_eq_false', List.isEmpty_iff] at more
      rw [more]
      exact .nil _
  · induction h generalizing position with
    | nil s =>
      rw [readMessage_eq_foldlM, Cursor.fields_of_not_hasMore (by simp [Cursor.hasMore])]
      rfl
    | field spelled head tail ih =>
      rw [readMessage_append placeless spelled head]
      exact ih _

namespace Reads

/-- A message that begins with a field is read when the field is accepted and the rest is read. -/
theorem append_iff (placeless : Placeless schema) (spelled : Spells bytes key payload) :
    Reads schema s (bytes ++ rest) s' ↔
      ∃ s₁, effect schema s key payload = some s₁ ∧ Reads schema s₁ rest s' := by
  refine ⟨fun h => ?_, fun ⟨s₁, head, tail⟩ => .field spelled head tail⟩
  have run := (readMessage_iff placeless 0).2 h
  cases head : effect schema s key payload with
  | none =>
    obtain ⟨offset, hfields⟩ := spelled.fields_append 0 rest
    rw [readMessage_eq_foldlM, hfields, List.foldlM_cons] at run
    obtain ⟨s₁, absorbed, -⟩ := ok_of_bind run
    rw [← toOption_eq_some, placeless s key offset payload spelled.type_eq, head] at absorbed
    cases absorbed
  | some s₁ =>
    rw [readMessage_append placeless spelled head, readMessage_iff placeless] at run
    exact ⟨s₁, rfl, run⟩

/-- One message behind another is read from what the first has come to. -/
theorem append {message message' : List UInt8} (h : Reads schema s message s₁)
    (h' : Reads schema s₁ message' s') : Reads schema s (message ++ message') s' := by
  induction h with
  | nil s => exact h'
  | field spelled head tail ih =>
    rw [List.append_assoc]
    exact .field spelled head (ih h')

end Reads

end Descent

end ClassMetadata
