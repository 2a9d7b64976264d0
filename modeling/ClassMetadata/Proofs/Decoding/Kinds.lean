import ClassMetadata.Proofs.Decoding.Reading
import ClassMetadata.Proofs.Decoding.Streaming

/-!
# Kinds of message

A class message is made of messages of seven kinds: one for each kind of declaration, one for a host
member and one for the host members of a property.

* `MessageKind.nested?` says under which field numbers a kind of message holds others, and
  `MessageKind.Ignores` which fields mean nothing to it.
* `Touches` says which part of what was read so far a field sets. There is one lemma for each kind of
  message (`parameterField_touches` and so on), and so a field does the same wherever it stands
  (`schema_placeless`).
* `effect_of_ignores` and `effect_nested` say what ignored fields and nested messages do.
-/

namespace ClassMetadata

/-- What a message that is part of a class message describes. -/
inductive MessageKind where
  /-- A declaration. -/
  | node (kind : NodeKind)
  /-- A host member: a method or a field. -/
  | hostSignature
  /-- The host members of a property. -/
  | propertyBinding
  deriving DecidableEq, Repr

namespace MessageKind

/-- The kind of message that a field of a message holds, told by the number of the field. -/
def nested? : MessageKind → Nat → Option MessageKind
  | node .classNode, 8 => some (node .constructor)
  | node .classNode, 9 => some (node .function)
  | node .classNode, 10 => some (node .property)
  | node .constructor, 2 => some (node .parameter)
  | node .constructor, 100 => some hostSignature
  | node .function, 6 => some (node .parameter)
  | node .function, 100 => some hostSignature
  | node .property, 100 => some propertyBinding
  | propertyBinding, 1 => some hostSignature
  | propertyBinding, 2 => some hostSignature
  | propertyBinding, 3 => some hostSignature
  | propertyBinding, 4 => some hostSignature
  | _, _ => none

/-- A field with this key means nothing to a kind of message. A declaration does not know its number,
and it is not the host binding of a member. To a host member only the numbers under 1 and 2 mean
something, and to the host members of a property the messages under 1 to 4. -/
def Ignores : MessageKind → Key → Prop
  | node kind, key => key.field.toNat ∉ kind.knownFields ∧
      ¬ (kind.isExtensible ∧ key.field.toNat = hostBindingTag ∧ key.type = .lengthDelimited)
  | hostSignature, key => ¬ (key.field.toNat ∈ [1, 2] ∧ key.type = .varint)
  | propertyBinding, key => ¬ (key.field.toNat ∈ [1, 2, 3, 4] ∧ key.type = .lengthDelimited)

/-- Whether a message ignores a key can be computed. -/
instance : (kind : MessageKind) → (key : Key) → Decidable (kind.Ignores key)
  | node _, _ => inferInstanceAs (Decidable (_ ∧ _))
  | hostSignature, _ => inferInstanceAs (Decidable (¬ _))
  | propertyBinding, _ => inferInstanceAs (Decidable (¬ _))

/-- What is known of a message while it is read. -/
def State : MessageKind → Type
  | node .classNode => List ClassDecl.Edit
  | node .constructor | node .function => PendingFunction
  | node .property => PendingProperty
  | node .parameter => PendingParameter
  | hostSignature => HostSignature
  | propertyBinding => PropertyBinding

/-- What is known of a message before it is read. -/
def start : (kind : MessageKind) → kind.State
  | node .classNode => ([] : List ClassDecl.Edit)
  | node .constructor => PendingFunction.freshConstructor
  | node .function => PendingFunction.fresh
  | node .property => PendingProperty.fresh
  | node .parameter => PendingParameter.fresh
  | hostSignature => HostSignature.empty
  | propertyBinding => PropertyBinding.empty

open Descent in
/-- The fields of a message. -/
def schema (table : StringTable) : (kind : MessageKind) → Schema kind.State
  | node .classNode => classField table
  | node .constructor => constructorField table
  | node .function => functionField table
  | node .property => propertyField table
  | node .parameter => parameterField table
  | hostSignature => signatureField table
  | propertyBinding => bindingField table

end MessageKind

/-- The number in a payload, if it is one. -/
def Payload.number? : Payload → Option UInt64
  | varint value => some value
  | _ => none

/-- The bytes in a length-delimited payload. -/
def Payload.block? : Payload → Option (List UInt8)
  | block bytes => some bytes
  | _ => none

namespace Descent

/-! ## What a field touches -/

section

variable {σ β : Type} {key : Key} {node : NodeKind} {put : β → σ → σ}

/-- By a rule for a key, what a field says is told by its payload alone, and it is put into what was
read so far. -/
def Puts (key : Key) (rule : Except DecodeError (Step σ)) (say : Payload → Option β)
    (put : β → σ → σ) : Prop :=
  ∀ s offset payload, payload.type = key.type →
    (rule >>= fun step => step s offset payload).toOption = (say payload).map (put · s)

/-- Whatever a field says, it is put into what was read so far in this way. -/
def Touches (key : Key) (rule : Except DecodeError (Step σ)) (put : β → σ → σ) : Prop :=
  ∃ say, Puts key rule say put

/-- A known field succeeds in its own wire type only. -/
lemma known_toOption {type : WireType} (step : Step σ) (s : σ) (offset : Nat) (payload : Payload) :
    (known node key type step >>= fun step => step s offset payload).toOption =
      if key.type = type then (step s offset payload).toOption else none := by
  rw [known]
  split <;> rfl

/-- Whether a number fits into 32 bits does not depend on where it stands. -/
lemma narrow_toOption (value : UInt64) (offset : Nat) :
    (NodeKind.narrow value offset).toOption = (NodeKind.narrow value 0).toOption := by
  rw [NodeKind.narrow, NodeKind.narrow]
  split <;> rfl

/-- A known number of 32 bits does nothing but to be put in its place. -/
lemma touches_word {put : UInt32 → σ → σ} :
    Touches key (known node key .varint (.word fun s bits => .ok (put bits s))) put := by
  refine ⟨fun p => p.number?.bind fun v => (NodeKind.narrow v 0).toOption, fun s offset p hp => ?_⟩
  rw [known_toOption, ← hp]
  cases p with
  | varint value =>
    show (NodeKind.narrow value offset >>= fun bits => .ok (put bits s)).toOption =
      (NodeKind.narrow value 0).toOption.map _
    rw [toOption_bind, narrow_toOption]
    cases (NodeKind.narrow value 0).toOption <;> rfl
  | _ => rfl

/-- A known number does nothing but to be read and put in its place. -/
lemma touches_number {read : UInt64 → Except DecodeError β} :
    Touches key (known node key .varint (.number fun s v => return put (← read v) s)) put := by
  refine ⟨fun p => p.number?.bind fun v => (read v).toOption, fun s offset p hp => ?_⟩
  rw [known_toOption, ← hp]
  cases p with
  | varint value =>
    show (read value >>= _).toOption = (read value).toOption.map _
    cases read value <;> rfl
  | _ => rfl

/-- A known nested message does nothing but to be read and put in its place. -/
lemma puts_child {read : List UInt8 → Except DecodeError β} :
    Puts key (known node key .lengthDelimited (.message fun s m => return put (← read m) s))
      (fun p => p.block?.bind fun m => (read m).toOption) put := by
  intro s offset p hp
  rw [known_toOption, ← hp]
  cases p with
  | block bytes =>
    show (read bytes >>= _).toOption = (read bytes).toOption.map _
    cases read bytes <;> rfl
  | _ => rfl

/-- A field that is passed over does nothing. -/
lemma touches_nothing : Touches key (.ok .skip) fun (_ : Unit) (s : σ) => s :=
  ⟨fun _ => some (), fun _ _ _ _ => rfl⟩

/-- A message that is passed over in other layouts. -/
lemma touches_message {read : List UInt8 → Except DecodeError β} :
    Touches key (.ok (.message fun s m => return put (← read m) s)) put ∨
      Touches key (.ok (.message fun s m => return put (← read m) s))
        fun (_ : Unit) (s : σ) => s := by
  by_cases htype : key.type = .lengthDelimited
  · refine .inl ⟨fun p => p.block?.bind fun m => (read m).toOption, fun s offset p hp => ?_⟩
    rw [htype] at hp
    cases p with
    | block bytes =>
      show (read bytes >>= _).toOption = (read bytes).toOption.map _
      cases read bytes <;> rfl
    | _ => cases hp
  · refine .inr ⟨fun _ => some (), fun s offset p hp => ?_⟩
    rw [← hp] at htype
    cases p with
    | block bytes => exact absurd rfl htype
    | _ => rfl

/-- A number that is passed over in other layouts. -/
lemma touches_index {read : UInt64 → Except DecodeError β} :
    Touches key (.ok (.number fun s v => return put (← read v) s)) put ∨
      Touches key (.ok (.number fun s v => return put (← read v) s))
        fun (_ : Unit) (s : σ) => s := by
  by_cases htype : key.type = .varint
  · refine .inl ⟨fun p => p.number?.bind fun v => (read v).toOption, fun s offset p hp => ?_⟩
    rw [htype] at hp
    cases p with
    | varint value =>
      show (read value >>= _).toOption = (read value).toOption.map _
      cases read value <;> rfl
    | _ => cases hp
  · refine .inr ⟨fun _ => some (), fun s offset p hp => ?_⟩
    rw [← hp] at htype
    cases p with
    | varint value => exact absurd rfl htype
    | _ => rfl

end

variable (table : StringTable) (key : Key)

/-- What a field of a parameter touches. -/
lemma parameterField_touches :
    key.field.toNat = 1 ∧ Touches key (parameterField table key)
      (fun (bits : UInt32) p => { p with flags := ⟨bits⟩ }) ∨
    key.field.toNat = 2 ∧ Touches key (parameterField table key)
      (fun (name : String) p => { p with name := some name }) ∨
    Touches key (parameterField table key) fun (_ : Unit) p => p := by
  rw [parameterField]
  split
  · rename_i h
    exact .inl ⟨h, touches_word⟩
  · rename_i h
    exact .inr (.inl ⟨h, touches_number⟩)
  · exact .inr (.inr touches_nothing)

/-- What a field of a constructor touches. -/
lemma constructorField_touches :
    key.field.toNat = 1 ∧ Touches key (constructorField table key)
      (fun (bits : UInt32) f => { f with flags := ⟨bits⟩ }) ∨
    key.field.toNat = 2 ∧ Touches key (constructorField table key)
      (fun (p : ParameterDecl) f => { f with parameters := f.parameters ++ [p] }) ∨
    key.field.toNat = 100 ∧ Touches key (constructorField table key)
      (fun (s : HostSignature) f => { f with binding := some s }) ∨
    Touches key (constructorField table key) fun (_ : Unit) f => f := by
  rw [constructorField]
  split
  · rename_i h
    exact .inl ⟨h, touches_word⟩
  · rename_i h
    exact .inr (.inl ⟨h, _, puts_child⟩)
  · rename_i h
    rcases touches_message with touched | touched
    · exact .inr (.inr (.inl ⟨h, touched⟩))
    · exact .inr (.inr (.inr touched))
  · exact .inr (.inr (.inr touches_nothing))

/-- What a field of a function touches. -/
lemma functionField_touches :
    key.field.toNat = 1 ∧ Touches key (functionField table key)
      (fun (bits : UInt32) f => { f with flags := ⟨bits⟩ }) ∨
    key.field.toNat = 2 ∧ Touches key (functionField table key)
      (fun (name : String) f => { f with name := some name }) ∨
    key.field.toNat = 6 ∧ Touches key (functionField table key)
      (fun (p : ParameterDecl) f => { f with parameters := f.parameters ++ [p] }) ∨
    key.field.toNat = 100 ∧ Touches key (functionField table key)
      (fun (s : HostSignature) f => { f with binding := some s }) ∨
    Touches key (functionField table key) fun (_ : Unit) f => f := by
  rw [functionField]
  split
  · rename_i h
    exact .inl ⟨h, touches_word⟩
  · rename_i h
    exact .inr (.inl ⟨h, touches_number⟩)
  · rename_i h
    exact .inr (.inr (.inl ⟨h, _, puts_child⟩))
  · rename_i h
    rcases touches_message with touched | touched
    · exact .inr (.inr (.inr (.inl ⟨h, touched⟩)))
    · exact .inr (.inr (.inr (.inr touched)))
  · exact .inr (.inr (.inr (.inr touches_nothing)))

/-- What a field of a property touches. -/
lemma propertyField_touches :
    key.field.toNat = 1 ∧ Touches key (propertyField table key)
      (fun (bits : UInt32) p => { p with flags := ⟨bits⟩ }) ∨
    key.field.toNat = 2 ∧ Touches key (propertyField table key)
      (fun (name : String) p => { p with name := some name }) ∨
    key.field.toNat = 7 ∧ Touches key (propertyField table key)
      (fun (bits : UInt32) p => { p with getterFlags := some ⟨bits⟩ }) ∨
    key.field.toNat = 8 ∧ Touches key (propertyField table key)
      (fun (bits : UInt32) p => { p with setterFlags := some ⟨bits⟩ }) ∨
    key.field.toNat = 100 ∧ Touches key (propertyField table key)
      (fun (b : PropertyBinding) p => { p with binding := b }) ∨
    Touches key (propertyField table key) fun (_ : Unit) p => p := by
  rw [propertyField]
  split
  · rename_i h
    exact .inl ⟨h, touches_word⟩
  · rename_i h
    exact .inr (.inl ⟨h, touches_number⟩)
  · rename_i h
    exact .inr (.inr (.inl ⟨h, touches_word⟩))
  · rename_i h
    exact .inr (.inr (.inr (.inl ⟨h, touches_word⟩)))
  · rename_i h
    rcases touches_message with touched | touched
    · exact .inr (.inr (.inr (.inr (.inl ⟨h, touched⟩))))
    · exact .inr (.inr (.inr (.inr (.inr touched))))
  · exact .inr (.inr (.inr (.inr (.inr touches_nothing))))

/-- What a field of a host signature touches. -/
lemma signatureField_touches :
    key.field.toNat = 1 ∧ Touches key (signatureField table key)
      (fun (name : String) s => { s with name := some name }) ∨
    key.field.toNat = 2 ∧ Touches key (signatureField table key)
      (fun (descriptor : String) s => { s with descriptor := some descriptor }) ∨
    Touches key (signatureField table key) fun (_ : Unit) s => s := by
  rw [signatureField]
  split
  · rename_i h
    rcases touches_index with touched | touched
    · exact .inl ⟨h, touched⟩
    · exact .inr (.inr touched)
  · rename_i h
    rcases touches_index with touched | touched
    · exact .inr (.inl ⟨h, touched⟩)
    · exact .inr (.inr touched)
  · exact .inr (.inr touches_nothing)

/-- What a field of a property's host binding touches. -/
lemma bindingField_touches :
    key.field.toNat = 1 ∧ Touches key (bindingField table key)
      (fun (s : HostSignature) b => { b with field := some s }) ∨
    key.field.toNat = 2 ∧ Touches key (bindingField table key)
      (fun (s : HostSignature) b => { b with carrier := some s }) ∨
    key.field.toNat = 3 ∧ Touches key (bindingField table key)
      (fun (s : HostSignature) b => { b with getter := some s }) ∨
    key.field.toNat = 4 ∧ Touches key (bindingField table key)
      (fun (s : HostSignature) b => { b with setter := some s }) ∨
    Touches key (bindingField table key) fun (_ : Unit) b => b := by
  rw [bindingField]
  split
  · rename_i h
    rcases touches_message with touched | touched
    · exact .inl ⟨h, touched⟩
    · exact .inr (.inr (.inr (.inr touched)))
  · rename_i h
    rcases touches_message with touched | touched
    · exact .inr (.inl ⟨h, touched⟩)
    · exact .inr (.inr (.inr (.inr touched)))
  · rename_i h
    rcases touches_message with touched | touched
    · exact .inr (.inr (.inl ⟨h, touched⟩))
    · exact .inr (.inr (.inr (.inr touched)))
  · rename_i h
    rcases touches_message with touched | touched
    · exact .inr (.inr (.inr (.inl ⟨h, touched⟩)))
    · exact .inr (.inr (.inr (.inr touched)))
  · exact .inr (.inr (.inr (.inr touches_nothing)))

/-- What a field of a class amounts to. -/
lemma classField_touches :
    key.field.toNat = 1 ∧ Touches key (classField table key)
      (fun (bits : UInt32) es => es ++ [.flags ⟨bits⟩]) ∨
    key.field.toNat = 3 ∧ Touches key (classField table key)
      (fun (name : String) es => es ++ [.name name]) ∨
    key.field.toNat = 4 ∧ Touches key (classField table key)
      (fun (name : String) es => es ++ [.companion name]) ∨
    key.field.toNat = 8 ∧ Puts key (classField table key)
      (fun p => p.block?.bind fun m => (readConstructor table m).toOption)
      (fun f es => es ++ [.constructor f]) ∨
    key.field.toNat = 9 ∧ Puts key (classField table key)
      (fun p => p.block?.bind fun m => (readFunction table m).toOption)
      (fun f es => es ++ [.function f]) ∨
    key.field.toNat = 10 ∧ Puts key (classField table key)
      (fun p => p.block?.bind fun m => (readProperty table m).toOption)
      (fun p es => es ++ [.property p]) ∨
    key.field.toNat ∉ NodeKind.classNode.knownFields ∧
      Touches key (classField table key) fun (_ : Unit) es => es := by
  rw [classField]
  split
  · rename_i h
    exact .inl ⟨h, touches_word⟩
  · rename_i h
    exact .inr (.inl ⟨h, touches_number⟩)
  · rename_i h
    exact .inr (.inr (.inl ⟨h, touches_number⟩))
  · rename_i h
    exact .inr (.inr (.inr (.inl ⟨h, puts_child⟩)))
  · rename_i h
    exact .inr (.inr (.inr (.inr (.inl ⟨h, puts_child⟩))))
  · rename_i h
    exact .inr (.inr (.inr (.inr (.inr (.inl ⟨h, puts_child⟩)))))
  · refine .inr (.inr (.inr (.inr (.inr (.inr ⟨?_, touches_nothing⟩)))))
    simp_all [NodeKind.knownFields]

variable {table key}

/-- A field that touches something does so wherever it stands. -/
lemma Touches.placeless {σ β : Type} {schema : Schema σ} {put : β → σ → σ}
    (h : Touches key (schema key) put) (s : σ) (offset : Nat) {payload : Payload}
    (hp : payload.type = key.type) :
    (absorb schema s (.whole key offset payload)).toOption = effect schema s key payload := by
  obtain ⟨say, h⟩ := h
  exact (h s offset payload hp).trans (h s 0 payload hp).symm

/-- Fields do the same wherever they stand. -/
theorem schema_placeless (table : StringTable) (kind : MessageKind) :
    Placeless (kind.schema table) := by
  intro s key offset payload hp
  match kind with
  | .node .classNode =>
    rcases classField_touches table key with ⟨-, h⟩ | ⟨-, h⟩ | ⟨-, h⟩ | ⟨-, h⟩ | ⟨-, h⟩ | ⟨-, h⟩ | ⟨-, h⟩
    · exact h.placeless s offset hp
    · exact h.placeless s offset hp
    · exact h.placeless s offset hp
    · exact Touches.placeless ⟨_, h⟩ s offset hp
    · exact Touches.placeless ⟨_, h⟩ s offset hp
    · exact Touches.placeless ⟨_, h⟩ s offset hp
    · exact h.placeless s offset hp
  | .node .constructor =>
    rcases constructorField_touches table key with ⟨-, h⟩ | ⟨-, h⟩ | ⟨-, h⟩ | h <;>
      exact h.placeless s offset hp
  | .node .function =>
    rcases functionField_touches table key with ⟨-, h⟩ | ⟨-, h⟩ | ⟨-, h⟩ | ⟨-, h⟩ | h <;>
      exact h.placeless s offset hp
  | .node .property =>
    rcases propertyField_touches table key with ⟨-, h⟩ | ⟨-, h⟩ | ⟨-, h⟩ | ⟨-, h⟩ | ⟨-, h⟩ | h <;>
      exact h.placeless s offset hp
  | .node .parameter =>
    rcases parameterField_touches table key with ⟨-, h⟩ | ⟨-, h⟩ | h <;>
      exact h.placeless s offset hp
  | .hostSignature =>
    rcases signatureField_touches table key with ⟨-, h⟩ | ⟨-, h⟩ | h <;>
      exact h.placeless s offset hp
  | .propertyBinding =>
    rcases bindingField_touches table key with ⟨-, h⟩ | ⟨-, h⟩ | ⟨-, h⟩ | ⟨-, h⟩ | h <;>
      exact h.placeless s offset hp

/-- By a rule for a key, the field is passed over. -/
def Passes {σ : Type} (key : Key) (rule : Except DecodeError (Step σ)) : Prop :=
  ∀ s offset payload, payload.type = key.type →
    (rule >>= fun step => step s offset payload) = .ok s

/-- To skip is to pass. -/
lemma passes_skip {σ : Type} : Passes key (.ok (.skip : Step σ)) := fun _ _ _ _ => rfl

/-- A step that takes a nested message passes over every other payload. -/
lemma passes_message {σ : Type} {f : σ → List UInt8 → Except DecodeError σ}
    (h : key.type ≠ .lengthDelimited) : Passes key (.ok (.message f)) := by
  intro s offset payload hp
  rw [← hp] at h
  cases payload with
  | block bytes => exact absurd rfl h
  | _ => rfl

/-- A step that takes a number passes over every other payload. -/
lemma passes_number {σ : Type} {f : σ → UInt64 → Except DecodeError σ} (h : key.type ≠ .varint) :
    Passes key (.ok (.number f)) := by
  intro s offset payload hp
  rw [← hp] at h
  cases payload with
  | varint value => exact absurd rfl h
  | _ => rfl

/-- A field that means nothing to a kind of message is passed over. -/
lemma passes_of_ignores {kind : MessageKind} (h : kind.Ignores key) :
    Passes key (kind.schema table key) := by
  match kind with
  | .node .classNode =>
    obtain ⟨unknown, -⟩ := h
    show Passes key (classField table key)
    rw [classField]
    split <;> first | exact passes_skip | (rename_i h; exact absurd (by rw [h]; decide) unknown)
  | .node .constructor =>
    obtain ⟨unknown, unbound⟩ := h
    show Passes key (constructorField table key)
    rw [constructorField]
    split
    case h_3 h => exact passes_message fun htype => unbound ⟨rfl, h, htype⟩
    case h_4 => exact passes_skip
    all_goals
      rename_i h
      exact absurd (by rw [h]; decide) unknown
  | .node .function =>
    obtain ⟨unknown, unbound⟩ := h
    show Passes key (functionField table key)
    rw [functionField]
    split
    case h_4 h => exact passes_message fun htype => unbound ⟨rfl, h, htype⟩
    case h_5 => exact passes_skip
    all_goals
      rename_i h
      exact absurd (by rw [h]; decide) unknown
  | .node .property =>
    obtain ⟨unknown, unbound⟩ := h
    show Passes key (propertyField table key)
    rw [propertyField]
    split
    case h_5 h => exact passes_message fun htype => unbound ⟨rfl, h, htype⟩
    case h_6 => exact passes_skip
    all_goals
      rename_i h
      exact absurd (by rw [h]; decide) unknown
  | .node .parameter =>
    obtain ⟨unknown, -⟩ := h
    show Passes key (parameterField table key)
    rw [parameterField]
    split <;> first | exact passes_skip | (rename_i h; exact absurd (by rw [h]; decide) unknown)
  | .hostSignature =>
    show Passes key (signatureField table key)
    rw [signatureField]
    split
    case h_3 => exact passes_skip
    all_goals
      rename_i number
      exact passes_number fun htype => h ⟨by rw [number]; decide, htype⟩
  | .propertyBinding =>
    show Passes key (bindingField table key)
    rw [bindingField]
    split
    case h_5 => exact passes_skip
    all_goals
      rename_i number
      exact passes_message fun htype => h ⟨by rw [number]; decide, htype⟩

/-- A field that means nothing has no effect. -/
theorem effect_of_ignores {kind : MessageKind} (h : kind.Ignores key) {payload : Payload}
    (hp : payload.type = key.type) (s : kind.State) :
    effect (kind.schema table) s key payload = some s :=
  toOption_eq_some.2 (passes_of_ignores h s 0 payload hp)

/-! ## What a nested message does -/

/-- What reading a message of a kind comes to, if the message is accepted. -/
def reading (table : StringTable) (kind : MessageKind) (message : List UInt8) : Option kind.State :=
  (readMessage (kind.schema table) kind.start (.ofBytes message)).toOption

/-- A message is read when all of its fields are. -/
lemma reading_eq_some {kind : MessageKind} {message : List UInt8} {s : kind.State} :
    reading table kind message = some s ↔ Reads (kind.schema table) kind.start message s :=
  toOption_eq_some.trans (readMessage_iff (schema_placeless table kind) 0)

/-- A known field in its own wire type is taken. -/
lemma known_ok {σ : Type} {node : NodeKind} {type : WireType} {step : Step σ}
    (h : key.type = type) : known node key type step = .ok step := if_pos h

/-- A message that is read, finished and put into what was read so far. -/
lemma nested_message {σ α : Type} {schema : Schema σ} {put : σ → α → σ} (child : MessageKind)
    (read : List UInt8 → Except DecodeError α) (finish : child.State → Except DecodeError α)
    (hread : ∀ m, read m = readMessage (child.schema table) child.start (.ofBytes m) >>= finish)
    (hrule : schema key = .ok (.message fun s m => return put s (← read m))) :
    ∃ use : σ → child.State → Option σ, ∀ s m,
      effect schema s key (.block m) = (reading table child m).bind (use s) := by
  refine ⟨fun s t => (finish t).toOption.map (put s), fun s m => ?_⟩
  rw [effect, absorb, hrule]
  show (read m >>= _).toOption = _
  rw [toOption_bind, hread, toOption_bind, Option.bind_assoc]
  refine Option.bind_congr fun t _ => ?_
  dsimp only
  cases finish t <;> rfl

/-- A nested message counts as what reading it comes to. -/
theorem effect_nested (table : StringTable) {kind child : MessageKind}
    (h : kind.nested? key.field.toNat = some child)
    (htype : key.type = .lengthDelimited) :
    ∃ use : kind.State → child.State → Option kind.State, ∀ s m,
      effect (kind.schema table) s key (.block m) = (reading table child m).bind (use s) := by
  unfold MessageKind.nested? at h
  split at h <;> cases h
  case h_1 number =>
    apply nested_message (.node .constructor) (readConstructor table)
      (PendingFunction.finish · .constructor) fun _ => rfl
    show classField table key = _
    rw [classField, number]
    exact known_ok htype
  case h_2 number =>
    apply nested_message (.node .function) (readFunction table)
      (PendingFunction.finish · .function) fun _ => rfl
    show classField table key = _
    rw [classField, number]
    exact known_ok htype
  case h_3 number =>
    apply nested_message (.node .property) (readProperty table) PendingProperty.finish fun _ => rfl
    show classField table key = _
    rw [classField, number]
    exact known_ok htype
  case h_4 number =>
    apply nested_message (.node .parameter) (readParameter table) PendingParameter.finish fun _ => rfl
    show constructorField table key = _
    rw [constructorField, number]
    exact known_ok htype
  case h_5 number =>
    apply nested_message .hostSignature (readSignature table) pure fun _ => (bind_pure _).symm
    show constructorField table key = _
    rw [constructorField, number]
    rfl
  case h_6 number =>
    apply nested_message (.node .parameter) (readParameter table) PendingParameter.finish fun _ => rfl
    show functionField table key = _
    rw [functionField, number]
    exact known_ok htype
  case h_7 number =>
    apply nested_message .hostSignature (readSignature table) pure fun _ => (bind_pure _).symm
    show functionField table key = _
    rw [functionField, number]
    rfl
  case h_8 number =>
    apply nested_message .propertyBinding (readBinding table) pure fun _ => (bind_pure _).symm
    show propertyField table key = _
    rw [propertyField, number]
    rfl
  all_goals
    rename_i number
    apply nested_message .hostSignature (readSignature table) pure fun _ => (bind_pure _).symm
    show bindingField table key = _
    rw [bindingField, number]
    rfl

/-! ## Classes -/

/-- The edits of a class are read when all fields of its message are. -/
lemma readEdits_iff {table : StringTable} {message : List UInt8} {edits : List ClassDecl.Edit} :
    readEdits table message = .ok edits ↔ Reads (classField table) [] message edits :=
  readMessage_iff (schema_placeless table (.node .classNode)) 0

/-- A class is read when its message amounts to edits that give it a name, and these build it. -/
lemma decodeMessage_eq_ok_iff {table : StringTable} {message : List UInt8} {c : ClassDecl} :
    decodeMessage table message = .ok c ↔ ∃ edits, Reads (classField table) [] message edits ∧
      edits.any namesClass = true ∧ ClassDecl.build .default "" edits = c := by
  rw [decodeMessage_eq, readClass]
  refine ⟨fun h => ?_, ?_⟩
  · obtain ⟨edits, hedits, h⟩ := ok_of_bind h
    refine ⟨edits, readEdits_iff.1 hedits, ?_⟩
    split at h
    · rename_i named
      cases h
      exact ⟨named, rfl⟩
    · cases h
  · rintro ⟨edits, hedits, named, rfl⟩
    rw [readEdits_iff.2 hedits]
    show (if edits.any namesClass then _ else _) = _
    rw [if_pos named]
    rfl

end Descent

end ClassMetadata
