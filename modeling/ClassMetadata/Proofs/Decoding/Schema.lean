import Mathlib.Tactic.Common
import ClassMetadata.Proofs.Decoding.Descent
import ClassMetadata.Proofs.Wire.Fields

/-!
# Schemas and entries

Two ways to say what a field does to what was read so far: by the schema of a descent, and by the
entry that `NodeKind.readField` makes of it. For every kind of node they come to the same.

* `readMessage_eq_foldlM`: a descent through bytes is a fold over the fields of the message.
* `Obeys` relates a schema to entries key by key; there is one lemma for each kind of field, and one
  for each kind of node that puts these together (`parameterField_obeys` and so on).
* `absorb_eq_heed`: where a schema obeys at every key, a field does what its entry says.
-/

namespace ClassMetadata

/-- What succeeds at the end has succeeded at the beginning. -/
lemma ok_of_bind {ε α β : Type} {x : Except ε α} {f : α → Except ε β} {b : β}
    (h : x >>= f = .ok b) : ∃ a, x = .ok a ∧ f a = .ok b := by
  cases x with
  | error e => cases h
  | ok a => exact ⟨a, rfl, h⟩

/-- The field numbers that a kind of node knows. -/
def NodeKind.knownFields : NodeKind → List Nat
  | classNode => [1, 3, 4, 8, 9, 10]
  | constructor => [1, 2]
  | function => [1, 2, 6]
  | property => [1, 2, 7, 8]
  | parameter => [1, 2]

/-- Other field numbers have no role. -/
lemma NodeKind.role?_eq_none {node : NodeKind} {n : Nat} (h : n ∉ node.knownFields) :
    node.role? n = none := by
  cases node <;> unfold role? <;> split <;> simp_all [knownFields]

namespace Descent

variable {σ : Type}

/-- What a field does by a schema. -/
def absorb (schema : Schema σ) (s : σ) : Field → Except DecodeError σ
  | .unreadable e => .error (.wire e)
  | .broken key e => do
    let _ ← schema key
    .error (.wire e)
  | .whole key offset payload => do (← schema key) s offset payload

/-- A descent through bytes is a fold over fields. -/
theorem readMessage_eq_foldlM (schema : Schema σ) (s : σ) (c : Cursor) :
    readMessage schema s c = c.fields.foldlM (absorb schema) s := by
  fun_induction readMessage schema s c with
  | case1 s c more e c₁ hkey =>
    rw [Cursor.fields_of_key_error more hkey]
    rfl
  | case2 s c more key c₁ hkey e hschema =>
    cases hpayload : Reader.payload key.type c₁ with
    | ok payload c₂ =>
      rw [Cursor.fields_of_payload hkey hpayload]
      simp [absorb, hschema, bind, Except.bind]
    | error w c₂ =>
      rw [Cursor.fields_of_payload_error hkey hpayload]
      simp [absorb, hschema, bind, Except.bind]
  | case3 s c more key c₁ hkey step hschema e c₂ hpayload =>
    rw [Cursor.fields_of_payload_error hkey hpayload]
    simp [absorb, hschema, bind, Except.bind]
  | case4 s c more key c₁ hkey step hschema payload c₂ hpayload e hstep =>
    rw [Cursor.fields_of_payload hkey hpayload]
    simp [absorb, hschema, hstep, bind, Except.bind]
  | case5 s c more key c₁ hkey step hschema payload c₂ hpayload s' hstep ih =>
    rw [Cursor.fields_of_payload hkey hpayload, ih]
    simp [absorb, hschema, hstep, bind, Except.bind]
  | case6 s c more =>
    rw [Cursor.fields_of_not_hasMore more]
    rfl

/-- The schema of a host signature does what its fields do. -/
lemma absorb_signatureField (table : StringTable) :
    absorb (signatureField table) = HostSignature.addField table := by
  funext s f
  cases f with
  | unreadable e => rfl
  | broken key e =>
    rw [absorb, signatureField]
    split <;> rfl
  | whole key offset payload =>
    rw [absorb, signatureField]
    cases payload with
    | varint index =>
      rw [HostSignature.addField]
      generalize key.field.toNat = n
      rcases n with _ | _ | _ | n <;> rfl
    | _ => split <;> rfl

/-- A host signature is read in the same way. -/
theorem readSignature_eq (table : StringTable) (message : List UInt8) :
    readSignature table message = HostSignature.read table message := by
  rw [readSignature, readMessage_eq_foldlM, absorb_signatureField]
  rfl

/-- The schema of a property's host binding does what its fields do. -/
lemma absorb_bindingField (table : StringTable) :
    absorb (bindingField table) = PropertyBinding.addField table := by
  funext b f
  cases f with
  | unreadable e => rfl
  | broken key e =>
    rw [absorb, bindingField]
    split <;> rfl
  | whole key offset payload =>
    rw [absorb, bindingField]
    simp only [readSignature_eq]
    cases payload with
    | block m =>
      rw [PropertyBinding.addField]
      generalize key.field.toNat = n
      rcases n with _ | _ | _ | _ | _ | n <;> rfl
    | _ => split <;> rfl

/-- A property's host binding is read in the same way. -/
theorem readBinding_eq (table : StringTable) (message : List UInt8) :
    readBinding table message = PropertyBinding.read table message := by
  rw [readBinding, readMessage_eq_foldlM, absorb_bindingField]
  rfl

/-! ## One field -/

/-- What an entry does, given what details and nested declarations do. -/
def heed (tell : σ → Detail → Except DecodeError σ)
    (nest : σ → NodeKind → List UInt8 → Except DecodeError σ) (s : σ) :
    Option Entry → Except DecodeError σ
  | none => .ok s
  | some (.detail detail) => tell s detail
  | some (.child kind message) => nest s kind message

section

variable (node : NodeKind) (tell : σ → Detail → Except DecodeError σ)
  (nest : σ → NodeKind → List UInt8 → Except DecodeError σ)

/-- What a schema says for a key: it refuses the key when the node does, and otherwise the payload
does what its entry says. -/
def Obeys (key : Key) (rule : Except DecodeError (Step σ)) : Prop :=
  ∃ step, rule = (node.checkKey key).map (fun _ => step) ∧
    ∀ s offset payload, step s offset payload =
      node.interpret key offset (node.role? key.field.toNat) payload >>= heed tell nest s

variable {node tell nest}

/-- Where a schema obeys at every key, a field does what its entry says. -/
theorem absorb_eq_heed {schema : Schema σ} (h : ∀ key, Obeys node tell nest key (schema key)) (s : σ)
    (f : Field) : absorb schema s f = node.readField f >>= heed tell nest s := by
  cases f with
  | unreadable e => rfl
  | broken key e =>
    obtain ⟨step, hs, -⟩ := h key
    rw [absorb, hs, NodeKind.readField]
    cases node.checkKey key <;> rfl
  | whole key offset payload =>
    obtain ⟨step, hs, hstep⟩ := h key
    rw [absorb, hs, NodeKind.readField]
    cases node.checkKey key with
    | error e => rfl
    | ok u => exact hstep s offset payload

variable {key : Key} {role : Role}

/-- A known field is refused by its role. -/
lemma known_eq_map (hrole : node.role? key.field.toNat = some role) (step : Step σ) :
    known node key role.wireType step = (node.checkKey key).map (fun _ => step) := by
  rw [known, NodeKind.checkKey, hrole]
  by_cases h : key.type = role.wireType
  · simp [h, Except.map]
  · simp [h, Except.map]

/-- A number obeys if it does what its detail does. -/
lemma obeys_number (role : Role) {f : σ → UInt64 → Except DecodeError σ} {d : UInt64 → Detail}
    (hrole : node.role? key.field.toNat = some role) (hd : ∀ offset value,
      NodeKind.detail? role offset value = .ok (some (d value)))
    (htype : role.wireType = .varint) (hf : ∀ s value, f s value = tell s (d value)) :
    Obeys node tell nest key (known node key .varint (.number f)) := by
  refine ⟨.number f, htype ▸ known_eq_map hrole _, fun s offset payload => ?_⟩
  rw [hrole]
  cases payload with
  | varint value =>
    rw [NodeKind.interpret, hd, Step.number, hf]
    rfl
  | block bytes => cases role <;> first | rfl | cases htype
  | _ => cases role <;> rfl

/-- A number of 32 bits obeys if it does what its detail does. -/
lemma obeys_word (role : Role) {f : σ → UInt32 → Except DecodeError σ} {d : UInt32 → Detail}
    (hrole : node.role? key.field.toNat = some role) (hd : ∀ offset value,
      NodeKind.detail? role offset value = do return some (d (← NodeKind.narrow value offset)))
    (htype : role.wireType = .varint) (hf : ∀ s bits, f s bits = tell s (d bits)) :
    Obeys node tell nest key (known node key .varint (.word f)) := by
  refine ⟨.word f, htype ▸ known_eq_map hrole _, fun s offset payload => ?_⟩
  rw [hrole]
  cases payload with
  | varint value =>
    rw [NodeKind.interpret, hd, Step.word]
    cases NodeKind.narrow value offset with
    | error e => rfl
    | ok bits => exact hf s bits
  | block bytes => cases role <;> first | rfl | cases htype
  | _ => cases role <;> rfl

/-- A nested message obeys if it does what the declaration in it does. -/
lemma obeys_child (kind : NodeKind) {f : σ → List UInt8 → Except DecodeError σ}
    (hrole : node.role? key.field.toNat = some (.child kind))
    (hf : ∀ s message, f s message = nest s kind message) :
    Obeys node tell nest key (known node key .lengthDelimited (.message f)) := by
  refine ⟨.message f, known_eq_map hrole _, fun s offset payload => ?_⟩
  rw [hrole]
  cases payload with
  | block bytes => exact hf s bytes
  | _ => rfl

/-- A host binding obeys if it does what its extension does. -/
lemma obeys_binding {f : σ → List UInt8 → Except DecodeError σ}
    (hrole : node.role? key.field.toNat = none) (hnode : node.isExtensible = true)
    (hkey : key.field.toNat = 100)
    (hf : ∀ s message, f s message = tell s (.extension key.field message)) :
    Obeys node tell nest key (.ok (.message f)) := by
  refine ⟨.message f, ?_, fun s offset payload => ?_⟩
  · rw [NodeKind.checkKey, hrole]
    rfl
  · rw [hrole]
    cases payload with
    | block bytes =>
      have holds : node.holdsExtension key.field = true := by
        simp [NodeKind.holdsExtension, hnode, hkey, extensionBase]
      rw [NodeKind.interpret, if_pos holds]
      exact hf s bytes
    | _ => rfl

/-- A field that is passed over obeys if its extension, too, says nothing. -/
lemma obeys_skip (hrole : node.role? key.field.toNat = none)
    (htell : node.isExtensible = true → ∀ s message,
      tell s (.extension key.field message) = .ok s) :
    Obeys node tell nest key (.ok .skip) := by
  refine ⟨.skip, ?_, fun s offset payload => ?_⟩
  · rw [NodeKind.checkKey, hrole]
    rfl
  · rw [hrole]
    cases payload with
    | block bytes =>
      rw [NodeKind.interpret]
      split
      · rename_i holds
        rw [NodeKind.holdsExtension, Bool.and_eq_true] at holds
        exact (htell holds.1 s bytes).symm
      · rfl
    | _ => rfl

end

/-! ## One node -/

/-- What a detail does to an open constructor: its name stays as it is. -/
def tellConstructor (table : StringTable) (f : PendingFunction) (detail : Detail) :
    Except DecodeError PendingFunction :=
  return { ← f.tell table detail with name := f.name }

/-- What a detail of a class amounts to. -/
def tellClass (table : StringTable) (es : List ClassDecl.Edit) :
    Detail → Except DecodeError (List ClassDecl.Edit)
  | .flags bits => return es ++ [.flags ⟨bits⟩]
  | .name index => return es ++ [.name (← table.get index)]
  | .companion index => return es ++ [.companion (← table.get index)]
  | .getterFlags _ | .setterFlags _ | .extension _ _ => return es

/-- A node without nested declarations. -/
def nestNothing (s : σ) (_ : NodeKind) (_ : List UInt8) : Except DecodeError σ := .ok s

/-- What a declaration that is nested in a constructor or function does to it. -/
def nestParameter (table : StringTable) (f : PendingFunction) (_ : NodeKind)
    (message : List UInt8) : Except DecodeError PendingFunction :=
  return { f with parameters := f.parameters ++ [← readParameter table message] }

/-- What a declaration that is nested in a class amounts to. -/
def nestMember (table : StringTable) (es : List ClassDecl.Edit) (kind : NodeKind)
    (message : List UInt8) : Except DecodeError (List ClassDecl.Edit) :=
  match kind with
  | .constructor => return es ++ [.constructor (← readConstructor table message)]
  | .function => return es ++ [.function (← readFunction table message)]
  | .property => return es ++ [.property (← readProperty table message)]
  | .classNode | .parameter => return es

/-- The fields of a parameter do what their entries say. -/
lemma parameterField_obeys (table : StringTable) (key : Key) :
    Obeys .parameter (PendingParameter.tell table) nestNothing key (parameterField table key) := by
  rw [parameterField]
  split
  · rename_i h
    exact obeys_word .flags (by rw [h]; rfl) (fun _ _ => rfl) rfl fun _ _ => rfl
  · rename_i h
    exact obeys_number .name (by rw [h]; rfl) (fun _ _ => rfl) rfl fun _ _ => rfl
  · exact obeys_skip (NodeKind.role?_eq_none (by simp_all [NodeKind.knownFields])) nofun

/-- The host binding of a constructor is read when its extension is told. -/
lemma tellConstructor_binding (table : StringTable) {tag : UInt32} (h : tag.toNat = hostBindingTag)
    (f : PendingFunction) (message : List UInt8) :
    (do return { f with binding := some (← readSignature table message) }) =
      tellConstructor table f (.extension tag message) := by
  rw [tellConstructor, PendingFunction.tell, if_pos h, readSignature_eq]
  cases HostSignature.read table message <;> rfl

/-- No other extension of a constructor says anything. -/
lemma tellConstructor_other (table : StringTable) {tag : UInt32} (h : ¬ tag.toNat = hostBindingTag)
    (f : PendingFunction) (message : List UInt8) :
    tellConstructor table f (.extension tag message) = .ok f := by
  rw [tellConstructor, PendingFunction.tell, if_neg h]
  rfl

/-- The fields of a constructor do what their entries say. -/
lemma constructorField_obeys (table : StringTable) (key : Key) :
    Obeys .constructor (tellConstructor table) (nestParameter table) key
      (constructorField table key) := by
  rw [constructorField]
  split
  · rename_i h
    exact obeys_word .flags (by rw [h]; rfl) (fun _ _ => rfl) rfl fun _ _ => rfl
  · rename_i h
    exact obeys_child .parameter (by rw [h]; rfl) fun _ _ => rfl
  · rename_i h
    exact obeys_binding (by rw [h]; rfl) rfl h fun f m => tellConstructor_binding table h f m
  · rename_i h
    exact obeys_skip (NodeKind.role?_eq_none (by simp_all [NodeKind.knownFields]))
      fun _ f m => tellConstructor_other table h f m

/-- The host binding of a function is read when its extension is told. -/
lemma tellFunction_binding (table : StringTable) {tag : UInt32} (h : tag.toNat = hostBindingTag)
    (f : PendingFunction) (message : List UInt8) :
    (do return { f with binding := some (← readSignature table message) }) =
      f.tell table (.extension tag message) := by
  rw [PendingFunction.tell, if_pos h, readSignature_eq]

/-- No other extension of a function says anything. -/
lemma tellFunction_other (table : StringTable) {tag : UInt32} (h : ¬ tag.toNat = hostBindingTag)
    (f : PendingFunction) (message : List UInt8) :
    f.tell table (.extension tag message) = .ok f := by
  rw [PendingFunction.tell, if_neg h]
  rfl

/-- The fields of a function do what their entries say. -/
lemma functionField_obeys (table : StringTable) (key : Key) :
    Obeys .function (PendingFunction.tell table) (nestParameter table) key
      (functionField table key) := by
  rw [functionField]
  split
  · rename_i h
    exact obeys_word .flags (by rw [h]; rfl) (fun _ _ => rfl) rfl fun _ _ => rfl
  · rename_i h
    exact obeys_number .name (by rw [h]; rfl) (fun _ _ => rfl) rfl fun _ _ => rfl
  · rename_i h
    exact obeys_child .parameter (by rw [h]; rfl) fun _ _ => rfl
  · rename_i h
    exact obeys_binding (by rw [h]; rfl) rfl h fun f m => tellFunction_binding table h f m
  · rename_i h
    exact obeys_skip (NodeKind.role?_eq_none (by simp_all [NodeKind.knownFields]))
      fun _ f m => tellFunction_other table h f m

/-- The host binding of a property is read when its extension is told. -/
lemma tellProperty_binding (table : StringTable) {tag : UInt32} (h : tag.toNat = hostBindingTag)
    (p : PendingProperty) (message : List UInt8) :
    (do return { p with binding := ← readBinding table message }) =
      p.tell table (.extension tag message) := by
  rw [PendingProperty.tell, if_pos h, readBinding_eq]

/-- No other extension of a property says anything. -/
lemma tellProperty_other (table : StringTable) {tag : UInt32} (h : ¬ tag.toNat = hostBindingTag)
    (p : PendingProperty) (message : List UInt8) :
    p.tell table (.extension tag message) = .ok p := by
  rw [PendingProperty.tell, if_neg h]
  rfl

/-- The fields of a property do what their entries say. -/
lemma propertyField_obeys (table : StringTable) (key : Key) :
    Obeys .property (PendingProperty.tell table) nestNothing key (propertyField table key) := by
  rw [propertyField]
  split
  · rename_i h
    exact obeys_word .flags (by rw [h]; rfl) (fun _ _ => rfl) rfl fun _ _ => rfl
  · rename_i h
    exact obeys_number .name (by rw [h]; rfl) (fun _ _ => rfl) rfl fun _ _ => rfl
  · rename_i h
    exact obeys_word .getterFlags (by rw [h]; rfl) (fun _ _ => rfl) rfl fun _ _ => rfl
  · rename_i h
    exact obeys_word .setterFlags (by rw [h]; rfl) (fun _ _ => rfl) rfl fun _ _ => rfl
  · rename_i h
    exact obeys_binding (by rw [h]; rfl) rfl h fun p m => tellProperty_binding table h p m
  · rename_i h
    exact obeys_skip (NodeKind.role?_eq_none (by simp_all [NodeKind.knownFields]))
      fun _ p m => tellProperty_other table h p m

/-- The fields of a class amount to what their entries say. -/
lemma classField_obeys (table : StringTable) (key : Key) :
    Obeys .classNode (tellClass table) (nestMember table) key (classField table key) := by
  rw [classField]
  split
  · rename_i h
    exact obeys_word .flags (by rw [h]; rfl) (fun _ _ => rfl) rfl fun _ _ => rfl
  · rename_i h
    exact obeys_number .name (by rw [h]; rfl) (fun _ _ => rfl) rfl fun _ _ => rfl
  · rename_i h
    exact obeys_number .companion (by rw [h]; rfl) (fun _ _ => rfl) rfl fun _ _ => rfl
  · rename_i h
    exact obeys_child .constructor (by rw [h]; rfl) fun _ _ => rfl
  · rename_i h
    exact obeys_child .function (by rw [h]; rfl) fun _ _ => rfl
  · rename_i h
    exact obeys_child .property (by rw [h]; rfl) fun _ _ => rfl
  · exact obeys_skip (NodeKind.role?_eq_none (by simp_all [NodeKind.knownFields])) nofun

end Descent

end ClassMetadata
