import ClassMetadata.Proofs.Decoding.Kinds
import ClassMetadata.Proofs.Decoding.Nesting

/-!
# Names that a host binding leaves out

A host binding may leave out the name of a host member; then it follows from the name of the
declaration. That is the name which the declaration has when its message ends, wherever in the
message name and host binding stand.

* `Reads.last_block`: what only the fields of one number set is as the last of them says.
* `signature_of_reads` is about constructors and functions alike, whatever their other fields are.
* `readFunction_signature`, `readConstructor_signature` and `readProperty_signatures` say from what
  the signatures of a declaration come, and `decodeMessage_names` says it of all members of a class.
-/

namespace ClassMetadata.Descent

variable {table : StringTable} {key : Key} {payload : Payload}

/-- A part that is not touched is kept. -/
lemma Touches.kept {σ α β : Type} {schema : Schema σ} {put : β → σ → σ} {view : σ → α} {s s' : σ}
    (touched : Touches key (schema key) put) (leaves : ∀ b s, view (put b s) = view s)
    (hp : payload.type = key.type) (h : effect schema s key payload = some s') :
    view s' = view s := by
  obtain ⟨say, puts⟩ := touched
  rw [effect, absorb, puts s 0 payload hp] at h
  obtain ⟨b, -, rfl⟩ := Option.map_eq_some_iff.1 h
  exact leaves b s

/-- A part that only the messages under one number set is afterwards as such a field says, or the
same as before. -/
lemma effect_sets {σ α β : Type} {schema : Schema σ} {n : Nat} {view : σ → α}
    {read : List UInt8 → Except DecodeError β} {put : β → σ → σ} {value : β → α} {s s' : σ}
    (rule : key.field.toNat = n → schema key = .ok (.message fun s m => return put (← read m) s))
    (sets : ∀ b s, view (put b s) = value b) (kept : key.field.toNat ≠ n → view s' = view s)
    (h : effect schema s key payload = some s') :
    (Field.block? n (.whole key 0 payload)).elim (some (view s))
      (fun m => (read m).toOption.map value) = some (view s') := by
  by_cases number : key.field.toNat = n
  · rw [effect, absorb, rule number] at h
    cases payload with
    | block m =>
      change (read m >>= fun b => .ok (put b s)).toOption = some s' at h
      obtain ⟨b, hread, h⟩ := Option.bind_eq_some_iff.1 (toOption_bind _ _ ▸ h)
      cases h
      rw [Field.block?, if_pos number, Option.elim_some, hread, Option.map_some, sets]
    | _ =>
      cases h
      rfl
  · rw [kept number]
    cases payload with
    | block m =>
      rw [Field.block?, if_neg number]
      rfl
    | _ => rfl

/-- What only the length-delimited fields of one number set is as the last of them says. -/
theorem Reads.last_block {σ α : Type} {schema : Schema σ} {view : σ → α} {n : Nat}
    {read : List UInt8 → Option α}
    (step : ∀ {s s' key payload}, payload.type = key.type → effect schema s key payload = some s' →
      (Field.block? n (.whole key 0 payload)).elim (some (view s)) read = some (view s'))
    {s t : σ} {m : List UInt8} (h : Reads schema s m t) :
    (blocks n m).getLast?.elim (some (view s)) read = some (view t) := by
  -- behind the first field the message goes on at another position
  have anywhere : ∀ position, ((Cursor.fields ⟨position, m⟩).filterMap
      (Field.block? n)).getLast?.elim (some (view s)) read = some (view t) := by
    induction h with
    | nil s =>
      intro position
      rw [Cursor.fields_of_not_hasMore (by simp [Cursor.hasMore])]
      rfl
    | @field s s₁ t bytes rest key payload spelled head _ ih =>
      intro position
      obtain ⟨offset, hfields⟩ := spelled.fields_append position rest
      have first := step spelled.type_eq head
      have later := ih (position + bytes.length)
      have same : Field.block? n (.whole key offset payload) =
          Field.block? n (.whole key 0 payload) := by
        cases payload <;> rfl
      rw [hfields, List.filterMap_cons, same]
      cases hb : Field.block? n (.whole key 0 payload) with
      | none =>
        rw [hb, Option.elim_none] at first
        rw [first]
        exact later
      | some b =>
        rw [hb, Option.elim_some] at first
        rw [List.getLast?_cons, Option.elim_some]
        cases hlast : ((Cursor.fields ⟨position + bytes.length, rest⟩).filterMap
            (Field.block? n)).getLast? with
        | none =>
          rw [hlast] at later
          exact first.trans later
        | some b' =>
          rw [hlast] at later
          exact later
  exact anywhere 0

/-! ## Constructors and functions -/

/-- The host method that the last host binding in a message names, if there is one. -/
def hostMethod (table : StringTable) (message : List UInt8) : Option HostSignature :=
  (blocks hostBindingTag message).getLast?.bind fun m => (readSignature table m).toOption

/-- What the last host binding of a message says is the binding in the end, if at first there is none. -/
lemma binding_eq_hostMethod {message : List UInt8} {binding : Option HostSignature}
    (h : (blocks hostBindingTag message).getLast?.elim (some none)
      (fun m => (readSignature table m).toOption.map some) = some binding) :
    hostMethod table message = binding := by
  rw [hostMethod]
  cases hlast : (blocks hostBindingTag message).getLast? with
  | none =>
    rw [hlast] at h
    exact Option.some.inj h
  | some m =>
    rw [hlast] at h
    obtain ⟨s, hread, rfl⟩ := Option.map_eq_some_iff.1 h
    exact hread

/-- A finished constructor or function has the signature of its host binding. -/
lemma signature_of_finish {f : PendingFunction} {kind : NodeKind} {g : FunctionDecl}
    (h : f.finish kind = .ok g) : g.signature = f.binding.bind (·.method g.name) := by
  obtain ⟨name, -, rfl⟩ := PendingFunction.finish_eq_ok_iff.1 h
  rfl

/-- Where the fields under the number of host bindings set the binding, and no others do, the signature
is that of the last of them. A name that is left out there is the name of the declaration. -/
theorem signature_of_reads {schema : Schema PendingFunction}
    (sets : ∀ key, key.field.toNat = hostBindingTag → schema key = .ok (signatureStep table))
    (keeps : ∀ {key payload f f'}, payload.type = key.type → key.field.toNat ≠ hostBindingTag →
      effect schema f key payload = some f' → f'.binding = f.binding)
    {message : List UInt8} {f pending : PendingFunction} (fresh : f.binding = none)
    (reads : Reads schema f message pending) {kind : NodeKind} {g : FunctionDecl}
    (h : pending.finish kind = .ok g) :
    g.signature = (hostMethod table message).bind (·.method g.name) := by
  have rule : ∀ key, key.field.toNat = hostBindingTag → schema key = .ok (.message fun f m =>
      return { f with binding := some (← readSignature table m) }) := sets
  have last := reads.last_block fun hp h =>
    effect_sets (rule _) (fun _ _ => rfl) (fun other => keeps hp other h) h
  rw [fresh] at last
  rw [signature_of_finish h, binding_eq_hostMethod last]

/-- The signature of a function is that of the last host binding in its message. -/
theorem readFunction_signature {message : List UInt8} {f : FunctionDecl}
    (h : readFunction table message = .ok f) :
    f.signature = (hostMethod table message).bind (·.method f.name) := by
  obtain ⟨pending, hm, h⟩ := ok_of_bind h
  have reads : Reads (functionField table) .fresh message pending :=
    (readMessage_iff (schema_placeless table (.node .function)) 0).1 hm
  refine signature_of_reads (fun key number => ?_) (fun {key _ _ _} hp other h => ?_) rfl reads h
  · rw [functionField, number]
    rfl
  · rcases functionField_touches table key with ⟨-, t⟩ | ⟨-, t⟩ | ⟨-, t⟩ | ⟨n, t⟩ | t
    · exact t.kept (fun _ _ => rfl) hp h
    · exact t.kept (fun _ _ => rfl) hp h
    · exact t.kept (fun _ _ => rfl) hp h
    · exact absurd n other
    · exact t.kept (fun _ _ => rfl) hp h

/-- In the same way a constructor has a signature, and its name is that of constructors. -/
theorem readConstructor_signature {message : List UInt8} {f : FunctionDecl}
    (h : readConstructor table message = .ok f) :
    f.signature = (hostMethod table message).bind (·.method f.name) := by
  obtain ⟨pending, hm, h⟩ := ok_of_bind h
  have reads : Reads (constructorField table) .freshConstructor message pending :=
    (readMessage_iff (schema_placeless table (.node .constructor)) 0).1 hm
  refine signature_of_reads (fun key number => ?_) (fun {key _ _ _} hp other h => ?_) rfl reads h
  · rw [constructorField, number]
    rfl
  · rcases constructorField_touches table key with ⟨-, t⟩ | ⟨-, t⟩ | ⟨n, t⟩ | t
    · exact t.kept (fun _ _ => rfl) hp h
    · exact t.kept (fun _ _ => rfl) hp h
    · exact absurd n other
    · exact t.kept (fun _ _ => rfl) hp h

/-! ## Properties -/

/-- The host members that the last host binding in a message names. -/
def hostMembers (table : StringTable) (message : List UInt8) : PropertyBinding :=
  ((blocks hostBindingTag message).getLast?.bind fun m => (readBinding table m).toOption).getD .empty

/-- Of the fields of a property only the host binding sets the host members. -/
lemma propertyField_binding (hp : payload.type = key.type) {p p' : PendingProperty}
    (h : effect (propertyField table) p key payload = some p') :
    (Field.block? hostBindingTag (.whole key 0 payload)).elim (some p.binding)
      (fun m => (readBinding table m).toOption.map id) = some p'.binding := by
  have rule : key.field.toNat = hostBindingTag → propertyField table key = .ok (.message fun p m =>
      return { p with binding := ← readBinding table m }) := by
    intro number
    rw [propertyField, number]
    rfl
  refine effect_sets rule (fun _ _ => rfl) (fun other => ?_) h
  rcases propertyField_touches table key with ⟨-, t⟩ | ⟨-, t⟩ | ⟨-, t⟩ | ⟨-, t⟩ | ⟨n, t⟩ | t
  · exact t.kept (fun _ _ => rfl) hp h
  · exact t.kept (fun _ _ => rfl) hp h
  · exact t.kept (fun _ _ => rfl) hp h
  · exact t.kept (fun _ _ => rfl) hp h
  · exact absurd n other
  · exact t.kept (fun _ _ => rfl) hp h

/-- What the last host binding of a message says are the host members in the end, if at first there
are none. -/
lemma binding_eq_hostMembers {message : List UInt8} {binding : PropertyBinding}
    (h : (blocks hostBindingTag message).getLast?.elim (some .empty)
      (fun m => (readBinding table m).toOption.map id) = some binding) :
    hostMembers table message = binding := by
  rw [hostMembers]
  cases hlast : (blocks hostBindingTag message).getLast? with
  | none =>
    rw [hlast] at h
    exact Option.some.inj h
  | some m =>
    rw [hlast, Option.elim_some, Option.map_id] at h
    rw [Option.bind_some]
    change (readBinding table m).toOption = some binding at h
    rw [h]
    rfl

/-- The signatures of a property with this name, made from its host members. -/
structure HasSignatures (p : PropertyDecl) (members : PropertyBinding) : Prop where
  field_eq : p.fieldSignature = members.field.bind (·.field p.name)
  getter_eq : p.getterSignature = members.getter.bind (·.method (AccessorName.getter p.name))
  setter_eq : p.setterSignature = members.setter.bind (·.method (AccessorName.setter p.name))
  carrier_eq : p.carrierSignature = members.carrier.bind (·.method (AccessorName.carrier p.name))

/-- The signatures of a property are those of the last host binding in its message. Names that are
left out there follow from the name of the property. -/
theorem readProperty_signatures {message : List UInt8} {p : PropertyDecl}
    (h : readProperty table message = .ok p) : HasSignatures p (hostMembers table message) := by
  obtain ⟨pending, hm, h⟩ := ok_of_bind h
  have reads : Reads (propertyField table) .fresh message pending :=
    (readMessage_iff (schema_placeless table (.node .property)) 0).1 hm
  have last := reads.last_block fun hp h => propertyField_binding hp h
  rw [binding_eq_hostMembers last]
  obtain ⟨name, -, rfl⟩ := PendingProperty.finish_eq_ok_iff.1 h
  exact ⟨rfl, rfl, rfl, rfl⟩

/-! ## Classes -/

/-- Every member of a class comes from a message nested in that of the class, and its signatures from
the last host binding in there and from its own name. -/
structure NamesFollow (table : StringTable) (message : List UInt8) (c : ClassDecl) : Prop where
  constructors : ∀ f ∈ c.constructors, ∃ body ∈ blocks 8 message,
    readConstructor table body = .ok f ∧
      f.signature = (hostMethod table body).bind (·.method f.name)
  functions : ∀ f ∈ c.functions, ∃ body ∈ blocks 9 message,
    readFunction table body = .ok f ∧ f.signature = (hostMethod table body).bind (·.method f.name)
  properties : ∀ p ∈ c.properties, ∃ body ∈ blocks 10 message,
    readProperty table body = .ok p ∧ HasSignatures p (hostMembers table body)

/-- Names that host bindings leave out follow from the names that the members of the class have. -/
theorem decodeMessage_names {message : List UInt8} {c : ClassDecl}
    (h : decodeMessage table message = .ok c) : NamesFollow table message c := by
  obtain ⟨edits, hedits, -, rfl⟩ := decodeMessage_eq_ok_iff.1 h
  obtain ⟨constructors, functions, properties⟩ := readEdits_members table (readEdits_iff.2 hedits)
  have traces := ClassDecl.build_traces .default "" edits
  refine ⟨fun f hf => ?_, fun f hf => ?_, fun p hp => ?_⟩
  · rw [traces.constructors_eq, List.mem_eraseDups] at hf
    obtain ⟨body, hbody, hread⟩ := (mem_of_mapM constructors).2 f hf
    exact ⟨body, hbody, hread, readConstructor_signature hread⟩
  · rw [traces.functions_eq] at hf
    obtain ⟨body, hbody, hread⟩ := (mem_of_mapM functions).2 f hf
    exact ⟨body, hbody, hread, readFunction_signature hread⟩
  · rw [traces.properties_eq] at hp
    obtain ⟨body, hbody, hread⟩ := (mem_of_mapM properties).2 p hp
    exact ⟨body, hbody, hread, readProperty_signatures hread⟩

end ClassMetadata.Descent
