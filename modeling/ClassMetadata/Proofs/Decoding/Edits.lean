import ClassMetadata.Proofs.Decoding.Kinds

/-!
# The edits of a class message

Every field of a class message amounts to one edit or to none, whatever was read before it.

* `Amounts` lists what a field may amount to, and `effect_class` says that there is nothing else.
* `reads_class_iff`: the edits of a message go behind those that were there.
-/

namespace ClassMetadata.Descent

variable {table : StringTable} {key : Key} {payload : Payload} {es es' : List ClassDecl.Edit}

/-- What a field of a class may amount to. -/
inductive Amounts (table : StringTable) (key : Key) (payload : Payload) :
    List ClassDecl.Edit → Prop where
  | flags (flags : Flags) :
    key.field.toNat = 1 →
    Amounts table key payload [.flags flags]
  | name (name : String) :
    key.field.toNat = 3 →
    Amounts table key payload [.name name]
  | companion (name : String) :
    key.field.toNat = 4 →
    Amounts table key payload [.companion name]
  | constructor {m : List UInt8} {f : FunctionDecl} :
    key.field.toNat = 8 →
    payload = .block m →
    readConstructor table m = .ok f →
    Amounts table key payload [.constructor f]
  | function {m : List UInt8} {f : FunctionDecl} :
    key.field.toNat = 9 →
    payload = .block m →
    readFunction table m = .ok f →
    Amounts table key payload [.function f]
  | property {m : List UInt8} {p : PropertyDecl} :
    key.field.toNat = 10 →
    payload = .block m →
    readProperty table m = .ok p →
    Amounts table key payload [.property p]
  | nothing :
    key.field.toNat ∉ NodeKind.classNode.knownFields →
    Amounts table key payload []

/-- The number of a field that amounts to an edit. -/
def editNumber : ClassDecl.Edit → Nat
  | .flags _ => 1
  | .name _ => 3
  | .companion _ => 4
  | .constructor _ => 8
  | .function _ => 9
  | .property _ => 10

/-- An edit comes from the field number of its kind. -/
lemma Amounts.number_eq {e : ClassDecl.Edit} (h : Amounts table key payload [e]) :
    key.field.toNat = editNumber e := by
  cases h <;> assumption

/-- A field amounts to one edit at most. -/
lemma Amounts.eq_nil_or_singleton {l : List ClassDecl.Edit} (h : Amounts table key payload l) :
    l = [] ∨ ∃ e, l = [e] := by
  cases h with
  | nothing => exact .inl rfl
  | _ => exact .inr ⟨_, rfl⟩

/-- A field that puts something behind the edits does so behind any edits. -/
lemma Puts.concat {β : Type} {say : Payload → Option β} {edit : β → ClassDecl.Edit}
    (h : Puts key (classField table key) say fun b es => es ++ [edit b])
    (hp : payload.type = key.type)
    (heffect : effect (classField table) es key payload = some es') :
    ∃ b, say payload = some b ∧ es' = es ++ [edit b] ∧
      ∀ es, effect (classField table) es key payload = some (es ++ [edit b]) := by
  rw [effect, absorb, h es 0 payload hp] at heffect
  obtain ⟨b, hb, rfl⟩ := Option.map_eq_some_iff.1 heffect
  refine ⟨b, hb, rfl, fun es => ?_⟩
  rw [effect, absorb, h es 0 payload hp, hb]
  rfl

/-- What a nested message says, it says in a length-delimited payload. -/
lemma block_of_say {α : Type} {read : List UInt8 → Except DecodeError α} {a : α}
    (h : (payload.block?.bind fun m => (read m).toOption) = some a) :
    ∃ m, payload = .block m ∧ read m = .ok a := by
  cases payload with
  | block m => exact ⟨m, rfl, toOption_eq_some.1 h⟩
  | _ => cases h

/-- A field of a class amounts to edits that do not depend on those before. -/
theorem effect_class (hp : payload.type = key.type)
    (h : effect (classField table) es key payload = some es') :
    ∃ l, es' = es ++ l ∧ Amounts table key payload l ∧
      ∀ es, effect (classField table) es key payload = some (es ++ l) := by
  rcases classField_touches table key with ⟨hkey, say, puts⟩ | ⟨hkey, say, puts⟩ |
    ⟨hkey, say, puts⟩ | ⟨hkey, puts⟩ | ⟨hkey, puts⟩ | ⟨hkey, puts⟩ | ⟨hkey, say, puts⟩
  · have puts : Puts key (classField table key) say fun b es => es ++ [.flags ⟨b⟩] := puts
    obtain ⟨bits, -, rfl, heffect⟩ := puts.concat hp h
    exact ⟨_, rfl, .flags _ hkey, heffect⟩
  · obtain ⟨name, -, rfl, heffect⟩ := puts.concat hp h
    exact ⟨_, rfl, .name _ hkey, heffect⟩
  · obtain ⟨name, -, rfl, heffect⟩ := puts.concat hp h
    exact ⟨_, rfl, .companion _ hkey, heffect⟩
  · obtain ⟨f, hf, rfl, heffect⟩ := puts.concat hp h
    obtain ⟨m, rfl, hread⟩ := block_of_say hf
    exact ⟨_, rfl, .constructor hkey rfl hread, heffect⟩
  · obtain ⟨f, hf, rfl, heffect⟩ := puts.concat hp h
    obtain ⟨m, rfl, hread⟩ := block_of_say hf
    exact ⟨_, rfl, .function hkey rfl hread, heffect⟩
  · obtain ⟨p, hf, rfl, heffect⟩ := puts.concat hp h
    obtain ⟨m, rfl, hread⟩ := block_of_say hf
    exact ⟨_, rfl, .property hkey rfl hread, heffect⟩
  · -- no edit at all, which goes behind the others as well
    have ignored : MessageKind.Ignores (.node .classNode) key := ⟨hkey, nofun⟩
    have heffect : ∀ es, effect (classField table) es key payload = some (es ++ []) := by
      intro es
      rw [List.append_nil]
      exact effect_of_ignores ignored hp es
    refine ⟨[], ?_, .nothing hkey, heffect⟩
    rw [heffect] at h
    exact (Option.some.inj h).symm

/-- The fields of a class mean the same wherever they stand. -/
lemma classField_placeless (table : StringTable) : Placeless (classField table) :=
  schema_placeless table (.node .classNode)

/-- The edits of a message do not depend on those before. -/
lemma Reads.away {m : List UInt8} (h : Reads (classField table) es m es') :
    ∃ l, es' = es ++ l ∧ ∀ es, Reads (classField table) es m (es ++ l) := by
  induction h with
  | nil s =>
    refine ⟨[], (List.append_nil s).symm, fun es => ?_⟩
    rw [List.append_nil]
    exact .nil es
  | @field s s₁ s₂ bytes rest key payload spelled head _ ih =>
    obtain ⟨l, rfl, -, heffect⟩ := effect_class spelled.type_eq head
    obtain ⟨l', rfl, hrest⟩ := ih
    refine ⟨l ++ l', List.append_assoc _ _ _, fun es => ?_⟩
    rw [← List.append_assoc]
    exact .field spelled (heffect es) (hrest _)

/-- The edits of a message go behind those that were there. -/
theorem reads_class_iff {m : List UInt8} :
    Reads (classField table) es m es' ↔ ∃ l, Reads (classField table) [] m l ∧ es' = es ++ l := by
  refine ⟨fun h => ?_, ?_⟩
  · obtain ⟨l, rfl, hl⟩ := h.away
    exact ⟨l, hl [], rfl⟩
  · rintro ⟨l, h, rfl⟩
    obtain ⟨l', rfl, hl⟩ := h.away
    exact hl es

end ClassMetadata.Descent
