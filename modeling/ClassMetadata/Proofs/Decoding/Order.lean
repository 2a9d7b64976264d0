import Mathlib
import ClassMetadata.Proofs.Declaration.Exchange
import ClassMetadata.Proofs.Decoding.Edits
import ClassMetadata.Proofs.Decoding.Naming

/-!
# Fields in another order

Whoever writes a message may put its fields in any order. Two neighbours with different numbers may
change places, at any depth: each sets another part of what is read, and nothing is made of a
declaration before its message ends. Only the order of a constructor and a function of one signature
counts, since the second of them takes the signature.

* `Touches.comm`: two fields that set different parts of what was read so far may change places.
* `Exchanges` relates a message to the same message with one such change, at any depth.
* `exchanges_decode_alike` is about whole classes.
-/

namespace ClassMetadata.Descent

variable {table : StringTable} {key key' : Key} {payload payload' : Payload}

/-! ## Declarations and host members -/

/-- Two fields do the same in either order if what they put into what was read so far does. -/
lemma Touches.comm {σ β γ : Type} {schema : Schema σ} {put : β → σ → σ} {put' : γ → σ → σ}
    (h : Touches key (schema key) put) (h' : Touches key' (schema key') put')
    (comm : ∀ a b s, put' b (put a s) = put a (put' b s))
    (hp : payload.type = key.type) (hp' : payload'.type = key'.type) (s : σ) :
    (effect schema s key payload).bind (effect schema · key' payload') =
      (effect schema s key' payload').bind (effect schema · key payload) := by
  obtain ⟨say, h⟩ := h
  obtain ⟨say', h'⟩ := h'
  have first : ∀ s, effect schema s key payload = (say payload).map (put · s) :=
    fun s => h s 0 payload hp
  have second : ∀ s, effect schema s key' payload' = (say' payload').map (put' · s) :=
    fun s => h' s 0 payload' hp'
  simp only [first, second]
  cases say payload with
  | none => cases say' payload' <;> rfl
  | some a =>
    cases say' payload' with
    | none => rfl
    | some b => exact congrArg some (comm a b s)

/-- In a declaration other than a class and in a host binding, fields of different numbers do the
same in either order. -/
theorem effect_comm {kind : MessageKind} (hkind : kind ≠ .node .classNode)
    (hne : key.field.toNat ≠ key'.field.toNat) (hp : payload.type = key.type)
    (hp' : payload'.type = key'.type) (s : kind.State) :
    (effect (kind.schema table) s key payload).bind (effect (kind.schema table) · key' payload') =
      (effect (kind.schema table) s key' payload').bind
        (effect (kind.schema table) · key payload) := by
  -- two fields have the same number, or one of them says nothing, or they set two parts of a record
  match kind with
  | .node .classNode => exact absurd rfl hkind
  | .node .constructor =>
    rcases constructorField_touches table key with ⟨n, h⟩ | ⟨n, h⟩ | ⟨n, h⟩ | h <;>
      rcases constructorField_touches table key' with ⟨n', h'⟩ | ⟨n', h'⟩ | ⟨n', h'⟩ | h' <;>
      first
      | exact absurd (n.trans n'.symm) hne
      | exact h.comm h' (fun _ _ _ => rfl) hp hp' s
  | .node .function =>
    rcases functionField_touches table key with ⟨n, h⟩ | ⟨n, h⟩ | ⟨n, h⟩ | ⟨n, h⟩ | h <;>
      rcases functionField_touches table key' with ⟨n', h'⟩ | ⟨n', h'⟩ | ⟨n', h'⟩ | ⟨n', h'⟩ | h' <;>
      first
      | exact absurd (n.trans n'.symm) hne
      | exact h.comm h' (fun _ _ _ => rfl) hp hp' s
  | .node .property =>
    rcases propertyField_touches table key with ⟨n, h⟩ | ⟨n, h⟩ | ⟨n, h⟩ | ⟨n, h⟩ | ⟨n, h⟩ | h <;>
      rcases propertyField_touches table key' with
        ⟨n', h'⟩ | ⟨n', h'⟩ | ⟨n', h'⟩ | ⟨n', h'⟩ | ⟨n', h'⟩ | h' <;>
      first
      | exact absurd (n.trans n'.symm) hne
      | exact h.comm h' (fun _ _ _ => rfl) hp hp' s
  | .node .parameter =>
    rcases parameterField_touches table key with ⟨n, h⟩ | ⟨n, h⟩ | h <;>
      rcases parameterField_touches table key' with ⟨n', h'⟩ | ⟨n', h'⟩ | h' <;>
      first
      | exact absurd (n.trans n'.symm) hne
      | exact h.comm h' (fun _ _ _ => rfl) hp hp' s
  | .hostSignature =>
    rcases signatureField_touches table key with ⟨n, h⟩ | ⟨n, h⟩ | h <;>
      rcases signatureField_touches table key' with ⟨n', h'⟩ | ⟨n', h'⟩ | h' <;>
      first
      | exact absurd (n.trans n'.symm) hne
      | exact h.comm h' (fun _ _ _ => rfl) hp hp' s
  | .propertyBinding =>
    rcases bindingField_touches table key with ⟨n, h⟩ | ⟨n, h⟩ | ⟨n, h⟩ | ⟨n, h⟩ | h <;>
      rcases bindingField_touches table key' with ⟨n', h'⟩ | ⟨n', h'⟩ | ⟨n', h'⟩ | ⟨n', h'⟩ | h' <;>
      first
      | exact absurd (n.trans n'.symm) hne
      | exact h.comm h' (fun _ _ _ => rfl) hp hp' s

/-! ## One exchange -/

/-- The one field of a class is a constructor, the other is a function, and both bear the same host
signature. -/
inductive Clash (table : StringTable) : Key → Payload → Key → Payload → Prop where
  | mk {key key' : Key} {m m' : List UInt8} {f g : FunctionDecl} {signature : String} :
    key.field.toNat = 8 →
    key'.field.toNat = 9 →
    readConstructor table m = .ok f →
    readFunction table m' = .ok g →
    f.signature = some signature →
    g.signature = some signature →
    Clash table key (.block m) key' (.block m')

/-- In the second message two neighbours of different numbers have changed places, in the message
itself or in one that is nested in it. -/
inductive Exchanges (table : StringTable) : MessageKind → List UInt8 → List UInt8 → Prop where
  | swap {kind : MessageKind} {first second rest : List UInt8} {key key' : Key}
      {payload payload' : Payload} :
    Spells first key payload →
    Spells second key' payload' →
    key.field ≠ key'.field →
    (kind = .node .classNode →
      ¬ Clash table key payload key' payload' ∧ ¬ Clash table key' payload' key payload) →
    Exchanges table kind (first ++ (second ++ rest)) (second ++ (first ++ rest))
  /-- The neighbours stand behind a field. -/
  | later {kind : MessageKind} {bytes m m' : List UInt8} {key : Key} {payload : Payload} :
    Spells bytes key payload →
    Exchanges table kind m m' →
    Exchanges table kind (bytes ++ m) (bytes ++ m')
  /-- The neighbours stand in a nested message. -/
  | nest {kind child : MessageKind} {bytes bytes' body body' rest : List UInt8} {key : Key} :
    kind.nested? key.field.toNat = some child →
    Spells bytes key (.block body) →
    Spells bytes' key (.block body') →
    Exchanges table child body body' →
    Exchanges table kind (bytes ++ rest) (bytes' ++ rest)

/-- No class is nested in a message. -/
lemma child_ne_class {kind child : MessageKind} {n : Nat} (h : kind.nested? n = some child) :
    child ≠ .node .classNode := by
  unfold MessageKind.nested? at h
  split at h <;> cases h <;> nofun

/-- Different field numbers are different as numbers. -/
lemma number_ne (h : key.field ≠ key'.field) : key.field.toNat ≠ key'.field.toNat :=
  fun same => h (UInt32.toNat_inj.1 same)

/-- A nested message may stand for another one if the same is read of it. -/
lemma effect_of_nested {kind child : MessageKind} {body body' : List UInt8}
    (hchild : kind.nested? key.field.toNat = some child)
    (htype : (Payload.block body).type = key.type)
    (same : ∀ t, Reads (child.schema table) child.start body t →
      Reads (child.schema table) child.start body' t) {s s₁ : kind.State}
    (h : effect (kind.schema table) s key (.block body) = some s₁) :
    effect (kind.schema table) s key (.block body') = some s₁ := by
  obtain ⟨use, heffect⟩ := effect_nested table hchild htype.symm
  rw [heffect] at h ⊢
  obtain ⟨t, hbody, huse⟩ := Option.bind_eq_some_iff.1 h
  rw [reading_eq_some.2 (same t (reading_eq_some.1 hbody))]
  exact huse

/-- What is read of a declaration other than a class or of a host binding stays the same. -/
theorem Exchanges.reads {kind : MessageKind} {m m' : List UInt8} (h : Exchanges table kind m m')
    (hkind : kind ≠ .node .classNode) {s t : kind.State} (ht : Reads (kind.schema table) s m t) :
    Reads (kind.schema table) s m' t := by
  have placeless := schema_placeless table
  induction h with
  | @swap kind first second rest key key' payload payload' spelled spelled' hne _ =>
    obtain ⟨s₁, h₁, ht⟩ := (Reads.append_iff (placeless kind) spelled).1 ht
    obtain ⟨s₂, h₂, ht⟩ := (Reads.append_iff (placeless kind) spelled').1 ht
    have comm :=
      @effect_comm table _ _ _ _ _ hkind (number_ne hne) spelled.type_eq spelled'.type_eq s
    rw [h₁, Option.bind_some, h₂] at comm
    obtain ⟨s₁', h₁', h₂'⟩ := Option.bind_eq_some_iff.1 comm.symm
    exact .field spelled' h₁' (.field spelled h₂' ht)
  | @later kind bytes m m' key payload spelled _ ih =>
    obtain ⟨s₁, h₁, ht⟩ := (Reads.append_iff (placeless kind) spelled).1 ht
    exact .field spelled h₁ (ih hkind ht)
  | @nest kind child bytes bytes' body body' rest key hchild spelled spelled' _ ih =>
    obtain ⟨s₁, h₁, ht⟩ := (Reads.append_iff (placeless kind) spelled).1 ht
    have h₁' := effect_of_nested hchild spelled.type_eq (fun t => ih (child_ne_class hchild)) h₁
    exact .field spelled' h₁' ht

/-! ## Classes -/

/-- Two lists of edits give a class a name alike, and the classes that they build are alike. -/
structure EditsAlike (es es' : List ClassDecl.Edit) : Prop where
  named_eq : es.any namesClass = es'.any namesClass
  built : (ClassDecl.build .default "" es).Alike (.build .default "" es')

/-- Edits are like themselves. -/
lemma EditsAlike.refl (es : List ClassDecl.Edit) : EditsAlike es es := ⟨rfl, .refl _⟩

variable {e e' : ClassDecl.Edit} {l l' : List ClassDecl.Edit}

/-- Edits from different field numbers are of different kinds. -/
lemma Amounts.ctorIdx_ne (h : Amounts table key payload [e])
    (h' : Amounts table key' payload' [e']) (hne : key.field.toNat ≠ key'.field.toNat) :
    e.ctorIdx ≠ e'.ctorIdx := by
  intro same
  apply hne
  rw [h.number_eq, h'.number_eq]
  cases e <;> cases e' <;> first | rfl | cases same

/-- Edits clash only if their fields do. -/
lemma Amounts.clash (h : Amounts table key payload [e]) (h' : Amounts table key' payload' [e'])
    (clash : e.Clash e') : Clash table key payload key' payload' := by
  unfold ClassDecl.Edit.Clash at clash
  split at clash
  · obtain ⟨s, hs, hs'⟩ := clash
    cases h with
    | constructor hkey hm hread =>
      cases h' with
      | function hkey' hm' hread' =>
        subst hm hm'
        exact .mk hkey hkey' hread hread' hs hs'
  · cases clash

/-- The edits of two fields of different numbers that do not clash may change places. -/
lemma Amounts.exchange (h : Amounts table key payload l) (h' : Amounts table key' payload' l')
    (hne : key.field.toNat ≠ key'.field.toNat)
    (apart : ¬ Clash table key payload key' payload' ∧ ¬ Clash table key' payload' key payload)
    (before behind : List ClassDecl.Edit) :
    EditsAlike (before ++ l ++ l' ++ behind) (before ++ l' ++ l ++ behind) := by
  rcases h.eq_nil_or_singleton with rfl | ⟨e, rfl⟩
  · rw [List.append_nil, List.append_nil]
    exact .refl _
  rcases h'.eq_nil_or_singleton with rfl | ⟨e', rfl⟩
  · rw [List.append_nil, List.append_nil]
    exact .refl _
  refine ⟨?_, ?_⟩
  · simp only [List.any_append, Bool.or_assoc, Bool.or_left_comm]
  · rw [List.append_assoc before, List.append_assoc before [e']]
    exact ClassDecl.build_exchange (h.ctorIdx_ne h' hne)
      ⟨fun c => apart.1 (h.clash h' c), fun c => apart.2 (h'.clash h c)⟩ _ _ _ _

/-- The edits of a class stay alike. -/
theorem Exchanges.reads_class {m m' : List UInt8} (h : Exchanges table (.node .classNode) m m')
    {es t : List ClassDecl.Edit} (ht : Reads (classField table) es m t) :
    ∃ t', Reads (classField table) es m' t' ∧ EditsAlike t t' := by
  have placeless := classField_placeless table
  -- on the exchange, for whatever edits were there before
  generalize hkind : MessageKind.node .classNode = kind at h
  induction h generalizing es with
  | @swap kind first second rest key key' payload payload' spelled spelled' hne apart =>
    obtain ⟨es₁, h₁, ht⟩ := (Reads.append_iff placeless spelled).1 ht
    obtain ⟨es₂, h₂, ht⟩ := (Reads.append_iff placeless spelled').1 ht
    obtain ⟨l, rfl, amounts, heffect⟩ := effect_class spelled.type_eq h₁
    obtain ⟨l', rfl, amounts', heffect'⟩ := effect_class spelled'.type_eq h₂
    obtain ⟨behind, hrest, rfl⟩ := reads_class_iff.1 ht
    refine ⟨es ++ l' ++ l ++ behind, ?_, ?_⟩
    · exact .field spelled' (heffect' _) (.field spelled (heffect _)
        (reads_class_iff.2 ⟨_, hrest, rfl⟩))
    · exact amounts.exchange amounts' (number_ne hne) (apart hkind.symm) es behind
  | @later kind bytes m m' key payload spelled _ ih =>
    obtain ⟨es₁, h₁, ht⟩ := (Reads.append_iff placeless spelled).1 ht
    obtain ⟨t', ht', alike⟩ := ih ht hkind
    exact ⟨t', .field spelled h₁ ht', alike⟩
  | @nest kind child bytes bytes' body body' rest key hchild spelled spelled' nested _ =>
    subst hkind
    obtain ⟨es₁, h₁, ht⟩ := (Reads.append_iff placeless spelled).1 ht
    have h₁' := effect_of_nested hchild spelled.type_eq
      (fun t => nested.reads (child_ne_class hchild)) h₁
    exact ⟨t, .field spelled' h₁' ht, .refl t⟩

/-- Whoever exchanges two neighbours of different numbers, other than a constructor and a function of
one signature, has a message that is accepted as well and gives an equal class. In both messages the
names that a host binding leaves out follow from the name of the declaration, although it may stand
behind the host binding. -/
theorem exchanges_decode_alike {m m' : List UInt8} (h : Exchanges table (.node .classNode) m m')
    {c : ClassDecl} (hc : decodeMessage table m = .ok c) :
    ∃ c', decodeMessage table m' = .ok c' ∧ c.agrees c' = true ∧
      NamesFollow table m c ∧ NamesFollow table m' c' := by
  obtain ⟨edits, reads, named, rfl⟩ := decodeMessage_eq_ok_iff.1 hc
  obtain ⟨edits', reads', alike⟩ := h.reads_class reads
  have hc' : decodeMessage table m' = .ok (.build .default "" edits') :=
    decodeMessage_eq_ok_iff.2 ⟨edits', reads', alike.named_eq ▸ named, rfl⟩
  refine ⟨_, hc', ?_, decodeMessage_names hc, decodeMessage_names hc'⟩
  exact (ClassDecl.build_traces _ _ edits).agrees_of_alike (ClassDecl.build_traces _ _ edits')
    alike.built

/-- A class `A` with a function whose name stands in front of its host binding. -/
def nameFirst : List UInt8 := [0x18, 0, 0x4a, 7, 0x10, 1, 0xa2, 0x06, 2, 0x10, 2]

/-- The same class with the name of the function behind the host binding. -/
def nameLast : List UInt8 := [0x18, 0, 0x4a, 7, 0xa2, 0x06, 2, 0x10, 2, 0x10, 1]

/-- The host binding leaves the name out, and the function is found under `f()V` in both. -/
theorem exchanges_decode_alike_nameLast :
    Exchanges ⟨["A", "f", "()V"]⟩ (.node .classNode) nameFirst nameLast ∧
      ∃ c c', decodeMessage ⟨["A", "f", "()V"]⟩ nameFirst = .ok c ∧
        decodeMessage ⟨["A", "f", "()V"]⟩ nameLast = .ok c' ∧ c.agrees c' = true ∧
        c.functionBySignature "f()V" = some ⟨.default, "f", some "f()V", []⟩ := by
  have function : Exchanges ⟨["A", "f", "()V"]⟩ (.node .function)
      [0x10, 1, 0xa2, 0x06, 2, 0x10, 2] [0xa2, 0x06, 2, 0x10, 2, 0x10, 1] :=
    @Exchanges.swap _ _ [0x10, 1] [0xa2, 0x06, 2, 0x10, 2] [] ⟨2, .varint⟩ ⟨100, .lengthDelimited⟩
      (.varint 1) (.block [0x10, 2]) ⟨_, _, rfl, rfl, rfl⟩ ⟨_, _, rfl, rfl, rfl⟩ (by decide) nofun
  have exchanged : Exchanges ⟨["A", "f", "()V"]⟩ (.node .classNode) nameFirst nameLast :=
    @Exchanges.later _ _ [0x18, 0] _ _ ⟨3, .varint⟩ (.varint 0) ⟨_, _, rfl, rfl, rfl⟩ <|
    @Exchanges.nest _ _ _ (nameFirst.drop 2) (nameLast.drop 2) _ _ [] ⟨9, .lengthDelimited⟩ rfl
      ⟨_, _, rfl, rfl, rfl⟩ ⟨_, _, rfl, rfl, rfl⟩ function
  have decoded : decodeMessage ⟨["A", "f", "()V"]⟩ nameFirst =
      .ok (.build .default "" [.name "A", .function ⟨.default, "f", some "f()V", []⟩]) := by
    cbv
  obtain ⟨c', hc', agrees, -⟩ := exchanges_decode_alike exchanged decoded
  exact ⟨exchanged, _, c', decoded, hc', agrees, by decide⟩

end ClassMetadata.Descent
