import ClassMetadata.Proofs.Decoding.Streaming

/-!
# What becomes of nested declarations

Every nested message that is read becomes one member or parameter of the declaration around it, and
nothing else does: they stand in the order of the bytes.

* `blocks` lists the messages nested under a field number.
* `Collects` says of one step that it puts at most what it read behind what was there, and
  `Collects.message` carries this through all fields of a message.
* `decodeMessage_descends` says how tokens, descent and nested messages belong together.
-/

namespace ClassMetadata

/-- What a field holds, if it is length-delimited and has a number. -/
def Field.block? (n : Nat) : Field → Option (List UInt8)
  | whole key _ (.block bytes) => if key.field.toNat = n then some bytes else none
  | _ => none

/-- The messages nested under a field number, in the order of the bytes. -/
def blocks (n : Nat) (message : List UInt8) : List (List UInt8) :=
  (fieldsOf message).filterMap (Field.block? n)

namespace Descent

/-- A field opens a declaration of a kind when it is length-delimited and has the number for it. -/
lemma block?_eq_some_iff {node kind : NodeKind} {n : Nat} {field : Field} {said : Option Entry}
    (hn : ∀ i, node.role? i = some (.child kind) ↔ i = n) (h : node.readField field = .ok said)
    {message : List UInt8} :
    field.block? n = some message ↔ said = some (.child kind message) := by
  refine ⟨fun hb => ?_, ?_⟩
  · unfold Field.block? at hb
    split at hb
    · rename_i key offset bytes
      split at hb
      · rename_i hkey
        cases hb
        rw [NodeKind.readField, (hn _).2 hkey] at h
        cases hk : node.checkKey key with
        | error e =>
          rw [hk] at h
          cases h
        | ok u =>
          rw [hk] at h
          cases h
          rfl
      · cases hb
    · cases hb
  · rintro rfl
    obtain ⟨key, offset, rfl, hrole⟩ := child_of_readField h
    rw [Field.block?, if_pos ((hn _).1 hrole)]

section

variable {σ β : Type} (node : NodeKind) (tell : σ → Detail → Except DecodeError σ)
  (nest : σ → NodeKind → List UInt8 → Except DecodeError σ)

/-- What is read of the declarations of one kind goes behind what was there; nothing else does. -/
structure Collects (kind : NodeKind) (read : List UInt8 → Except DecodeError β)
    (listed : σ → List β) : Prop where
  tell_eq : ∀ {s detail s'}, tell s detail = .ok s' → listed s' = listed s
  nest_eq : ∀ {s message s'}, nest s kind message = .ok s' →
    ∃ b, read message = .ok b ∧ listed s' = listed s ++ [b]
  other_eq : ∀ {s other message s'}, Nests node other → other ≠ kind →
    nest s other message = .ok s' → listed s' = listed s

variable {node tell nest} {kind : NodeKind} {read : List UInt8 → Except DecodeError β}
  {listed : σ → List β} {schema : Schema σ} {n : Nat}

/-- One field puts at most what it read behind what was there. -/
lemma Collects.absorb (h : Collects node tell nest kind read listed)
    (obeys : ∀ key, Obeys node tell nest key (schema key))
    (hn : ∀ i, node.role? i = some (.child kind) ↔ i = n) {s s' : σ} {field : Field}
    (hs : absorb schema s field = .ok s') :
    ∃ bs, (field.block? n).toList.mapM read = .ok bs ∧ listed s' = listed s ++ bs := by
  rw [absorb_eq_heed obeys] at hs
  cases hf : node.readField field with
  | error e =>
    rw [hf] at hs
    cases hs
  | ok said =>
    rw [hf] at hs
    change heed tell nest s said = .ok s' at hs
    have said_iff := @block?_eq_some_iff _ _ _ _ _ hn hf
    cases hb : field.block? n with
    | some message =>
      rw [said_iff.1 hb] at hs
      obtain ⟨b, hread, hlisted⟩ := h.nest_eq hs
      refine ⟨[b], ?_, hlisted⟩
      rw [Option.toList_some, List.mapM_cons, hread]
      rfl
    | none =>
      -- a detail, a declaration of another kind, or nothing at all
      refine ⟨[], rfl, ?_⟩
      rw [List.append_nil]
      match said, hs with
      | none, hs =>
        cases hs
        rfl
      | some (.detail detail), hs => exact h.tell_eq hs
      | some (.child other message), hs =>
        refine h.other_eq (nests_of_readField hf) ?_ hs
        rintro rfl
        rw [said_iff.2 rfl] at hb
        cases hb

/-- All fields of a message put what they read behind what was there, in order. -/
lemma Collects.fields (h : Collects node tell nest kind read listed)
    (obeys : ∀ key, Obeys node tell nest key (schema key))
    (hn : ∀ i, node.role? i = some (.child kind) ↔ i = n) {s s' : σ} {fields : List Field}
    (hs : fields.foldlM (Descent.absorb schema) s = .ok s') :
    ∃ bs, (fields.filterMap (Field.block? n)).mapM read = .ok bs ∧ listed s' = listed s ++ bs := by
  induction fields generalizing s with
  | nil =>
    cases hs
    exact ⟨[], rfl, (List.append_nil _).symm⟩
  | cons field fields ih =>
    rw [List.foldlM_cons] at hs
    cases hfield : Descent.absorb schema s field with
    | error e =>
      rw [hfield] at hs
      cases hs
    | ok s₁ =>
      rw [hfield] at hs
      obtain ⟨bs, hbs, hlisted⟩ := h.absorb obeys hn hfield
      obtain ⟨bs', hbs', hlisted'⟩ := ih hs
      refine ⟨bs ++ bs', ?_, ?_⟩
      · have split : (field :: fields).filterMap (Field.block? n) =
            (field.block? n).toList ++ fields.filterMap (Field.block? n) := by
          rw [List.filterMap_cons]
          cases field.block? n <;> rfl
        rw [split, List.mapM_append, hbs, hbs']
        rfl
      · rw [hlisted', hlisted, List.append_assoc]

/-- What is listed after a message is what its nested messages say. -/
lemma Collects.message (h : Collects node tell nest kind read listed)
    (obeys : ∀ key, Obeys node tell nest key (schema key))
    (hn : ∀ i, node.role? i = some (.child kind) ↔ i = n) {s s' : σ} (hnil : listed s = [])
    {message : List UInt8} (hs : readMessage schema s (.ofBytes message) = .ok s') :
    (blocks n message).mapM read = .ok (listed s') := by
  rw [readMessage_eq_foldlM] at hs
  obtain ⟨bs, hbs, hlisted⟩ := h.fields obeys hn hs
  rw [hlisted, hnil, List.nil_append]
  exact hbs

end

/-- What no detail and no nested declaration touches is the same after a message. -/
lemma kept_of_readMessage {σ α : Type} {node : NodeKind} {tell : σ → Detail → Except DecodeError σ}
    {nest : σ → NodeKind → List UInt8 → Except DecodeError σ} {schema : Schema σ} {part : σ → α}
    (obeys : ∀ key, Obeys node tell nest key (schema key))
    (htell : ∀ {s detail s'}, tell s detail = .ok s' → part s' = part s)
    (hnest : ∀ {s kind message s'}, nest s kind message = .ok s' → part s' = part s) {s s' : σ}
    {c : Cursor} (h : readMessage schema s c = .ok s') : part s' = part s := by
  rw [readMessage_eq_foldlM] at h
  generalize c.fields = fields at h
  induction fields generalizing s with
  | nil =>
    cases h
    rfl
  | cons field fields ih =>
    rw [List.foldlM_cons, absorb_eq_heed obeys] at h
    obtain ⟨s₁, h₁, h⟩ := ok_of_bind h
    obtain ⟨said, -, h₁⟩ := ok_of_bind h₁
    rw [ih h]
    match said, h₁ with
    | none, h₁ =>
      cases h₁
      rfl
    | some (.detail detail), h₁ => exact htell h₁
    | some (.child kind message), h₁ => exact hnest h₁

/-- Where the members of a list were read, each of them was, and nothing else was. -/
lemma mem_of_mapM {α β : Type} {read : α → Except DecodeError β} {l : List α} {bs : List β}
    (h : l.mapM read = .ok bs) :
    (∀ a ∈ l, ∃ b, read a = .ok b) ∧ ∀ b ∈ bs, ∃ a ∈ l, read a = .ok b := by
  induction l generalizing bs with
  | nil =>
    cases h
    exact ⟨nofun, nofun⟩
  | cons a l ih =>
    rw [List.mapM_cons] at h
    obtain ⟨b, hb, h⟩ := ok_of_bind h
    obtain ⟨bs, hbs, h⟩ := ok_of_bind h
    cases h
    obtain ⟨hread, hsource⟩ := ih hbs
    refine ⟨List.forall_mem_cons.2 ⟨⟨b, hb⟩, hread⟩, List.forall_mem_cons.2 ⟨?_, fun b' hb' => ?_⟩⟩
    · exact ⟨a, List.mem_cons_self, hb⟩
    · obtain ⟨a', ha', hread'⟩ := hsource b' hb'
      exact ⟨a', List.mem_cons_of_mem a ha', hread'⟩

/-! ## The nested messages of each kind -/

/-- The field numbers that hold nested declarations. -/
lemma role?_eq_child_iff {node kind : NodeKind} {n : Nat} :
    node.role? n = some (.child kind) ↔ (node, kind, n) ∈
      [(.classNode, .constructor, 8), (.classNode, .function, 9), (.classNode, .property, 10),
        (.constructor, .parameter, 2), (.function, .parameter, 6)] := by
  refine ⟨fun h => ?_, fun h => ?_⟩
  · unfold NodeKind.role? at h
    split at h <;> simp_all
  · simp only [List.mem_cons, List.not_mem_nil, or_false, Prod.mk.injEq] at h
    rcases h with ⟨rfl, rfl, rfl⟩ | ⟨rfl, rfl, rfl⟩ | ⟨rfl, rfl, rfl⟩ | ⟨rfl, rfl, rfl⟩ |
      ⟨rfl, rfl, rfl⟩ <;> rfl

section

variable (table : StringTable)

/-- The kind of node that an edit adds to a class, if it adds one. -/
def added : ClassDecl.Edit → Option NodeKind
  | .flags _ | .name _ | .companion _ => none
  | .constructor _ => some .constructor
  | .function _ => some .function
  | .property _ => some .property

/-- A detail of a class is at most one edit, and that adds nothing. -/
lemma tellClass_ok {es es' : List ClassDecl.Edit} {detail : Detail}
    (h : tellClass table es detail = .ok es') :
    es' = es ∨ ∃ e, added e = none ∧ es' = es ++ [e] := by
  cases detail with
  | flags bits =>
    cases h
    exact .inr ⟨_, rfl, rfl⟩
  | name index =>
    obtain ⟨n, -, h⟩ := ok_of_bind h
    cases h
    exact .inr ⟨_, rfl, rfl⟩
  | companion index =>
    obtain ⟨n, -, h⟩ := ok_of_bind h
    cases h
    exact .inr ⟨_, rfl, rfl⟩
  | _ =>
    cases h
    exact .inl rfl

/-- What was read is one more edit. -/
lemma concat_ok {α : Type} {read : Except DecodeError α} {edit : α → ClassDecl.Edit}
    {es es' : List ClassDecl.Edit} (h : (do return es ++ [edit (← read)]) = .ok es') :
    ∃ a, read = .ok a ∧ es' = es ++ [edit a] := by
  obtain ⟨a, ha, h⟩ := ok_of_bind h
  cases h
  exact ⟨a, ha, rfl⟩

/-- A nested declaration is one edit, which adds a member of its kind. -/
lemma nestMember_ok {es es' : List ClassDecl.Edit} {kind : NodeKind} {message : List UInt8}
    (hkind : Nests .classNode kind) (h : nestMember table es kind message = .ok es') :
    ∃ e, added e = some kind ∧ es' = es ++ [e] := by
  have members := mem_nested hkind
  simp only [nested, List.mem_cons, List.not_mem_nil, or_false] at members
  rcases members with rfl | rfl | rfl
  all_goals
    obtain ⟨a, -, rfl⟩ := concat_ok h
    exact ⟨_, rfl, rfl⟩

/-- A class collects the members of a kind from the messages nested under it. -/
lemma collects_members {β : Type} (kind : NodeKind) {read : List UInt8 → Except DecodeError β}
    {edit : β → ClassDecl.Edit} {member? : ClassDecl.Edit → Option β}
    (hnest : ∀ es message,
      nestMember table es kind message = (do return es ++ [edit (← read message)]))
    (hedit : ∀ b, member? (edit b) = some b)
    (hother : ∀ e, added e ≠ some kind → member? e = none) :
    Collects .classNode (tellClass table) (nestMember table) kind read
      (List.filterMap member?) where
  tell_eq h := by
    rcases tellClass_ok table h with rfl | ⟨e, he, rfl⟩
    · rfl
    · exact filterMap_concat_none _ (hother e (by rw [he]; nofun))
  nest_eq h := by
    rw [hnest] at h
    obtain ⟨b, hread, rfl⟩ := concat_ok h
    exact ⟨b, hread, filterMap_concat_some _ (hedit b)⟩
  other_eq hnests hkind h := by
    obtain ⟨e, he, rfl⟩ := nestMember_ok table hnests h
    refine filterMap_concat_none _ (hother e ?_)
    rw [he]
    exact fun same => hkind (Option.some.inj same)

/-- The edits of a class are those that its nested messages say, kind by kind. -/
lemma readEdits_members {message : List UInt8} {es : List ClassDecl.Edit}
    (h : readEdits table message = .ok es) :
    (blocks 8 message).mapM (readConstructor table) =
        .ok (es.filterMap ClassDecl.Edit.constructor?) ∧
      (blocks 9 message).mapM (readFunction table) = .ok (es.filterMap ClassDecl.Edit.function?) ∧
      (blocks 10 message).mapM (readProperty table) =
        .ok (es.filterMap ClassDecl.Edit.property?) := by
  refine ⟨?_, ?_, ?_⟩
  · refine (collects_members table .constructor (fun _ _ => rfl) (fun _ => rfl) ?_).message
      (classField_obeys table) (fun i => by simp [role?_eq_child_iff]) rfl h
    rintro (_ | _ | _ | _ | _ | _) hadded <;> first | rfl | exact absurd rfl hadded
  · refine (collects_members table .function (fun _ _ => rfl) (fun _ => rfl) ?_).message
      (classField_obeys table) (fun i => by simp [role?_eq_child_iff]) rfl h
    rintro (_ | _ | _ | _ | _ | _) hadded <;> first | rfl | exact absurd rfl hadded
  · refine (collects_members table .property (fun _ _ => rfl) (fun _ => rfl) ?_).message
      (classField_obeys table) (fun i => by simp [role?_eq_child_iff]) rfl h
    rintro (_ | _ | _ | _ | _ | _) hadded <;> first | rfl | exact absurd rfl hadded

/-- No detail of a constructor or function touches its parameters. -/
lemma tell_parameters {f f' : PendingFunction} {detail : Detail}
    (h : f.tell table detail = .ok f') : f'.parameters = f.parameters := by
  cases detail with
  | name index =>
    obtain ⟨n, -, h⟩ := ok_of_bind h
    cases h
    rfl
  | extension tag message =>
    rw [PendingFunction.tell] at h
    by_cases htag : tag.toNat = hostBindingTag
    · rw [if_pos htag] at h
      obtain ⟨s, -, h⟩ := ok_of_bind h
      cases h
      rfl
    · rw [if_neg htag] at h
      cases h
      rfl
  | _ =>
    cases h
    rfl

/-- A constructor or function collects its parameters from the messages nested in it. -/
lemma collects_parameters {node : NodeKind} {tell : PendingFunction → Detail → Except DecodeError _}
    (htell : ∀ {f detail f'}, tell f detail = .ok f' → f'.parameters = f.parameters)
    (hnode : nested node = [.parameter]) :
    Collects node tell (nestParameter table) .parameter (readParameter table)
      PendingFunction.parameters where
  tell_eq := htell
  nest_eq {f message f'} h := by
    obtain ⟨p, hp, h⟩ := ok_of_bind h
    cases h
    exact ⟨p, hp, rfl⟩
  other_eq hnests hkind _ := by
    have parameter := mem_nested hnests
    rw [hnode, List.mem_singleton] at parameter
    exact absurd parameter hkind

/-- A finished constructor or function has the parameters that it had. -/
lemma parameters_of_finish {f : PendingFunction} {kind : NodeKind} {g : FunctionDecl}
    (h : f.finish kind = .ok g) : g.parameters = f.parameters := by
  obtain ⟨name, -, rfl⟩ := PendingFunction.finish_eq_ok_iff.1 h
  rfl

/-- A function has the parameters nested in its message, in the order of the bytes. -/
lemma readFunction_parameters {message : List UInt8} {f : FunctionDecl}
    (h : readFunction table message = .ok f) :
    (blocks 6 message).mapM (readParameter table) = .ok f.parameters := by
  obtain ⟨pending, hm, h⟩ := ok_of_bind h
  rw [parameters_of_finish h]
  exact (collects_parameters table (tell_parameters table) rfl).message (functionField_obeys table)
    (fun i => by simp [role?_eq_child_iff]) rfl hm

/-- A constructor has the parameters nested in its message, in the order of the bytes. -/
lemma readConstructor_parameters {message : List UInt8} {f : FunctionDecl}
    (h : readConstructor table message = .ok f) :
    (blocks 2 message).mapM (readParameter table) = .ok f.parameters := by
  obtain ⟨pending, hm, h⟩ := ok_of_bind h
  rw [parameters_of_finish h]
  refine (collects_parameters table ?_ rfl).message (constructorField_obeys table)
    (fun i => by simp [role?_eq_child_iff]) rfl hm
  intro f detail f' htell
  obtain ⟨told, ht, htell⟩ := ok_of_bind htell
  cases htell
  have kept := tell_parameters table ht
  exact kept

/-- Every constructor that is read has the name of constructors. -/
lemma readConstructor_name {message : List UInt8} {f : FunctionDecl}
    (h : readConstructor table message = .ok f) : f.name = FunctionDecl.constructorName := by
  obtain ⟨pending, hm, h⟩ := ok_of_bind h
  have named : pending.name = some FunctionDecl.constructorName := by
    refine kept_of_readMessage (constructorField_obeys table) ?_ ?_ hm
    · intro f detail f' htell
      obtain ⟨told, -, htell⟩ := ok_of_bind htell
      cases htell
      rfl
    · intro f kind message f' hnest
      obtain ⟨p, -, hnest⟩ := ok_of_bind hnest
      cases hnest
      rfl
  obtain ⟨name, hname, rfl⟩ := PendingFunction.finish_eq_ok_iff.1 h
  rw [named] at hname
  exact (Option.some.inj hname).symm

/-- A class that was read was built from edits, and its constructors have their name. -/
lemma built_of_decodeMessage {message : List UInt8} {c : ClassDecl}
    (h : decodeMessage table message = .ok c) :
    ∃ edits, c = .build .default "" edits ∧
      ∀ f ∈ c.constructors, f.name = FunctionDecl.constructorName := by
  rw [decodeMessage_eq] at h
  obtain ⟨edits, hedits, h⟩ := ok_of_bind h
  split at h <;> cases h
  refine ⟨edits, rfl, fun f hf => ?_⟩
  obtain ⟨constructors, -⟩ := readEdits_members table hedits
  rw [(ClassDecl.build_traces .default "" edits).constructors_eq, List.mem_eraseDups] at hf
  obtain ⟨message, -, hread⟩ := (mem_of_mapM constructors).2 f hf
  exact readConstructor_name table hread

end

/-- Tokens and descent read the same class from a message, or give the same error. The members of a
class that was read are the messages nested in its own, each under the field number of its kind, in
the order of the bytes; of equal constructors only the first stays. In the same way a constructor or
function has the parameters nested in its own message. -/
theorem decodeMessage_descends (table : StringTable) (message : List UInt8) :
    decodeMessage table message = readClass table message ∧
      (∀ c, decodeMessage table message = .ok c →
        (∃ constructors, (blocks 8 message).mapM (readConstructor table) = .ok constructors ∧
          c.constructors = constructors.eraseDups) ∧
        (blocks 9 message).mapM (readFunction table) = .ok c.functions ∧
        (blocks 10 message).mapM (readProperty table) = .ok c.properties) ∧
      (∀ nested f, readConstructor table nested = .ok f →
        (blocks 2 nested).mapM (readParameter table) = .ok f.parameters) ∧
      (∀ nested f, readFunction table nested = .ok f →
        (blocks 6 nested).mapM (readParameter table) = .ok f.parameters) := by
  refine ⟨decodeMessage_eq table message, ?_, ?_, ?_⟩
  · intro c h
    rw [decodeMessage_eq] at h
    obtain ⟨edits, hedits, h⟩ := ok_of_bind h
    obtain ⟨hconstructors, hfunctions, hproperties⟩ := readEdits_members table hedits
    split at h <;> cases h
    have traces := ClassDecl.build_traces .default "" edits
    refine ⟨⟨_, hconstructors, traces.constructors_eq⟩, ?_, ?_⟩
    · rw [traces.functions_eq]
      exact hfunctions
    · rw [traces.properties_eq]
      exact hproperties
  · exact fun nested f h => readConstructor_parameters table h
  · exact fun nested f h => readFunction_parameters table h

end Descent

end ClassMetadata
