import ClassMetadata.Decoding.Header
import ClassMetadata.Proofs.Declaration.Building
import ClassMetadata.Proofs.Decoding.Schema

/-!
# Streaming and descent

A class is decoded from a stream of tokens: a reader keeps a stack of frames, and an assembler keeps
what is open. The same class comes out of a recursive descent through the nested messages, with the
same error where there is one.

* `run` is the assembler at work on what a reader still gives. `run_end` and `run_field` say what it
  does with the innermost frame, one field at a time.
* `run_fields` goes through the rest of a frame. Its premises are that details and nested
  declarations do to the assembler what they do to the descent; there is one instance for each kind
  of node, from the parameter up to the class.
* `decodeMessage_eq` puts the two together.
-/

namespace ClassMetadata

namespace TokenReader

/-- A reader at its end has no tokens left. -/
lemma tokens_of_next_none {reader : TokenReader} (h : reader.next = none) : reader.tokens = [] := by
  rw [tokens, steps]
  split
  · rfl
  · rename_i h'
    rw [h] at h'
    cases h'

/-- The tokens of a reader begin with what it gives next. -/
lemma tokens_of_next {reader reader' : TokenReader} {outcome : Except DecodeError Token}
    (h : reader.next = some (outcome, reader')) : reader.tokens = outcome :: reader'.tokens := by
  rw [tokens, steps]
  split
  · rename_i h'
    rw [h] at h'
    cases h'
  · rename_i h'
    rw [h] at h'
    cases h'
    rfl

/-- Readers that go on in the same way have the same tokens. -/
lemma tokens_congr {reader reader' : TokenReader} (h : reader.next = reader'.next) :
    reader.tokens = reader'.tokens := by
  cases hn : reader'.next with
  | none => rw [tokens_of_next_none hn, tokens_of_next_none (h.trans hn)]
  | some result =>
    obtain ⟨outcome, reader''⟩ := result
    rw [tokens_of_next hn, tokens_of_next (h.trans hn)]

end TokenReader

namespace Descent

/-- The assembler after all that a reader still gives. -/
def run (table : StringTable) (reader : TokenReader) (a : Assembler) :
    Except DecodeError Assembler :=
  reader.tokens.foldlM (fun a token => do a.accept table (← token)) a

section

variable {table : StringTable} {a : Assembler}

/-- A token is accepted before the tokens behind it. -/
lemma run_of_next {reader reader' : TokenReader} {token : Token}
    (h : reader.next = some (.ok token, reader')) :
    run table reader a = a.accept table token >>= run table reader' := by
  rw [run, TokenReader.tokens_of_next h, List.foldlM_cons]
  rfl

/-- A run stops at the first error that the reader gives. -/
lemma run_of_error {reader reader' : TokenReader} {e : DecodeError}
    (h : reader.next = some (.error e, reader')) : run table reader a = .error e := by
  rw [run, TokenReader.tokens_of_next h, List.foldlM_cons]
  rfl

/-- A run ends when nothing is open any more. -/
lemma run_nil : run table (.within []) a = .ok a := by
  rw [run, TokenReader.tokens_of_next_none rfl]
  rfl

/-- A frame without fields ends its declaration. -/
lemma run_end {kind : NodeKind} {outer : List Frame} :
    run table (.within (⟨kind, []⟩ :: outer)) a = a.leave >>= run table (.within outer) := by
  have next : TokenReader.next (.within (⟨kind, []⟩ :: outer)) =
      some (.ok (.exit kind), .within outer) := rfl
  rw [run_of_next next]
  rfl

/-- A field of the innermost frame says nothing, tells a detail, or opens a declaration. -/
lemma run_field {kind : NodeKind} {field : Field} {fields : List Field} {outer : List Frame} :
    run table (.within (⟨kind, field :: fields⟩ :: outer)) a =
      match kind.readField field with
      | .error e => .error e
      | .ok none => run table (.within (⟨kind, fields⟩ :: outer)) a
      | .ok (some (.detail detail)) =>
        a.tell table detail >>= run table (.within (⟨kind, fields⟩ :: outer))
      | .ok (some (.child child message)) =>
        run table (.within (.ofMessage child message :: ⟨kind, fields⟩ :: outer)) (a.enter child) := by
  cases h : kind.readField field with
  | error e =>
    have first : TokenReader.next (.within (⟨kind, field :: fields⟩ :: outer)) =
        some (.error e, .within []) := by
      rw [TokenReader.next, NodeKind.nextEntry, h]
      rfl
    exact run_of_error first
  | ok said =>
    cases said with
    | none =>
      have same : TokenReader.next (.within (⟨kind, field :: fields⟩ :: outer)) =
          TokenReader.next (.within (⟨kind, fields⟩ :: outer)) := by
        rw [TokenReader.next, NodeKind.nextEntry, h]
        rfl
      rw [run, TokenReader.tokens_congr same]
      rfl
    | some entry =>
      cases entry with
      | detail detail =>
        have first : TokenReader.next (.within (⟨kind, field :: fields⟩ :: outer)) =
            some (.ok (.detail detail), .within (⟨kind, fields⟩ :: outer)) := by
          rw [TokenReader.next, NodeKind.nextEntry, h]
          rfl
        rw [run_of_next first]
        rfl
      | child child message =>
        have first : TokenReader.next (.within (⟨kind, field :: fields⟩ :: outer)) = some
            (.ok (.enter child), .within (.ofMessage child message :: ⟨kind, fields⟩ :: outer)) := by
          rw [TokenReader.next, NodeKind.nextEntry, h]
          rfl
        rw [run_of_next first]
        rfl

end

/-! ## The rest of a frame -/

/-- A kind of node has fields that hold declarations of another kind. -/
def Nests (node kind : NodeKind) : Prop := ∃ n, node.role? n = some (.child kind)

/-- The kinds of node that are nested in a kind of node. -/
def nested : NodeKind → List NodeKind
  | .classNode => [.constructor, .function, .property]
  | .constructor | .function => [.parameter]
  | .property | .parameter => []

/-- A node nests no other kinds. -/
lemma mem_nested {node kind : NodeKind} (h : Nests node kind) : kind ∈ nested node := by
  obtain ⟨n, h⟩ := h
  unfold NodeKind.role? at h
  split at h <;> simp_all [nested]

/-- A field that says something has a payload, which is interpreted by the role of the field. -/
lemma interpret_of_readField {node : NodeKind} {field : Field} {entry : Entry}
    (h : node.readField field = .ok (some entry)) :
    ∃ key offset payload, field = .whole key offset payload ∧
      node.interpret key offset (node.role? key.field.toNat) payload = .ok (some entry) := by
  cases field with
  | unreadable e => cases h
  | broken key e =>
    rw [NodeKind.readField] at h
    cases hk : node.checkKey key <;> rw [hk] at h <;> cases h
  | whole key offset payload =>
    rw [NodeKind.readField] at h
    cases hk : node.checkKey key with
    | error e =>
      rw [hk] at h
      cases h
    | ok u =>
      rw [hk] at h
      exact ⟨key, offset, payload, rfl, h⟩

/-- A declaration is opened by a length-delimited field with a number for it. -/
lemma child_of_readField {node kind : NodeKind} {field : Field} {message : List UInt8}
    (h : node.readField field = .ok (some (.child kind message))) :
    ∃ key offset, field = .whole key offset (.block message) ∧
      node.role? key.field.toNat = some (.child kind) := by
  obtain ⟨key, offset, payload, rfl, meant⟩ := interpret_of_readField h
  unfold NodeKind.interpret at meant
  split at meant
  · rename_i role value hrole
    cases hd : NodeKind.detail? role offset value with
    | error e =>
      rw [hd] at meant
      cases meant
    | ok said =>
      rw [hd] at meant
      cases said <;> cases meant
  · rename_i hrole
    cases meant
    exact ⟨key, offset, rfl, hrole⟩
  · by_cases holds : node.holdsExtension key.field
    · rw [if_pos holds] at meant
      cases meant
    · rw [if_neg holds] at meant
      cases meant
  · cases meant

/-- Only a node that has such fields opens a declaration. -/
lemma nests_of_readField {node kind : NodeKind} {field : Field} {message : List UInt8}
    (h : node.readField field = .ok (some (.child kind message))) : Nests node kind := by
  obtain ⟨key, offset, -, hrole⟩ := child_of_readField h
  exact ⟨_, hrole⟩

section

variable {σ : Type} (table : StringTable) (node : NodeKind)
  (tell : σ → Detail → Except DecodeError σ)
  (nest : σ → NodeKind → List UInt8 → Except DecodeError σ) (view : σ → Assembler)

/-- Details and nested declarations do to the assembler what they do to the descent. -/
structure Follows : Prop where
  tell_eq : ∀ s detail, (view s).tell table detail = (tell s detail).map view
  nest_eq : ∀ s kind message outer, Nests node kind →
    run table (.within (.ofMessage kind message :: outer)) ((view s).enter kind) =
      nest s kind message >>= fun s' => run table (.within outer) (view s')

variable {table node tell nest view}

/-- The assembler goes through the rest of a frame as the descent does, and then leaves. -/
theorem run_fields {schema : Schema σ} (h : Follows table node tell nest view)
    (obeys : ∀ key, Obeys node tell nest key (schema key)) (s : σ) (fields : List Field)
    (outer : List Frame) :
    run table (.within (⟨node, fields⟩ :: outer)) (view s) =
      fields.foldlM (absorb schema) s >>= fun s' =>
        (view s').leave >>= run table (.within outer) := by
  -- on the fields of this frame; what is nested in it is dealt with by `h`
  induction fields generalizing s with
  | nil => exact run_end
  | cons field fields ih =>
    rw [run_field, List.foldlM_cons, absorb_eq_heed obeys]
    cases hf : node.readField field with
    | error e => rfl
    | ok said =>
      cases said with
      | none => exact ih s
      | some entry =>
        cases entry with
        | detail detail =>
          show (view s).tell table detail >>= _ = tell s detail >>= _ >>= _
          rw [h.tell_eq]
          cases tell s detail with
          | error e => rfl
          | ok s' => exact ih s'
        | child kind message =>
          show run table _ ((view s).enter kind) = nest s kind message >>= _ >>= _
          rw [h.nest_eq s kind message _ (nests_of_readField hf)]
          cases nest s kind message with
          | error e => rfl
          | ok s' => exact ih s'

end

/-! ## From the parameter up to the class -/

section

variable (table : StringTable) (decl : ClassDecl) (named : Bool)

/-- A detail of a member goes to the member. -/
lemma tell_member (m : PendingMember) (detail : Detail) :
    (Assembler.mk decl named (.member m)).tell table detail =
      (m.tell table detail).map fun m => ⟨decl, named, .member m⟩ := by
  show m.tell table detail >>= _ = _
  cases m.tell table detail <;> rfl

/-- A member that ends is finished and goes into the class. -/
lemma leave_member (m : PendingMember) :
    (Assembler.mk decl named (.member m)).leave =
      m.finish.map fun e => ⟨decl.edit e, named, .body⟩ := by
  show m.finish >>= _ = _
  cases m.finish <;> rfl

/-- The assembler follows the descent into a parameter. -/
lemma follows_parameter (m : PendingMember) :
    Follows table .parameter (PendingParameter.tell table) nestNothing
      fun p => ⟨decl, named, .parameter m p⟩ where
  tell_eq p detail := by
    show p.tell table detail >>= _ = _
    cases p.tell table detail <;> rfl
  nest_eq _ _ _ _ h := nomatch mem_nested h

/-- A parameter is assembled as it is read. -/
lemma run_parameter (m : PendingMember) (message : List UInt8) (outer : List Frame) :
    run table (.within (.ofMessage .parameter message :: outer))
        ⟨decl, named, .parameter m .fresh⟩ =
      readParameter table message >>= fun p =>
        run table (.within outer) ⟨decl, named, .member (m.addParameter p)⟩ := by
  rw [Frame.ofMessage, run_fields (follows_parameter table decl named m)
    (parameterField_obeys table), readParameter, readMessage_eq_foldlM, bind_assoc]
  refine bind_congr fun p => ?_
  show (p.finish >>= _) >>= _ = p.finish >>= _
  cases p.finish <;> rfl

/-- A parameter in a constructor or function goes behind the others. -/
lemma nest_parameter {member : PendingFunction → PendingMember}
    (hmember : ∀ f p, (member f).addParameter p =
      member { f with parameters := f.parameters ++ [p] })
    (f : PendingFunction) (kind : NodeKind) (message : List UInt8) (outer : List Frame)
    (hkind : kind ∈ [NodeKind.parameter]) :
    run table (.within (.ofMessage kind message :: outer))
        ((Assembler.mk decl named (.member (member f))).enter kind) =
      nestParameter table f kind message >>= fun f =>
        run table (.within outer) ⟨decl, named, .member (member f)⟩ := by
  cases List.mem_singleton.1 hkind
  show run table _ ⟨decl, named, .parameter (member f) .fresh⟩ = _
  rw [run_parameter, nestParameter]
  cases readParameter table message with
  | error e => rfl
  | ok p => exact congrArg (fun m => run table (.within outer) ⟨decl, named, .member m⟩) (hmember f p)

/-- While a constructor is open, the assembler follows its details and parameters. -/
lemma follows_constructor :
    Follows table .constructor (tellConstructor table) (nestParameter table)
      fun f => ⟨decl, named, .member (.constructor f)⟩ where
  tell_eq f detail := by
    rw [tell_member, PendingMember.tell, tellConstructor]
    cases f.tell table detail <;> rfl
  nest_eq f kind message outer h :=
    nest_parameter table decl named (fun _ _ => rfl) f kind message outer (mem_nested h)

/-- While a function is open, the assembler follows its details and parameters. -/
lemma follows_function :
    Follows table .function (PendingFunction.tell table) (nestParameter table)
      fun f => ⟨decl, named, .member (.function f)⟩ where
  tell_eq f detail := by
    rw [tell_member, PendingMember.tell]
    cases f.tell table detail <;> rfl
  nest_eq f kind message outer h :=
    nest_parameter table decl named (fun _ _ => rfl) f kind message outer (mem_nested h)

/-- While a property is open, the assembler follows its details. -/
lemma follows_property :
    Follows table .property (PendingProperty.tell table) nestNothing
      fun p => ⟨decl, named, .member (.property p)⟩ where
  tell_eq p detail := by
    rw [tell_member, PendingMember.tell]
    cases p.tell table detail <;> rfl
  nest_eq _ _ _ _ h := nomatch mem_nested h

/-- A member whose fields are those of a message is read, finished, and goes into the class. -/
lemma run_member {σ : Type} {node : NodeKind} {tell : σ → Detail → Except DecodeError σ}
    {nest : σ → NodeKind → List UInt8 → Except DecodeError σ} {member : σ → PendingMember}
    {schema : Schema σ}
    (h : Follows table node tell nest fun s => ⟨decl, named, .member (member s)⟩)
    (obeys : ∀ key, Obeys node tell nest key (schema key)) (s : σ) (message : List UInt8)
    (outer : List Frame) :
    run table (.within (.ofMessage node message :: outer)) ⟨decl, named, .member (member s)⟩ =
      readMessage schema s (.ofBytes message) >>= fun s' =>
        (member s').finish >>= fun e =>
          run table (.within outer) ⟨decl.edit e, named, .body⟩ := by
  rw [Frame.ofMessage, run_fields h obeys, readMessage_eq_foldlM]
  refine bind_congr fun s' => ?_
  rw [leave_member]
  cases (member s').finish <;> rfl

/-- A constructor is assembled as it is read. -/
lemma run_constructor (message : List UInt8) (outer : List Frame) :
    run table (.within (.ofMessage .constructor message :: outer))
        ⟨decl, named, .member (.constructor .freshConstructor)⟩ =
      readConstructor table message >>= fun f =>
        run table (.within outer) ⟨decl.edit (.constructor f), named, .body⟩ := by
  rw [run_member table decl named (follows_constructor table decl named)
    (constructorField_obeys table), readConstructor, bind_assoc]
  refine bind_congr fun f => ?_
  rw [PendingMember.finish]
  cases f.finish .constructor <;> rfl

/-- A run through a function reads the function and goes on behind it. -/
lemma run_function (message : List UInt8) (outer : List Frame) :
    run table (.within (.ofMessage .function message :: outer))
        ⟨decl, named, .member (.function .fresh)⟩ =
      readFunction table message >>= fun f =>
        run table (.within outer) ⟨decl.edit (.function f), named, .body⟩ := by
  rw [run_member table decl named (follows_function table decl named)
    (functionField_obeys table), readFunction, bind_assoc]
  refine bind_congr fun f => ?_
  rw [PendingMember.finish]
  cases f.finish .function <;> rfl

/-- A run through a property reads the property and goes on behind it. -/
lemma run_property (message : List UInt8) (outer : List Frame) :
    run table (.within (.ofMessage .property message :: outer))
        ⟨decl, named, .member (.property .fresh)⟩ =
      readProperty table message >>= fun p =>
        run table (.within outer) ⟨decl.edit (.property p), named, .body⟩ := by
  rw [run_member table decl named (follows_property table decl named)
    (propertyField_obeys table), readProperty, bind_assoc]
  refine bind_congr fun p => ?_
  rw [PendingMember.finish]
  cases p.finish <;> rfl

end

/-- The assembler inside the body of a class that edits have built so far. -/
def bodyOf (edits : List ClassDecl.Edit) : Assembler :=
  ⟨.build .default "" edits, edits.any namesClass, .body⟩

/-- One more edit of the class, as the assembler makes it. -/
lemma bodyOf_concat (edits : List ClassDecl.Edit) (e : ClassDecl.Edit) :
    bodyOf (edits ++ [e]) = ⟨(ClassDecl.build .default "" edits).edit e,
      edits.any namesClass || namesClass e, .body⟩ := by
  rw [bodyOf, ClassDecl.build_concat, List.any_append]
  simp

/-- One more edit of the class that leaves it as named as it was. -/
lemma bodyOf_concat_of_not {edits : List ClassDecl.Edit} {e : ClassDecl.Edit}
    (h : namesClass e = false) : bodyOf (edits ++ [e]) =
      ⟨(ClassDecl.build .default "" edits).edit e, edits.any namesClass, .body⟩ := by
  rw [bodyOf_concat, h, Bool.or_false]

/-- The assembler follows the descent into a class. -/
lemma follows_class (table : StringTable) :
    Follows table .classNode (tellClass table) (nestMember table) bodyOf where
  tell_eq edits detail := by
    cases detail with
    | flags bits => exact congrArg Except.ok (bodyOf_concat_of_not rfl).symm
    | name index =>
      show (do return Assembler.mk (.edit _ (.name (← table.get index))) true .body) =
        (do return edits ++ [.name (← table.get index)] : Except _ _).map bodyOf
      cases table.get index with
      | error e => rfl
      | ok n =>
        refine congrArg Except.ok ?_
        rw [bodyOf_concat, namesClass, Bool.or_true]
        rfl
    | companion index =>
      show (do return Assembler.mk (.edit _ (.companion (← table.get index))) _ .body) =
        (do return edits ++ [.companion (← table.get index)] : Except _ _).map bodyOf
      cases table.get index with
      | error e => rfl
      | ok n => exact congrArg Except.ok (bodyOf_concat_of_not rfl).symm
    | _ => rfl
  nest_eq edits kind message outer h := by
    have members := mem_nested h
    simp only [nested, List.mem_cons, List.not_mem_nil, or_false] at members
    rcases members with rfl | rfl | rfl
    · show run table _ ⟨_, _, .member (.constructor .freshConstructor)⟩ = _
      rw [run_constructor, nestMember]
      cases readConstructor table message with
      | error e => rfl
      | ok f => exact congrArg (run table (.within outer)) (bodyOf_concat_of_not rfl).symm
    · show run table _ ⟨_, _, .member (.function .fresh)⟩ = _
      rw [run_function, nestMember]
      cases readFunction table message with
      | error e => rfl
      | ok f => exact congrArg (run table (.within outer)) (bodyOf_concat_of_not rfl).symm
    · show run table _ ⟨_, _, .member (.property .fresh)⟩ = _
      rw [run_property, nestMember]
      cases readProperty table message with
      | error e => rfl
      | ok p => exact congrArg (run table (.within outer)) (bodyOf_concat_of_not rfl).symm

/-- The assembler reads a class as the descent does. -/
lemma decodeMessage_eq (table : StringTable) (message : List UInt8) :
    decodeMessage table message = readClass table message := by
  show run table (.fresh message) .start >>= Assembler.finish = _
  have first : TokenReader.next (.fresh message) =
      some (.ok (.enter .classNode), .within [.ofMessage .classNode message]) := rfl
  rw [run_of_next first]
  show run table (.within [⟨.classNode, fieldsOf message⟩]) (bodyOf []) >>= Assembler.finish = _
  rw [run_fields (follows_class table) (classField_obeys table), readClass, readEdits,
    readMessage_eq_foldlM]
  change (fieldsOf message).foldlM _ _ >>= _ >>= _ = (fieldsOf message).foldlM _ _ >>= _
  cases (fieldsOf message).foldlM (absorb (classField table)) [] with
  | error e => rfl
  | ok edits =>
    show run table (.within []) ⟨.build .default "" edits, edits.any namesClass, .after⟩
      >>= Assembler.finish = _
    rw [run_nil]
    show Assembler.finish _ = if edits.any namesClass then _ else _
    rw [Assembler.finish]
    cases edits.any namesClass <;> rfl

end Descent

end ClassMetadata
