import ClassMetadata.Proofs.Decoding.Streaming

/-!
# An assembler that holds what is pending side by side

The focus of an `Assembler` is a stack: a parameter is in focus together with its member. A
`FlatAssembler` has instead one place for a pending member, one for a pending parameter and a mark that
the class has ended, and each of them is filled and emptied by the tokens alone. It takes what is
pending for what is open, and where a token does not go with that, it carries on without an error.

* `FlatAssembler.Loses` are the tokens that do not go with what is pending, and
  `FlatAssembler.Records` gives the assembler behind every token that does, place by place.
* `PendingMember.Declares` is what a member comes to that ends: it stands in the list of its kind, and
  its signature finds it.
* `FlatAssembler.records_or_loses`: there is nothing else that can become of a token, save that an
  extension of an unknown tag is passed over.
-/

namespace ClassMetadata

open Descent (nested)

namespace PendingMember

/-- The kind of node that a member is. -/
def kind : PendingMember → NodeKind
  | constructor _ => .constructor
  | function _ => .function
  | property _ => .property

/-- The member under flags. -/
def setFlags (flags : Flags) : PendingMember → PendingMember
  | constructor f => constructor { f with flags := flags }
  | function f => function { f with flags := flags }
  | property p => property { p with flags := flags }

/-- The member under a name. A constructor keeps the one it has. -/
def setName (name : String) : PendingMember → PendingMember
  | constructor f => constructor f
  | function f => function { f with name := some name }
  | property p => property { p with name := some name }

/-- The member with the host binding in a payload. -/
def bindHost (table : StringTable) (payload : List UInt8) :
    PendingMember → Except DecodeError PendingMember
  | constructor f =>
    return constructor { f with binding := some (← HostSignature.read table payload) }
  | function f => return function { f with binding := some (← HostSignature.read table payload) }
  | property p => return property { p with binding := ← PropertyBinding.read table payload }

end PendingMember

/-- An extension that is not a host binding. -/
def Token.IsForeign : Token → Prop
  | detail (.extension tag _) => tag.toNat ≠ 100
  | _ => False

/-! ## What becomes of a member -/

namespace PendingMember

/-- What becomes of a class by a member that has ended. The member stands in the list of its kind under
its name, with all that was told of it, and its signature finds it. Nothing else of the class is other
than it was. -/
inductive Declares (c c' : ClassDecl) : PendingMember → Prop where
  /-- Of equal constructors only the first is listed. -/
  | constructor {f : PendingFunction} {name : String} {d : FunctionDecl} :
    f.name = some name →
    d = ⟨f.flags, name, f.binding.bind fun s => s.descriptor.map (s.name.getD name ++ ·),
      f.parameters⟩ →
    c'.constructors = (if d ∈ c.constructors then c.constructors else c.constructors ++ [d]) →
    c' = { c with constructors := c'.constructors, functionTable := c'.functionTable } →
    (∀ s, d.signature = some s → c'.functionBySignature s = some d) →
    (∀ s, d.signature ≠ some s → c'.functionTable.get? s = c.functionTable.get? s) →
    Declares c c' (.constructor f)
  | function {f : PendingFunction} {name : String} {d : FunctionDecl} :
    f.name = some name →
    d = ⟨f.flags, name, f.binding.bind fun s => s.descriptor.map (s.name.getD name ++ ·),
      f.parameters⟩ →
    c'.functions = c.functions ++ [d] →
    c' = { c with functions := c'.functions, functionTable := c'.functionTable } →
    (∀ s, d.signature = some s → c'.functionBySignature s = some d) →
    (∀ s, d.signature ≠ some s → c'.functionTable.get? s = c.functionTable.get? s) →
    Declares c c' (.function f)
  | property {p : PendingProperty} {name : String} {d : PropertyDecl} :
    p.name = some name →
    d = {
      flags := p.flags
      name := name
      getterFlags := p.getterFlags
      setterFlags := p.setterFlags
      fieldSignature := p.binding.field.bind fun s =>
        s.descriptor.map (s.name.getD name ++ ":" ++ ·)
      getterSignature := p.binding.getter.bind fun s =>
        s.descriptor.map (s.name.getD (AccessorName.getter name) ++ ·)
      setterSignature := p.binding.setter.bind fun s =>
        s.descriptor.map (s.name.getD (AccessorName.setter name) ++ ·)
      carrierSignature := p.binding.carrier.bind fun s =>
        s.descriptor.map (s.name.getD (name ++ "$annotations") ++ ·) } →
    c'.properties = c.properties ++ [d] →
    c' = { c with properties := c'.properties, fieldTable := c'.fieldTable } →
    (∀ s, d.fieldSignature = some s → c'.propertyByField s = some d) →
    (∀ s, d.fieldSignature ≠ some s → c'.fieldTable.get? s = c.fieldTable.get? s) →
    Declares c c' (.property p)

/-- A member that ends is declared in its class. -/
lemma declares_edit {m : PendingMember} {e : ClassDecl.Edit} (h : m.finish = .ok e) (c : ClassDecl) :
    m.Declares c (c.edit e) := by
  cases m with
  | constructor f =>
    obtain ⟨d, finished, h⟩ := ok_of_bind h
    cases h
    obtain ⟨name, named, hd⟩ := PendingFunction.finish_eq_ok_iff.1 finished
    refine .constructor named hd rfl rfl (fun s hs => ?_) fun s hs => ?_
    · exact c.functionBySignature_addConstructor hs
    · exact (SignatureTable.get?_insert? ..).trans (if_neg hs)
  | function f =>
    obtain ⟨d, finished, h⟩ := ok_of_bind h
    cases h
    obtain ⟨name, named, hd⟩ := PendingFunction.finish_eq_ok_iff.1 finished
    refine .function named hd rfl rfl (fun s hs => ?_) fun s hs => ?_
    · exact c.functionBySignature_addFunction hs
    · exact (SignatureTable.get?_insert? ..).trans (if_neg hs)
  | property p =>
    obtain ⟨d, finished, h⟩ := ok_of_bind h
    cases h
    obtain ⟨name, named, hd⟩ := PendingProperty.finish_eq_ok_iff.1 finished
    refine .property named hd rfl rfl (fun s hs => ?_) fun s hs => ?_
    · exact c.propertyByField_addProperty hs
    · exact (SignatureTable.get?_insert? ..).trans (if_neg hs)

end PendingMember

/-! ## The assembler -/

/-- A class that is being put together, and what is pending of it. -/
structure FlatAssembler where
  decl : ClassDecl
  /-- The class has been given a name. -/
  named : Bool
  member : Option PendingMember
  parameter : Option PendingParameter
  /-- The class has ended. -/
  finished : Bool
  deriving DecidableEq

namespace FlatAssembler

/-- The assembler before the first token. -/
def start : FlatAssembler := ⟨.empty .default "", false, none, none, false⟩

/-- The assembler after a declaration has begun. It takes the place of what was pending there. -/
def enter (a : FlatAssembler) : NodeKind → FlatAssembler
  | .classNode => a
  | .constructor => { a with member := some (.constructor .freshConstructor) }
  | .function => { a with member := some (.function .fresh) }
  | .property => { a with member := some (.property .fresh) }
  | .parameter => { a with parameter := some .fresh }

/-- The assembler after a parameter has ended. It goes to the pending member, if that has parameters. -/
def exitParameter (a : FlatAssembler) : Except DecodeError FlatAssembler :=
  match a.parameter with
  | some p => do
    let d ← p.finish
    return { a with parameter := none, member := a.member.map (·.addParameter d) }
  | none => return a

/-- The assembler after a member has ended, of whichever kind the pending one is. -/
def exitMember (a : FlatAssembler) : Except DecodeError FlatAssembler :=
  match a.member with
  | some m => return { a with decl := a.decl.edit (← m.finish), member := none }
  | none => return a

/-- The assembler after a declaration has ended. -/
def exit (a : FlatAssembler) : NodeKind → Except DecodeError FlatAssembler
  | .classNode => return { a with finished := true }
  | .parameter => a.exitParameter
  | .constructor | .function | .property => a.exitMember

/-- The assembler after flags, which go to the innermost pending declaration. -/
def setFlags (a : FlatAssembler) (flags : Flags) : FlatAssembler :=
  match a.parameter with
  | some p => { a with parameter := some { p with flags := flags } }
  | none =>
    match a.member with
    | some m => { a with member := some (m.setFlags flags) }
    | none => { a with decl := a.decl.edit (.flags flags) }

/-- The assembler after a name, which goes to the innermost pending declaration. -/
def setName (a : FlatAssembler) (name : String) : FlatAssembler :=
  match a.parameter with
  | some p => { a with parameter := some { p with name := some name } }
  | none =>
    match a.member with
    | some m => { a with member := some (m.setName name) }
    | none => { a with decl := a.decl.edit (.name name), named := true }

/-- The assembler with a change to the pending property, if there is one. -/
def changeProperty (a : FlatAssembler) (change : PendingProperty → PendingProperty) : FlatAssembler :=
  match a.member with
  | some (.property p) => { a with member := some (.property (change p)) }
  | _ => a

/-- The assembler after an extension, which means something only under the tag of host bindings. -/
def extend (table : StringTable) (a : FlatAssembler) (tag : UInt32) (payload : List UInt8) :
    Except DecodeError FlatAssembler :=
  if tag.toNat = hostBindingTag then
    match a.member with
    | some m => return { a with member := some (← m.bindHost table payload) }
    | none => return a
  else return a

/-- The assembler after a token. -/
def accept (table : StringTable) (a : FlatAssembler) : Token → Except DecodeError FlatAssembler
  | .enter kind => return a.enter kind
  | .exit kind => a.exit kind
  | .detail (.flags bits) => return a.setFlags ⟨bits⟩
  | .detail (.name index) => return a.setName (← table.get index)
  | .detail (.companion index) =>
    return { a with decl := a.decl.edit (.companion (← table.get index)) }
  | .detail (.getterFlags bits) =>
    return a.changeProperty fun p => { p with getterFlags := some ⟨bits⟩ }
  | .detail (.setterFlags bits) =>
    return a.changeProperty fun p => { p with setterFlags := some ⟨bits⟩ }
  | .detail (.extension tag payload) => a.extend table tag payload

/-- The finished class: it has ended and was given a name. -/
def finish (a : FlatAssembler) : Except DecodeError ClassDecl :=
  if a.finished ∧ a.named then .ok a.decl else .error (.missingName .classNode)

/-- The class in a class message. -/
def decodeMessage (table : StringTable) (message : List UInt8) : Except DecodeError ClassDecl := do
  let tokens := (TokenReader.fresh message).tokens
  let a ← tokens.foldlM (fun a token => do a.accept table (← token)) start
  a.finish

/-! ## What becomes of a token -/

/-- The kind of the pending member. -/
def memberKind (a : FlatAssembler) : Option NodeKind := a.member.map PendingMember.kind

/-- A token does not go with what is pending, and something is lost without an error. -/
inductive Loses (a : FlatAssembler) : Token → Prop where
  /-- A member ends that is not pending. -/
  | noMember {kind : NodeKind} :
    kind ∈ nested .classNode →
    a.memberKind ≠ some kind →
    Loses a (.exit kind)
  /-- A parameter ends that is not pending. -/
  | noParameter :
    a.parameter = none →
    Loses a (.exit .parameter)
  /-- A parameter ends and neither a constructor nor a function is pending. -/
  | strayParameter :
    a.memberKind ≠ some .constructor →
    a.memberKind ≠ some .function →
    Loses a (.exit .parameter)
  | getterFlags {bits : UInt32} :
    a.memberKind ≠ some .property →
    Loses a (.detail (.getterFlags bits))
  | setterFlags {bits : UInt32} :
    a.memberKind ≠ some .property →
    Loses a (.detail (.setterFlags bits))
  /-- A constructor is given a name. -/
  | constructorName {index : UInt64} :
    a.parameter = none →
    a.memberKind = some .constructor →
    Loses a (.detail (.name index))
  /-- There is no member that an extension could belong to. -/
  | extension {tag : UInt32} {payload : List UInt8} :
    a.memberKind = none →
    Loses a (.detail (.extension tag payload))
  /-- A member begins while one is pending. -/
  | overwritesMember {kind : NodeKind} :
    kind ∈ nested .classNode →
    a.memberKind ≠ none →
    Loses a (.enter kind)
  /-- A parameter begins while one is pending. -/
  | overwritesParameter :
    a.parameter ≠ none →
    Loses a (.enter .parameter)

/-- What becomes of an assembler by a token that goes with what is pending. What the token says is found
where it belongs, and everything else is as it was. -/
inductive Records (table : StringTable) (a a' : FlatAssembler) : Token → Prop where
  /-- The class is there from the start. -/
  | begins :
    a' = a →
    Records table a a' (.enter .classNode)
  | beginsConstructor :
    a' = { a with member := some (.constructor ⟨.default, some "<init>", [], none⟩) } →
    Records table a a' (.enter .constructor)
  | beginsFunction :
    a' = { a with member := some (.function ⟨.default, none, [], none⟩) } →
    Records table a a' (.enter .function)
  | beginsProperty :
    a' = { a with member := some (.property ⟨.defaultProperty, none, none, none, .empty⟩) } →
    Records table a a' (.enter .property)
  | beginsParameter :
    a' = { a with parameter := some ⟨.zero, none⟩ } →
    Records table a a' (.enter .parameter)
  | ends :
    a' = { a with finished := true } →
    Records table a a' (.exit .classNode)
  | endsMember {kind : NodeKind} {m : PendingMember} {c : ClassDecl} :
    a.member = some m →
    m.kind = kind →
    m.Declares a.decl c →
    a' = { a with decl := c, member := none } →
    Records table a a' (.exit kind)
  /-- A parameter stands behind those that its constructor or function has. -/
  | endsParameter {make : PendingFunction → PendingMember} {f : PendingFunction}
      {p : PendingParameter} {name : String} :
    make = .constructor ∨ make = .function →
    a.member = some (make f) →
    a.parameter = some p →
    p.name = some name →
    a' = { a with
      parameter := none
      member := some (make { f with parameters := f.parameters ++ [⟨p.flags, name⟩] }) } →
    Records table a a' (.exit .parameter)
  | classFlags {bits : UInt32} :
    a.parameter = none →
    a.member = none →
    a' = { a with decl := { a.decl with flags := ⟨bits⟩ } } →
    Records table a a' (.detail (.flags bits))
  | functionFlags {bits : UInt32} {make : PendingFunction → PendingMember} {f : PendingFunction} :
    make = .constructor ∨ make = .function →
    a.parameter = none →
    a.member = some (make f) →
    a' = { a with member := some (make { f with flags := ⟨bits⟩ }) } →
    Records table a a' (.detail (.flags bits))
  | propertyFlags {bits : UInt32} {p : PendingProperty} :
    a.parameter = none →
    a.member = some (.property p) →
    a' = { a with member := some (.property { p with flags := ⟨bits⟩ }) } →
    Records table a a' (.detail (.flags bits))
  | parameterFlags {bits : UInt32} {p : PendingParameter} :
    a.parameter = some p →
    a' = { a with parameter := some { p with flags := ⟨bits⟩ } } →
    Records table a a' (.detail (.flags bits))
  | className {index : UInt64} {name : String} :
    table.get index = .ok name →
    a.parameter = none →
    a.member = none →
    a' = { a with decl := { a.decl with name := name }, named := true } →
    Records table a a' (.detail (.name index))
  | functionName {index : UInt64} {name : String} {f : PendingFunction} :
    table.get index = .ok name →
    a.parameter = none →
    a.member = some (.function f) →
    a' = { a with member := some (.function { f with name := some name }) } →
    Records table a a' (.detail (.name index))
  | propertyName {index : UInt64} {name : String} {p : PendingProperty} :
    table.get index = .ok name →
    a.parameter = none →
    a.member = some (.property p) →
    a' = { a with member := some (.property { p with name := some name }) } →
    Records table a a' (.detail (.name index))
  | parameterName {index : UInt64} {name : String} {p : PendingParameter} :
    table.get index = .ok name →
    a.parameter = some p →
    a' = { a with parameter := some { p with name := some name } } →
    Records table a a' (.detail (.name index))
  | companion {index : UInt64} {name : String} :
    table.get index = .ok name →
    a' = { a with decl := { a.decl with companion := some name } } →
    Records table a a' (.detail (.companion index))
  | getterFlags {bits : UInt32} {p : PendingProperty} :
    a.member = some (.property p) →
    a' = { a with member := some (.property { p with getterFlags := some ⟨bits⟩ }) } →
    Records table a a' (.detail (.getterFlags bits))
  | setterFlags {bits : UInt32} {p : PendingProperty} :
    a.member = some (.property p) →
    a' = { a with member := some (.property { p with setterFlags := some ⟨bits⟩ }) } →
    Records table a a' (.detail (.setterFlags bits))
  | functionBinding {tag : UInt32} {payload : List UInt8} {make : PendingFunction → PendingMember}
      {f : PendingFunction} {s : HostSignature} :
    tag.toNat = 100 →
    make = .constructor ∨ make = .function →
    a.member = some (make f) →
    HostSignature.read table payload = .ok s →
    a' = { a with member := some (make { f with binding := some s }) } →
    Records table a a' (.detail (.extension tag payload))
  | propertyBinding {tag : UInt32} {payload : List UInt8} {p : PendingProperty}
      {b : PropertyBinding} :
    tag.toNat = 100 →
    a.member = some (.property p) →
    PropertyBinding.read table payload = .ok b →
    a' = { a with member := some (.property { p with binding := b }) } →
    Records table a a' (.detail (.extension tag payload))

section

variable {table : StringTable} {a a' : FlatAssembler}

/-- A declaration that begins is pending, and nothing is known of it. -/
lemma records_enter (kind : NodeKind) : Records table a (a.enter kind) (.enter kind) := by
  cases kind with
  | classNode => exact .begins rfl
  | constructor => exact .beginsConstructor rfl
  | function => exact .beginsFunction rfl
  | property => exact .beginsProperty rfl
  | parameter => exact .beginsParameter rfl

/-- A parameter that ends goes to the pending constructor or function, if there is one. -/
lemma records_exitParameter (h : a.exitParameter = .ok a') :
    Records table a a' (.exit .parameter) ∨ a.Loses (.exit .parameter) := by
  obtain ⟨decl, named, member, parameter, finished⟩ := a
  cases parameter with
  | none => exact .inr (.noParameter rfl)
  | some p =>
    obtain ⟨d, finished, h⟩ := ok_of_bind h
    obtain ⟨name, told, rfl⟩ := PendingParameter.finish_eq_ok_iff.1 finished
    cases h
    cases member with
    | none => exact .inr (.strayParameter nofun nofun)
    | some m =>
      cases m with
      | constructor f => exact .inl (.endsParameter (.inl rfl) rfl rfl told rfl)
      | function f => exact .inl (.endsParameter (.inr rfl) rfl rfl told rfl)
      | property q => exact .inr (.strayParameter nofun nofun)

/-- A member that ends goes to the class, if it is the pending one. -/
lemma records_exitMember {kind : NodeKind} (hkind : kind ∈ nested .classNode)
    (h : a.exitMember = .ok a') : Records table a a' (.exit kind) ∨ a.Loses (.exit kind) := by
  by_cases pending : a.memberKind = some kind
  · obtain ⟨m, hm, same⟩ := Option.map_eq_some_iff.1 pending
    rw [exitMember, hm] at h
    obtain ⟨e, he, h⟩ := ok_of_bind h
    cases h
    exact .inl (.endsMember hm same (PendingMember.declares_edit he a.decl) rfl)
  · exact .inr (.noMember hkind pending)

/-- Flags go to what is pending innermost, or else to the class. -/
lemma records_setFlags (bits : UInt32) :
    Records table a (a.setFlags ⟨bits⟩) (.detail (.flags bits)) := by
  obtain ⟨decl, named, member, parameter, finished⟩ := a
  cases parameter with
  | some p => exact .parameterFlags rfl rfl
  | none =>
    cases member with
    | none => exact .classFlags rfl rfl rfl
    | some m =>
      cases m with
      | constructor f => exact .functionFlags (.inl rfl) rfl rfl rfl
      | function f => exact .functionFlags (.inr rfl) rfl rfl rfl
      | property p => exact .propertyFlags rfl rfl rfl

/-- A name goes to what is pending innermost, or else to the class. Only a constructor has no use for
one. -/
lemma records_setName {index : UInt64} {name : String} (hname : table.get index = .ok name)
    (h : a.parameter = none → a.memberKind ≠ some .constructor) :
    Records table a (a.setName name) (.detail (.name index)) := by
  obtain ⟨decl, named, member, parameter, finished⟩ := a
  cases parameter with
  | some p => exact .parameterName hname rfl rfl
  | none =>
    cases member with
    | none => exact .className hname rfl rfl rfl
    | some m =>
      cases m with
      | constructor f => exact absurd rfl (h rfl)
      | function f => exact .functionName hname rfl rfl rfl
      | property p => exact .propertyName hname rfl rfl rfl

/-- A pending property is changed. -/
lemma changeProperty_eq (change : PendingProperty → PendingProperty)
    (h : a.memberKind = some .property) : ∃ p, a.member = some (.property p) ∧
      a.changeProperty change = { a with member := some (.property (change p)) } := by
  obtain ⟨m, hm, kind⟩ := Option.map_eq_some_iff.1 h
  cases m with
  | constructor f | function f => cases kind
  | property p => exact ⟨p, hm, by rw [changeProperty, hm]⟩

/-- A host binding goes to the pending member, if there is one. -/
lemma records_extend {tag : UInt32} {payload : List UInt8} (host : tag.toNat = 100)
    (h : a.extend table tag payload = .ok a') :
    Records table a a' (.detail (.extension tag payload)) ∨
      a.Loses (.detail (.extension tag payload)) := by
  rw [extend, hostBindingTag, if_pos host] at h
  cases hm : a.member with
  | none => exact .inr (.extension (congrArg (Option.map _) hm))
  | some m =>
    rw [hm] at h
    obtain ⟨m', bound, h⟩ := ok_of_bind h
    cases h
    cases m with
    | constructor f =>
      obtain ⟨s, hs, bound⟩ := ok_of_bind bound
      cases bound
      exact .inl (.functionBinding host (.inl rfl) hm hs rfl)
    | function f =>
      obtain ⟨s, hs, bound⟩ := ok_of_bind bound
      cases bound
      exact .inl (.functionBinding host (.inr rfl) hm hs rfl)
    | property p =>
      obtain ⟨b, hb, bound⟩ := ok_of_bind bound
      cases bound
      exact .inl (.propertyBinding host hm hb rfl)

/-- A detail that is accepted is recorded, unless it loses something or is a foreign extension. -/
lemma records_detail {detail : Detail} (h : a.accept table (.detail detail) = .ok a') :
    Records table a a' (.detail detail) ∨ a.Loses (.detail detail) ∨
      (Token.detail detail).IsForeign ∧ a' = a := by
  cases detail with
  | flags bits =>
    cases h
    exact .inl (records_setFlags bits)
  | name index =>
    obtain ⟨name, hname, h⟩ := ok_of_bind h
    cases h
    by_cases lost : a.parameter = none ∧ a.memberKind = some .constructor
    · exact .inr (.inl (.constructorName lost.1 lost.2))
    · exact .inl (records_setName hname fun hp hm => lost ⟨hp, hm⟩)
  | companion index =>
    obtain ⟨name, hname, h⟩ := ok_of_bind h
    cases h
    exact .inl (.companion hname rfl)
  | getterFlags bits =>
    cases h
    by_cases pending : a.memberKind = some .property
    · obtain ⟨p, hm, changed⟩ := changeProperty_eq _ pending
      exact .inl (.getterFlags hm changed)
    · exact .inr (.inl (.getterFlags pending))
  | setterFlags bits =>
    cases h
    by_cases pending : a.memberKind = some .property
    · obtain ⟨p, hm, changed⟩ := changeProperty_eq _ pending
      exact .inl (.setterFlags hm changed)
    · exact .inr (.inl (.setterFlags pending))
  | extension tag payload =>
    change a.extend table tag payload = .ok a' at h
    by_cases host : tag.toNat = 100
    · exact (records_extend host h).imp_right .inl
    · rw [extend, hostBindingTag, if_neg host] at h
      cases h
      exact .inr (.inr ⟨host, rfl⟩)

/-- A token that is accepted is recorded, unless it loses something or is a foreign extension. -/
theorem records_or_loses {token : Token} (h : a.accept table token = .ok a') :
    Records table a a' token ∨ a.Loses token ∨ token.IsForeign ∧ a' = a := by
  cases token with
  | enter kind =>
    cases h
    exact .inl (records_enter kind)
  | exit kind =>
    cases kind with
    | classNode =>
      cases h
      exact .inl (.ends rfl)
    | parameter => exact (records_exitParameter h).imp_right .inl
    | constructor | function | property =>
      exact (records_exitMember (by simp [nested]) h).imp_right .inl
  | detail detail => exact records_detail h

/-! ## The end of the class -/

/-- The end of a parameter is not the end of the class. -/
lemma finished_exitParameter (h : a.exitParameter = .ok a') : a'.finished = a.finished := by
  rw [exitParameter] at h
  split at h
  · obtain ⟨d, -, h⟩ := ok_of_bind h
    cases h
    rfl
  · cases h
    rfl

/-- The end of a member is not the end of the class. -/
lemma finished_exitMember (h : a.exitMember = .ok a') : a'.finished = a.finished := by
  rw [exitMember] at h
  split at h
  · obtain ⟨e, -, h⟩ := ok_of_bind h
    cases h
    rfl
  · cases h
    rfl

/-- A change to a property is not the end of the class. -/
lemma finished_changeProperty (change : PendingProperty → PendingProperty) :
    (a.changeProperty change).finished = a.finished := by
  rw [changeProperty]
  split <;> rfl

/-- No detail ends the class. -/
lemma finished_detail {detail : Detail} (h : a.accept table (.detail detail) = .ok a') :
    a'.finished = a.finished := by
  cases detail with
  | flags bits =>
    cases h
    rw [setFlags]
    split
    · rfl
    · split <;> rfl
  | name index =>
    obtain ⟨name, -, h⟩ := ok_of_bind h
    cases h
    rw [setName]
    split
    · rfl
    · split <;> rfl
  | companion index =>
    obtain ⟨name, -, h⟩ := ok_of_bind h
    cases h
    rfl
  | getterFlags bits | setterFlags bits =>
    cases h
    exact finished_changeProperty _
  | extension tag payload =>
    change a.extend table tag payload = .ok a' at h
    rw [extend] at h
    split at h
    · split at h
      · obtain ⟨m, -, h⟩ := ok_of_bind h
        cases h
        rfl
      · cases h
        rfl
    · cases h
      rfl

/-- The class has ended when its end is accepted, and nothing else ends it. -/
lemma finished_accept {token : Token} (h : a.accept table token = .ok a') :
    a'.finished = true ↔ a.finished = true ∨ token = .exit .classNode := by
  cases token with
  | enter kind =>
    cases h
    cases kind <;> simp [enter]
  | exit kind =>
    cases kind with
    | classNode =>
      cases h
      simp
    | parameter => simp [finished_exitParameter h]
    | constructor | function | property => simp [finished_exitMember h]
  | detail detail => simp [finished_detail h]

/-- The class has ended when its end is among the tokens. -/
lemma finished_foldlM {taken : List Token} (h : taken.foldlM (accept table) a = .ok a') :
    a'.finished = true ↔ a.finished = true ∨ .exit .classNode ∈ taken := by
  induction taken generalizing a with
  | nil =>
    cases h
    simp
  | cons token taken ih =>
    obtain ⟨a₁, h₁, h⟩ := ok_of_bind h
    rw [ih h, finished_accept h₁, List.mem_cons, or_assoc, eq_comm (a := token)]

end

end FlatAssembler

end ClassMetadata
