import ClassMetadata.Proofs.Decoding.Descent
import ClassMetadata.Proofs.Encoding.Drafts
import ClassMetadata.Proofs.Encoding.Signatures

/-!
# Members written and read

What a descent reads from the message of a member that was written. There is one lemma for each kind
of message, from a host member up to the class: a member comes back as it is `reread`.

* `readConstructor_eq` and `readFunction_eq` say what becomes of a member by where it stands: what
  bears the name of constructors cannot be read as a function, and nothing else as a constructor.
-/

namespace ClassMetadata.Descent

variable {table : List String}

/-- The two parts of a host member are read as they were written. -/
lemma leads_hostMember (name descriptor : List Char) :
    Leads (signatureField ⟨table⟩) table .empty (Draft.hostMember name descriptor)
      (.ofParts name descriptor) := by
  have named (s : HostSignature) (text : String) :
      Absorbs (signatureField ⟨table⟩) table s (.text 1 text) { s with name := some text } :=
    absorbs_text (fun (s : HostSignature) text => { s with name := some text }) (by decide) rfl
  have described (s : HostSignature) (text : String) :
      Absorbs (signatureField ⟨table⟩) table s (.text 2 text) { s with descriptor := some text } :=
    absorbs_text (fun (s : HostSignature) text => { s with descriptor := some text }) (by decide) rfl
  rw [Draft.hostMember, HostSignature.ofParts]
  split
  · exact .single (described _ _)
  · exact .cons (named _ _) (.single (described _ _))

/-- The signature of a method is read in its parts. -/
lemma readSignature_method {s : String} (sound : Draft.Sound table (Draft.method s)) :
    readSignature ⟨table⟩ (Draft.bytes table (Draft.method s)) = .ok (.ofMethod s) := by
  have leads : Leads (signatureField ⟨table⟩) table .empty (Draft.method s) (.ofMethod s) := by
    rw [Draft.method, HostSignature.ofMethod]
    cases Text.breakAt '(' s.toList <;> exact leads_hostMember _ _
  exact leads.readMessage sound

/-- The field behind a property is read as it was written. -/
lemma readSignature_field {s : String} (sound : Draft.Sound table (Draft.field s)) :
    readSignature ⟨table⟩ (Draft.bytes table (Draft.field s)) = .ok (.ofField s) := by
  have leads : Leads (signatureField ⟨table⟩) table .empty (Draft.field s) (.ofField s) := by
    rw [Draft.field, HostSignature.ofField]
    cases Text.breakAt ':' s.toList <;> exact leads_hostMember _ _
  exact leads.readMessage sound

/-- A parameter is read as it was written. -/
lemma readParameter_drafts {p : ParameterDecl} (sound : Draft.Sound table p.drafts) :
    readParameter ⟨table⟩ (Draft.bytes table p.drafts) = .ok p := by
  have flagged : Absorbs (parameterField ⟨table⟩) table .fresh (.flags p.flags) ⟨p.flags, none⟩ :=
    absorbs_word (fun (p : PendingParameter) bits => { p with flags := ⟨bits⟩ }) (by decide) rfl
  have named : Absorbs (parameterField ⟨table⟩) table ⟨p.flags, none⟩ (.text 2 p.name)
      ⟨p.flags, some p.name⟩ :=
    absorbs_text (fun (p : PendingParameter) name => { p with name := some name }) (by decide) rfl
  have leads : Leads (parameterField ⟨table⟩) table .fresh p.drafts ⟨p.flags, some p.name⟩ :=
    .cons flagged (.single named)
  rw [readParameter, leads.readMessage sound]
  rfl

/-! ## Constructors and functions -/

/-- The parameters of a constructor or function go behind those that it has. -/
lemma leads_parameters {schema : Schema PendingFunction} {n : UInt32} (hn : n ≠ 0)
    (hschema : schema ⟨n, .lengthDelimited⟩ = .ok (parameterStep ⟨table⟩)) (f : PendingFunction)
    (ps : List ParameterDecl) :
    Leads schema table f (ps.map fun p => .message n p.drafts)
      { f with parameters := f.parameters ++ ps } := by
  refine Leads.map (fun ps => { f with parameters := ps }) _ fun before p _ => ?_
  exact absorbs_message
    (fun (f : PendingFunction) p => { f with parameters := f.parameters ++ [p] }) hn hschema
    readParameter_drafts

/-- The host method of a constructor or function is read as it was written, if there is one. -/
lemma leads_signature {schema : Schema PendingFunction}
    (hschema : schema ⟨100, .lengthDelimited⟩ = .ok (signatureStep ⟨table⟩)) (f : PendingFunction)
    (hf : f.binding = none) (signature : Option String) :
    Leads schema table f (Draft.optional signature fun s => .message 100 (Draft.method s))
      { f with binding := signature.map .ofMethod } := by
  apply Leads.optional
  · rintro rfl
    rw [Option.map_none, ← hf]
  · rintro s rfl
    exact absorbs_message (fun (f : PendingFunction) host => { f with binding := some host })
      (by decide) hschema readSignature_method

/-- A pending function that was read from a written one is finished as it is reread. -/
lemma finish_reread (f : FunctionDecl) (kind : NodeKind) :
    (PendingFunction.mk f.flags (some f.name) f.parameters (f.signature.map .ofMethod)).finish kind =
      .ok f.reread := by
  show Except.ok (FunctionDecl.mk _ _ ((f.signature.map HostSignature.ofMethod).bind _) _) = _
  rw [Option.bind_map]
  rfl

/-- The message of what bears the name of constructors, as a constructor. -/
lemma leads_constructor {f : FunctionDecl} (hf : f.name = FunctionDecl.constructorName) :
    Leads (constructorField ⟨table⟩) table .freshConstructor f.drafts
      ⟨f.flags, some f.name, f.parameters, f.signature.map .ofMethod⟩ := by
  have flagged : Absorbs (constructorField ⟨table⟩) table .freshConstructor (.flags f.flags)
      ⟨f.flags, some f.name, [], none⟩ := by
    rw [hf]
    exact absorbs_word (fun (f : PendingFunction) bits => { f with flags := ⟨bits⟩ }) (by decide) rfl
  rw [FunctionDecl.drafts, FunctionDecl.isConstructor, beq_iff_eq.2 hf]
  exact .append (.append (.append (.single flagged) (.nil _))
    (leads_parameters (by decide) rfl _ f.parameters)) (leads_signature rfl _ rfl f.signature)

/-- A constructor is read as it was written. -/
lemma readConstructor_drafts {f : FunctionDecl} (hf : f.name = FunctionDecl.constructorName)
    (sound : Draft.Sound table f.drafts) :
    readConstructor ⟨table⟩ (Draft.bytes table f.drafts) = .ok f.reread := by
  rw [readConstructor, (leads_constructor hf).readMessage sound]
  exact finish_reread f .constructor

/-- The message of what bears another name, as a function. -/
lemma leads_function {f : FunctionDecl} (hf : f.name ≠ FunctionDecl.constructorName) :
    Leads (functionField ⟨table⟩) table .fresh f.drafts
      ⟨f.flags, some f.name, f.parameters, f.signature.map .ofMethod⟩ := by
  have flagged : Absorbs (functionField ⟨table⟩) table .fresh (.flags f.flags)
      ⟨f.flags, none, [], none⟩ :=
    absorbs_word (fun (f : PendingFunction) bits => { f with flags := ⟨bits⟩ }) (by decide) rfl
  have named : Absorbs (functionField ⟨table⟩) table ⟨f.flags, none, [], none⟩ (.text 2 f.name)
      ⟨f.flags, some f.name, [], none⟩ :=
    absorbs_text (fun (f : PendingFunction) name => { f with name := some name }) (by decide) rfl
  rw [FunctionDecl.drafts, FunctionDecl.isConstructor, beq_eq_false_iff_ne.2 hf]
  exact .append (.append (.append (.single flagged) (.single named))
    (leads_parameters (by decide) rfl _ f.parameters)) (leads_signature rfl _ rfl f.signature)

/-- A function comes back as it is reread, unless it bears the name of constructors. -/
lemma readFunction_drafts {f : FunctionDecl} (hf : f.name ≠ FunctionDecl.constructorName)
    (sound : Draft.Sound table f.drafts) :
    readFunction ⟨table⟩ (Draft.bytes table f.drafts) = .ok f.reread := by
  rw [readFunction, (leads_function hf).readMessage sound]
  exact finish_reread f .function

/-- What bears the name of constructors cannot be read as a function: it is written without a name,
and its parameters under a number at which a function has something else. -/
lemma readFunction_reserved {f : FunctionDecl} (hf : f.name = FunctionDecl.constructorName)
    (sound : Draft.Sound table f.drafts) :
    readFunction ⟨table⟩ (Draft.bytes table f.drafts) =
      .error (if f.parameters.isEmpty then .missingName .function
        else .unexpectedField .function 2 .lengthDelimited) := by
  have numbered := (@leads_constructor table f hf).numbered
  have flagged : Absorbs (functionField ⟨table⟩) table .fresh (.flags f.flags)
      ⟨f.flags, none, [], none⟩ :=
    absorbs_word (fun (f : PendingFunction) bits => { f with flags := ⟨bits⟩ }) (by decide) rfl
  have shape : f.drafts = [.flags f.flags] ++ (f.parameters.map (fun p => .message 2 p.drafts)
      ++ Draft.optional f.signature fun s => .message 100 (Draft.method s)) := by
    rw [FunctionDecl.drafts, FunctionDecl.isConstructor, beq_iff_eq.2 hf]
    rfl
  rw [shape] at sound numbered ⊢
  cases hp : f.parameters with
  | nil =>
    -- everything is read, but the name is missing at the end
    rw [hp] at sound
    have signed : Leads (functionField ⟨table⟩) table ⟨f.flags, none, [], none⟩
        (Draft.optional f.signature fun s => .message 100 (Draft.method s))
        ⟨f.flags, none, [], f.signature.map .ofMethod⟩ := leads_signature rfl _ rfl f.signature
    rw [readFunction, List.map_nil, List.nil_append,
      ((Leads.single flagged).append signed).readMessage sound]
    rfl
  | cons p ps =>
    -- the first parameter stands where a function has its name, which is a number
    rw [hp] at sound numbered
    have refused : Refuses (functionField ⟨table⟩) table ⟨f.flags, none, [], none⟩
        (.message 2 p.drafts) (.unexpectedField .function 2 .lengthDelimited) := refuses_key rfl
    rw [readFunction, List.map_cons, List.cons_append]
    exact congrArg (· >>= _)
      ((Comes.stopped (.single flagged) refused).readMessage numbered sound)

/-- What bears another name cannot be read as a constructor: its name is written at a number at which
a constructor has its parameters. -/
lemma readConstructor_misnamed {f : FunctionDecl} (hf : f.name ≠ FunctionDecl.constructorName)
    (sound : Draft.Sound table f.drafts) :
    readConstructor ⟨table⟩ (Draft.bytes table f.drafts) =
      .error (.unexpectedField .constructor 2 .varint) := by
  have numbered := (@leads_function table f hf).numbered
  have flagged : Absorbs (constructorField ⟨table⟩) table .freshConstructor (.flags f.flags)
      { PendingFunction.freshConstructor with flags := f.flags } :=
    absorbs_word (fun (f : PendingFunction) bits => { f with flags := ⟨bits⟩ }) (by decide) rfl
  have refused : Refuses (constructorField ⟨table⟩) table
      { PendingFunction.freshConstructor with flags := f.flags } (.text 2 f.name)
      (.unexpectedField .constructor 2 .varint) := refuses_key rfl
  have shape : f.drafts = [.flags f.flags] ++ .text 2 f.name ::
      (f.parameters.map (fun p => .message 6 p.drafts)
        ++ Draft.optional f.signature fun s => .message 100 (Draft.method s)) := by
    rw [FunctionDecl.drafts, FunctionDecl.isConstructor, beq_eq_false_iff_ne.2 hf]
    rfl
  rw [shape] at sound numbered ⊢
  rw [readConstructor]
  exact congrArg (· >>= _)
    ((Comes.stopped (.single flagged) refused).readMessage numbered sound)

/-! Members where they stand -/

/-- Why a member cannot be read back from where constructors stand, if it cannot. -/
def faultAsConstructor (f : FunctionDecl) : Option DecodeError :=
  if f.name = FunctionDecl.constructorName then none
  else some (.unexpectedField .constructor 2 .varint)

/-- Why a member cannot be read back from where functions stand, if it cannot. -/
def faultAsFunction (f : FunctionDecl) : Option DecodeError :=
  if f.name = FunctionDecl.constructorName then
    some (if f.parameters.isEmpty then .missingName .function
      else .unexpectedField .function 2 .lengthDelimited)
  else none

/-- A member that stands where constructors do comes back as it is reread, or not at all. -/
lemma readConstructor_eq {f : FunctionDecl} (sound : Draft.Sound table f.drafts) :
    readConstructor ⟨table⟩ (Draft.bytes table f.drafts) =
      okUnless (faultAsConstructor f) f.reread := by
  rw [faultAsConstructor]
  split
  · rename_i hf
    exact readConstructor_drafts hf sound
  · rename_i hf
    exact readConstructor_misnamed hf sound

/-- A member that stands where functions do comes back as it is reread, or not at all. -/
lemma readFunction_eq {f : FunctionDecl} (sound : Draft.Sound table f.drafts) :
    readFunction ⟨table⟩ (Draft.bytes table f.drafts) =
      okUnless (faultAsFunction f) f.reread := by
  rw [faultAsFunction]
  split
  · rename_i hf
    exact readFunction_reserved hf sound
  · rename_i hf
    exact readFunction_drafts hf sound

/-! ## Properties -/

/-- One of the host members of a property is read as it was written, if there is one. -/
lemma leads_host {n : UInt32} (g : PropertyBinding → Option HostSignature → PropertyBinding)
    {draft : String → List Draft} {host : String → HostSignature} (hn : n ≠ 0)
    (hschema : bindingField ⟨table⟩ ⟨n, .lengthDelimited⟩ =
      .ok (.message fun b m => return g b (some (← readSignature ⟨table⟩ m))))
    (hread : ∀ {s}, Draft.Sound table (draft s) →
      readSignature ⟨table⟩ (Draft.bytes table (draft s)) = .ok (host s))
    {b : PropertyBinding} (hb : g b none = b) (signature : Option String) :
    Leads (bindingField ⟨table⟩) table b
      (Draft.optional signature fun s => .message n (draft s)) (g b (signature.map host)) := by
  apply Leads.optional
  · rintro rfl
    exact hb
  · rintro s rfl
    exact absorbs_message (fun b host => g b (some host)) hn hschema hread

/-- The host members of a property, in the parts in which they are written. -/
def bindingOf (p : PropertyDecl) : PropertyBinding where
  field := p.fieldSignature.map .ofField
  carrier := p.carrierSignature.map .ofMethod
  getter := p.getterSignature.map .ofMethod
  setter := p.setterSignature.map .ofMethod

/-- The host members of a property are read as they were written. -/
lemma leads_binding (p : PropertyDecl) :
    Leads (bindingField ⟨table⟩) table .empty p.bindingDrafts (bindingOf p) := by
  have field : Leads (bindingField ⟨table⟩) table .empty
      (Draft.optional p.fieldSignature fun s => .message 1 (Draft.field s))
      ⟨p.fieldSignature.map .ofField, none, none, none⟩ :=
    leads_host (fun b host => { b with field := host }) (by decide) rfl readSignature_field rfl _
  have carrier : Leads (bindingField ⟨table⟩) table ⟨p.fieldSignature.map .ofField, none, none, none⟩
      (Draft.optional p.carrierSignature fun s => .message 2 (Draft.method s))
      ⟨p.fieldSignature.map .ofField, p.carrierSignature.map .ofMethod, none, none⟩ :=
    leads_host (fun b host => { b with carrier := host }) (by decide) rfl readSignature_method rfl _
  have getter : Leads (bindingField ⟨table⟩) table
      ⟨p.fieldSignature.map .ofField, p.carrierSignature.map .ofMethod, none, none⟩
      (Draft.optional p.getterSignature fun s => .message 3 (Draft.method s))
      ⟨p.fieldSignature.map .ofField, p.carrierSignature.map .ofMethod,
        p.getterSignature.map .ofMethod, none⟩ :=
    leads_host (fun b host => { b with getter := host }) (by decide) rfl readSignature_method rfl _
  have setter : Leads (bindingField ⟨table⟩) table
      ⟨p.fieldSignature.map .ofField, p.carrierSignature.map .ofMethod,
        p.getterSignature.map .ofMethod, none⟩
      (Draft.optional p.setterSignature fun s => .message 4 (Draft.method s)) (bindingOf p) :=
    leads_host (fun b host => { b with setter := host }) (by decide) rfl readSignature_method rfl _
  exact .append (.append (.append field carrier) getter) setter

/-- A property is bound to its host members, if it has any. -/
lemma leads_bound (p : PropertyDecl) (q : PendingProperty) (hq : q.binding = .empty) :
    Leads (propertyField ⟨table⟩) table q
      (if p.bindingDrafts.isEmpty then [] else [.message 100 p.bindingDrafts])
      { q with binding := bindingOf p } := by
  have leads := @leads_binding table p
  split
  · rename_i none
    rw [List.isEmpty_iff.1 none] at leads
    rw [leads.eq_of_nil, ← hq]
    exact .nil q
  · exact .single (absorbs_message (fun (q : PendingProperty) b => { q with binding := b })
      (by decide) rfl leads.readMessage)

/-- A property comes back as it is reread. -/
lemma readProperty_drafts {p : PropertyDecl} (sound : Draft.Sound table p.drafts) :
    readProperty ⟨table⟩ (Draft.bytes table p.drafts) = .ok p.reread := by
  have flagged : Absorbs (propertyField ⟨table⟩) table .fresh (.flags p.flags)
      ⟨p.flags, none, none, none, .empty⟩ :=
    absorbs_word (fun (q : PendingProperty) bits => { q with flags := ⟨bits⟩ }) (by decide) rfl
  have named : Absorbs (propertyField ⟨table⟩) table ⟨p.flags, none, none, none, .empty⟩
      (.text 2 p.name) ⟨p.flags, some p.name, none, none, .empty⟩ :=
    absorbs_text (fun (q : PendingProperty) name => { q with name := some name }) (by decide) rfl
  have gotten : Leads (propertyField ⟨table⟩) table ⟨p.flags, some p.name, none, none, .empty⟩
      (Draft.optional p.getterFlags fun flags => .word 7 flags.bits)
      ⟨p.flags, some p.name, p.getterFlags, none, .empty⟩ := by
    refine .optional (fun h => by rw [h]) fun flags h => ?_
    rw [h]
    exact absorbs_word (fun (q : PendingProperty) bits => { q with getterFlags := some ⟨bits⟩ })
      (by decide) rfl
  have set : Leads (propertyField ⟨table⟩) table
      ⟨p.flags, some p.name, p.getterFlags, none, .empty⟩
      (Draft.optional p.setterFlags fun flags => .word 8 flags.bits)
      ⟨p.flags, some p.name, p.getterFlags, p.setterFlags, .empty⟩ := by
    refine .optional (fun h => by rw [h]) fun flags h => ?_
    rw [h]
    exact absorbs_word (fun (q : PendingProperty) bits => { q with setterFlags := some ⟨bits⟩ })
      (by decide) rfl
  have leads : Leads (propertyField ⟨table⟩) table .fresh p.drafts
      ⟨p.flags, some p.name, p.getterFlags, p.setterFlags, bindingOf p⟩ :=
    .append (.append (.append (.cons flagged (.single named)) gotten) set) (leads_bound p _ rfl)
  rw [readProperty, leads.readMessage sound]
  show Except.ok (PropertyDecl.mk _ _ _ _ ((bindingOf p).field.bind _)
    ((bindingOf p).getter.bind _) ((bindingOf p).setter.bind _) ((bindingOf p).carrier.bind _)) = _
  simp only [bindingOf, Option.bind_map]
  rfl

end ClassMetadata.Descent
