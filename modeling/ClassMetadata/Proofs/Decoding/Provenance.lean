import Mathlib
import ClassMetadata.Decoding.Header
import ClassMetadata.Proofs.Decoding.Schema

/-!
# Where the text of a class comes from

A class that was decoded holds no text of its own: names are entries of the string table, and
signatures are put together from entries and from the names that declarations provide.

* `Sourced` says so of all that decoding has in hand, from a host signature up to the `Assembler`
  with what is open in it.
* `Assembler.Sourced.accept` is the step. A token keeps it, whatever is open: what is open is told
  something, finished, or left alone, and nothing of one declaration stays behind for another.
* `Header.decode_sourced` goes through all tokens.
-/

namespace ClassMetadata

/-- What every step of a run keeps, the run keeps. -/
lemma foldlM_keeps {ε σ α : Type} {step : σ → α → Except ε σ} {P : σ → Prop}
    (keeps : ∀ {s a s'}, P s → step s a = .ok s' → P s') {l : List α} {s s' : σ} (hs : P s)
    (h : l.foldlM step s = .ok s') : P s' := by
  induction l generalizing s with
  | nil =>
    cases h
    exact hs
  | cons a l ih =>
    rw [List.foldlM_cons] at h
    obtain ⟨s₁, first, rest⟩ := ok_of_bind h
    exact ih (keeps hs first) rest

/-- What holds of the only member holds of all. -/
lemma forall_mem_some {α : Type} {P : α → Prop} {a : α} (h : P a) : ∀ b ∈ some a, P b := by
  intro b hb
  cases hb
  exact h

/-- What holds of the members and of one more holds of all. -/
lemma forall_mem_concat {α : Type} {P : α → Prop} {l : List α} {a : α} (hl : ∀ b ∈ l, P b)
    (ha : P a) : ∀ b ∈ l ++ [a], P b :=
  List.forall_mem_append.2 ⟨hl, List.forall_mem_singleton.2 ha⟩

/-- What is found in a table is one of its entries. -/
lemma StringTable.mem_of_get {table : StringTable} {index : UInt64} {s : String}
    (h : table.get index = .ok s) : s ∈ table.strings := by
  unfold StringTable.get at h
  split at h <;> cases h
  rename_i found
  exact List.mem_of_getElem? found

variable {strings : List String} {table : StringTable}

/-! ## Signatures -/

/-- A name and a descriptor. The descriptor is from the table, and the name too, unless it is the
one that is provided. -/
def IsMethod (strings : List String) (provided signature : String) : Prop :=
  ∃ name descriptor, (name ∈ strings ∨ name = provided) ∧ descriptor ∈ strings ∧
    signature = name ++ descriptor

/-- A name, a colon and a type. The type is from the table, and the name too, unless it is the one
that is provided. -/
def IsField (strings : List String) (provided signature : String) : Prop :=
  ∃ name type, (name ∈ strings ∨ name = provided) ∧ type ∈ strings ∧
    signature = name ++ ":" ++ type

/-- The name and the descriptor are entries of the table. -/
structure HostSignature.Sourced (strings : List String) (s : HostSignature) : Prop where
  name : ∀ n ∈ s.name, n ∈ strings
  descriptor : ∀ d ∈ s.descriptor, d ∈ strings

namespace HostSignature.Sourced

/-- A signature without parts has no text. -/
lemma empty : HostSignature.empty.Sourced strings := ⟨nofun, nofun⟩

/-- A field of a signature takes its text from the table. -/
lemma addField {s s' : HostSignature} {field : Field} (hs : s.Sourced table.strings)
    (h : s.addField table field = .ok s') : s'.Sourced table.strings := by
  unfold HostSignature.addField at h
  split at h
  · cases h
  · cases h
  · split at h
    · obtain ⟨n, found, h⟩ := ok_of_bind h
      cases h
      exact ⟨forall_mem_some (StringTable.mem_of_get found), hs.descriptor⟩
    · obtain ⟨d, found, h⟩ := ok_of_bind h
      cases h
      exact ⟨hs.name, forall_mem_some (StringTable.mem_of_get found)⟩
    · cases h
      exact hs
  · cases h
    exact hs

/-- The text of a signature is from the table. -/
lemma read {message : List UInt8} {s : HostSignature}
    (h : HostSignature.read table message = .ok s) : s.Sourced table.strings :=
  foldlM_keeps addField empty h

/-- The name of a host member is from the table or the one that was provided. -/
lemma nameOr {s : HostSignature} (hs : s.Sourced strings) (provided : String) :
    s.nameOr provided ∈ strings ∨ s.nameOr provided = provided := by
  cases hn : s.name with
  | none =>
    right
    rw [HostSignature.nameOr, hn]
    rfl
  | some n =>
    left
    rw [HostSignature.nameOr, hn]
    exact hs.name n hn

/-- The signature of a method is made of text from the table, apart from a name that was provided.
-/
lemma method {s : HostSignature} (hs : s.Sourced strings) {provided signature : String}
    (h : s.method provided = some signature) : IsMethod strings provided signature := by
  obtain ⟨d, hd, rfl⟩ := Option.map_eq_some_iff.1 h
  exact ⟨_, d, hs.nameOr provided, hs.descriptor d hd, rfl⟩

/-- The signature of a field is made of text from the table, apart from a name that was provided. -/
lemma field {s : HostSignature} (hs : s.Sourced strings) {provided signature : String}
    (h : s.field provided = some signature) : IsField strings provided signature := by
  obtain ⟨d, hd, rfl⟩ := Option.map_eq_some_iff.1 h
  exact ⟨_, d, hs.nameOr provided, hs.descriptor d hd, rfl⟩

end HostSignature.Sourced

/-- The host members are sourced. -/
structure PropertyBinding.Sourced (strings : List String) (b : PropertyBinding) : Prop where
  field : ∀ s ∈ b.field, s.Sourced strings
  carrier : ∀ s ∈ b.carrier, s.Sourced strings
  getter : ∀ s ∈ b.getter, s.Sourced strings
  setter : ∀ s ∈ b.setter, s.Sourced strings

namespace PropertyBinding.Sourced

/-- A binding without parts has no text. -/
lemma empty : PropertyBinding.empty.Sourced strings := ⟨nofun, nofun, nofun, nofun⟩

/-- A field of a binding takes its text from the table. -/
lemma addField {b b' : PropertyBinding} {field : Field} (hb : b.Sourced table.strings)
    (h : b.addField table field = .ok b') : b'.Sourced table.strings := by
  unfold PropertyBinding.addField at h
  split at h
  · cases h
  · cases h
  · split at h
    · obtain ⟨s, found, h⟩ := ok_of_bind h
      cases h
      exact ⟨forall_mem_some (HostSignature.Sourced.read found), hb.carrier, hb.getter, hb.setter⟩
    · obtain ⟨s, found, h⟩ := ok_of_bind h
      cases h
      exact ⟨hb.field, forall_mem_some (HostSignature.Sourced.read found), hb.getter, hb.setter⟩
    · obtain ⟨s, found, h⟩ := ok_of_bind h
      cases h
      exact ⟨hb.field, hb.carrier, forall_mem_some (HostSignature.Sourced.read found), hb.setter⟩
    · obtain ⟨s, found, h⟩ := ok_of_bind h
      cases h
      exact ⟨hb.field, hb.carrier, hb.getter, forall_mem_some (HostSignature.Sourced.read found)⟩
    · cases h
      exact hb
  · cases h
    exact hb

/-- The text of a binding is from the table. -/
lemma read {message : List UInt8} {b : PropertyBinding}
    (h : PropertyBinding.read table message = .ok b) : b.Sourced table.strings :=
  foldlM_keeps addField empty h

end PropertyBinding.Sourced

/-! ## Finished declarations -/

/-- The text of a constructor or function, apart from its name. -/
structure FunctionDecl.Sourced (strings : List String) (f : FunctionDecl) : Prop where
  signature : ∀ s ∈ f.signature, IsMethod strings f.name s
  parameters : ∀ p ∈ f.parameters, p.name ∈ strings

/-- The text of a property. -/
structure PropertyDecl.Sourced (strings : List String) (p : PropertyDecl) : Prop where
  name : p.name ∈ strings
  field : ∀ s ∈ p.fieldSignature, IsField strings p.name s
  getter : ∀ s ∈ p.getterSignature, IsMethod strings (AccessorName.getter p.name) s
  setter : ∀ s ∈ p.setterSignature, IsMethod strings (AccessorName.setter p.name) s
  carrier : ∀ s ∈ p.carrierSignature, IsMethod strings (AccessorName.carrier p.name) s

namespace ClassDecl

/-- The text of a class, apart from its name. -/
structure Sourced (strings : List String) (c : ClassDecl) : Prop where
  companion : ∀ n ∈ c.companion, n ∈ strings
  constructors : ∀ f ∈ c.constructors,
    f.name = FunctionDecl.constructorName ∧ f.Sourced strings
  functions : ∀ f ∈ c.functions, f.name ∈ strings ∧ f.Sourced strings
  properties : ∀ p ∈ c.properties, p.Sourced strings

/-- The text that an edit brings into a class. -/
def Edit.Sourced (strings : List String) : Edit → Prop
  | .flags _ => True
  | .name n | .companion n => n ∈ strings
  | .constructor f => f.name = FunctionDecl.constructorName ∧ f.Sourced strings
  | .function f => f.name ∈ strings ∧ f.Sourced strings
  | .property p => p.Sourced strings

/-- An edit brings in no other text than its own. -/
lemma Sourced.edit {c : ClassDecl} (hc : c.Sourced strings) {e : Edit} (he : e.Sourced strings) :
    (c.edit e).Sourced strings := by
  cases e with
  | flags _ | name _ => exact ⟨hc.companion, hc.constructors, hc.functions, hc.properties⟩
  | companion n => exact ⟨forall_mem_some he, hc.constructors, hc.functions, hc.properties⟩
  | constructor f =>
    refine ⟨hc.companion, ?_, hc.functions, hc.properties⟩
    show ∀ g ∈ if f ∈ c.constructors then c.constructors else c.constructors ++ [f], _
    split
    · exact hc.constructors
    · exact forall_mem_concat hc.constructors he
  | function f =>
    exact ⟨hc.companion, hc.constructors, forall_mem_concat hc.functions he, hc.properties⟩
  | property p =>
    exact ⟨hc.companion, hc.constructors, hc.functions, forall_mem_concat hc.properties he⟩

end ClassDecl

/-! ## Open declarations -/

/-- The text of an open parameter. -/
def PendingParameter.Sourced (strings : List String) (p : PendingParameter) : Prop :=
  ∀ n ∈ p.name, n ∈ strings

namespace PendingParameter.Sourced

/-- A new parameter has no text. -/
lemma fresh : PendingParameter.fresh.Sourced strings := nofun

/-- A detail of a parameter takes its text from the table. -/
lemma tell {p p' : PendingParameter} {detail : Detail} (hp : p.Sourced table.strings)
    (h : p.tell table detail = .ok p') : p'.Sourced table.strings := by
  cases detail with
  | name index =>
    obtain ⟨n, found, h⟩ := ok_of_bind h
    cases h
    exact forall_mem_some (StringTable.mem_of_get found)
  | _ =>
    cases h
    exact hp

/-- A finished parameter has a name from the table. -/
lemma finish {p : PendingParameter} {q : ParameterDecl} (hp : p.Sourced strings)
    (h : p.finish = .ok q) : q.name ∈ strings := by
  obtain ⟨name, named, rfl⟩ := PendingParameter.finish_eq_ok_iff.1 h
  exact hp name named

end PendingParameter.Sourced

/-- The text of an open constructor or function, apart from its name. -/
structure PendingFunction.Sourced (strings : List String) (f : PendingFunction) : Prop where
  parameters : ∀ p ∈ f.parameters, p.name ∈ strings
  binding : ∀ s ∈ f.binding, s.Sourced strings

namespace PendingFunction.Sourced

/-- A name that a detail gives is from the table. -/
lemma tell {f f' : PendingFunction} {detail : Detail} (hf : f.Sourced table.strings)
    (h : f.tell table detail = .ok f') :
    f'.Sourced table.strings ∧ (f'.name = f.name ∨ ∃ n ∈ table.strings, f'.name = some n) := by
  cases detail with
  | name index =>
    obtain ⟨n, found, h⟩ := ok_of_bind h
    cases h
    exact ⟨⟨hf.parameters, hf.binding⟩, .inr ⟨n, StringTable.mem_of_get found, rfl⟩⟩
  | extension tag message =>
    rw [PendingFunction.tell] at h
    split at h
    · obtain ⟨s, found, h⟩ := ok_of_bind h
      cases h
      exact ⟨⟨hf.parameters, forall_mem_some (HostSignature.Sourced.read found)⟩, .inl rfl⟩
    · cases h
      exact ⟨hf, .inl rfl⟩
  | _ =>
    cases h
    exact ⟨⟨hf.parameters, hf.binding⟩, .inl rfl⟩

/-- A host binding that leaves out the name is given the one that the declaration has by then. -/
lemma finish {f : PendingFunction} {kind : NodeKind} {g : FunctionDecl} (hf : f.Sourced strings)
    (h : f.finish kind = .ok g) : f.name = some g.name ∧ g.Sourced strings := by
  obtain ⟨name, named, rfl⟩ := PendingFunction.finish_eq_ok_iff.1 h
  refine ⟨named, ?_, hf.parameters⟩
  intro s hs
  obtain ⟨b, hb, hs⟩ := Option.bind_eq_some_iff.1 hs
  exact (hf.binding b hb).method hs

end PendingFunction.Sourced

/-- The text of an open property. -/
structure PendingProperty.Sourced (strings : List String) (p : PendingProperty) : Prop where
  name : ∀ n ∈ p.name, n ∈ strings
  binding : p.binding.Sourced strings

namespace PendingProperty.Sourced

/-- A detail of a property takes its text from the table. -/
lemma tell {p p' : PendingProperty} {detail : Detail} (hp : p.Sourced table.strings)
    (h : p.tell table detail = .ok p') : p'.Sourced table.strings := by
  cases detail with
  | name index =>
    obtain ⟨n, found, h⟩ := ok_of_bind h
    cases h
    exact ⟨forall_mem_some (StringTable.mem_of_get found), hp.binding⟩
  | extension tag message =>
    rw [PendingProperty.tell] at h
    split at h
    · obtain ⟨b, found, h⟩ := ok_of_bind h
      cases h
      exact ⟨hp.name, PropertyBinding.Sourced.read found⟩
    · cases h
      exact hp
  | _ =>
    cases h
    exact ⟨hp.name, hp.binding⟩

/-- Host members that leave out their names are given those that follow from the name which the
property has by then. -/
lemma finish {p : PendingProperty} {q : PropertyDecl} (hp : p.Sourced strings)
    (h : p.finish = .ok q) : q.Sourced strings := by
  have method {host : Option HostSignature} (hs : ∀ b ∈ host, b.Sourced strings)
      {provided s : String} (h : host.bind (·.method provided) = some s) :
      IsMethod strings provided s := by
    obtain ⟨b, hb, h⟩ := Option.bind_eq_some_iff.1 h
    exact (hs b hb).method h
  obtain ⟨name, named, rfl⟩ := PendingProperty.finish_eq_ok_iff.1 h
  refine ⟨hp.name name named, ?_, ?_, ?_, ?_⟩
  · intro s hs
    obtain ⟨b, hb, hs⟩ := Option.bind_eq_some_iff.1 hs
    exact (hp.binding.field b hb).field hs
  · exact fun s hs => method hp.binding.getter hs
  · exact fun s hs => method hp.binding.setter hs
  · exact fun s hs => method hp.binding.carrier hs

end PendingProperty.Sourced

/-- The text of an open member. -/
def PendingMember.Sourced (strings : List String) : PendingMember → Prop
  | .constructor f => f.name = some FunctionDecl.constructorName ∧ f.Sourced strings
  | .function f => (∀ n ∈ f.name, n ∈ strings) ∧ f.Sourced strings
  | .property p => p.Sourced strings

namespace PendingMember.Sourced

/-- A new member has no text but the name of constructors. -/
lemma fresh {kind : NodeKind} {m : PendingMember} (h : PendingMember.fresh? kind = some m) :
    m.Sourced strings := by
  cases kind with
  | constructor =>
    cases h
    exact ⟨rfl, nofun, nofun⟩
  | function =>
    cases h
    exact ⟨nofun, nofun, nofun⟩
  | property =>
    cases h
    exact ⟨nofun, PropertyBinding.Sourced.empty⟩
  | classNode => cases h
  | parameter => cases h

/-- A parameter brings its name into a member. -/
lemma addParameter {m : PendingMember} (hm : m.Sourced strings) {p : ParameterDecl}
    (hp : p.name ∈ strings) : (m.addParameter p).Sourced strings := by
  cases m with
  | constructor f => exact ⟨hm.1, forall_mem_concat hm.2.parameters hp, hm.2.binding⟩
  | function f => exact ⟨hm.1, forall_mem_concat hm.2.parameters hp, hm.2.binding⟩
  | property q => exact hm

/-- A detail of a member takes its text from the table. -/
lemma tell {m m' : PendingMember} {detail : Detail} (hm : m.Sourced table.strings)
    (h : m.tell table detail = .ok m') : m'.Sourced table.strings := by
  cases m with
  | constructor f =>
    obtain ⟨f', told, h⟩ := ok_of_bind h
    cases h
    obtain ⟨sourced, -⟩ := hm.2.tell told
    -- whatever name it was told, it has its own
    exact ⟨hm.1, sourced.parameters, sourced.binding⟩
  | function f =>
    obtain ⟨f', told, h⟩ := ok_of_bind h
    cases h
    obtain ⟨sourced, same | ⟨n, found, named⟩⟩ := hm.2.tell told
    · exact ⟨same ▸ hm.1, sourced⟩
    · exact ⟨named ▸ forall_mem_some found, sourced⟩
  | property p =>
    obtain ⟨p', told, h⟩ := ok_of_bind h
    cases h
    exact PendingProperty.Sourced.tell hm told

/-- A finished member has no text but what it had while it was open. -/
lemma finish {m : PendingMember} {e : ClassDecl.Edit} (hm : m.Sourced strings)
    (h : m.finish = .ok e) : e.Sourced strings := by
  cases m with
  | constructor f =>
    obtain ⟨g, finished, h⟩ := ok_of_bind h
    cases h
    obtain ⟨named, sourced⟩ := hm.2.finish finished
    exact ⟨Option.some.inj (named.symm.trans hm.1), sourced⟩
  | function f =>
    obtain ⟨g, finished, h⟩ := ok_of_bind h
    cases h
    obtain ⟨named, sourced⟩ := hm.2.finish finished
    exact ⟨hm.1 g.name named, sourced⟩
  | property p =>
    obtain ⟨q, finished, h⟩ := ok_of_bind h
    cases h
    exact PendingProperty.Sourced.finish hm finished

/-- A finished member does not rename its class. -/
lemma name_edit {m : PendingMember} {e : ClassDecl.Edit} (h : m.finish = .ok e) (c : ClassDecl) :
    (c.edit e).name = c.name := by
  cases m with
  | constructor f | function f | property f =>
    obtain ⟨g, -, h⟩ := ok_of_bind h
    cases h
    rfl

end PendingMember.Sourced

/-- The text of what is open. -/
def Focus.Sourced (strings : List String) : Focus → Prop
  | .before | .body | .after => True
  | .member m => m.Sourced strings
  | .parameter m p => m.Sourced strings ∧ p.Sourced strings

/-! ## The assembler -/

/-- The text of a class that is being put together. The name that it starts with is not from the
table. -/
structure Assembler.Sourced (strings : List String) (a : Assembler) : Prop where
  name : a.named = true → a.decl.name ∈ strings
  decl : a.decl.Sourced strings
  focus : a.focus.Sourced strings

namespace Assembler.Sourced

variable {a a' : Assembler}

/-- At the start there is no text. -/
lemma start : Assembler.start.Sourced strings :=
  ⟨nofun, ⟨nofun, nofun, nofun, nofun⟩, trivial⟩

/-- A declaration that begins brings in no text. -/
lemma enter (ha : a.Sourced strings) (kind : NodeKind) : (a.enter kind).Sourced strings := by
  obtain ⟨name, decl, focus⟩ := ha
  unfold Assembler.enter
  split
  · exact ⟨name, decl, trivial⟩
  · split
    · rename_i m opened
      exact ⟨name, decl, PendingMember.Sourced.fresh opened⟩
    · exact ⟨name, decl, focus⟩
  · rename_i m opened
    rw [opened] at focus
    exact ⟨name, decl, focus, PendingParameter.Sourced.fresh⟩
  · exact ⟨name, decl, focus⟩

/-- A declaration that ends brings in no text but its own. -/
lemma leave (ha : a.Sourced strings) (h : a.leave = .ok a') : a'.Sourced strings := by
  obtain ⟨name, decl, focus⟩ := ha
  unfold Assembler.leave at h
  split at h
  · cases h
    exact ⟨name, decl, trivial⟩
  · rename_i m opened
    rw [opened] at focus
    obtain ⟨e, finished, h⟩ := ok_of_bind h
    cases h
    refine ⟨?_, decl.edit (PendingMember.Sourced.finish focus finished), trivial⟩
    intro named
    rw [PendingMember.Sourced.name_edit finished]
    exact name named
  · rename_i m p opened
    rw [opened] at focus
    obtain ⟨q, finished, h⟩ := ok_of_bind h
    cases h
    exact ⟨name, decl, focus.1.addParameter (focus.2.finish finished)⟩
  · cases h
    exact ⟨name, decl, focus⟩
  · cases h
    exact ⟨name, decl, focus⟩

/-- A detail of the class takes its text from the table. -/
lemma tellClass {detail : Detail} (ha : a.Sourced table.strings)
    (h : a.tellClass table detail = .ok a') : a'.Sourced table.strings := by
  cases detail with
  | flags bits =>
    cases h
    exact ⟨ha.name, ha.decl.edit (e := .flags ⟨bits⟩) trivial, ha.focus⟩
  | name index =>
    obtain ⟨n, found, h⟩ := ok_of_bind h
    cases h
    have entry := StringTable.mem_of_get found
    exact ⟨fun _ => entry, ha.decl.edit (e := .name n) entry, ha.focus⟩
  | companion index =>
    obtain ⟨n, found, h⟩ := ok_of_bind h
    cases h
    have entry := StringTable.mem_of_get found
    exact ⟨ha.name, ha.decl.edit (e := .companion n) entry, ha.focus⟩
  | _ =>
    cases h
    exact ha

/-- A detail takes its text from the table, whatever is open. -/
lemma tell {detail : Detail} (ha : a.Sourced table.strings) (h : a.tell table detail = .ok a') :
    a'.Sourced table.strings := by
  have focus := ha.focus
  unfold Assembler.tell at h
  split at h
  · exact ha.tellClass h
  · rename_i m opened
    rw [opened] at focus
    obtain ⟨m', told, h⟩ := ok_of_bind h
    cases h
    exact ⟨ha.name, ha.decl, PendingMember.Sourced.tell focus told⟩
  · rename_i m p opened
    rw [opened] at focus
    obtain ⟨p', told, h⟩ := ok_of_bind h
    cases h
    exact ⟨ha.name, ha.decl, focus.1, focus.2.tell told⟩
  · cases h
    exact ha
  · cases h
    exact ha

/-- A token keeps the text sourced. -/
lemma accept {token : Token} (ha : a.Sourced table.strings)
    (h : a.accept table token = .ok a') : a'.Sourced table.strings := by
  cases token with
  | enter kind =>
    cases h
    exact ha.enter kind
  | exit kind => exact ha.leave h
  | detail detail => exact ha.tell h

/-- The finished class has its name from the table. -/
lemma finish {c : ClassDecl} (ha : a.Sourced strings) (h : a.finish = .ok c) :
    c.name ∈ strings ∧ c.Sourced strings := by
  unfold Assembler.finish at h
  split at h <;> cases h
  rename_i ended
  exact ⟨ha.name ended.2, ha.decl⟩

end Assembler.Sourced

/-- The text of a class that was read from a message is sourced. -/
lemma decodeMessage_sourced {message : List UInt8} {c : ClassDecl}
    (h : decodeMessage table message = .ok c) :
    c.name ∈ table.strings ∧ c.Sourced table.strings := by
  obtain ⟨a, run, h⟩ := ok_of_bind h
  have sourced : a.Sourced table.strings := by
    refine foldlM_keeps ?_ Assembler.Sourced.start run
    intro a token a' ha h
    obtain ⟨token, -, h⟩ := ok_of_bind h
    exact ha.accept h
  exact sourced.finish h

namespace Header

/-- In a class that a header describes, the name of the class and all that is in it are from the
string table of the header, or follow from the names of declarations in the way that `Sourced`
allows. -/
theorem decode_sourced {header : Header} {settings : Settings} {c : ClassDecl}
    (h : header.decode settings = .ok c) :
    c.name ∈ header.strings ∧ c.Sourced header.strings := by
  rw [decode] at h
  split at h
  · cases h
  · obtain ⟨message, -, h⟩ := ok_of_bind h
    exact decodeMessage_sourced h

/-- A constructor with a parameter, a function that is named behind its host binding, and a property
whose host binding leaves out all names. -/
def namelessHosts : Header where
  kind := .classFile
  version := .current
  data := ["\x00\x18\x00\x20\x01\x42\x0b\x12\x02\x10\x02\xa2\x06\x04\x08\x03\x10\x04",
    "\x4a\x07\xa2\x06\x02\x10\x04\x10\x05",
    "\x52\x15\x10\x06\xa2\x06\x10\x0a\x02\x10\x07\x12\x02\x10\x04\x1a\x02\x10\x08\x22\x02\x10\x09"]
  strings := ["A", "C", "p", "make", "()V", "run", "isOpen", "Z", "()Z", "(Z)V"]
  extraString := ""
  packageName := none
  extraInt := none

/-- The class that it describes. -/
def namelessClass : ClassDecl :=
  .build .default "" [.name "A", .companion "C",
    .constructor ⟨.default, "<init>", some "make()V", [⟨.zero, "p"⟩]⟩,
    .function ⟨.default, "run", some "run()V", []⟩,
    .property ⟨.defaultProperty, "isOpen", none, none, some "isOpen:Z", some "isOpen()Z",
      some "setOpen(Z)V", some "isOpen$annotations()V"⟩]

set_option maxRecDepth 2000 in
/-- All of its text is from the table, but for the name of constructors and what follows from the
name of the property. -/
theorem decode_sourced_namelessHosts :
    namelessHosts.decode .default = .ok namelessClass ∧
      namelessClass.name ∈ namelessHosts.strings ∧
      namelessClass.Sourced namelessHosts.strings := by
  have decoded : namelessHosts.decode .default = .ok namelessClass := by cbv
  exact ⟨decoded, decode_sourced decoded⟩

end Header

end ClassMetadata
