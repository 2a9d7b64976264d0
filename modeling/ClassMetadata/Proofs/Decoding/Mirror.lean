import ClassMetadata.Proofs.Decoding.Pending
import ClassMetadata.Proofs.Tree.Stream

/-!
# What is pending and what is open

A token reader and an assembler each keep their own account of the declarations that are open: the one
has them on its stack, the other has them in focus or pending. Nothing ties the two together but the
tokens, and yet they never differ.

* `Assembler.Stands` relates a focus to the declarations on a stack. Where it holds, a `FlatAssembler`
  does the same with the next token (`Assembler.Stands.accept_flat`) and loses nothing by it
  (`Assembler.Stands.not_loses`), and it holds again behind the token (`Assembler.Stands.accept`).
* `Assembler.At.run` carries this through all that a reader gives.
* `FlatAssembler.mirrors_stack` is about class messages.
-/

namespace ClassMetadata

open Descent (nested)

namespace TokenReader

/-- The declarations on the stack of a reader, innermost first. -/
def stack : TokenReader → List NodeKind
  | fresh _ => []
  | within frames => kinds frames

/-- The first token of a reader is what it gives next. -/
lemma next_of_tokens {reader : TokenReader} {item : Except DecodeError Token}
    {items : List (Except DecodeError Token)} (h : reader.tokens = item :: items) :
    ∃ reader', reader.next = some (item, reader') ∧ reader'.tokens = items := by
  cases hnext : reader.next with
  | none =>
    rw [tokens_of_next_none hnext] at h
    cases h
  | some result =>
    rw [tokens_of_next hnext] at h
    cases h
    exact ⟨result.2, rfl, rfl⟩

end TokenReader

namespace FlatAssembler

/-- What has to be pending when a declaration of some kind is open innermost. -/
inductive Holds (a : FlatAssembler) : NodeKind → Prop where
  | body :
    a.memberKind = none →
    a.parameter = none →
    Holds a .classNode
  | member {kind : NodeKind} :
    kind ∈ nested .classNode →
    a.memberKind = some kind →
    a.parameter = none →
    Holds a kind
  | parameter :
    a.memberKind = some .constructor ∨ a.memberKind = some .function →
    a.parameter ≠ none →
    Holds a .parameter

/-- A token that can stand in a declaration goes with what has to be pending there. -/
theorem Holds.not_loses {a : FlatAssembler} {kind : NodeKind} {kinds : List NodeKind} {token : Token}
    (holds : a.Holds kind) (allowed : token.Allowed (kind :: kinds)) : ¬ a.Loses token := by
  intro loses
  cases holds with
  | body noMember noParameter =>
    cases loses with
    | noMember member _ =>
      cases allowed
      exact absurd member (by decide)
    | noParameter _ | strayParameter _ _ | getterFlags _ | setterFlags _ => cases allowed
    | constructorName _ pending => cases noMember.symm.trans pending
    | extension _ => exact absurd allowed.1 (by decide)
    | overwritesMember _ pending => exact pending noMember
    | overwritesParameter pending => exact pending noParameter
  | member direct pending noParameter =>
    cases loses with
    | noMember _ other =>
      cases allowed
      exact other pending
    | noParameter _ | strayParameter _ _ =>
      cases allowed
      exact absurd direct (by decide)
    | getterFlags other | setterFlags other =>
      cases allowed
      exact other pending
    | constructorName _ constructor =>
      cases pending.symm.trans constructor
      simp [Token.Allowed, Detail.Suits] at allowed
    | extension none => cases none.symm.trans pending
    | overwritesMember member _ =>
      -- a member stands in the class, and nothing that stands in a member is one
      have inner := level_of_nested allowed
      have outer := level_of_nested direct
      have begun := level_of_nested member
      omega
    | overwritesParameter pending => exact pending noParameter
  | parameter takes present =>
    cases loses with
    | noMember member _ =>
      cases allowed
      exact absurd member (by decide)
    | noParameter absent | constructorName absent _ => exact present absent
    | strayParameter notConstructor notFunction => exact takes.elim notConstructor notFunction
    | getterFlags _ | setterFlags _ | overwritesMember _ _ | overwritesParameter _ => cases allowed
    | extension _ => exact absurd allowed.1 (by decide)

end FlatAssembler

namespace PendingMember

variable {table : StringTable} {m m' : PendingMember}

/-- Every member is of a kind that stands in a class. -/
lemma kind_mem_nested (m : PendingMember) : m.kind ∈ nested .classNode := by
  cases m <;> simp [kind, nested]

/-- Nothing is nested in a member but the parameters of constructors and functions. -/
lemma nested_kind {child : NodeKind} (m : PendingMember) (h : child ∈ nested m.kind) :
    child = .parameter ∧ m.kind ∈ [.constructor, .function] := by
  cases m with
  | constructor f | function f => exact ⟨List.mem_singleton.1 h, by simp [kind]⟩
  | property p => cases h

/-- A parameter does not change the kind of its member. -/
lemma kind_addParameter (p : ParameterDecl) : (m.addParameter p).kind = m.kind := by
  cases m <;> rfl

/-- A detail does not change the kind of its member. -/
lemma kind_tell {detail : Detail} (h : m.tell table detail = .ok m') : m'.kind = m.kind := by
  cases m
  all_goals
    obtain ⟨told, -, h⟩ := ok_of_bind h
    cases h
    rfl

/-- Flags are told in the same way. -/
lemma tell_flags (bits : UInt32) : m.tell table (.flags bits) = .ok (m.setFlags ⟨bits⟩) := by
  cases m <;> rfl

/-- A name is told in the same way, also to a constructor. -/
lemma tell_name (index : UInt64) : m.tell table (.name index) = (table.get index).map m.setName := by
  cases m
  all_goals
    show (table.get index >>= _) >>= _ = _
    cases table.get index <;> rfl

/-- An extension is told in the same way. -/
lemma tell_extension (tag : UInt32) (payload : List UInt8) :
    m.tell table (.extension tag payload) =
      if tag.toNat = hostBindingTag then m.bindHost table payload else .ok m := by
  split
  · rename_i host
    cases m with
    | constructor f | function f =>
      simp only [tell, PendingFunction.tell, if_pos host, bindHost]
      cases HostSignature.read table payload <;> rfl
    | property p =>
      simp only [tell, PendingProperty.tell, if_pos host, bindHost]
      cases PropertyBinding.read table payload <;> rfl
  · rename_i foreign
    cases m with
    | constructor f | function f =>
      simp only [tell, PendingFunction.tell, if_neg foreign]
      rfl
    | property p =>
      simp only [tell, PendingProperty.tell, if_neg foreign]
      rfl

end PendingMember

/-! ## Focus and stack -/

namespace Assembler

/-- The assembler with what is in focus side by side. -/
def flat (a : Assembler) : FlatAssembler :=
  match a.focus with
  | .before | .body => ⟨a.decl, a.named, none, none, false⟩
  | .member m => ⟨a.decl, a.named, some m, none, false⟩
  | .parameter m p => ⟨a.decl, a.named, some m, some p, false⟩
  | .after => ⟨a.decl, a.named, none, none, true⟩

section

variable {table : StringTable} {decl : ClassDecl} {named : Bool} {m : PendingMember}
  {p : PendingParameter} {token : Token}

/-- In the body of the class the same is done with a token that can stand there. -/
lemma accept_flat_body (allowed : token.Allowed [.classNode]) :
    (flat ⟨decl, named, .body⟩).accept table token =
      (accept table ⟨decl, named, .body⟩ token).map flat := by
  cases token with
  | enter child =>
    change child ∈ nested .classNode at allowed
    cases child with
    | constructor | function | property => rfl
    | classNode | parameter => exact absurd allowed (by decide)
  | exit ended =>
    cases allowed
    rfl
  | detail detail =>
    cases detail with
    | flags bits => rfl
    | name index | companion index =>
      show table.get index >>= _ = (table.get index >>= _ : Except _ _).map flat
      cases table.get index <;> rfl
    | getterFlags bits | setterFlags bits => cases allowed
    | extension tag payload => exact absurd allowed.1 (by decide)

/-- In a member the same is done with a token that can stand there. -/
lemma accept_flat_member (allowed : token.Allowed [m.kind, .classNode]) :
    (flat ⟨decl, named, .member m⟩).accept table token =
      (accept table ⟨decl, named, .member m⟩ token).map flat := by
  cases token with
  | enter child =>
    obtain ⟨rfl, -⟩ := m.nested_kind allowed
    rfl
  | exit ended =>
    cases allowed
    have ends : (flat ⟨decl, named, .member m⟩).exit m.kind =
        (flat ⟨decl, named, .member m⟩).exitMember := by
      cases m <;> rfl
    show (flat ⟨decl, named, .member m⟩).exit m.kind = (m.finish >>= _ : Except _ _).map flat
    rw [ends]
    show m.finish >>= _ = _
    cases m.finish <;> rfl
  | detail detail =>
    show FlatAssembler.accept table _ _ = (m.tell table detail >>= _ : Except _ _).map flat
    cases detail with
    | flags bits =>
      rw [PendingMember.tell_flags]
      rfl
    | name index =>
      rw [PendingMember.tell_name]
      show table.get index >>= _ = _
      cases table.get index <;> rfl
    | companion index => cases m <;> cases allowed
    | getterFlags bits | setterFlags bits =>
      cases m with
      | constructor f | function f => cases allowed
      | property p => rfl
    | extension tag payload =>
      rw [PendingMember.tell_extension]
      show FlatAssembler.extend table _ tag payload = _
      rw [FlatAssembler.extend]
      split
      · show m.bindHost table payload >>= _ = _
        cases m.bindHost table payload <;> rfl
      · rfl

/-- In a parameter the same is done with a token that can stand there. -/
lemma accept_flat_parameter {kinds : List NodeKind} (allowed : token.Allowed (.parameter :: kinds)) :
    (flat ⟨decl, named, .parameter m p⟩).accept table token =
      (accept table ⟨decl, named, .parameter m p⟩ token).map flat := by
  cases token with
  | enter child => cases allowed
  | exit ended =>
    cases allowed
    show p.finish >>= _ = (p.finish >>= _ : Except _ _).map flat
    cases p.finish <;> rfl
  | detail detail =>
    cases detail with
    | flags bits => rfl
    | name index =>
      show table.get index >>= _ = ((table.get index >>= _) >>= _ : Except _ _).map flat
      cases table.get index <;> rfl
    | companion index | getterFlags bits | setterFlags bits => cases allowed
    | extension tag payload => exact absurd allowed.1 (by decide)

/-- A detail of the class leaves the focus where it is. -/
lemma focus_tellClass {a a' : Assembler} {detail : Detail} (h : a.tellClass table detail = .ok a') :
    a'.focus = a.focus := by
  cases detail with
  | name index | companion index =>
    obtain ⟨name, -, h⟩ := ok_of_bind h
    cases h
    rfl
  | flags bits | getterFlags bits | setterFlags bits | extension tag payload =>
    cases h
    rfl

end

/-- The same class is finished, or neither is. -/
lemma finish_flat (a : Assembler) : a.flat.finish = a.finish := by
  obtain ⟨decl, named, focus⟩ := a
  cases focus <;> cases named <;> rfl

/-- What is in focus is what is on the stack. -/
inductive Stands : List NodeKind → Focus → Prop where
  | body : Stands [.classNode] .body
  | member (m : PendingMember) : Stands [m.kind, .classNode] (.member m)
  | parameter (m : PendingMember) (p : PendingParameter) :
    m.kind ∈ [.constructor, .function] →
    Stands [.parameter, m.kind, .classNode] (.parameter m p)
  | after : Stands [] .after

namespace Stands

variable {table : StringTable} {kinds : List NodeKind} {a a' : Assembler} {token : Token}

/-- A parameter is pending when the stack has one on top. -/
lemma parameter_iff (h : Stands kinds a.focus) :
    a.flat.parameter.isSome = true ↔ kinds.head? = some .parameter := by
  obtain ⟨decl, named, focus⟩ := a
  cases h with
  | body => simp [flat]
  | member m => cases m <;> simp [flat, PendingMember.kind]
  | parameter m p hm => simp [flat]
  | after => simp [flat]

/-- A member is pending when the stack has one of its kind. -/
lemma memberKind_iff (h : Stands kinds a.focus) (kind : NodeKind) :
    a.flat.memberKind = some kind ↔ kind ∈ kinds ∧ kind ∈ nested .classNode := by
  obtain ⟨decl, named, focus⟩ := a
  cases h with
  | body => cases kind <;> simp [flat, FlatAssembler.memberKind, nested]
  | member m =>
    cases m <;> cases kind <;> simp [flat, FlatAssembler.memberKind, PendingMember.kind, nested]
  | parameter m p hm =>
    cases m <;> cases kind <;> simp [flat, FlatAssembler.memberKind, PendingMember.kind, nested]
  | after => simp [flat, FlatAssembler.memberKind]

/-- What is open innermost has pending what it needs. -/
lemma holds {kind : NodeKind} (h : Stands (kind :: kinds) a.focus) : a.flat.Holds kind := by
  obtain ⟨decl, named, focus⟩ := a
  generalize hkinds : kind :: kinds = all at h
  cases h with
  | body =>
    cases hkinds
    exact .body rfl rfl
  | member m =>
    cases hkinds
    exact .member m.kind_mem_nested rfl rfl
  | parameter m p hm =>
    cases hkinds
    refine .parameter ?_ (Option.some_ne_none p)
    cases m with
    | constructor f => exact .inl rfl
    | function f => exact .inr rfl
    | property q => simp [PendingMember.kind] at hm
  | after => cases hkinds

/-- Nothing is lost by a token that can stand there. -/
theorem not_loses (h : Stands kinds a.focus) (allowed : token.Allowed kinds) :
    ¬ a.flat.Loses token := by
  cases kinds with
  | nil => exact allowed.elim
  | cons kind kinds => exact h.holds.not_loses allowed

/-- The same is done with a token that can stand there. -/
theorem accept_flat (h : Stands kinds a.focus) (allowed : token.Allowed kinds) :
    a.flat.accept table token = (a.accept table token).map flat := by
  obtain ⟨decl, named, focus⟩ := a
  cases h with
  | body => exact accept_flat_body allowed
  | member m => exact accept_flat_member allowed
  | parameter m p hm => exact accept_flat_parameter allowed
  | after => exact allowed.elim

/-- Behind a token that can stand there, what is in focus is again what is open. -/
theorem accept (h : Stands kinds a.focus) (allowed : token.Allowed kinds)
    (accepted : a.accept table token = .ok a') : Stands (token.apply kinds) a'.focus := by
  obtain ⟨decl, named, focus⟩ := a
  cases h with
  | body =>
    cases token with
    | enter child =>
      change child ∈ nested .classNode at allowed
      cases accepted
      cases child with
      | constructor => exact .member (.constructor .freshConstructor)
      | function => exact .member (.function .fresh)
      | property => exact .member (.property .fresh)
      | classNode | parameter => exact absurd allowed (by decide)
    | exit ended =>
      cases accepted
      exact .after
    | detail detail =>
      rw [focus_tellClass accepted]
      exact .body
  | member m =>
    cases token with
    | enter child =>
      obtain ⟨rfl, takes⟩ := m.nested_kind allowed
      cases accepted
      exact .parameter m .fresh takes
    | exit ended =>
      obtain ⟨e, -, accepted⟩ := ok_of_bind accepted
      cases accepted
      exact .body
    | detail detail =>
      obtain ⟨m', told, accepted⟩ := ok_of_bind accepted
      cases accepted
      have again := member m'
      rwa [PendingMember.kind_tell told] at again
  | parameter m p hm =>
    cases token with
    | enter child => cases allowed
    | exit ended =>
      obtain ⟨d, -, accepted⟩ := ok_of_bind accepted
      cases accepted
      have again := member (m.addParameter d)
      rwa [PendingMember.kind_addParameter] at again
    | detail detail =>
      obtain ⟨p', -, accepted⟩ := ok_of_bind accepted
      cases accepted
      exact .parameter m p' hm
  | after => exact allowed.elim

end Stands

/-! ## Assembler and reader -/

/-- The focus is where a reader is. -/
inductive At : TokenReader → Focus → Prop where
  | fresh (message : List UInt8) : At (.fresh message) .before
  | within {frames : List Frame} {focus : Focus} :
    Stands (TokenReader.kinds frames) focus →
    At (.within frames) focus

namespace At

variable {reader reader' : TokenReader} {a : Assembler} {token : Token}

/-- A parameter is pending when the reader is in one. -/
lemma parameter_iff (h : At reader a.focus) :
    a.flat.parameter.isSome = true ↔ reader.stack.head? = some .parameter := by
  obtain ⟨decl, named, focus⟩ := a
  cases h with
  | fresh message => simp [flat, TokenReader.stack]
  | within stands => exact stands.parameter_iff

/-- A member is pending when the reader is in one of its kind. -/
lemma memberKind_iff (h : At reader a.focus) (kind : NodeKind) :
    a.flat.memberKind = some kind ↔ kind ∈ reader.stack ∧ kind ∈ nested .classNode := by
  obtain ⟨decl, named, focus⟩ := a
  cases h with
  | fresh message => simp [flat, FlatAssembler.memberKind, TokenReader.stack]
  | within stands => exact stands.memberKind_iff kind

/-- The same is done with what the reader gives, and nothing is lost by it. Behind it, the focus is
where the reader is. -/
theorem next (table : StringTable) (h : At reader a.focus)
    (given : reader.next = some (.ok token, reader')) :
    a.flat.accept table token = (a.accept table token).map flat ∧ ¬ a.flat.Loses token ∧
      ∀ a', a.accept table token = .ok a' → At reader' a'.focus := by
  obtain ⟨decl, named, focus⟩ := a
  cases h with
  | fresh message =>
    cases given
    refine ⟨rfl, fun loses => ?_, fun a' accepted => ?_⟩
    · cases loses with
      | overwritesMember member _ => exact absurd member (by decide)
    · cases accepted
      exact .within .body
  | within stands =>
    obtain ⟨frames', rfl, allowed, hkinds⟩ := TokenReader.allowed_of_next given
    refine ⟨stands.accept_flat allowed, stands.not_loses allowed, fun a' accepted => .within ?_⟩
    rw [hkinds]
    exact stands.accept allowed accepted

/-- The same is done with all that the reader gives. As long as there is no error, the focus stays where
the reader is. -/
theorem run (table : StringTable) {items later : List (Except DecodeError Token)}
    (h : At reader a.focus) (given : reader.tokens = items ++ later) :
    items.foldlM (fun (a : FlatAssembler) item => do a.accept table (← item)) a.flat =
        (items.foldlM (fun (a : Assembler) item => do a.accept table (← item)) a).map flat ∧
      ∀ a', items.foldlM (fun a item => do a.accept table (← item)) a = .ok a' →
        At (reader.after items.length) a'.focus ∧
          (reader.after items.length).tokens = later := by
  induction items generalizing reader a with
  | nil =>
    refine ⟨rfl, fun a' accepted => ?_⟩
    cases accepted
    exact ⟨h, given⟩
  | cons item items ih =>
    obtain ⟨reader', hnext, rest⟩ := TokenReader.next_of_tokens given
    cases item with
    | error e => exact ⟨rfl, fun a' accepted => by cases accepted⟩
    | ok token =>
      obtain ⟨same, -, behind⟩ := h.next table hnext
      refine ⟨?_, fun a' accepted => ?_⟩
      · show a.flat.accept table token >>= _ = (a.accept table token >>= _ : Except _ _).map flat
        rw [same]
        cases h₁ : a.accept table token with
        | error e => rfl
        | ok a₁ => exact (ih (behind a₁ h₁) rest).1
      · obtain ⟨a₁, h₁, accepted⟩ := ok_of_bind accepted
        rw [List.length_cons, TokenReader.after_succ hnext]
        exact (ih (behind a₁ h₁) rest).2 a' accepted

end At

end Assembler

namespace FlatAssembler

/-- The same comes out of a class message. -/
lemma decodeMessage_eq (table : StringTable) (message : List UInt8) :
    ClassMetadata.decodeMessage table message = decodeMessage table message := by
  have fresh : Assembler.At (.fresh message) Assembler.start.focus := .fresh message
  have same : (TokenReader.fresh message).tokens.foldlM (fun a token => do a.accept table (← token))
      start = (Descent.run table (.fresh message) .start).map Assembler.flat :=
    (fresh.run table (List.append_nil _).symm).1
  show Descent.run table (.fresh message) .start >>= Assembler.finish = _ >>= finish
  rw [same]
  cases Descent.run table (.fresh message) .start with
  | error e => rfl
  | ok a => exact (Assembler.finish_flat a).symm

/-- What is pending mirrors the stack of the reader. It makes no difference for the class that is decoded
from a message, or for the error, that the assembler has no stack of its own. Behind all tokens that
were taken without an error, it is where the assembler with a focus is. A parameter is pending if and
only if the innermost open declaration is one, a member if and only if a constructor, function or
property is open, and then it is of that kind, and the class has ended if and only if its end was taken.
Whatever token comes next goes with what is pending, so that nothing is lost by it. If it is accepted,
then what it says is recorded, or it is an extension of an unknown tag and changes nothing. -/
theorem mirrors_stack (table : StringTable) (message : List UInt8) :
    ClassMetadata.decodeMessage table message = decodeMessage table message ∧
    ∀ (taken : List Token) (later : List (Except DecodeError Token)) (a : FlatAssembler),
      (TokenReader.fresh message).tokens = taken.map .ok ++ later →
      taken.foldlM (accept table) start = .ok a →
      (∃ b, taken.foldlM (Assembler.accept table) .start = .ok b ∧ a = b.flat) ∧
      (a.parameter.isSome = true ↔
        ((TokenReader.fresh message).after taken.length).stack.head? = some .parameter) ∧
      (∀ kind, a.memberKind = some kind ↔
        kind ∈ ((TokenReader.fresh message).after taken.length).stack ∧
          kind ∈ [.constructor, .function, .property]) ∧
      (a.finished = true ↔ .exit .classNode ∈ taken) ∧
      ∀ token rest, later = .ok token :: rest → ¬ a.Loses token ∧
        ∀ a', a.accept table token = .ok a' →
          Records table a a' token ∨ token.IsForeign ∧ a' = a := by
  refine ⟨decodeMessage_eq table message, fun taken later a given accepted => ?_⟩
  have fresh : Assembler.At (.fresh message) Assembler.start.focus := .fresh message
  obtain ⟨same, behind⟩ := fresh.run table given
  rw [List.foldlM_map, List.foldlM_map] at same
  rw [List.foldlM_map, List.length_map] at behind
  change taken.foldlM (accept table) start =
    (taken.foldlM (Assembler.accept table) .start).map Assembler.flat at same
  rw [accepted] at same
  cases hb : taken.foldlM (Assembler.accept table) .start with
  | error e =>
    rw [hb] at same
    cases same
  | ok b =>
    rw [hb] at same
    cases same
    obtain ⟨here, ahead⟩ := behind b hb
    refine ⟨⟨b, rfl, rfl⟩, here.parameter_iff, here.memberKind_iff, ?_, fun token rest hlater => ?_⟩
    · rw [finished_foldlM accepted]
      simp [start]
    · rw [hlater] at ahead
      obtain ⟨reader', hnext, -⟩ := TokenReader.next_of_tokens ahead
      have kept := (here.next table hnext).2.1
      refine ⟨kept, fun a' h => ?_⟩
      exact (records_or_loses h).imp_right fun other => other.resolve_left kept

/-- A class with a constructor that has a parameter. -/
def parameterMessage : List UInt8 := [0x18, 0, 0x42, 4, 0x12, 2, 0x10, 1]

/-- What is pending when the parameter has been given its name. -/
def parameterNamed : FlatAssembler where
  decl := .build .default "" [.name "A"]
  named := true
  member := some (.constructor .freshConstructor)
  parameter := some ⟨.zero, some "p"⟩
  finished := false

/-- The constructor is still pending when the parameter ends, and takes it. -/
theorem mirrors_stack_parameter :
    let taken : List Token := [.enter .classNode, .detail (.name 0), .enter .constructor,
      .enter .parameter, .detail (.name 1)]
    (TokenReader.fresh parameterMessage).tokens = taken.map .ok ++
        [.ok (.exit .parameter), .ok (.exit .constructor), .ok (.exit .classNode)] ∧
      taken.foldlM (accept ⟨["A", "p"]⟩) start = .ok parameterNamed ∧
      ((TokenReader.fresh parameterMessage).after 5).stack.head? = some .parameter ∧
      .constructor ∈ ((TokenReader.fresh parameterMessage).after 5).stack ∧
      .exit .classNode ∉ taken ∧ ¬ parameterNamed.Loses (.exit .parameter) := by
  intro taken
  have given : (TokenReader.fresh parameterMessage).tokens = taken.map .ok ++
      [.ok (.exit .parameter), .ok (.exit .constructor), .ok (.exit .classNode)] := by
    cbv
  have accepted : taken.foldlM (accept ⟨["A", "p"]⟩) start = .ok parameterNamed := rfl
  obtain ⟨-, parameter, member, ended, next⟩ :=
    (mirrors_stack ⟨["A", "p"]⟩ parameterMessage).2 taken _ parameterNamed given accepted
  refine ⟨given, accepted, parameter.1 rfl, ((member .constructor).1 rfl).1, fun seen => ?_, ?_⟩
  · cases ended.2 seen
  · exact (next _ _ rfl).1

end FlatAssembler

end ClassMetadata
