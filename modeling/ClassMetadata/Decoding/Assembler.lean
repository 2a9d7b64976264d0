import ClassMetadata.Declaration.Class
import ClassMetadata.Decoding.AccessorName
import ClassMetadata.Decoding.HostBinding
import ClassMetadata.Tree.Token

/-!
# Putting a class together

An `Assembler` takes the tokens of a declaration tree one after the other and puts the class
together. It remembers what is open (`Focus`): nothing yet, the class itself, one of its members, a
parameter of that member, or nothing any more. What tokens say goes to the innermost open
declaration. When a declaration ends it is finished, which takes a name, and becomes part of the one
around it.

Names that the host binding leaves out are made from the name that a declaration has when it ends.
-/

namespace ClassMetadata

/-- A parameter that is open. -/
structure PendingParameter where
  flags : Flags
  name : Option String
  deriving DecidableEq, Repr

namespace PendingParameter

/-- A parameter of which nothing is known. -/
def fresh : PendingParameter := ⟨.zero, none⟩

/-- The parameter after a detail. -/
def tell (table : StringTable) (p : PendingParameter) :
    Detail → Except DecodeError PendingParameter
  | .flags bits => return { p with flags := ⟨bits⟩ }
  | .name index => return { p with name := some (← table.get index) }
  | _ => return p

/-- The finished parameter. -/
def finish (p : PendingParameter) : Except DecodeError ParameterDecl :=
  match p.name with
  | some name => .ok ⟨p.flags, name⟩
  | none => .error (.missingName .parameter)

/-- A parameter is finished with the name that it was given, and not without one. -/
theorem finish_eq_ok_iff {p : PendingParameter} {d : ParameterDecl} :
    p.finish = .ok d ↔ ∃ name, p.name = some name ∧ d = ⟨p.flags, name⟩ := by
  obtain ⟨flags, name⟩ := p
  cases name with
  | none => exact ⟨nofun, fun ⟨_, named, _⟩ => nomatch named⟩
  | some name => simp [finish, eq_comm]

end PendingParameter

/-- A constructor or function that is open. -/
structure PendingFunction where
  flags : Flags
  name : Option String
  parameters : List ParameterDecl
  binding : Option HostSignature
  deriving DecidableEq, Repr

namespace PendingFunction

/-- A function of which nothing is known. -/
def fresh : PendingFunction := ⟨.default, none, [], none⟩

/-- A constructor of which nothing is known but the name that all constructors have. -/
def freshConstructor : PendingFunction := { fresh with name := some FunctionDecl.constructorName }

/-- The function after a detail. -/
def tell (table : StringTable) (f : PendingFunction) : Detail → Except DecodeError PendingFunction
  | .flags bits => return { f with flags := ⟨bits⟩ }
  | .name index => return { f with name := some (← table.get index) }
  | .extension tag payload => do
    if tag.toNat = hostBindingTag then
      return { f with binding := some (← HostSignature.read table payload) }
    else return f
  | _ => return f

/-- The finished constructor or function. -/
def finish (f : PendingFunction) (kind : NodeKind) : Except DecodeError FunctionDecl :=
  match f.name with
  | some name => .ok ⟨f.flags, name, f.binding.bind (·.method name), f.parameters⟩
  | none => .error (.missingName kind)

/-- A constructor or function is finished with the name that it was given, and not without one. -/
theorem finish_eq_ok_iff {f : PendingFunction} {kind : NodeKind} {d : FunctionDecl} :
    f.finish kind = .ok d ↔ ∃ name, f.name = some name ∧
      d = ⟨f.flags, name, f.binding.bind (·.method name), f.parameters⟩ := by
  obtain ⟨flags, name, parameters, binding⟩ := f
  cases name with
  | none => exact ⟨nofun, fun ⟨_, named, _⟩ => nomatch named⟩
  | some name => simp [finish, eq_comm]

end PendingFunction

/-- A property that is open. -/
structure PendingProperty where
  flags : Flags
  name : Option String
  getterFlags : Option Flags
  setterFlags : Option Flags
  binding : PropertyBinding
  deriving DecidableEq, Repr

namespace PendingProperty

/-- A property of which nothing is known. -/
def fresh : PendingProperty := ⟨.defaultProperty, none, none, none, .empty⟩

/-- The property after a detail. -/
def tell (table : StringTable) (p : PendingProperty) : Detail → Except DecodeError PendingProperty
  | .flags bits => return { p with flags := ⟨bits⟩ }
  | .name index => return { p with name := some (← table.get index) }
  | .getterFlags bits => return { p with getterFlags := some ⟨bits⟩ }
  | .setterFlags bits => return { p with setterFlags := some ⟨bits⟩ }
  | .extension tag payload => do
    if tag.toNat = hostBindingTag then
      return { p with binding := ← PropertyBinding.read table payload }
    else return p
  | .companion _ => return p

/-- The finished property. -/
def finish (p : PendingProperty) : Except DecodeError PropertyDecl :=
  match p.name with
  | some name => .ok {
      flags := p.flags
      name := name
      getterFlags := p.getterFlags
      setterFlags := p.setterFlags
      fieldSignature := p.binding.field.bind (·.field name)
      getterSignature := p.binding.getter.bind (·.method (AccessorName.getter name))
      setterSignature := p.binding.setter.bind (·.method (AccessorName.setter name))
      carrierSignature := p.binding.carrier.bind (·.method (AccessorName.carrier name)) }
  | none => .error (.missingName .property)

/-- A property is finished with the name that it was given, and not without one. -/
theorem finish_eq_ok_iff {p : PendingProperty} {d : PropertyDecl} :
    p.finish = .ok d ↔ ∃ name, p.name = some name ∧ d = {
      flags := p.flags
      name := name
      getterFlags := p.getterFlags
      setterFlags := p.setterFlags
      fieldSignature := p.binding.field.bind (·.field name)
      getterSignature := p.binding.getter.bind (·.method (AccessorName.getter name))
      setterSignature := p.binding.setter.bind (·.method (AccessorName.setter name))
      carrierSignature := p.binding.carrier.bind (·.method (AccessorName.carrier name)) } := by
  obtain ⟨flags, name, getterFlags, setterFlags, binding⟩ := p
  cases name with
  | none => exact ⟨nofun, fun ⟨_, named, _⟩ => nomatch named⟩
  | some name => simp [finish, eq_comm]

end PendingProperty

/-- A member that is open. -/
inductive PendingMember where
  | constructor (f : PendingFunction)
  | function (f : PendingFunction)
  | property (p : PendingProperty)
  deriving DecidableEq, Repr

namespace PendingMember

/-- A member of which nothing is known, for the kinds of node that are members. -/
def fresh? : NodeKind → Option PendingMember
  | .constructor => some (constructor .freshConstructor)
  | .function => some (function .fresh)
  | .property => some (property .fresh)
  | .classNode | .parameter => none

/-- The member with one more parameter, if it has any. -/
def addParameter (p : ParameterDecl) : PendingMember → PendingMember
  | constructor f => constructor { f with parameters := f.parameters ++ [p] }
  | function f => function { f with parameters := f.parameters ++ [p] }
  | property q => property q

/-- The member after a detail. A constructor keeps its name whatever it is told. -/
def tell (table : StringTable) (m : PendingMember) (detail : Detail) :
    Except DecodeError PendingMember := do
  match m with
  | constructor f => return constructor { ← f.tell table detail with name := f.name }
  | function f => return function (← f.tell table detail)
  | property p => return property (← p.tell table detail)

/-- The edit that puts the finished member into its class. -/
def finish : PendingMember → Except DecodeError ClassDecl.Edit
  | constructor f => return .constructor (← f.finish .constructor)
  | function f => return .function (← f.finish .function)
  | property p => return .property (← p.finish)

end PendingMember

/-- What is open. -/
inductive Focus where
  /-- The class has not begun. -/
  | before
  /-- The class itself. -/
  | body
  /-- A member of the class. -/
  | member (m : PendingMember)
  /-- A parameter of a member. -/
  | parameter (m : PendingMember) (p : PendingParameter)
  /-- The class has ended. -/
  | after
  deriving DecidableEq, Repr

/-- A class that is being put together. -/
structure Assembler where
  decl : ClassDecl
  /-- The class has been given a name. -/
  named : Bool
  focus : Focus
  deriving DecidableEq, Repr

namespace Assembler

/-- The assembler before the first token. -/
def start : Assembler := ⟨.empty .default "", false, .before⟩

/-- The assembler after a declaration has begun. -/
def enter (a : Assembler) (kind : NodeKind) : Assembler :=
  match a.focus, kind with
  | .before, .classNode => { a with focus := .body }
  | .body, kind =>
    match PendingMember.fresh? kind with
    | some m => { a with focus := .member m }
    | none => a
  | .member m, .parameter => { a with focus := .parameter m .fresh }
  | _, _ => a

/-- The assembler after the innermost open declaration has ended. -/
def leave (a : Assembler) : Except DecodeError Assembler :=
  match a.focus with
  | .body => return { a with focus := .after }
  | .member m => return { a with decl := a.decl.edit (← m.finish), focus := .body }
  | .parameter m p => return { a with focus := .member (m.addParameter (← p.finish)) }
  | .before | .after => return a

/-- The assembler after a detail of the class itself. -/
def tellClass (table : StringTable) (a : Assembler) : Detail → Except DecodeError Assembler
  | .flags bits => return { a with decl := a.decl.edit (.flags ⟨bits⟩) }
  | .name index => return { a with decl := a.decl.edit (.name (← table.get index)), named := true }
  | .companion index => return { a with decl := a.decl.edit (.companion (← table.get index)) }
  | .getterFlags _ | .setterFlags _ | .extension _ _ => return a

/-- The assembler after a detail of the innermost open declaration. -/
def tell (table : StringTable) (a : Assembler) (detail : Detail) : Except DecodeError Assembler :=
  match a.focus with
  | .body => a.tellClass table detail
  | .member m => return { a with focus := .member (← m.tell table detail) }
  | .parameter m p => return { a with focus := .parameter m (← p.tell table detail) }
  | .before | .after => return a

/-- The assembler after a token. -/
def accept (table : StringTable) (a : Assembler) : Token → Except DecodeError Assembler
  | .enter kind => return a.enter kind
  | .exit _ => a.leave
  | .detail detail => a.tell table detail

/-- The finished class: it has ended and was given a name. -/
def finish (a : Assembler) : Except DecodeError ClassDecl :=
  if a.focus = .after ∧ a.named then .ok a.decl else .error (.missingName .classNode)

end Assembler

end ClassMetadata
