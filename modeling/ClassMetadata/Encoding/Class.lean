import ClassMetadata.Declaration.Class
import ClassMetadata.Encoding.Draft
import ClassMetadata.Text.Separator

/-!
# The message of a class

A class is written as one message: its flags, its name, the companion's name, and then a message for
each constructor, function and property. Signatures go into the host-binding extension, taken apart
into a name and a descriptor at the first `(` of a method and the first `:` of a field.

* `ClassDecl.drafts` is the message with texts in it, `ClassDecl.stringTable` its string table and
  `ClassDecl.message` its bytes.
-/

namespace ClassMetadata

namespace Draft

/-- The field of a declaration's flags. -/
def flags (flags : Flags) : Draft := word 1 flags.bits

/-- The drafts of a part that may be absent. -/
def optional {α : Type} (part : Option α) (draft : α → Draft) : List Draft :=
  (part.map draft).toList

/-- The body of a host member: its name unless that is empty, and its descriptor. -/
def hostMember (name descriptor : List Char) : List Draft :=
  (if name.isEmpty then [] else [text 1 (String.ofList name)])
    ++ [text 2 (String.ofList descriptor)]

/-- The body of a method's signature. The parenthesis belongs to the descriptor; without one
everything does. -/
def method (signature : String) : List Draft :=
  match Text.breakAt '(' signature.toList with
  | some (name, descriptor) => hostMember name descriptor
  | none => hostMember [] signature.toList

/-- The body of a field's signature. The colon belongs to neither part; without one everything is
descriptor. -/
def field (signature : String) : List Draft :=
  match Text.breakAt ':' signature.toList with
  | some (name, rest) => hostMember name (rest.drop 1)
  | none => hostMember [] signature.toList

end Draft

namespace ParameterDecl

/-- The body of a parameter's message. -/
def drafts (p : ParameterDecl) : List Draft := [.flags p.flags, .text 2 p.name]

end ParameterDecl

namespace FunctionDecl

/-- The body of a constructor's or function's message. What bears the name of constructors is
written without a name and with the parameters of a constructor. -/
def drafts (f : FunctionDecl) : List Draft :=
  let name := if f.isConstructor then [] else [.text 2 f.name]
  let parameterField := if f.isConstructor then 2 else 6
  [.flags f.flags] ++ name
    ++ f.parameters.map (fun p => .message parameterField p.drafts)
    ++ Draft.optional f.signature fun s => .message 100 (Draft.method s)

end FunctionDecl

namespace PropertyDecl

/-- The body of a property's host binding. -/
def bindingDrafts (p : PropertyDecl) : List Draft :=
  Draft.optional p.fieldSignature (fun s => .message 1 (Draft.field s))
    ++ Draft.optional p.carrierSignature (fun s => .message 2 (Draft.method s))
    ++ Draft.optional p.getterSignature (fun s => .message 3 (Draft.method s))
    ++ Draft.optional p.setterSignature (fun s => .message 4 (Draft.method s))

/-- The body of a property's message. -/
def drafts (p : PropertyDecl) : List Draft :=
  let binding := p.bindingDrafts
  [.flags p.flags, .text 2 p.name]
    ++ Draft.optional p.getterFlags (fun flags => .word 7 flags.bits)
    ++ Draft.optional p.setterFlags (fun flags => .word 8 flags.bits)
    ++ if binding.isEmpty then [] else [.message 100 binding]

end PropertyDecl

namespace ClassDecl

/-- The class message. -/
def drafts (c : ClassDecl) : List Draft :=
  [.flags c.flags, .text 3 c.name]
    ++ Draft.optional c.companion (.text 4)
    ++ c.constructors.map (fun f => .message 8 f.drafts)
    ++ c.functions.map (fun f => .message 9 f.drafts)
    ++ c.properties.map (fun p => .message 10 p.drafts)

/-- The string table of the class message. -/
def stringTable (c : ClassDecl) : List String := Draft.tableOf c.drafts

/-- The bytes of the class message. -/
def message (c : ClassDecl) : List UInt8 := Write.bytesOf (Draft.writeAll c.stringTable c.drafts)

end ClassDecl

end ClassMetadata
