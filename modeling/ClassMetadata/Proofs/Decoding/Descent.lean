import ClassMetadata.Decoding.Assembler
import ClassMetadata.Tree.Entry

/-!
# Reading a class by recursive descent

The message of a class, read the direct way: one function for each kind of message goes through the
bytes from left to right, reads a nested declaration where it stands, and finishes a declaration
when its message ends. There are no tokens, no frames and nothing that is open.

* `readMessage` is the one loop. A `Schema` says what to do with a field by its key alone, before
  the payload is read, and so a wrong wire type is reported before anything in the payload is.
* `readClass` puts the class together from the edits that the fields of its message amount to, in
  the order of the bytes. Only then it asks for the name of the class.
-/

namespace ClassMetadata.Descent

/-- What a field does with what was read so far: it has a payload, which begins at an offset. -/
abbrev Step (σ : Type) := σ → Nat → Payload → Except DecodeError σ

/-- What the field with a key does, or why there must not be such a field. -/
abbrev Schema (σ : Type) := Key → Except DecodeError (Step σ)

variable {σ : Type}

namespace Step

/-- Passes over the field. -/
def skip : Step σ := fun s _ _ => .ok s

/-- Takes a number; passes over anything else. -/
def number (f : σ → UInt64 → Except DecodeError σ) : Step σ
  | s, _, .varint value => f s value
  | s, _, _ => .ok s

/-- Takes a number that has to fit into 32 bits; passes over anything else. -/
def word (f : σ → UInt32 → Except DecodeError σ) : Step σ
  | s, offset, .varint value => do f s (← NodeKind.narrow value offset)
  | s, _, _ => .ok s

/-- Takes a nested message; passes over anything else. -/
def message (f : σ → List UInt8 → Except DecodeError σ) : Step σ
  | s, _, .block bytes => f s bytes
  | s, _, _ => .ok s

end Step

/-- A known field of a declaration, which has to come in one wire type. -/
def known (node : NodeKind) (key : Key) (type : WireType) (step : Step σ) :
    Except DecodeError (Step σ) :=
  if key.type = type then .ok step else .error (.unexpectedField node key.field key.type)

/-- Reads what is ahead field by field: the key, then what the schema has to say about it, then the
payload. -/
def readMessage (schema : Schema σ) (s : σ) (c : Cursor) : Except DecodeError σ :=
  if c.hasMore then
    match _hkey : Reader.key c with
    | .error e _ => .error (.wire e)
    | .ok key c₁ =>
      match schema key with
      | .error e => .error e
      | .ok step =>
        match _hpayload : Reader.payload key.type c₁ with
        | .error e _ => .error (.wire e)
        | .ok payload c₂ =>
          match step s c₁.position payload with
          | .error e => .error e
          | .ok s' => readMessage schema s' c₂
  else .ok s
termination_by c.ahead.length
decreasing_by
  have := Reader.key_advances _ _ _ _hkey
  have := Reader.Advances.of_forward (Reader.payload_forward _) _ _ _ _hpayload
  omega

/-! ## Host bindings -/

/-- The fields of a host signature. In another wire type they are passed over. -/
def signatureField (table : StringTable) : Schema HostSignature := fun key =>
  match key.field.toNat with
  | 1 => .ok (.number fun s index => return { s with name := some (← table.get index) })
  | 2 => .ok (.number fun s index => return { s with descriptor := some (← table.get index) })
  | _ => .ok .skip

/-- The host signature in a message. -/
def readSignature (table : StringTable) (message : List UInt8) : Except DecodeError HostSignature :=
  readMessage (signatureField table) .empty (.ofBytes message)

/-- The fields of a property's host binding. In another wire type they are passed over. -/
def bindingField (table : StringTable) : Schema PropertyBinding := fun key =>
  match key.field.toNat with
  | 1 => .ok (.message fun b m => return { b with field := some (← readSignature table m) })
  | 2 => .ok (.message fun b m => return { b with carrier := some (← readSignature table m) })
  | 3 => .ok (.message fun b m => return { b with getter := some (← readSignature table m) })
  | 4 => .ok (.message fun b m => return { b with setter := some (← readSignature table m) })
  | _ => .ok .skip

/-- The host binding in a message. -/
def readBinding (table : StringTable) (message : List UInt8) : Except DecodeError PropertyBinding :=
  readMessage (bindingField table) .empty (.ofBytes message)

/-! ## Declarations -/

/-- The fields of a parameter. -/
def parameterField (table : StringTable) : Schema PendingParameter := fun key =>
  match key.field.toNat with
  | 1 => known .parameter key .varint (.word fun p bits => .ok { p with flags := ⟨bits⟩ })
  | 2 => known .parameter key .varint
      (.number fun p index => return { p with name := some (← table.get index) })
  | _ => .ok .skip

/-- The parameter in a message. -/
def readParameter (table : StringTable) (message : List UInt8) :
    Except DecodeError ParameterDecl := do
  (← readMessage (parameterField table) .fresh (.ofBytes message)).finish

/-- A nested parameter goes behind the others. -/
def parameterStep (table : StringTable) : Step PendingFunction :=
  .message fun f m => return { f with parameters := f.parameters ++ [← readParameter table m] }

/-- The host binding of a constructor or function, as a whole. -/
def signatureStep (table : StringTable) : Step PendingFunction :=
  .message fun f m => return { f with binding := some (← readSignature table m) }

/-- The fields of a constructor. -/
def constructorField (table : StringTable) : Schema PendingFunction := fun key =>
  match key.field.toNat with
  | 1 => known .constructor key .varint (.word fun f bits => .ok { f with flags := ⟨bits⟩ })
  | 2 => known .constructor key .lengthDelimited (parameterStep table)
  | 100 => .ok (signatureStep table)
  | _ => .ok .skip

/-- The constructor in a message. -/
def readConstructor (table : StringTable) (message : List UInt8) :
    Except DecodeError FunctionDecl := do
  (← readMessage (constructorField table) .freshConstructor (.ofBytes message)).finish .constructor

/-- The fields of a function. -/
def functionField (table : StringTable) : Schema PendingFunction := fun key =>
  match key.field.toNat with
  | 1 => known .function key .varint (.word fun f bits => .ok { f with flags := ⟨bits⟩ })
  | 2 => known .function key .varint
      (.number fun f index => return { f with name := some (← table.get index) })
  | 6 => known .function key .lengthDelimited (parameterStep table)
  | 100 => .ok (signatureStep table)
  | _ => .ok .skip

/-- The function in a message. -/
def readFunction (table : StringTable) (message : List UInt8) : Except DecodeError FunctionDecl := do
  (← readMessage (functionField table) .fresh (.ofBytes message)).finish .function

/-- The fields of a property. -/
def propertyField (table : StringTable) : Schema PendingProperty := fun key =>
  match key.field.toNat with
  | 1 => known .property key .varint (.word fun p bits => .ok { p with flags := ⟨bits⟩ })
  | 2 => known .property key .varint
      (.number fun p index => return { p with name := some (← table.get index) })
  | 7 => known .property key .varint
      (.word fun p bits => .ok { p with getterFlags := some ⟨bits⟩ })
  | 8 => known .property key .varint
      (.word fun p bits => .ok { p with setterFlags := some ⟨bits⟩ })
  | 100 => .ok (.message fun p m => return { p with binding := ← readBinding table m })
  | _ => .ok .skip

/-- The property in a message. -/
def readProperty (table : StringTable) (message : List UInt8) : Except DecodeError PropertyDecl := do
  (← readMessage (propertyField table) .fresh (.ofBytes message)).finish

/-- The fields of a class, as edits behind those that were read before. -/
def classField (table : StringTable) : Schema (List ClassDecl.Edit) := fun key =>
  match key.field.toNat with
  | 1 => known .classNode key .varint (.word fun es bits => .ok (es ++ [.flags ⟨bits⟩]))
  | 3 => known .classNode key .varint
      (.number fun es index => return es ++ [.name (← table.get index)])
  | 4 => known .classNode key .varint
      (.number fun es index => return es ++ [.companion (← table.get index)])
  | 8 => known .classNode key .lengthDelimited
      (.message fun es m => return es ++ [.constructor (← readConstructor table m)])
  | 9 => known .classNode key .lengthDelimited
      (.message fun es m => return es ++ [.function (← readFunction table m)])
  | 10 => known .classNode key .lengthDelimited
      (.message fun es m => return es ++ [.property (← readProperty table m)])
  | _ => .ok .skip

/-- What the message of a class says, in the order of its bytes. -/
def readEdits (table : StringTable) (message : List UInt8) :
    Except DecodeError (List ClassDecl.Edit) :=
  readMessage (classField table) [] (.ofBytes message)

/-- An edit gives the class its name. -/
def namesClass : ClassDecl.Edit → Bool
  | .name _ => true
  | _ => false

/-- The class in a message. -/
def readClass (table : StringTable) (message : List UInt8) : Except DecodeError ClassDecl := do
  let edits ← readEdits table message
  if edits.any namesClass then return ClassDecl.build .default "" edits
  else throw (.missingName .classNode)

end ClassMetadata.Descent
