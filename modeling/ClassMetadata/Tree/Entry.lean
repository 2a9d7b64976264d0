import ClassMetadata.Decoding.Error
import ClassMetadata.Tree.Token
import ClassMetadata.Wire.Field

/-!
# What the fields of a node say

`NodeKind.readField` reads one field of a node by the schema. A known field in the wrong wire type
is an error before its payload is looked at. A length-delimited field of a member with a number from
`extensionBase` on is an extension, and every other field is passed over.

* What a field says weighs no more than the field (`NodeKind.weight_nextEntry`).
-/

namespace ClassMetadata

/-- What one field says: a detail of its node, or a node within. -/
inductive Entry where
  | detail (detail : Detail)
  /-- A nested declaration and its message. -/
  | child (kind : NodeKind) (message : List UInt8)
  deriving DecidableEq, Repr

/-- The weight of a field that says this: two more than the message of a nested declaration. -/
def Entry.weight : Entry → Nat
  | detail _ => 1
  | child _ message => message.length + 2

namespace NodeKind

/-- Refuses a known field in a wire type other than that of its role. -/
def checkKey (node : NodeKind) (key : Key) : Except DecodeError Unit :=
  match node.role? key.field.toNat with
  | some role =>
    if key.type = role.wireType then .ok ()
    else .error (.unexpectedField node key.field key.type)
  | none => .ok ()

/-- A number that has to fit into 32 bits; `offset` is where it was read. -/
def narrow (value : UInt64) (offset : Nat) : Except DecodeError UInt32 :=
  if value.toNat < UInt32.size then .ok (UInt32.ofNat value.toNat)
  else .error (.wire (.varintOverflow offset))

/-- What a number says in a role, if the role is that of a detail. -/
def detail? (role : Role) (offset : Nat) (value : UInt64) : Except DecodeError (Option Detail) :=
  match role with
  | .flags => return some (.flags (← narrow value offset))
  | .name => return some (.name value)
  | .companion => return some (.companion value)
  | .getterFlags => return some (.getterFlags (← narrow value offset))
  | .setterFlags => return some (.setterFlags (← narrow value offset))
  | .child _ => return none

/-- The field number of a node holds extensions. -/
def holdsExtension (node : NodeKind) (field : UInt32) : Bool :=
  node.isExtensible && extensionBase ≤ field.toNat

/-- What a payload says in a place of a node, given the role of the field there. -/
def interpret (node : NodeKind) (key : Key) (offset : Nat) :
    Option Role → Payload → Except DecodeError (Option Entry)
  | some role, .varint value => return (← detail? role offset value).map .detail
  | some (.child kind), .block message => return some (.child kind message)
  | none, .block payload =>
    if node.holdsExtension key.field then
      return some (.detail (.extension key.field payload))
    else return none
  | _, _ => return none

/-- What a field says about its node, if anything. -/
def readField (node : NodeKind) : Field → Except DecodeError (Option Entry)
  | .unreadable e => throw (.wire e)
  | .broken key e => do
    node.checkKey key
    throw (.wire e)
  | .whole key offset payload => do
    node.checkKey key
    node.interpret key offset (node.role? key.field.toNat) payload

/-- The first thing that fields say about their node, and the fields behind it. -/
def nextEntry (node : NodeKind) : List Field → Except DecodeError (Option (Entry × List Field))
  | [] => return none
  | field :: fields => do
    match ← node.readField field with
    | some entry => return some (entry, fields)
    | none => node.nextEntry fields

/-- What a field says weighs no more than the field. -/
theorem weight_interpret {node : NodeKind} {key : Key} {offset : Nat} {role : Option Role}
    {payload : Payload} {entry : Entry}
    (h : node.interpret key offset role payload = .ok (some entry)) :
    entry.weight ≤ (Field.whole key offset payload).weight := by
  unfold interpret at h
  split at h
  · rename_i role value
    cases hd : detail? role offset value with
    | error e => rw [hd] at h; cases h
    | ok said =>
      rw [hd] at h
      cases said <;> cases h
      exact Nat.le_refl _
  · cases h
    exact Nat.le_refl _
  · split at h <;> cases h
    simp only [Entry.weight, Field.weight]
    omega
  · cases h

/-- What the fields of a node say next, and the fields behind it, weigh no more than the fields. -/
theorem weight_nextEntry {node : NodeKind} {fields rest : List Field} {entry : Entry}
    (h : node.nextEntry fields = .ok (some (entry, rest))) :
    entry.weight + Field.totalWeight rest ≤ Field.totalWeight fields := by
  induction fields with
  | nil => cases h
  | cons field fields ih =>
    rw [Field.totalWeight_cons]
    rw [nextEntry] at h
    cases hf : node.readField field with
    | error e => rw [hf] at h; cases h
    | ok said =>
      rw [hf] at h
      cases said with
      | none => exact Nat.le_trans (ih h) (Nat.le_add_left _ _)
      | some e =>
        cases h
        have : entry.weight ≤ field.weight := by
          cases field with
          | unreadable e => cases hf
          | broken key e =>
            simp only [readField] at hf
            cases hk : node.checkKey key <;> rw [hk] at hf <;> cases hf
          | whole key offset payload =>
            simp only [readField] at hf
            cases hk : node.checkKey key with
            | error e => rw [hk] at hf; cases hf
            | ok u => rw [hk] at hf; exact weight_interpret hf
        omega

end NodeKind

end ClassMetadata
