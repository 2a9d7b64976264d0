import ClassMetadata.Tree.Entry

/-!
# The declaration tree token by token

A `TokenReader` goes through the tree of declarations in the order of the bytes and gives one
`Token` after the other. It holds a `Frame` for every declaration that is open, the innermost first.
After an error it gives nothing more.

* Each token takes something from the reader's `weight` (`weight_next_lt`), so there comes an end,
  and `TokenReader.tokens` can list all that a reader gives.
-/

namespace ClassMetadata

/-- An open declaration and those of its fields that are still to be read. -/
structure Frame where
  kind : NodeKind
  fields : List Field
  deriving DecidableEq, Repr

namespace Frame

/-- The frame of a declaration that begins. -/
def ofMessage (kind : NodeKind) (message : List UInt8) : Frame := ⟨kind, fieldsOf message⟩

/-- A bound on the tokens that a frame can still give: its fields and its end. -/
def weight (frame : Frame) : Nat := Field.totalWeight frame.fields + 1

/-- The weights of frames, taken together. -/
def totalWeight : List Frame → Nat
  | [] => 0
  | frame :: frames => frame.weight + totalWeight frames

end Frame

/-- A reader of tokens. -/
inductive TokenReader where
  /-- Nothing was read of the class message. -/
  | fresh (message : List UInt8)
  /-- Inside these declarations, innermost first; inside none there are no more tokens. -/
  | within (frames : List Frame)
  deriving DecidableEq, Repr

/-- A token, or the error that ends the tokens, and how many declarations are open after it. -/
structure TokenStep where
  outcome : Except DecodeError Token
  depth : Nat

namespace TokenReader

/-- The number of open declarations. -/
def depth : TokenReader → Nat
  | fresh _ => 0
  | within frames => frames.length

/-- The next token or the error that ends the tokens, and the reader after it. -/
def next : TokenReader → Option (Except DecodeError Token × TokenReader)
  | fresh message => some (.ok (.enter .classNode), within [.ofMessage .classNode message])
  | within [] => none
  | within (frame :: outer) =>
    match frame.kind.nextEntry frame.fields with
    | .error e => some (.error e, within [])
    | .ok none => some (.ok (.exit frame.kind), within outer)
    | .ok (some (.detail detail, fields)) =>
      some (.ok (.detail detail), within (⟨frame.kind, fields⟩ :: outer))
    | .ok (some (.child kind message, fields)) =>
      some (.ok (.enter kind), within (.ofMessage kind message :: ⟨frame.kind, fields⟩ :: outer))

/-- A bound on the tokens that a reader can still give. -/
def weight : TokenReader → Nat
  | fresh message => message.length + 2
  | within frames => Frame.totalWeight frames

/-- A declaration that begins weighs no more than its message and its end. -/
theorem weight_ofMessage_le (kind : NodeKind) (message : List UInt8) :
    (Frame.ofMessage kind message).weight ≤ message.length + 1 :=
  Nat.succ_le_succ (weight_fieldsOf_le message)

/-- Every token takes something from the weight. -/
theorem weight_next_lt {reader reader' : TokenReader} {outcome : Except DecodeError Token}
    (h : reader.next = some (outcome, reader')) : reader'.weight < reader.weight := by
  match reader with
  | fresh message =>
    cases h
    have := weight_ofMessage_le .classNode message
    simp only [weight, Frame.totalWeight]
    omega
  | within [] => cases h
  | within (frame :: outer) =>
    rw [next] at h
    split at h <;> cases h
    · simp only [weight, Frame.totalWeight, Frame.weight]
      omega
    · simp only [weight, Frame.totalWeight, Frame.weight]
      omega
    · rename_i hentry
      have := NodeKind.weight_nextEntry hentry
      simp only [weight, Frame.totalWeight, Frame.weight, Entry.weight] at *
      omega
    · rename_i kind message _ hentry
      have := NodeKind.weight_nextEntry hentry
      have := weight_ofMessage_le kind message
      simp only [weight, Frame.totalWeight, Frame.weight, Entry.weight] at *
      omega

/-- All that a reader gives until it gives nothing more. -/
def steps (reader : TokenReader) : List TokenStep :=
  match _step : reader.next with
  | none => []
  | some (outcome, reader') => ⟨outcome, reader'.depth⟩ :: steps reader'
termination_by reader.weight
decreasing_by exact weight_next_lt _step

/-- The tokens of a reader, and the error that ends them if there is one. -/
def tokens (reader : TokenReader) : List (Except DecodeError Token) :=
  reader.steps.map (·.outcome)

end TokenReader

end ClassMetadata
