import ClassMetadata.Proofs.Wire.Groups
import ClassMetadata.Proofs.Wire.Scan

/-!
# Reading in memory

A cursor holds the bytes ahead. In memory there is only a position in a buffer, and whatever is done
there can go wrong: an address may lie outside the buffer, and a sum or a shift may not fit into the
word that is to hold it. Here the calls are made at positions, with numbers of the machine, and
nothing comes of a step that goes wrong.

* `Checked` are the operations that can go wrong.
* `Buffer.Runs` says that a step at positions goes wrong nowhere in the buffer and comes to what a
  reader comes to at the cursor there. It is closed under sequencing, as readers only move forward
  (`Reader.Forward.stop_at`), and there is one lemma for each reader.
* `Buffer.runAll_eq` carries this through calls that are made one after the other.
-/

namespace ClassMetadata

/-- Bytes in memory. An address in the bytes, or just behind them, is below `bound`. -/
structure Buffer where
  bytes : List UInt8
  bound : Nat
  length_lt : bytes.length < bound

namespace Checked

/-- The sum, if it is one of the first `size` numbers. -/
def add (size m n : Nat) : Option Nat := if m + n < size then some (m + n) else none

/-- The number moved up, if there are as many bits and none that is set is lost. -/
def shiftLeft (n : UInt64) (amount : Nat) : Option UInt64 :=
  if amount < 64 ∧ n.toNat <<< amount < 2 ^ 64 then some (n <<< UInt64.ofNat amount) else none

/-- The number moved down, if there are as many bits. -/
def shiftRight (n : UInt64) (amount : Nat) : Option UInt64 :=
  if amount < 64 then some (n >>> UInt64.ofNat amount) else none

/-- The bytes from one address up to another, if both are in this order and not outside. -/
def slice (bytes : List UInt8) (start stop : Nat) : Option (List UInt8) :=
  if start ≤ stop ∧ stop ≤ bytes.length then some ((bytes.take stop).drop start) else none

end Checked

namespace Buffer

/-- A step at a position: a value or a fault, and the position after it. Nothing comes of a step that
goes wrong. -/
abbrev Step := ExceptT WireError (StateT Nat Option)

variable (b : Buffer)

/-- The number of bytes from a position on. -/
def remaining (position : Nat) : Nat := b.bytes.length - position

/-- The number in the groups from the position on, of which those below `shift` are in `result`. -/
def groups (start : Nat) (result : UInt64) (shift : Nat) : Step UInt64 := do
  let position ← get
  match b.bytes[position]? with
  | none => throw (.unexpectedEnd position)
  | some byte =>
    set (← Checked.add b.bound position 1)
    if 63 < shift ∨ shift = 63 ∧ 1 < Varint.group byte then throw (.varintOverflow start)
    else
      let result := result ||| (← Checked.shiftLeft (.ofNat (Varint.group byte)) shift)
      if Varint.continues byte then
        -- the shift is counted in a word of its own
        if shift + 7 < 2 ^ 31 then groups start result (shift + 7) else fun _ => none
      else return result
termination_by 71 - shift

/-- The number at the position, of at most 64 bits. -/
def varint : Step UInt64 := do b.groups (← get) 0 0

/-- The number at the position, of at most 32 bits. -/
def word : Step UInt32 := do
  let start ← get
  let n ← b.varint
  if n.toNat < UInt32.size then return UInt32.ofNat n.toNat else throw (.varintOverflow start)

/-- The key at the position. -/
def key : Step Key := do
  let start ← get
  let n ← b.varint
  match WireType.ofCode? (n &&& 7).toNat with
  | none => throw (.invalidWireType (n &&& 7).toNat start)
  | some type =>
    let field := (← Checked.shiftRight n 3).toNat
    if UInt32.size ≤ field then throw (.varintOverflow start)
    else if field = 0 then throw (.invalidFieldNumber start)
    else return ⟨UInt32.ofNat field, type⟩

/-- The next `length` bytes, by a length that began at `start`. A length that is no address is larger
than what is left. -/
def take (length : UInt64) (start : Nat) : Step (List UInt8) := do
  let position ← get
  if length.toNat < b.bound ∧ length.toNat ≤ b.remaining position then
    let stop ← Checked.add b.bound position length.toNat
    let bytes ← Checked.slice b.bytes position stop
    set stop
    return bytes
  else throw (.lengthOverflow length start)

/-- The length at the position and as many bytes. -/
def block : Step (List UInt8) := do
  let start ← get
  let length ← b.varint
  b.take length start

/-- Moves on by so many bytes. -/
def advance (count : Nat) : Step Unit := do
  let position ← get
  if b.remaining position < count then throw (.unexpectedEnd position)
  else set (← Checked.add b.bound position count)

/-- Passes over a payload of a given layout. -/
def skip : WireType → Step Unit
  | .varint => discard b.varint
  | .fixed64 => b.advance 8
  | .lengthDelimited => discard b.block
  | .fixed32 => b.advance 4

/-- The step that a call stands for. -/
def call : ReadCall → Step ReadValue
  | .varint => do return .varint (← b.varint)
  | .word => do return .word (← b.word)
  | .key => do return .key (← b.key)
  | .block => do return .block (← b.block)
  | .skip type => do
    b.skip type
    return .skipped

/-- The calls made one after the other, each from where the last one stopped: what they came to and
the positions after them. -/
def runAll : List ReadCall → Nat → Option (List (Except WireError ReadValue × Nat))
  | [], _ => some []
  | call :: calls, position => do
    let (outcome, stop) ← b.call call position
    let rest ← runAll calls stop
    return (outcome, stop) :: rest

end Buffer

/-! ## Steps and readers -/

/-- What a reader came to, by the position of the cursor alone. -/
def Reader.view {α : Type} : EStateM.Result WireError Cursor α → Except WireError α × Nat
  | .ok a c => (.ok a, c.position)
  | .error e c => (.error e, c.position)

/-- To forget what was found. -/
lemma Reader.discard_apply {α : Type} (r : Reader α) (c : Cursor) :
    discard r c =
      match r c with
      | .ok _ c' => .ok () c'
      | .error e c' => .error e c' := by
  show EStateM.map _ r c = _
  rw [EStateM.map]
  cases r c <;> rfl

/-- What is made of a value makes no difference if it is thrown away. -/
lemma Reader.discard_map {α β : Type} (r : Reader α) (f : α → β) :
    (discard do return f (← r) : Reader Unit) = discard r := by
  funext c
  rw [discard_apply, discard_apply, bind_apply]
  cases r c <;> rfl

/-- A reader that starts in a buffer stops in the buffer, and no earlier. -/
lemma Reader.Forward.stop_at {α : Type} {r : Reader α} (h : r.Forward) {bytes : List UInt8}
    {position : Nat} (inside : position ≤ bytes.length) :
    ∃ stop, position ≤ stop ∧ stop ≤ bytes.length ∧
      r.stop (.at bytes position) = .at bytes stop := by
  obtain ⟨passed, past⟩ := h (.at bytes position)
  have ahead : bytes.drop position = passed ++ (r.stop (.at bytes position)).ahead :=
    past.ahead_eq
  have moved : (r.stop (.at bytes position)).position = position + passed.length :=
    past.position_eq
  have length := congrArg List.length ahead
  rw [List.length_drop, List.length_append] at length
  refine ⟨position + passed.length, by omega, by omega, ?_⟩
  rw [Cursor.at.eq_def bytes (_ + _), ← List.drop_drop, ahead, List.drop_left, ← moved]

namespace Buffer.Step

variable {α β : Type}

/-- A step that is followed goes on where it stopped, unless it went wrong or failed. -/
lemma bind_apply (x : Step α) (f : α → Step β) (position : Nat) :
    (x >>= f) position =
      match x position with
      | none => none
      | some (.ok a, stop) => f a stop
      | some (.error e, stop) => some (.error e, stop) := by
  show Option.bind (x position) _ = _
  rcases x position with _ | ⟨_ | a, stop⟩ <;> rfl

/-- To ask for the position does not move it. -/
lemma get_bind (f : Nat → Step α) (position : Nat) :
    (get >>= f) position = f position position := rfl

/-- To set the position is all that moves it. -/
lemma set_bind (f : Unit → Step α) (next position : Nat) :
    (set next >>= f) position = f () next := rfl

/-- An operation that does not go wrong. -/
lemma lift_bind {result : Option α} {a : α} (h : result = some a) (f : α → Step β)
    (position : Nat) : ((liftM result : Step α) >>= f) position = f a position := by
  subst h
  rfl

end Buffer.Step

namespace Checked

/-- A sum that fits is the sum. -/
lemma add_of_lt {size m n : Nat} (h : m + n < size) : add size m n = some (m + n) := if_pos h

/-- A slice in order that is not outside is the slice. -/
lemma slice_of_le {bytes : List UInt8} {start stop : Nat} (order : start ≤ stop)
    (inside : stop ≤ bytes.length) :
    slice bytes start stop = some ((bytes.take stop).drop start) := if_pos ⟨order, inside⟩

/-- A group has room in front of the groups below it. -/
lemma shiftLeft_group {index : Nat} {byte : UInt8} (room : Varint.exceeds index byte = false) :
    ∃ high, shiftLeft (.ofNat (Varint.group byte)) (7 * index) = some high ∧
      high.toNat = 2 ^ (7 * index) * Varint.group byte := by
  have small : Varint.group byte < 128 := Nat.mod_lt _ (by decide)
  have value : (UInt64.ofNat (Varint.group byte)).toNat = Varint.group byte := by
    rw [UInt64.toNat_ofNat']
    omega
  rw [Varint.exceeds_eq_false_iff] at room
  have fits : 2 ^ (7 * index) * Varint.group byte < 2 ^ 64 := by
    rcases room with low | ⟨rfl, low⟩
    · calc 2 ^ (7 * index) * Varint.group byte
          ≤ 2 ^ 56 * Varint.group byte :=
            Nat.mul_le_mul_right _ (Nat.pow_le_pow_right (by decide) (by omega))
        _ < 2 ^ 64 := by omega
    · omega
  have amount : (UInt64.ofNat (7 * index)).toNat % 64 = 7 * index := by
    rw [UInt64.toNat_ofNat']
    omega
  have defined : (UInt64.ofNat (Varint.group byte)).toNat <<< (7 * index) < 2 ^ 64 := by
    rwa [value, Nat.shiftLeft_eq, Nat.mul_comm]
  refine ⟨_, if_pos ⟨by omega, defined⟩, ?_⟩
  rw [UInt64.toNat_shiftLeft, value, amount, Nat.shiftLeft_eq, Nat.mul_comm, Nat.mod_eq_of_lt fits]

/-- A number moved down by three is an eighth of it. -/
lemma shiftRight_three (n : UInt64) :
    ∃ high, shiftRight n 3 = some high ∧ high.toNat = n.toNat / 8 := by
  refine ⟨n >>> 3, if_pos (by decide), ?_⟩
  rw [UInt64.toNat_shiftRight]
  exact Nat.shiftRight_eq_div_pow _ _

end Checked

namespace Buffer

variable {α β : Type} {b : Buffer}

/-- Anywhere in the buffer nothing goes wrong in the step, and it comes to what the reader comes to
at the cursor there. -/
def Runs (b : Buffer) (step : Step α) (r : Reader α) : Prop :=
  ∀ position ≤ b.bytes.length, step position = some (Reader.view (r (.at b.bytes position)))

namespace Runs

/-- A value goes wrong nowhere. -/
lemma pure (a : α) : b.Runs (Pure.pure a) (Pure.pure a) := fun _ _ => rfl

/-- A fault goes wrong nowhere. -/
lemma throw (e : WireError) : b.Runs (MonadExcept.throw e : Step α) (MonadExcept.throw e) :=
  fun _ _ => rfl

/-- A step that asks for its position does what a reader does that asks for its cursor. -/
lemma of_get {f : Nat → Step α} {g : Cursor → Reader α} (h : ∀ c, b.Runs (f c.position) (g c)) :
    b.Runs (get >>= f) (get >>= g) :=
  fun position inside => h (.at b.bytes position) position inside

/-- The second step starts in the buffer again, because the first reader has moved forward. -/
lemma bind {x : Step α} {r : Reader α} {f : α → Step β} {g : α → Reader β} (first : b.Runs x r)
    (forward : r.Forward) (second : ∀ a, b.Runs (f a) (g a)) : b.Runs (x >>= f) (r >>= g) := by
  intro position inside
  obtain ⟨stop, -, within, stops⟩ := forward.stop_at inside
  unfold Reader.stop at stops
  rw [Step.bind_apply, Reader.bind_apply, first position inside]
  cases h : r (.at b.bytes position) with
  | ok a c =>
    rw [h] at stops
    subst stops
    exact second a stop within
  | error e c => rfl

/-- A value that is thrown away goes wrong nowhere. -/
lemma discard {x : Step α} {r : Reader α} (h : b.Runs x r) :
    b.Runs (discard x) (discard r) := by
  intro position inside
  show Option.bind (x position) _ = _
  rw [h position inside, Reader.discard_apply]
  cases r (.at b.bytes position) <;> rfl

end Runs

/-- A group exceeds when its shift is too large for the word. -/
lemma exceeds_iff {index : Nat} {byte : UInt8} : Varint.exceeds index byte = true ↔
    63 < 7 * index ∨ 7 * index = 63 ∧ 1 < Varint.group byte := by
  simp only [Varint.exceeds, Bool.or_eq_true, Bool.and_eq_true, decide_eq_true_eq, beq_iff_eq]
  omega

/-- A number that is put above another one is added to it. -/
lemma toNat_or {low high : UInt64} {amount n : Nat} (below : low.toNat < 2 ^ amount)
    (above : high.toNat = 2 ^ amount * n) : (low ||| high).toNat = low.toNat + 2 ^ amount * n := by
  rw [UInt64.toNat_or, above, Nat.or_comm, ← Nat.two_pow_add_eq_or_of_lt below, Nat.add_comm]

/-- A group has seven bits more than what is below it. -/
lemma add_group_lt {low index : Nat} {byte : UInt8} (below : low < 2 ^ (7 * index)) :
    low + 2 ^ (7 * index) * Varint.group byte < 2 ^ (7 * (index + 1)) := by
  have small : Varint.group byte < 128 := Nat.mod_lt _ (by decide)
  calc low + 2 ^ (7 * index) * Varint.group byte
      < 2 ^ (7 * index) + 2 ^ (7 * index) * Varint.group byte := Nat.add_lt_add_right below _
    _ = 2 ^ (7 * index) * (Varint.group byte + 1) := by rw [Nat.mul_succ, Nat.add_comm]
    _ ≤ 2 ^ (7 * index) * 2 ^ 7 := Nat.mul_le_mul_left _ small
    _ = 2 ^ (7 * (index + 1)) := by rw [Nat.mul_succ, Nat.pow_add]

/-- The groups that were read stand below those that are ahead. Ten were read at most, as an eleventh
exceeds the room. -/
lemma groups_eq {start index : Nat} {ahead : List UInt8} {result : UInt64}
    (hahead : b.bytes.drop (start + index) = ahead) (inside : start + index ≤ b.bytes.length)
    (few : index ≤ 10) (low : result.toNat < 2 ^ (7 * index)) :
    b.groups start result (7 * index) (start + index) =
      some (Reader.view (match Reader.groups start index ahead with
        | .ok high c => .ok (UInt64.ofNat (result.toNat + 2 ^ (7 * index) * high)) c
        | .error e c => .error e c)) := by
  induction ahead generalizing index result with
  | nil =>
    have ended := List.drop_eq_nil_iff.1 hahead
    rw [groups, Step.get_bind, List.getElem?_eq_none ended]
    rfl
  | cons byte ahead ih =>
    have there : b.bytes[start + index]? = some byte := by
      rw [← List.head?_drop, hahead, List.head?_cons]
    have next : b.bytes.drop (start + (index + 1)) = ahead := by
      rw [← Nat.add_assoc, ← List.drop_drop, hahead, List.drop_one, List.tail_cons]
    have within := Varint.lt_length_of_getElem? there
    have below := b.length_lt
    rw [groups, Step.get_bind, there]
    dsimp only
    rw [Step.lift_bind (Checked.add_of_lt (by omega)), Step.set_bind, Reader.groups]
    cases room : Varint.exceeds index byte with
    | true =>
      rw [if_pos (exceeds_iff.1 room)]
      rfl
    | false =>
      have nine : index ≤ 9 := by
        have := Varint.exceeds_eq_false_iff.1 room
        omega
      obtain ⟨high, shifted, value⟩ := Checked.shiftLeft_group room
      have joined := toNat_or low value
      rw [if_neg fun h => Bool.eq_false_iff.1 room (exceeds_iff.2 h), Step.lift_bind shifted]
      cases more : Varint.continues byte with
      | true =>
        have higher : (result ||| high).toNat < 2 ^ (7 * (index + 1)) := by
          rw [joined]
          exact add_group_lt low
        have rest := ih next (by omega) (by omega) higher
        rw [if_pos rfl, if_neg Bool.false_ne_true, if_pos rfl, if_pos (by omega)]
        refine rest.trans ?_
        cases Reader.groups start (index + 1) ahead with
        | ok n c =>
          have sum : (result ||| high).toNat + 2 ^ (7 * (index + 1)) * n =
              result.toNat + 2 ^ (7 * index) * (Varint.group byte + 128 * n) := by
            rw [joined]
            ring
          dsimp only
          rw [sum]
        | error e c => rfl
      | false =>
        rw [if_neg Bool.false_ne_true, if_neg Bool.false_ne_true, if_neg Bool.false_ne_true]
        dsimp only
        rw [← joined, UInt64.ofNat_toNat]
        rfl

/-- A number is read without going wrong. -/
lemma varint_runs : b.Runs b.varint Reader.varint := by
  intro position inside
  have read : b.groups position 0 (7 * 0) (position + 0) = _ :=
    groups_eq rfl inside (by decide) (by decide)
  rw [Nat.mul_zero, Nat.add_zero] at read
  rw [varint, Step.get_bind, read, Reader.varint, Cursor.at]
  dsimp only
  cases Reader.groups position 0 (b.bytes.drop position) with
  | ok n c =>
    have all : (0 : UInt64).toNat + 2 ^ 0 * n = n := by
      rw [UInt64.toNat_zero, Nat.zero_add, Nat.pow_zero, Nat.one_mul]
    dsimp only
    rw [all]
  | error e c => rfl

/-- A number of 32 bits is read without going wrong. -/
lemma word_runs : b.Runs b.word Reader.word := by
  refine .of_get fun c => .bind varint_runs Reader.varint_forward fun n => ?_
  split
  · exact .pure _
  · exact .throw _

/-- A key is read without going wrong. -/
lemma key_runs : b.Runs b.key Reader.key := by
  refine .of_get fun c => .bind varint_runs Reader.varint_forward fun n => ?_
  have low : (n &&& 7).toNat = n.toNat % 8 := Nat.and_two_pow_sub_one_eq_mod n.toNat 3
  obtain ⟨high, shifted, value⟩ := Checked.shiftRight_three n
  rw [low]
  cases WireType.ofCode? (n.toNat % 8) with
  | none => exact .throw _
  | some type =>
    intro position inside
    dsimp only
    rw [Step.lift_bind shifted, value]
    split
    · rfl
    · split <;> rfl

/-- There are as many bytes as the length says, or else it is larger than what is left. -/
lemma take_runs (length : UInt64) (start : Nat) : b.Runs (b.take length start)
    (Reader.take length.toNat fun _ => .lengthOverflow length start) := by
  intro position inside
  have below := b.length_lt
  rw [take, Step.get_bind, Reader.take, Cursor.at, List.length_take, List.length_drop, remaining]
  dsimp only
  by_cases enough : length.toNat ≤ b.bytes.length - position
  · rw [if_pos ⟨by omega, enough⟩, if_pos (Nat.min_eq_left enough),
      Step.lift_bind (Checked.add_of_lt (by omega)),
      Step.lift_bind (Checked.slice_of_le (by omega) (by omega)), Step.set_bind, List.drop_take,
      Nat.add_sub_cancel_left]
    rfl
  · rw [if_neg fun h => enough h.2, if_neg fun h => enough (by omega)]
    rfl

/-- A block is read without going wrong. -/
lemma block_runs : b.Runs b.block Reader.block :=
  .of_get fun _ => .bind varint_runs Reader.varint_forward fun _ => take_runs _ _

/-- To move on by so many bytes is to take them and forget them. -/
lemma advance_runs (count : Nat) :
    b.Runs (b.advance count) (discard (Reader.take count .unexpectedEnd)) := by
  intro position inside
  have below := b.length_lt
  rw [advance, Step.get_bind, Reader.discard_apply, Reader.take, Cursor.at, List.length_take,
    List.length_drop, remaining]
  dsimp only
  by_cases few : b.bytes.length - position < count
  · rw [if_pos few, if_neg (by omega)]
    rfl
  · rw [if_neg few, if_pos (by omega), Step.lift_bind (Checked.add_of_lt (by omega))]
    rfl

/-- A payload is passed over without going wrong. -/
lemma skip_runs (type : WireType) : b.Runs (b.skip type) (Reader.skip type) := by
  cases type <;> rw [skip, Reader.skip, Reader.payload, Reader.discard_map]
  · exact varint_runs.discard
  · exact advance_runs 8
  · exact block_runs.discard
  · exact advance_runs 4

/-- No call goes wrong. -/
lemma call_runs : ∀ call : ReadCall, b.Runs (b.call call) call.reader
  | .varint => .bind varint_runs Reader.varint_forward fun _ => .pure _
  | .word => .bind word_runs Reader.word_forward fun _ => .pure _
  | .key => .bind key_runs Reader.key_forward fun _ => .pure _
  | .block => .bind block_runs Reader.block_forward fun _ => .pure _
  | .skip type => .bind (skip_runs type) (Reader.skip_forward type) fun _ => .pure _

end Buffer

/-- A call comes to what its reader comes to. -/
lemma ReadCall.view_reader (call : ReadCall) (c : Cursor) :
    Reader.view (call.reader c) = ((call.run c).outcome, (call.run c).cursor.position) := by
  rw [run]
  cases call.reader c <;> rfl

/-- A call leaves the cursor where its reader does. -/
lemma ReadCall.cursor_run (call : ReadCall) (c : Cursor) :
    (call.run c).cursor = call.reader.stop c := by
  rw [run, Reader.stop]
  cases call.reader c <;> rfl

/-- Whichever calls are made in a buffer, nothing goes wrong, and they come to what they come to at a
cursor. -/
theorem Buffer.runAll_eq (b : Buffer) (calls : List ReadCall) {position : Nat}
    (inside : position ≤ b.bytes.length) :
    b.runAll calls position =
      some ((ReadCall.runAll calls (.at b.bytes position)).map fun step =>
        (step.outcome, step.cursor.position)) := by
  induction calls generalizing position with
  | nil => rfl
  | cons call calls ih =>
    obtain ⟨stop, -, within, stops⟩ := call.reader_forward.stop_at inside
    rw [← ReadCall.cursor_run] at stops
    have first := call_runs call position inside
    rw [ReadCall.view_reader] at first
    have rest := ih within
    rw [← stops] at rest
    have same : (call.run (.at b.bytes position)).cursor.position = stop := by rw [stops]; rfl
    rw [runAll, first, ReadCall.runAll, List.map_cons]
    show (runAll b calls _).bind _ = _
    rw [same, rest]
    rfl

end ClassMetadata
