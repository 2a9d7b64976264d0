import ClassMetadata.Proofs.Decoding.Rounds
import ClassMetadata.Proofs.Tree.Stream

/-!
# The walk through a class message

A call of a token reader is a loop. The reader holds a cursor for every declaration that is open, and
a round of the loop either ends the innermost declaration or reads one field of it; a field that says
nothing sends it into the next round.

* `Walk` is such a reader, `Walk.round` one round, and `Walk.next_eq_round` says that the loop gives
  what `TokenReader.next` gives.
* `Walk.Moves` lists all that a round can do to the bytes ahead. To begin a nested declaration makes
  bytes unread again, but they are bytes that the declaration around it has just passed, with two more
  for the field (`Walk.moves_of_round`).
* `Walk.weight` is the bytes ahead in all open declarations and one for the end of each. Every move
  takes from it (`Walk.Moves.weight_lt`), so the items of a whole walk, and the rounds that are made
  for them, are linear in the message (`Walk.exists_yields`).
* `tokenization_is_linear` adds the loops through the payloads of host bindings.
-/

namespace ClassMetadata

namespace NodeKind

/-- What a field of a node says, if anything, and the cursor behind its payload. -/
def readAt (node : NodeKind) (key : Key) (c : Cursor) :
    Except DecodeError (Option Entry × Cursor) := do
  node.checkKey key
  match Reader.payload key.type c with
  | .error e _ => throw (.wire e)
  | .ok payload c' => return (← node.interpret key c.position (node.role? key.field.toNat) payload, c')

variable {node : NodeKind} {key : Key} {c c₁ : Cursor}

/-- What the fields ahead say next, by what the first of them says. -/
lemma nextEntry_fields (hkey : Reader.key c = .ok key c₁) :
    node.nextEntry c.fields = match node.readAt key c₁ with
      | .error e => .error e
      | .ok (none, c₂) => node.nextEntry c₂.fields
      | .ok (some entry, c₂) => .ok (some (entry, c₂.fields)) := by
  cases hpayload : Reader.payload key.type c₁ with
  | error e c₂ =>
    rw [Cursor.fields_of_payload_error hkey hpayload, nextEntry, readField, readAt, hpayload]
    cases node.checkKey key <;> rfl
  | ok payload c₂ =>
    rw [Cursor.fields_of_payload hkey hpayload, nextEntry, readField, readAt, hpayload]
    dsimp only
    cases node.checkKey key with
    | error e => rfl
    | ok u =>
      cases node.interpret key c₁.position (node.role? key.field.toNat) payload with
      | error e => rfl
      | ok said => cases said <;> rfl

/-- A field that is read has a payload, and says what such a field says. -/
lemma payload_of_readAt {said : Option Entry} {c₂ : Cursor}
    (h : node.readAt key c₁ = .ok (said, c₂)) : ∃ payload, Reader.payload key.type c₁ = .ok payload c₂ ∧
      node.readField (.whole key c₁.position payload) = .ok said := by
  obtain ⟨u, checked, h⟩ := ok_of_bind h
  cases hpayload : Reader.payload key.type c₁ with
  | error e c₂ =>
    rw [hpayload] at h
    cases h
  | ok payload c₂ =>
    rw [hpayload] at h
    obtain ⟨said, hsaid, h⟩ := ok_of_bind h
    cases h
    refine ⟨payload, rfl, ?_⟩
    rw [readField, checked]
    exact hsaid

/-- A field of a node takes two bytes at least. A nested declaration that it holds is made of bytes that
it has taken, and it takes two more. -/
lemma past_of_readAt {said : Option Entry} {c₂ : Cursor} (hkey : Reader.key c = .ok key c₁)
    (h : node.readAt key c₁ = .ok (said, c₂)) : ∃ passed, c.Past passed c₂ ∧ 2 ≤ passed.length ∧
      ∀ kind message, said = some (.child kind message) →
        message <:+ passed ∧ message.length + 2 ≤ passed.length := by
  obtain ⟨payload, hpayload, hsaid⟩ := payload_of_readAt h
  obtain ⟨passed, past, two, holds⟩ := Reader.field_past hkey hpayload
  refine ⟨passed, past, two, ?_⟩
  rintro kind message rfl
  obtain ⟨_, _, same, -⟩ := Descent.child_of_readField hsaid
  cases same
  exact holds message rfl

end NodeKind

/-- An open declaration, and where in its message the reading is. -/
structure OpenNode where
  kind : NodeKind
  cursor : Cursor
  deriving DecidableEq

/-- A declaration that begins. -/
def OpenNode.ofMessage (kind : NodeKind) (message : List UInt8) : OpenNode := ⟨kind, .ofBytes message⟩

/-- The reading of a class message, as far as it has come. -/
inductive Walk where
  /-- Nothing was read. -/
  | fresh (message : List UInt8)
  /-- Inside these declarations, innermost first. -/
  | within (nodes : List OpenNode)
  deriving DecidableEq

namespace Walk

/-- One round of the loop. It is left with what the call gives, if anything, and the walk after the
call. -/
def round : Walk → Round Walk (Option (Except DecodeError Token) × Walk)
  | fresh message => .leave (some (.ok (.enter .classNode)), within [.ofMessage .classNode message])
  | within [] => .leave (none, within [])
  | within (⟨node, c⟩ :: outer) =>
    if c.hasMore then
      match Reader.key c with
      | .error e _ => .leave (some (.error (.wire e)), within [])
      | .ok key c₁ =>
        match node.readAt key c₁ with
        | .error e => .leave (some (.error e), within [])
        | .ok (none, c₂) => .next (within (⟨node, c₂⟩ :: outer))
        | .ok (some (.detail detail), c₂) =>
          .leave (some (.ok (.detail detail)), within (⟨node, c₂⟩ :: outer))
        | .ok (some (.child kind message), c₂) =>
          .leave (some (.ok (.enter kind)), within (.ofMessage kind message :: ⟨node, c₂⟩ :: outer))
    else .leave (some (.ok (.exit node)), within outer)

/-- The token reader at this point of the walk. -/
def reader : Walk → TokenReader
  | fresh message => .fresh message
  | within nodes => .within (nodes.map fun node => ⟨node.kind, node.cursor.fields⟩)

/-- What a call gives, by its first round. -/
lemma next_eq_round (w : Walk) : w.reader.next =
    w.round.elim (fun w' => w'.reader.next) fun r => r.1.map fun item => (item, r.2.reader) := by
  fun_cases round w with
  | case1 message => rfl
  | case2 => rfl
  | case3 node c outer more e c₁ hkey =>
    rw [reader, List.map_cons, TokenReader.next, Cursor.fields_of_key_error more hkey]
    rfl
  | case4 node c outer more key c₁ hkey e hread =>
    rw [reader, List.map_cons, TokenReader.next, NodeKind.nextEntry_fields hkey, hread]
    rfl
  | case5 node c outer more key c₁ hkey c₂ hread =>
    rw [reader, List.map_cons, TokenReader.next, NodeKind.nextEntry_fields hkey, hread]
    rfl
  | case6 node c outer more key c₁ hkey detail c₂ hread =>
    rw [reader, List.map_cons, TokenReader.next, NodeKind.nextEntry_fields hkey, hread]
    rfl
  | case7 node c outer more key c₁ hkey kind message c₂ hread =>
    rw [reader, List.map_cons, TokenReader.next, NodeKind.nextEntry_fields hkey, hread]
    rfl
  | case8 node c outer more =>
    rw [reader, List.map_cons, TokenReader.next, Cursor.fields_of_not_hasMore more]
    rfl

/-- A loop that is left gives what the token reader gives. -/
lemma next_eq_of_leaves {w w' : Walk} {rounds : Nat} {item : Option (Except DecodeError Token)}
    (h : Leaves round w rounds (item, w')) :
    w.reader.next = item.map fun item => (item, w'.reader) :=
  h.eq_of_round (g := fun r => r.1.map fun item => (item, r.2.reader)) next_eq_round

/-! ## What a round does -/

/-- One step of a walk. -/
inductive Moves : Walk → Walk → Prop where
  /-- The class begins. -/
  | start (message : List UInt8) : Moves (.fresh message) (.within [.ofMessage .classNode message])
  /-- A field is passed. It takes two bytes at least. -/
  | field {node : NodeKind} {c c' : Cursor} {passed : List UInt8} {outer : List OpenNode} :
    c.Past passed c' → 2 ≤ passed.length →
    Moves (.within (⟨node, c⟩ :: outer)) (.within (⟨node, c'⟩ :: outer))
  /-- A field is passed, and the declaration in it begins. Its message is the end of what was passed,
  and the field takes two bytes more. -/
  | nest {node kind : NodeKind} {c c' : Cursor} {passed message : List UInt8} {outer : List OpenNode} :
    c.Past passed c' → message <:+ passed → message.length + 2 ≤ passed.length →
    Moves (.within (⟨node, c⟩ :: outer)) (.within (.ofMessage kind message :: ⟨node, c'⟩ :: outer))
  /-- A declaration of which nothing is unread ends. -/
  | close {node : NodeKind} {c : Cursor} {outer : List OpenNode} : c.ahead = [] →
    Moves (.within (⟨node, c⟩ :: outer)) (.within outer)
  /-- An error closes everything. -/
  | fail (node : OpenNode) (outer : List OpenNode) : Moves (.within (node :: outer)) (.within [])

/-- The bytes that are unread in the innermost declaration. -/
def unread : Walk → Nat
  | within (node :: _) => node.cursor.remaining
  | _ => 0

/-- The bytes that are unread in all open declarations, and one for the end of each. A class that has
not begun counts one more. -/
def weight : Walk → Nat
  | fresh message => message.length + 2
  | within nodes => (nodes.map fun node => node.cursor.remaining + 1).sum

/-- A round that goes on has passed a field of the innermost declaration; one that ends a call with an
item has moved as well, and one that ends it with nothing is outside of all declarations. -/
theorem moves_of_round (w : Walk) :
    match w.round with
    | .next w' => Moves w w' ∧ w'.unread + 2 ≤ w.unread
    | .leave (some _, w') => Moves w w'
    | .leave (none, w') => w = within [] ∧ w' = within [] := by
  fun_cases round w with
  | case1 message => exact .start message
  | case2 => exact ⟨rfl, rfl⟩
  | case3 node c outer more e c₁ hkey => exact .fail _ _
  | case4 node c outer more key c₁ hkey e hread => exact .fail _ _
  | case5 node c outer more key c₁ hkey c₂ hread =>
    obtain ⟨passed, past, two, -⟩ := NodeKind.past_of_readAt hkey hread
    have length := past.length_eq
    refine ⟨.field past two, ?_⟩
    simp only [unread, Cursor.remaining]
    omega
  | case6 node c outer more key c₁ hkey detail c₂ hread =>
    obtain ⟨passed, past, two, -⟩ := NodeKind.past_of_readAt hkey hread
    exact .field past two
  | case7 node c outer more key c₁ hkey kind message c₂ hread =>
    obtain ⟨passed, past, -, holds⟩ := NodeKind.past_of_readAt hkey hread
    obtain ⟨last, longer⟩ := holds kind message rfl
    exact .nest past last longer
  | case8 node c outer more =>
    refine .close ?_
    simpa [Cursor.hasMore] using more

/-- Every move takes from the weight. -/
theorem Moves.weight_lt {w w' : Walk} (h : Moves w w') : w'.weight < w.weight := by
  cases h with
  | start message =>
    simp only [weight, OpenNode.ofMessage, Cursor.remaining, Cursor.ofBytes, List.map_cons, List.map_nil,
      List.sum_cons, List.sum_nil]
    omega
  | field past two =>
    have length := past.length_eq
    simp only [weight, Cursor.remaining, List.map_cons, List.sum_cons]
    omega
  | nest past last longer =>
    have length := past.length_eq
    simp only [weight, OpenNode.ofMessage, Cursor.remaining, Cursor.ofBytes, List.map_cons,
      List.sum_cons]
    omega
  | close nothing =>
    simp only [weight, List.map_cons, List.sum_cons]
    omega
  | fail node outer =>
    simp only [weight, List.map_cons, List.map_nil, List.sum_cons, List.sum_nil]
    omega

/-! ## Calls -/

/-- Every call comes to its end, and no more than every second byte of the innermost declaration makes
a round. -/
theorem exists_call (w : Walk) :
    ∃ rounds item w', Leaves round w rounds (item, w') ∧ 2 * rounds ≤ w.unread := by
  have takes : ∀ w w', round w = .next w' → w'.unread + 2 ≤ w.unread := by
    intro w w' h
    have moves := moves_of_round w
    rw [h] at moves
    exact moves.2
  obtain ⟨rounds, ⟨item, w'⟩, leaves, bound⟩ := exists_leaves unread takes w
  exact ⟨rounds, item, w', leaves, bound⟩

/-- A call takes from the weight for each of its rounds, unless there is nothing to give. -/
lemma weight_of_leaves {w w' : Walk} {rounds : Nat} {item : Option (Except DecodeError Token)}
    (h : Leaves round w rounds (item, w')) :
    rounds + w'.weight ≤ w.weight ∧ (item ≠ none → rounds + 1 + w'.weight ≤ w.weight) := by
  generalize hresult : (item, w') = result at h
  induction h with
  | @now w result left =>
    subst hresult
    have moves := moves_of_round w
    rw [left] at moves
    cases item with
    | none =>
      obtain ⟨rfl, rfl⟩ := moves
      exact ⟨Nat.le_of_eq (Nat.zero_add _), fun h => absurd rfl h⟩
    | some item =>
      have less := moves.weight_lt
      exact ⟨by omega, fun _ => by omega⟩
  | @later w w₁ rounds result goes _ ih =>
    obtain ⟨bound, strict⟩ := ih hresult
    have moves := moves_of_round w
    rw [goes] at moves
    have less := moves.1.weight_lt
    refine ⟨by omega, fun given => ?_⟩
    have := strict given
    omega

/-- The items that calls give until one gives nothing, and all the rounds that these calls take. -/
inductive Yields : Walk → List (Except DecodeError Token) → Nat → Prop where
  | nil {w w' : Walk} {rounds : Nat} : Leaves round w rounds (none, w') → Yields w [] (rounds + 1)
  | cons {w w' : Walk} {rounds more : Nat} {item : Except DecodeError Token}
    {items : List (Except DecodeError Token)} : Leaves round w rounds (some item, w') →
    Yields w' items more → Yields w (item :: items) (rounds + 1 + more)

/-- The calls of a walk come to an end. There are no more items than the weight, and one round more
at most. -/
theorem exists_yields (w : Walk) : ∃ items rounds, Yields w items rounds ∧
    items = w.reader.tokens ∧ items.length ≤ w.weight ∧ rounds ≤ w.weight + 1 := by
  generalize hm : w.weight = m
  -- on the weight: the bytes of one declaration do not bound those of the next
  induction m using Nat.strongRecOn generalizing w with
  | ind m ih =>
    obtain ⟨rounds, item, w', leaves, -⟩ := exists_call w
    obtain ⟨bound, strict⟩ := weight_of_leaves leaves
    have gives := next_eq_of_leaves leaves
    cases item with
    | none =>
      refine ⟨[], rounds + 1, .nil leaves, ?_, Nat.zero_le m, by omega⟩
      exact (TokenReader.tokens_of_next_none gives).symm
    | some item =>
      have less := strict (Option.some_ne_none item)
      obtain ⟨items, more, yields, same, few, short⟩ := ih w'.weight (by omega) w' rfl
      refine ⟨item :: items, rounds + 1 + more, .cons leaves yields, ?_, ?_, by omega⟩
      · rw [TokenReader.tokens_of_next gives, same]
      · rw [List.length_cons]
        omega

end Walk

/-- The calls of a reader give its tokens and then nothing. -/
lemma TokenReader.call_eq_getElem? (reader : TokenReader) (n : Nat) :
    reader.call n = reader.tokens[n]? := by
  induction n generalizing reader with
  | zero =>
    cases h : reader.next with
    | none =>
      rw [call, after, h, tokens_of_next_none h]
      rfl
    | some result =>
      obtain ⟨outcome, reader'⟩ := result
      rw [call_zero h, tokens_of_next h]
      rfl
  | succ n ih =>
    cases h : reader.next with
    | none =>
      rw [call, after_of_next_none h, h, tokens_of_next_none h]
      rfl
    | some result =>
      obtain ⟨outcome, reader'⟩ := result
      rw [call_succ h, ih, tokens_of_next h]
      rfl

open Walk Descent in
/-- Tokenization comes to its end, and soon. From a message of `n` bytes no more than `n + 2` items are
given, the error that may end them among these, and then nothing; all the calls together make no more
than `n + 3` rounds. Each call is left after no more rounds than half of the bytes that are unread in
the innermost declaration. Whatever is done in a round that goes on or that gives an item is one of the
moves: a field takes two bytes or more of its declaration, and a nested declaration begins with bytes
that the one around it has passed. The loops through the payloads of host bindings end likewise, with
what is read from the payloads. -/
theorem tokenization_is_linear :
    (∀ message, ∃ items rounds, Yields (.fresh message) items rounds ∧
      (∀ n, (TokenReader.fresh message).call n = items[n]?) ∧
      items.length ≤ message.length + 2 ∧ rounds ≤ message.length + 3) ∧
    (∀ w : Walk, ∃ rounds item w', Leaves Walk.round w rounds (item, w') ∧ 2 * rounds ≤ w.unread ∧
      w.reader.next = item.map fun item => (item, w'.reader)) ∧
    (∀ w w' : Walk, w.round = .next w' ∨ (∃ item, w.round = .leave (some item, w')) → Moves w w') ∧
    (∀ table payload, ∃ rounds, 2 * rounds ≤ payload.length ∧
      Leaves (readRound (signatureField table)) (.empty, .ofBytes payload) rounds
        (HostSignature.read table payload)) ∧
    (∀ table payload, ∃ rounds, 2 * rounds ≤ payload.length ∧
      Leaves (readRound (bindingField table)) (.empty, .ofBytes payload) rounds
        (PropertyBinding.read table payload)) := by
  refine ⟨fun message => ?_, fun w => ?_, fun w w' h => ?_, fun table payload => ?_,
    fun table payload => ?_⟩
  · obtain ⟨items, rounds, yields, rfl, few, short⟩ := exists_yields (.fresh message)
    exact ⟨_, rounds, yields, TokenReader.call_eq_getElem? _, few, short⟩
  · obtain ⟨rounds, item, w', leaves, bound⟩ := exists_call w
    exact ⟨rounds, item, w', leaves, bound, next_eq_of_leaves leaves⟩
  · have moves := moves_of_round w
    obtain goes | ⟨item, left⟩ := h
    · rw [goes] at moves
      exact moves.1
    · rw [left] at moves
      exact moves
  · obtain ⟨rounds, leaves, bound⟩ :=
      readMessage_leaves (signatureField table) .empty (.ofBytes payload)
    rw [← readSignature_eq]
    exact ⟨rounds, bound, leaves⟩
  · obtain ⟨rounds, leaves, bound⟩ :=
      readMessage_leaves (bindingField table) .empty (.ofBytes payload)
    rw [← readBinding_eq]
    exact ⟨rounds, bound, leaves⟩

/-- Two bytes can give four items: an empty constructor in a class. -/
example : (TokenReader.fresh [0x42, 0]).tokens = [.ok (.enter .classNode), .ok (.enter .constructor),
    .ok (.exit .constructor), .ok (.exit .classNode)] := by
  cbv

end ClassMetadata
