import ClassMetadata.Proofs.Tree.Grammar

/-!
# What a token reader gives

A reader of tokens is called again and again. Whatever the bytes are, it gives the tokens of a class,
or the first of them and then one error, and after that nothing.

* `TokenReader.call` is what a call gives, by the number of calls before it, and `TokenReader.after`
  is the reader behind these calls.
* `allowed_of_next` is one call inside open declarations: the token can stand there, and the frames
  are those of the declarations that it leaves open.
* `Gives` says of all calls what they give and how many declarations are open, and `within_gives`
  goes through them.
* `calls_follow_grammar` is about whole class messages.
-/

namespace ClassMetadata

open Descent (interpret_of_readField mem_nested nested nests_of_readField)

/-! ## What a field says of its node -/

section

variable {node kind : NodeKind} {n offset : Nat} {role : Role} {value : UInt64} {d : Detail}
  {field : Field} {fields rest : List Field} {message : List UInt8}

/-- What a number says in a known field suits the node. -/
lemma suits_of_detail? (hrole : node.role? n = some role)
    (h : NodeKind.detail? role offset value = .ok (some d)) : d.Suits node := by
  cases role with
  | flags =>
    obtain ⟨bits, -, h⟩ := ok_of_bind h
    cases h
    trivial
  | name =>
    cases h
    unfold NodeKind.role? at hrole
    split at hrole <;> simp_all [Detail.Suits]
  | companion =>
    cases h
    unfold NodeKind.role? at hrole
    split at hrole <;> simp_all [Detail.Suits]
  | getterFlags | setterFlags =>
    obtain ⟨bits, -, h⟩ := ok_of_bind h
    cases h
    unfold NodeKind.role? at hrole
    split at hrole <;> simp_all [Detail.Suits]
  | child kind => cases h

/-- Only members hold extensions. -/
lemma suits_of_holdsExtension {tag : UInt32} {payload : List UInt8}
    (h : node.holdsExtension tag = true) : (Detail.extension tag payload).Suits node := by
  rw [NodeKind.holdsExtension, Bool.and_eq_true] at h
  refine ⟨?_, of_decide_eq_true h.2⟩
  cases node <;> simp_all [NodeKind.isExtensible]

/-- A detail that is read suits its declaration. -/
lemma suits_of_readField (h : node.readField field = .ok (some (.detail d))) : d.Suits node := by
  obtain ⟨key, offset, payload, rfl, meant⟩ := interpret_of_readField h
  unfold NodeKind.interpret at meant
  split at meant
  · rename_i role value hrole
    obtain ⟨said, hsaid, meant⟩ := ok_of_bind meant
    cases said with
    | none => cases meant
    | some d' =>
      cases meant
      exact suits_of_detail? hrole hsaid
  · cases meant
  · split at meant
    · rename_i holds
      cases meant
      exact suits_of_holdsExtension holds
    · cases meant
  · cases meant

/-- The first thing that fields say is said by one of them. -/
lemma exists_of_nextEntry {entry : Entry} (h : node.nextEntry fields = .ok (some (entry, rest))) :
    ∃ field, node.readField field = .ok (some entry) := by
  induction fields with
  | nil => cases h
  | cons field fields ih =>
    obtain ⟨said, hsaid, h⟩ := ok_of_bind h
    cases said with
    | none => exact ih h
    | some e =>
      cases h
      exact ⟨field, hsaid⟩

end

namespace TokenReader

/-! ## Calls -/

/-- The reader after one more call. A reader that gives nothing stays as it is. -/
def advance (reader : TokenReader) : TokenReader :=
  match reader.next with
  | some (_, reader') => reader'
  | none => reader

/-- The reader after some calls. -/
def after (reader : TokenReader) : Nat → TokenReader
  | 0 => reader
  | n + 1 => reader.advance.after n

/-- What the next call gives after some calls. -/
def call (reader : TokenReader) (n : Nat) : Option (Except DecodeError Token) :=
  (reader.after n).next.map Prod.fst

section

variable {reader reader' : TokenReader} {outcome : Except DecodeError Token}

/-- One call more is a call of the next reader. -/
lemma after_succ (h : reader.next = some (outcome, reader')) (n : Nat) :
    reader.after (n + 1) = reader'.after n := by
  rw [after, advance, h]

/-- The first call gives what comes next. -/
lemma call_zero (h : reader.next = some (outcome, reader')) : reader.call 0 = some outcome := by
  rw [call, after, h]
  rfl

/-- A later call is an earlier one of the next reader. -/
lemma call_succ (h : reader.next = some (outcome, reader')) (n : Nat) :
    reader.call (n + 1) = reader'.call n := by
  rw [call, after_succ h, call]

/-- A reader at its end stays as it is. -/
lemma after_of_next_none (h : reader.next = none) (n : Nat) : reader.after n = reader := by
  induction n with
  | zero => rfl
  | succ n ih => rwa [after, advance, h]

end

/-- The kinds of the declarations that are open, innermost first. -/
def kinds (frames : List Frame) : List NodeKind := frames.map Frame.kind

/-- A token that is given inside open declarations can stand there, and the declarations that are
open after it are those of the frames. -/
theorem allowed_of_next {frames : List Frame} {token : Token} {reader' : TokenReader}
    (h : next (within frames) = some (.ok token, reader')) :
    ∃ frames', reader' = within frames' ∧ token.Allowed (kinds frames) ∧
      kinds frames' = token.apply (kinds frames) := by
  cases frames with
  | nil => cases h
  | cons frame outer =>
    rw [next] at h
    split at h <;> cases h
    · exact ⟨outer, rfl, rfl, rfl⟩
    · rename_i detail fields hentry
      obtain ⟨field, hfield⟩ := exists_of_nextEntry hentry
      exact ⟨_, rfl, suits_of_readField hfield, rfl⟩
    · rename_i kind message fields hentry
      obtain ⟨field, hfield⟩ := exists_of_nextEntry hentry
      exact ⟨_, rfl, mem_nested (nests_of_readField hfield), rfl⟩

/-- An error closes everything. -/
lemma next_error {frames : List Frame} {e : DecodeError} {reader' : TokenReader}
    (h : next (within frames) = some (.error e, reader')) : reader' = within [] := by
  cases frames with
  | nil => cases h
  | cons frame outer =>
    rw [next] at h
    split at h <;> cases h
    rfl

/-- The calls of a reader inside open declarations give tokens, then perhaps an error, and then
nothing. As many declarations are open behind a token as the tokens leave open, and none behind an
error. -/
structure Gives (reader : TokenReader) (inside : List NodeKind) (given : List Token)
    (stop : Option DecodeError) : Prop where
  call_eq : ∀ n, reader.call n = (given.map .ok ++ (stop.map .error).toList)[n]?
  depth_eq : ∀ n, stop = none ∨ n ≤ given.length →
    (reader.after n).depth = ((given.take n).foldl Token.apply inside).length
  depth_stopped : stop ≠ none → ∀ n > given.length, (reader.after n).depth = 0

namespace Gives

/-- A reader that has left all declarations gives nothing. -/
lemma ended : Gives (within []) [] [] none where
  call_eq n := by
    rw [call, after_of_next_none rfl]
    rfl
  depth_eq n _ := by
    rw [after_of_next_none rfl, List.take_nil]
    rfl
  depth_stopped h := absurd rfl h

/-- A reader that fails gives its error and then nothing. -/
lemma failed {frames : List Frame} {e : DecodeError}
    (h : next (within frames) = some (.error e, within [])) :
    Gives (within frames) (kinds frames) [] (some e) where
  call_eq n := by
    cases n with
    | zero => exact call_zero h
    | succ n =>
      rw [call_succ h, call, after_of_next_none rfl]
      rfl
  depth_eq n hn := by
    cases hn with
    | inl h => cases h
    | inr hn =>
      cases Nat.le_zero.1 hn
      exact (List.length_map Frame.kind).symm
  depth_stopped _ n hn := by
    obtain ⟨n, rfl⟩ := Nat.exists_eq_succ_of_ne_zero (Nat.ne_of_gt hn)
    rw [after_succ h, after_of_next_none rfl]
    rfl

/-- A reader that gives a token gives the others behind it. -/
lemma cons {reader reader' : TokenReader} {inside : List NodeKind} {token : Token}
    {given : List Token} {stop : Option DecodeError}
    (h : reader.next = some (.ok token, reader')) (depth : reader.depth = inside.length)
    (gives : Gives reader' (token.apply inside) given stop) :
    Gives reader inside (token :: given) stop where
  call_eq n := by
    cases n with
    | zero => exact call_zero h
    | succ n =>
      rw [call_succ h, gives.call_eq]
      rfl
  depth_eq n hn := by
    cases n with
    | zero => exact depth
    | succ n =>
      rw [after_succ h, gives.depth_eq n (hn.imp_right Nat.le_of_succ_le_succ)]
      rfl
  depth_stopped hstop n hn := by
    obtain ⟨n, rfl⟩ := Nat.exists_eq_succ_of_ne_zero (Nat.ne_zero_of_lt hn)
    rw [after_succ h]
    exact gives.depth_stopped hstop n (Nat.lt_of_succ_lt_succ hn)

end Gives

/-- Inside open declarations a reader gives tokens that bring them to their ends, or the first of
such tokens and then an error. -/
theorem within_gives (frames : List Frame) : ∃ given stop rest,
    Gives (within frames) (kinds frames) given stop ∧ Closes (kinds frames) (given ++ rest) ∧
      (stop = none → rest = []) := by
  generalize hreader : within frames = reader
  -- on the calls, each of which takes something from the weight of the reader
  fun_induction steps reader generalizing frames with
  | case1 reader hnext =>
    subst hreader
    cases frames with
    | nil => exact ⟨[], none, [], .ended, .nil, fun _ => rfl⟩
    | cons frame outer =>
      rw [next] at hnext
      split at hnext <;> cases hnext
  | case2 reader outcome reader' hnext ih =>
    subst hreader
    cases outcome with
    | error e =>
      cases next_error hnext
      obtain ⟨rest, closes⟩ := exists_closes (kinds frames)
      refine ⟨[], some e, rest, .failed hnext, closes, fun done => ?_⟩
      exact absurd done (Option.some_ne_none e)
    | ok token =>
      obtain ⟨frames', rfl, allowed, hkinds⟩ := allowed_of_next hnext
      obtain ⟨given, stop, rest, gives, closes, complete⟩ := ih frames' rfl
      rw [hkinds] at gives closes
      exact ⟨token :: given, stop, rest, .cons hnext (List.length_map Frame.kind).symm gives,
        closes_cons_iff.2 ⟨allowed, closes⟩, complete⟩

/-- The tokens of a class message follow the grammar. Whatever the bytes are, the calls of a reader
give the tokens of a class and then nothing, or the first tokens of a class, one error and then
nothing. The class begins first and only first; every other token can stand in what the tokens before
it leave open. The depth is the number of declarations that have begun and not ended; it is never
more than three, and behind an error it is zero. -/
theorem calls_follow_grammar (message : List UInt8) :
    ∃ (given : List Token) (stop : Option DecodeError),
      (∀ n, (fresh message).call n = (given.map .ok ++ (stop.map .error).toList)[n]?) ∧
      (∃ rest, IsClass (given ++ rest) ∧ (stop = none → rest = [])) ∧
      (∀ n, given[n]? = some (.enter .classNode) ↔ n = 0) ∧
      (∀ n (h : n < given.length), 0 < n → given[n].Allowed (openAfter (given.take n))) ∧
      (∀ n ≤ given.length, ((fresh message).after n).depth + (given.take n).countP Token.isExit =
        (given.take n).countP Token.isEnter) ∧
      (∀ n, ((fresh message).after n).depth ≤ 3) ∧
      (stop ≠ none → ∀ n > given.length, ((fresh message).after n).depth = 0) := by
  obtain ⟨given, stop, rest, later, closes, complete⟩ :=
    within_gives [.ofMessage .classNode message]
  have gives : Gives (fresh message) [] (.enter .classNode :: given) stop := .cons rfl rfl later
  have isClass : IsClass (.enter .classNode :: given ++ rest) := IsClass.cons_iff.2 ⟨rfl, closes⟩
  generalize htokens : Token.enter .classNode :: given = tokens at gives isClass
  have parts (n : Nat) : IsClass (tokens.take n ++ (tokens.drop n ++ rest)) := by
    rwa [← List.append_assoc, List.take_append_drop]
  have allowed (n : Nat) (h : n < tokens.length) (hpos : 0 < n) :
      tokens[n].Allowed (openAfter (tokens.take n)) := by
    have here := parts n
    rw [List.drop_eq_getElem_cons h, List.cons_append] at here
    refine here.allowed fun hnil => ?_
    simp [← htokens, Nat.ne_of_gt hpos] at hnil
  refine ⟨tokens, stop, gives.call_eq, ⟨rest, isClass, complete⟩, fun n => ?_, allowed,
    fun n hn => ?_, fun n => ?_, gives.depth_stopped⟩
  · refine ⟨fun h => ?_, fun h => by rw [h, ← htokens]; rfl⟩
    obtain ⟨hn, heq⟩ := List.getElem?_eq_some_iff.1 h
    refine Nat.eq_zero_of_not_pos fun hpos => ?_
    have := allowed n hn hpos
    rw [heq] at this
    exact not_allowed_class this
  · rw [gives.depth_eq n (.inr hn)]
    exact (parts n).length_openAfter
  · by_cases hn : stop = none ∨ n ≤ tokens.length
    · rw [gives.depth_eq n hn]
      exact (parts n).nest.length_le
    · rw [not_or, Nat.not_le] at hn
      rw [gives.depth_stopped hn.1 n hn.2]
      exact Nat.zero_le 3

end TokenReader

end ClassMetadata
