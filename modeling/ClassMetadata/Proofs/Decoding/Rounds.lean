import ClassMetadata.Proofs.Decoding.Schema
import ClassMetadata.Proofs.Wire.Calls

/-!
# Loops round by round

A loop runs its body again and again until the body leaves it. Nothing says by itself that it ever
does.

* `Leaves` is a loop that was left after so many rounds. `exists_leaves` says that a loop is left if
  every round that goes on takes two from a measure, and `Leaves.eq_of_round` what comes of it.
* `Reader.field_past` is why this holds of the loops here: a field takes two bytes at least, and two
  more than the message that it holds.
* `Descent.readMessage_leaves` is the loop that goes through the fields of a message.
-/

namespace ClassMetadata

/-- What one round of a loop comes to. -/
inductive Round (σ ρ : Type) where
  /-- The loop goes on from here. -/
  | next (s : σ)
  /-- The loop is left. -/
  | leave (result : ρ)

/-- What there is after a round, by whether the loop goes on. -/
def Round.elim {σ ρ τ : Type} (onNext : σ → τ) (onLeave : ρ → τ) : Round σ ρ → τ
  | next s => onNext s
  | leave result => onLeave result

/-- A loop that starts from here is left with a result, after so many rounds that go on. -/
inductive Leaves {σ ρ : Type} (body : σ → Round σ ρ) : σ → Nat → ρ → Prop where
  | now {s : σ} {result : ρ} : body s = .leave result → Leaves body s 0 result
  | later {s s' : σ} {rounds : Nat} {result : ρ} : body s = .next s' → Leaves body s' rounds result →
    Leaves body s (rounds + 1) result

section

variable {σ ρ τ : Type} {body : σ → Round σ ρ}

/-- A loop is left if every round that goes on takes two from what there is. -/
theorem exists_leaves (measure : σ → Nat)
    (takes : ∀ s s', body s = .next s' → measure s' + 2 ≤ measure s) (s : σ) :
    ∃ rounds result, Leaves body s rounds result ∧ 2 * rounds ≤ measure s := by
  generalize hm : measure s = m
  induction m using Nat.strongRecOn generalizing s with
  | ind m ih =>
    cases h : body s with
    | leave result => exact ⟨0, result, .now h, Nat.zero_le m⟩
    | next s' =>
      have less := takes s s' h
      obtain ⟨rounds, result, leaves, bound⟩ := ih (measure s') (by omega) s' rfl
      exact ⟨rounds + 1, result, .later h leaves, by omega⟩

/-- A function that goes on as the loop does has the result of the loop. -/
lemma Leaves.eq_of_round {f : σ → τ} {g : ρ → τ}
    (unfolds : ∀ s, f s = (body s).elim f g)
    {s : σ} {rounds : Nat} {result : ρ} (h : Leaves body s rounds result) : f s = g result := by
  induction h with
  | now h => rw [unfolds, h, Round.elim]
  | later h _ ih => rw [unfolds, h, Round.elim, ih]

end

/-! ## Fields -/

namespace Reader

/-- A payload is made of the last bytes that are read for it, and its length takes one more. -/
lemma bytes_of_block_past {c c' : Cursor} {found passed : List UInt8} (h : block c = .ok found c')
    (past : c.Past passed c') : found <:+ passed ∧ found.length + 1 ≤ passed.length := by
  rw [block_apply] at h
  cases first : varint c with
  | error e c₁ =>
    rw [first] at h
    cases h
  | ok length c₁ =>
    rw [first] at h
    dsimp only at h
    split at h
    · cases h
      obtain ⟨before, past₁⟩ := varint_forward.past_of_ok first
      have advanced := varint_advances _ _ _ first
      have longer := past₁.length_eq
      have split : passed ++ c₁.ahead.drop length.toNat =
          (before ++ c₁.ahead.take length.toNat) ++ c₁.ahead.drop length.toNat := by
        rw [List.append_assoc, List.take_append_drop, ← past₁.ahead_eq]
        exact past.ahead_eq.symm
      rw [List.append_cancel_right split]
      refine ⟨List.suffix_append _ _, ?_⟩
      rw [List.length_append]
      omega
    · cases h

/-- A key and its payload take two bytes at least. The bytes of a length-delimited payload are among
them, and two others. -/
theorem field_past {c c₁ c₂ : Cursor} {key : Key} {payload : Payload} (hkey : Reader.key c = .ok key c₁)
    (hpayload : Reader.payload key.type c₁ = .ok payload c₂) :
    ∃ passed, c.Past passed c₂ ∧ 2 ≤ passed.length ∧
      ∀ bytes, payload = .block bytes → bytes <:+ passed ∧ bytes.length + 2 ≤ passed.length := by
  obtain ⟨front, past₁⟩ := key_forward.past_of_ok hkey
  obtain ⟨back, past₂⟩ := (payload_forward _).past_of_ok hpayload
  have keyed := key_advances _ _ _ hkey
  have paid := payload_advances _ _ _ _ hpayload
  have length₁ := past₁.length_eq
  have length₂ := past₂.length_eq
  refine ⟨front ++ back, past₁.trans past₂, ?_, ?_⟩
  · rw [List.length_append]
    omega
  · rintro bytes rfl
    have found : block c₁ = .ok bytes c₂ := by
      cases htype : key.type <;> rw [htype] at hpayload <;>
        obtain ⟨found, hfound, same⟩ := ok_of_map hpayload <;> cases same
      exact hfound
    obtain ⟨last, longer⟩ := bytes_of_block_past found past₂
    refine ⟨last.trans (List.suffix_append _ _), ?_⟩
    rw [List.length_append]
    omega

end Reader

/-! ## The fields of a message -/

namespace Descent

variable {σ : Type}

/-- One round through the fields of a message: a key, what the schema has to say about it, and the
payload. -/
def readRound (schema : Schema σ) : σ × Cursor → Round (σ × Cursor) (Except DecodeError σ)
  | (s, c) =>
    if c.hasMore then
      match Reader.key c with
      | .error e _ => .leave (.error (.wire e))
      | .ok key c₁ =>
        match schema key with
        | .error e => .leave (.error e)
        | .ok step =>
          match Reader.payload key.type c₁ with
          | .error e _ => .leave (.error (.wire e))
          | .ok payload c₂ =>
            match step s c₁.position payload with
            | .error e => .leave (.error e)
            | .ok s' => .next (s', c₂)
    else .leave (.ok s)

/-- A round that goes on has read a field. -/
lemma field_of_readRound {schema : Schema σ} {s s' : σ} {c c' : Cursor}
    (h : readRound schema (s, c) = .next (s', c')) : ∃ key c₁ payload,
      Reader.key c = .ok key c₁ ∧ Reader.payload key.type c₁ = .ok payload c' := by
  rw [readRound] at h
  split at h
  · split at h
    · cases h
    · rename_i key c₁ hkey
      split at h
      · cases h
      · split at h
        · cases h
        · rename_i payload c₂ hpayload
          split at h <;> cases h
          exact ⟨key, c₁, payload, hkey, hpayload⟩
  · cases h

/-- To read a message is to do one round and then to read what is left. -/
lemma readMessage_eq_round (schema : Schema σ) (p : σ × Cursor) :
    readMessage schema p.1 p.2 =
      (readRound schema p).elim (fun p' => readMessage schema p'.1 p'.2) id := by
  obtain ⟨s, c⟩ := p
  fun_cases readMessage schema s c <;> simp_all [readRound, Round.elim]

/-- The loop through the fields of a message is left, and with what is read from the message. Every
round that goes on has taken two bytes. -/
theorem readMessage_leaves (schema : Schema σ) (s : σ) (c : Cursor) :
    ∃ rounds, Leaves (readRound schema) (s, c) rounds (readMessage schema s c) ∧
      2 * rounds ≤ c.remaining := by
  have takes : ∀ p p', readRound schema p = .next p' → p'.2.remaining + 2 ≤ p.2.remaining := by
    rintro ⟨s, c⟩ ⟨s', c'⟩ h
    obtain ⟨key, c₁, payload, hkey, hpayload⟩ := field_of_readRound h
    obtain ⟨passed, past, two, -⟩ := Reader.field_past hkey hpayload
    have length := past.length_eq
    unfold Cursor.remaining
    dsimp only
    omega
  obtain ⟨rounds, result, leaves, bound⟩ := exists_leaves (fun p => p.2.remaining) takes (s, c)
  have same : readMessage schema s c = result :=
    leaves.eq_of_round (f := fun p => readMessage schema p.1 p.2) (g := id)
      (readMessage_eq_round schema)
  rw [same]
  exact ⟨rounds, leaves, bound⟩

end Descent

end ClassMetadata
