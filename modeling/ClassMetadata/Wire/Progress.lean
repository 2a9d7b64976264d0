import ClassMetadata.Wire.Cursor

/-!
# Readers move forward

A reader leaves the cursor at or behind the place where it found it, whether it succeeds or fails,
and the bytes in between are those it has read (`Reader.Forward`). When it finds a number, a key or
a length-delimited payload it has read at least one byte (`Reader.Advances`), which is why reading a
message field by field comes to an end.
-/

namespace ClassMetadata

/-- The cursor `c'` lies behind `c`, with the bytes `passed` in between. -/
structure Cursor.Past (c : Cursor) (passed : List UInt8) (c' : Cursor) : Prop where
  ahead_eq : c.ahead = passed ++ c'.ahead
  position_eq : c'.position = c.position + passed.length

namespace Cursor.Past

/-- No bytes lie between a cursor and itself. -/
theorem refl (c : Cursor) : c.Past [] c := ⟨by simp, by simp⟩

/-- Two moves in a row pass the bytes of the one and then those of the other. -/
theorem trans {c₁ c₂ c₃ : Cursor} {p q : List UInt8} (h₁ : c₁.Past p c₂) (h₂ : c₂.Past q c₃) :
    c₁.Past (p ++ q) c₃ := by
  constructor
  · rw [h₁.ahead_eq, h₂.ahead_eq, List.append_assoc]
  · rw [h₂.position_eq, h₁.position_eq, List.length_append, Nat.add_assoc]

/-- What was passed and what is ahead is what was ahead. -/
theorem length_eq {c c' : Cursor} {p : List UInt8} (h : c.Past p c') :
    c.ahead.length = p.length + c'.ahead.length := by
  rw [h.ahead_eq, List.length_append]

end Cursor.Past

namespace Reader

variable {α β : Type}

/-- Where the cursor is after the reader, successful or not. -/
def stop (r : Reader α) (c : Cursor) : Cursor :=
  match r c with
  | .ok _ c' => c'
  | .error _ c' => c'

/-- The reader never moves the cursor back, nor over bytes that are not there. -/
def Forward (r : Reader α) : Prop :=
  ∀ c : Cursor, ∃ passed, c.Past passed (r.stop c)

/-- The reader has passed at least `least` bytes whenever it succeeds. -/
def Advances (r : Reader α) (least : Nat) : Prop :=
  ∀ c a c', r c = .ok a c' → c'.ahead.length + least ≤ c.ahead.length

/-- A step followed by another one, by the outcome of the first. -/
theorem bind_apply (r : Reader α) (f : α → Reader β) (c : Cursor) :
    (r >>= f) c =
      match r c with
      | .ok a c' => f a c'
      | .error e c' => .error e c' := by
  cases h : r c <;> simp [bind, EStateM.bind, h]

/-- A successful step followed by another one has two successful parts. -/
theorem bind_eq_ok {r : Reader α} {f : α → Reader β} {c c' : Cursor} {b : β}
    (h : (r >>= f) c = .ok b c') : ∃ a c₁, r c = .ok a c₁ ∧ f a c₁ = .ok b c' := by
  rw [bind_apply] at h
  cases hr : r c with
  | ok a c₁ => rw [hr] at h; exact ⟨a, c₁, rfl, h⟩
  | error e c₁ => rw [hr] at h; cases h

namespace Forward

/-- A value moves nothing. -/
theorem pure (a : α) : Forward (Pure.pure a : Reader α) :=
  fun c => ⟨[], .refl c⟩

/-- A fault moves nothing. -/
theorem throw (e : WireError) : Forward (MonadExcept.throw e : Reader α) :=
  fun c => ⟨[], .refl c⟩

/-- To ask for the cursor moves nothing. -/
theorem get : Forward (MonadState.get : Reader Cursor) :=
  fun c => ⟨[], .refl c⟩

/-- Readers that move forward move forward one after the other. -/
theorem bind {r : Reader α} {f : α → Reader β} (hr : r.Forward) (hf : ∀ a, (f a).Forward) :
    Forward (r >>= f) := by
  intro c
  obtain ⟨p, hp⟩ := hr c
  unfold stop at hp
  cases h : r c with
  | ok a c₁ =>
    rw [h] at hp
    obtain ⟨q, hq⟩ := hf a c₁
    refine ⟨p ++ q, ?_⟩
    unfold stop at hq ⊢
    rw [bind_apply, h]
    exact hp.trans hq
  | error e c₁ =>
    rw [h] at hp
    refine ⟨p, ?_⟩
    unfold stop
    rw [bind_apply, h]
    exact hp

end Forward

namespace Advances

/-- A successful step goes on from where the last one stopped. -/
theorem of_forward {r : Reader α} (h : r.Forward) : r.Advances 0 := by
  intro c a c' hr
  obtain ⟨p, hp⟩ := h c
  unfold stop at hp
  rw [hr] at hp
  have := hp.length_eq
  dsimp only at this
  omega

/-- Readers that follow each other advance by the sum. -/
theorem bind {r : Reader α} {f : α → Reader β} {m n : Nat} (hr : r.Advances m)
    (hf : ∀ a, (f a).Advances n) : (r >>= f).Advances (m + n) := by
  intro c b c' h
  obtain ⟨a, c₁, h₁, h₂⟩ := bind_eq_ok h
  have := hr _ _ _ h₁
  have := hf a _ _ _ h₂
  omega

end Advances

/-- A number in groups is read forward. -/
theorem groups_past (start index : Nat) (bytes : List UInt8) :
    match groups start index bytes with
    | .ok _ c => ∃ passed, passed ≠ [] ∧ Cursor.Past ⟨start + index, bytes⟩ passed c
    | .error _ c => ∃ passed, Cursor.Past ⟨start + index, bytes⟩ passed c := by
  induction bytes generalizing index with
  | nil => exact ⟨[], .refl _⟩
  | cons byte ahead ih =>
    have step : Cursor.Past ⟨start + index, byte :: ahead⟩ [byte] ⟨start + index + 1, ahead⟩ :=
      ⟨rfl, rfl⟩
    rw [groups]
    by_cases hx : Varint.exceeds index byte = true
    · rw [if_pos hx]
      exact ⟨[byte], step⟩
    · rw [if_neg hx]
      by_cases hc : Varint.continues byte = true
      · rw [if_pos hc]
        have ih := ih (index + 1)
        cases h : groups start (index + 1) ahead with
        | ok high c =>
          rw [h] at ih
          obtain ⟨p, -, hp⟩ := ih
          exact ⟨[byte] ++ p, by simp, step.trans hp⟩
        | error e c =>
          rw [h] at ih
          obtain ⟨p, hp⟩ := ih
          exact ⟨[byte] ++ p, step.trans hp⟩
      · rw [if_neg hc]
        exact ⟨[byte], by simp, step⟩

/-- A number only moves forward. -/
theorem varint_forward : varint.Forward := by
  intro c
  have h := groups_past c.position 0 c.ahead
  unfold stop varint
  cases hg : groups c.position 0 c.ahead with
  | ok n c' =>
    rw [hg] at h
    obtain ⟨p, -, hp⟩ := h
    exact ⟨p, hp⟩
  | error e c' =>
    rw [hg] at h
    exact h

/-- A number takes a byte at least. -/
theorem varint_advances : varint.Advances 1 := by
  intro c a c' hr
  have h := groups_past c.position 0 c.ahead
  unfold varint at hr
  cases hg : groups c.position 0 c.ahead with
  | ok n c₁ =>
    rw [hg] at h hr
    obtain ⟨p, hne, hp⟩ := h
    cases hr
    have := hp.length_eq
    have := List.length_pos_iff.2 hne
    dsimp only at *
    omega
  | error e c₁ => rw [hg] at hr; cases hr

/-- To take bytes only moves forward. -/
theorem take_forward (count : Nat) (fault : Nat → WireError) : (take count fault).Forward := by
  intro c
  unfold stop take
  dsimp only
  by_cases h : (c.ahead.take count).length = count
  · rw [if_pos h]
    exact ⟨c.ahead.take count, by simp, by simp [h]⟩
  · rw [if_neg h]
    exact ⟨[], .refl c⟩

/-- To take bytes advances by as many. -/
theorem take_advances (count : Nat) (fault : Nat → WireError) :
    (take count fault).Advances count := by
  intro c a c' h
  unfold take at h
  dsimp only at h
  split at h
  · cases h
    rename_i hlen
    rw [List.length_take] at hlen
    rw [List.length_drop]
    omega
  · cases h

/-- A key only moves forward. -/
theorem key_forward : key.Forward := by
  refine .bind .get fun _ => .bind varint_forward fun n => ?_
  split
  · exact .throw _
  · split
    · exact .throw _
    · split
      · exact .throw _
      · exact .pure _

/-- A key takes a byte at least. -/
theorem key_advances : key.Advances 1 := by
  refine Advances.bind (n := 1) (.of_forward .get) fun _ =>
    Advances.bind (n := 0) varint_advances fun n => .of_forward ?_
  split
  · exact .throw _
  · split
    · exact .throw _
    · split
      · exact .throw _
      · exact .pure _

/-- A block only moves forward. -/
theorem block_forward : block.Forward :=
  .bind .get fun _ => .bind varint_forward fun _ => take_forward _ _

/-- A payload only moves forward. -/
theorem payload_forward : ∀ type, (payload type).Forward
  | .varint => .bind varint_forward fun _ => .pure _
  | .fixed64 => .bind (take_forward _ _) fun _ => .pure _
  | .lengthDelimited => .bind block_forward fun _ => .pure _
  | .fixed32 => .bind (take_forward _ _) fun _ => .pure _

/-- To pass over a payload only moves forward. -/
theorem skip_forward (type : WireType) : (skip type).Forward :=
  .bind (payload_forward type) fun _ => .pure _

/-- A number of 32 bits only moves forward. -/
theorem word_forward : word.Forward := by
  refine .bind .get fun _ => .bind varint_forward fun n => ?_
  split
  · exact .pure _
  · exact .throw _

end Reader

end ClassMetadata
