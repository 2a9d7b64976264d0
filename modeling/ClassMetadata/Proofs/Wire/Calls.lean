import ClassMetadata.Proofs.Wire.Memory
import ClassMetadata.Proofs.Wire.Whole

/-!
# Calls after calls

A reader stays in use after a fault, so what a call may rely on is only what every call leaves behind,
whether it succeeds or not: a cursor in the buffer.

* `Reader.Reports` says that the offset in a fault is between a place where the reader has been and the
  end of the bytes. It is closed under sequencing.
* `ReadCall.Safe` lists what is promised of one call, and `ReadCall.run_safe` proves it for every call
  at every place. `SafeRun` is the same for calls that are made one after the other.
* `Buffer.runAll_safe` says that nothing goes wrong in memory either, whichever calls are made.
-/

namespace ClassMetadata

/-- Where a fault is said to be. -/
def WireError.offset : WireError → Nat
  | unexpectedEnd offset | varintOverflow offset | invalidWireType _ offset
  | lengthOverflow _ offset | invalidFieldNumber offset => offset

namespace Reader

variable {α β : Type}

/-! ## Where faults are reported -/

/-- A fault is reported at an offset from `start` on, and no later than where the bytes end. -/
def Reports (start : Nat) (r : Reader α) : Prop :=
  ∀ c, start ≤ c.position → ∀ e c', r c = .error e c' →
    start ≤ e.offset ∧ e.offset ≤ c.position + c.remaining

/-- A reader that succeeds has passed some bytes. -/
lemma Forward.past_of_ok {r : Reader α} (h : r.Forward) {c c' : Cursor} {a : α}
    (hr : r c = .ok a c') : ∃ passed, c.Past passed c' := by
  have past := h c
  rwa [stop, hr] at past

namespace Reports

variable {start : Nat}

/-- What does not fail reports nothing. -/
lemma pure (a : α) : Reports start (Pure.pure a : Reader α) := fun _ _ _ _ h => nomatch h

/-- A fault is reported where it is. -/
lemma throw {e : WireError} (h : e.offset = start) :
    Reports start (MonadExcept.throw e : Reader α) := by
  intro c behind e' c' failed
  cases failed
  rw [h]
  exact ⟨Nat.le_refl _, Nat.le_trans behind (Nat.le_add_right _ _)⟩

/-- A reader that remembers where it has started. -/
lemma of_get {f : Cursor → Reader α} (h : ∀ c, (f c).Reports c.position) :
    (get >>= f).Reports start := by
  intro c behind e c' failed
  obtain ⟨later, within⟩ := h c c (Nat.le_refl _) e c' failed
  exact ⟨Nat.le_trans behind later, within⟩

/-- Readers that follow each other report between their start and the end of the bytes. -/
lemma bind {r : Reader α} {f : α → Reader β} (hr : r.Reports start) (forward : r.Forward)
    (hf : ∀ a, (f a).Reports start) : (r >>= f).Reports start := by
  intro c behind e c' failed
  rw [bind_apply] at failed
  cases first : r c with
  | ok a c₁ =>
    rw [first] at failed
    obtain ⟨passed, past⟩ := forward.past_of_ok first
    have moved := past.position_eq
    have length := past.length_eq
    obtain ⟨later, within⟩ := hf a c₁ (by omega) e c' failed
    unfold Cursor.remaining at within ⊢
    omega
  | error e₁ c₁ =>
    rw [first] at failed
    cases failed
    exact hr c behind _ _ first

end Reports

/-- Faults in groups are reported between their start and the end of the bytes. -/
lemma groups_reports {start index : Nat} {bytes : List UInt8} {e : WireError} {c : Cursor}
    (failed : groups start index bytes = .error e c) :
    start ≤ e.offset ∧ e.offset ≤ start + index + bytes.length := by
  induction bytes generalizing index with
  | nil =>
    cases failed
    exact ⟨Nat.le_add_right _ _, Nat.le_refl _⟩
  | cons byte bytes ih =>
    rw [groups] at failed
    rw [List.length_cons]
    split at failed
    · cases failed
      dsimp only [WireError.offset]
      omega
    · split at failed
      · cases rest : groups start (index + 1) bytes with
        | ok n c' =>
          rw [rest] at failed
          cases failed
        | error e' c' =>
          rw [rest] at failed
          cases failed
          have := ih rest
          omega
      · cases failed

/-- Faults in a number are reported between its start and the end of the bytes. -/
lemma varint_reports (start : Nat) : varint.Reports start := by
  intro c behind e c' failed
  unfold varint at failed
  cases read : groups c.position 0 c.ahead with
  | ok n c₁ =>
    rw [read] at failed
    cases failed
  | error e₁ c₁ =>
    rw [read] at failed
    cases failed
    obtain ⟨later, within⟩ := groups_reports read
    exact ⟨Nat.le_trans behind later, within⟩

/-- Faults in a number of 32 bits are reported between its start and the end of the bytes. -/
lemma word_reports (start : Nat) : word.Reports start := by
  refine .of_get fun c => .bind (varint_reports _) varint_forward fun n => ?_
  split
  · exact .pure _
  · exact .throw rfl

/-- Faults in a key are reported between its start and the end of the bytes. -/
lemma key_reports (start : Nat) : key.Reports start := by
  refine .of_get fun c => .bind (varint_reports _) varint_forward fun n => ?_
  split
  · exact .throw rfl
  · split
    · exact .throw rfl
    · split
      · exact .throw rfl
      · exact .pure _

/-- Missing bytes are reported where the caller says, if that is between the start and the cursor.
-/
lemma take_reports {start count : Nat} {fault : Nat → WireError}
    (h : ∀ p, start ≤ p → start ≤ (fault p).offset ∧ (fault p).offset ≤ p) :
    (take count fault).Reports start := by
  intro c behind e c' failed
  unfold take at failed
  dsimp only at failed
  split at failed
  · cases failed
  · cases failed
    obtain ⟨later, within⟩ := h c.position behind
    exact ⟨later, Nat.le_trans within (Nat.le_add_right _ _)⟩

/-- Faults in a block are reported between its start and the end of the bytes. -/
lemma block_reports (start : Nat) : block.Reports start :=
  .of_get fun _ => .bind (varint_reports _) varint_forward fun _ =>
    take_reports fun _ behind => ⟨Nat.le_refl _, behind⟩

/-- Faults in a payload are reported between its start and the end of the bytes. -/
lemma payload_reports (start : Nat) : ∀ type, (payload type).Reports start
  | .varint => .bind (varint_reports _) varint_forward fun _ => .pure _
  | .fixed64 =>
    .bind (take_reports fun _ behind => ⟨behind, Nat.le_refl _⟩) (take_forward _ _) fun _ => .pure _
  | .lengthDelimited => .bind (block_reports _) block_forward fun _ => .pure _
  | .fixed32 =>
    .bind (take_reports fun _ behind => ⟨behind, Nat.le_refl _⟩) (take_forward _ _) fun _ => .pure _

/-- Faults in a payload that is passed over are reported in the same way. -/
lemma skip_reports (start : Nat) (type : WireType) : (skip type).Reports start :=
  .bind (payload_reports _ type) (payload_forward type) fun _ => .pure _

/-! ## Where readers stop -/

/-- Who moves on by some bytes moves on by fewer. -/
lemma Advances.mono {r : Reader α} {m n : Nat} (h : r.Advances n) (hmn : m ≤ n) :
    r.Advances m := by
  intro c a c' read
  have := h _ _ _ read
  omega

/-- What follows a reader takes nothing back. -/
lemma Advances.followed {r : Reader α} {f : α → Reader β} {n : Nat} (hr : r.Advances n)
    (hf : ∀ a, (f a).Forward) : (r >>= f).Advances n :=
  hr.bind fun a => .of_forward (hf a)

/-- A number of 32 bits takes a byte at least. -/
lemma word_advances : word.Advances 1 := by
  refine Advances.bind (m := 0) (.of_forward .get) fun _ => varint_advances.followed fun n => ?_
  split
  · exact .pure _
  · exact .throw _

/-- A block takes a byte at least. -/
lemma block_advances : block.Advances 1 :=
  Advances.bind (m := 0) (.of_forward .get) fun _ => varint_advances.followed fun _ =>
    take_forward _ _

/-- A payload takes a byte at least. -/
lemma payload_advances : ∀ type, (payload type).Advances 1
  | .varint => varint_advances.followed fun _ => .pure _
  | .fixed64 => ((take_advances 8 _).mono (by decide)).followed fun _ => .pure _
  | .lengthDelimited => block_advances.followed fun _ => .pure _
  | .fixed32 => ((take_advances 4 _).mono (by decide)).followed fun _ => .pure _

/-- A length and as many bytes: the three ways in which this can end. -/
lemma block_apply (c : Cursor) : block c =
    match varint c with
    | .ok length c₁ =>
      if length.toNat ≤ c₁.remaining then
        .ok (c₁.ahead.take length.toNat) ⟨c₁.position + length.toNat, c₁.ahead.drop length.toNat⟩
      else .error (.lengthOverflow length c.position) c₁
    | .error e c₁ => .error e c₁ := by
  show (varint >>= fun length => take length.toNat fun _ => .lengthOverflow length c.position) c = _
  rw [bind_apply]
  cases varint c with
  | ok length c₁ =>
    have enough : min length.toNat c₁.ahead.length = length.toNat ↔
        length.toNat ≤ c₁.remaining := by
      unfold Cursor.remaining
      omega
    simp only [take, List.length_take, enough]
  | error e c₁ => rfl

/-- What is made of a value is made of one that was read. -/
lemma ok_of_map {r : Reader α} {f : α → β} {c c' : Cursor} {b : β}
    (h : (do return f (← r) : Reader β) c = .ok b c') : ∃ a, r c = .ok a c' ∧ b = f a := by
  obtain ⟨a, c₁, read, h⟩ := bind_eq_ok h
  cases h
  exact ⟨a, read, rfl⟩

/-- To make something of a value adds no fault. -/
lemma error_of_map {r : Reader α} {f : α → β} {c c' : Cursor} {e : WireError}
    (h : (do return f (← r) : Reader β) c = .error e c') : r c = .error e c' := by
  rw [bind_apply] at h
  cases read : r c with
  | ok a c₁ =>
    rw [read] at h
    cases h
  | error e₁ c₁ =>
    rw [read] at h
    cases h
    rfl

/-- A length-delimited payload that is not there leaves the cursor behind what was read of its
length. -/
lemma stop_of_block_error {c c' : Cursor} {e : WireError} (h : block c = .error e c') :
    c' = varint.stop c := by
  rw [block_apply] at h
  unfold stop
  cases first : varint c with
  | ok length c₁ =>
    rw [first] at h
    dsimp only at h
    split at h
    · cases h
    · cases h
      rfl
  | error e₁ c₁ =>
    rw [first] at h
    cases h
    rfl

/-- A length-delimited payload is what stands between the end of its length and the cursor. -/
lemma bytes_of_block {buffer found : List UInt8} {position : Nat} {c' : Cursor}
    (inside : position ≤ buffer.length) (h : block (.at buffer position) = .ok found c') :
    ∃ length start, varint (.at buffer position) = .ok length (.at buffer start) ∧
      found.length = length.toNat ∧ found = (buffer.take c'.position).drop start := by
  rw [block_apply] at h
  cases first : varint (.at buffer position) with
  | ok length c₁ =>
    obtain ⟨count, -, -, rfl⟩ := (Varint.varint_eq_ok_iff inside).1 first
    rw [first] at h
    dsimp only at h
    split at h
    · rename_i enough
      cases h
      refine ⟨length, position + count, rfl, ?_, ?_⟩
      · exact List.length_take_of_le enough
      · rw [List.drop_take]
        dsimp only [Cursor.at]
        rw [Nat.add_sub_cancel_left]
    · cases h
  | error e₁ c₁ =>
    rw [first] at h
    cases h

/-- Nothing is passed where there are too few bytes. -/
lemma eq_of_take_error {count : Nat} {fault : Nat → WireError} {c c' : Cursor} {e : WireError}
    (h : take count fault c = .error e c') : c' = c := by
  unfold take at h
  dsimp only at h
  split at h <;> cases h
  rfl

/-- A payload of fixed size that is cut short leaves the cursor where it was. -/
lemma eq_of_skip_error {type : WireType} {c c' : Cursor} {e : WireError}
    (fixed : type = .fixed32 ∨ type = .fixed64) (h : skip type c = .error e c') : c' = c := by
  rcases fixed with rfl | rfl <;> exact eq_of_take_error (error_of_map (error_of_map h))

end Reader

/-! ## Calls -/

namespace ReadCall

/-- What is promised of a call at a cursor, which is in a buffer, and of what it came to. -/
structure Safe (buffer : List UInt8) (call : ReadCall) (before : Cursor) (step : ReadStep) :
    Prop where
  /-- The position never decreases. -/
  forward : before.position ≤ step.cursor.position
  /-- The position never exceeds the length. -/
  inside : step.cursor.position ≤ buffer.length
  /-- What is ahead is the rest of the buffer. -/
  ahead : step.cursor = .at buffer step.cursor.position
  remaining : step.cursor.remaining = buffer.length - step.cursor.position
  /-- A success passes a byte at least. -/
  advances : ∀ value, step.outcome = .ok value → before.position + 1 ≤ step.cursor.position
  /-- A payload is what stands between the end of its length and the new position. -/
  payload : ∀ value, call = .block → step.outcome = .ok value →
    ∃ found length start, value = .block found ∧
      Reader.varint before = .ok length (.at buffer start) ∧ found.length = length.toNat ∧
      found = (buffer.take step.cursor.position).drop start
  /-- A payload of fixed size that cannot be passed over is not begun. -/
  stays : ∀ e, call = .skip .fixed32 ∨ call = .skip .fixed64 → step.outcome = .error e →
    step.cursor = before
  /-- A length-delimited payload that is not there leaves the cursor where its length has left it. -/
  leaves : ∀ e, call = .block ∨ call = .skip .lengthDelimited → step.outcome = .error e →
    step.cursor = Reader.varint.stop before
  /-- A fault is reported between the place of the call and the end of the buffer. -/
  reported : ∀ e, step.outcome = .error e →
    before.position ≤ e.offset ∧ e.offset ≤ buffer.length

/-- Every call that succeeds takes a byte at least. -/
lemma reader_advances : ∀ call : ReadCall, call.reader.Advances 1
  | varint => Reader.varint_advances.followed fun _ => .pure _
  | word => Reader.word_advances.followed fun _ => .pure _
  | key => Reader.key_advances.followed fun _ => .pure _
  | block => Reader.block_advances.followed fun _ => .pure _
  | skip type => ((Reader.payload_advances type).followed fun _ => .pure _).followed fun _ => .pure _

/-- Every call reports faults between its start and the end of the bytes. -/
lemma reader_reports (start : Nat) : ∀ call : ReadCall, call.reader.Reports start
  | varint => .bind (Reader.varint_reports _) Reader.varint_forward fun _ => .pure _
  | word => .bind (Reader.word_reports _) Reader.word_forward fun _ => .pure _
  | key => .bind (Reader.key_reports _) Reader.key_forward fun _ => .pure _
  | block => .bind (Reader.block_reports _) Reader.block_forward fun _ => .pure _
  | skip type => .bind (Reader.skip_reports _ type) (Reader.skip_forward type) fun _ => .pure _

variable {call : ReadCall} {c : Cursor}

/-- A call that succeeds is a reader that does. -/
lemma reader_of_ok {value : ReadValue} (h : (call.run c).outcome = .ok value) :
    call.reader c = .ok value (call.run c).cursor := by
  unfold run at h ⊢
  cases read : call.reader c <;> rw [read] at h <;> cases h
  rfl

/-- A call that fails is a reader that does. -/
lemma reader_of_error {e : WireError} (h : (call.run c).outcome = .error e) :
    call.reader c = .error e (call.run c).cursor := by
  unfold run at h ⊢
  cases read : call.reader c <;> rw [read] at h <;> cases h
  rfl

/-- Any call at any place in a buffer keeps its promises. -/
lemma run_safe (call : ReadCall) {buffer : List UInt8} {position : Nat}
    (inside : position ≤ buffer.length) :
    call.Safe buffer (.at buffer position) (call.run (.at buffer position)) := by
  obtain ⟨stop, forward, within, stops⟩ := call.reader_forward.stop_at inside
  rw [← cursor_run] at stops
  have moved : (call.run (.at buffer position)).cursor.position = stop := by rw [stops]; rfl
  constructor
  case forward => rw [moved]; exact forward
  case inside => rw [moved]; exact within
  case ahead => rw [moved, stops]
  case remaining => rw [moved, stops]; exact List.length_drop
  case advances =>
    intro value ok
    have passed := reader_advances call _ _ _ (reader_of_ok ok)
    rw [stops] at passed
    dsimp only [Cursor.at] at passed
    rw [List.length_drop, List.length_drop] at passed
    rw [moved]
    dsimp only [Cursor.at]
    omega
  case payload =>
    rintro value rfl ok
    obtain ⟨found, read, rfl⟩ := Reader.ok_of_map (reader_of_ok ok)
    obtain ⟨length, start, first, long, bytes⟩ := Reader.bytes_of_block inside read
    exact ⟨found, length, start, rfl, first, long, bytes⟩
  case stays =>
    rintro e (rfl | rfl) failed
    · exact Reader.eq_of_skip_error (.inl rfl) (Reader.error_of_map (reader_of_error failed))
    · exact Reader.eq_of_skip_error (.inr rfl) (Reader.error_of_map (reader_of_error failed))
  case leaves =>
    rintro e (rfl | rfl) failed
    · exact Reader.stop_of_block_error (Reader.error_of_map (reader_of_error failed))
    · have skipped := Reader.error_of_map (reader_of_error failed)
      exact Reader.stop_of_block_error (Reader.error_of_map (Reader.error_of_map skipped))
  case reported =>
    intro e failed
    obtain ⟨later, early⟩ := reader_reports position call _ (Nat.le_refl _) _ _ (reader_of_error failed)
    refine ⟨later, Nat.le_trans early ?_⟩
    dsimp only [Cursor.at, Cursor.remaining]
    rw [List.length_drop]
    omega

end ReadCall

/-- Calls that were made one after the other, each at the cursor that the last one has left, and every
one of them has kept its promises. -/
inductive SafeRun (buffer : List UInt8) : Cursor → List ReadCall → List ReadStep → Prop where
  | nil {before : Cursor} : SafeRun buffer before [] []
  | cons {before : Cursor} {call : ReadCall} {step : ReadStep} {calls : List ReadCall}
    {steps : List ReadStep} :
    call.Safe buffer before step → SafeRun buffer step.cursor calls steps →
    SafeRun buffer before (call :: calls) (step :: steps)

/-- A call leaves a cursor in the buffer, whatever came of it, and so the next one is safe again. -/
lemma ReadCall.runAll_safeRun (calls : List ReadCall) {buffer : List UInt8} {position : Nat}
    (inside : position ≤ buffer.length) :
    SafeRun buffer (.at buffer position) calls (runAll calls (.at buffer position)) := by
  induction calls generalizing position with
  | nil => exact .nil
  | cons call calls ih =>
    have first := call.run_safe inside
    have rest := ih first.inside
    rw [← first.ahead] at rest
    exact .cons first rest

-- the length says five bytes and there are two, which are read as two numbers then
example : (ReadCall.runAll [.block, .skip .fixed32, .varint, .varint] (.ofBytes [5, 1, 2])).map
    (fun step => (step.outcome, step.cursor.position)) =
      [(.error (.lengthOverflow 5 0), 1), (.error (.unexpectedEnd 1), 1), (.ok (.varint 1), 2),
        (.ok (.varint 2), 3)] := by rfl

/-- Whichever calls are made in a buffer from its start, after faults too: no access is outside the
buffer and no sum or shift overflows, every call comes to what it comes to at a cursor, and all of them
keep their promises. -/
theorem Buffer.runAll_safe (b : Buffer) (calls : List ReadCall) :
    b.runAll calls 0 =
        some ((ReadCall.runAll calls (.ofBytes b.bytes)).map fun step =>
          (step.outcome, step.cursor.position)) ∧
      SafeRun b.bytes (.ofBytes b.bytes) calls (ReadCall.runAll calls (.ofBytes b.bytes)) :=
  ⟨b.runAll_eq calls (Nat.zero_le _), ReadCall.runAll_safeRun calls (Nat.zero_le _)⟩

end ClassMetadata
