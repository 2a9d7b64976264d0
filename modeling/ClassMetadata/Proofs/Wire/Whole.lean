import ClassMetadata.Proofs.Wire.RoundTrip

/-!
# Whole fields and parts of them

A field takes its own bytes and no others. What is read from them depends neither on where they
stand nor on what follows; and where only a part of them is there, the fault is that bytes are
missing.

* `Reader.Takes` says this of a reader and some bytes, and `Reader.Local` says that a reader takes
  whatever it passes when it succeeds. There is one lemma for each reader.
* `Spells` is about the bytes of one field. `Spells.fields_append` and `Spells.fields_of_part` say
  how the list of fields begins in front of all of them and in front of a part of them.
-/

namespace ClassMetadata

/-- The fault is that bytes are missing. -/
def WireError.isEarlyEnd : WireError → Bool
  | unexpectedEnd _ | lengthOverflow _ _ => true
  | varintOverflow _ | invalidWireType _ _ | invalidFieldNumber _ => false

/-- A part of two texts, one behind the other, stops within the first or within the second. -/
lemma prefix_append_cases {α : Type} {part p q : List α} (h : part <+: p ++ q)
    (proper : part ≠ p ++ q) :
    (part <+: p ∧ part ≠ p) ∨ ∃ rest, part = p ++ rest ∧ rest <+: q ∧ rest ≠ q := by
  rcases List.prefix_or_prefix_of_prefix h (List.prefix_append p q) with within | ⟨rest, rfl⟩
  · by_cases whole : part = p
    · subst whole
      refine .inr ⟨[], (List.append_nil _).symm, List.nil_prefix, ?_⟩
      rintro rfl
      exact proper (List.append_nil _).symm
    · exact .inl ⟨within, whole⟩
  · refine .inr ⟨rest, rfl, (List.prefix_append_right_inj p).1 h, ?_⟩
    rintro rfl
    exact proper rfl

namespace Reader

variable {α β : Type}

/-- The reader takes exactly these bytes and makes this value of them; of a part of them it says
that bytes are missing. -/
structure Takes (r : Reader α) (bytes : List UInt8) (a : α) : Prop where
  finds : r.Finds bytes a
  misses : ∀ position part, part <+: bytes → part ≠ bytes →
    ∃ e c, r ⟨position, part⟩ = .error e c ∧ e.isEarlyEnd

/-- Whenever the reader succeeds, it takes the bytes that it has passed. -/
def Local (r : Reader α) : Prop :=
  ∀ c a c', r c = .ok a c' → ∃ bytes, c.ahead = bytes ++ c'.ahead ∧ r.Takes bytes a

namespace Takes

/-- A value takes no bytes. -/
lemma pure (a : α) : Takes (Pure.pure a : Reader α) [] a := by
  refine ⟨.pure a, fun position part h proper => ?_⟩
  exact absurd (List.prefix_nil.1 h) proper

/-- Readers that follow each other take their bytes one after the other. -/
lemma bind {r : Reader α} {f : α → Reader β} {p q : List UInt8} {a : α} {b : β}
    (hr : r.Takes p a) (hf : (f a).Takes q b) : (r >>= f).Takes (p ++ q) b := by
  refine ⟨hr.finds.bind hf.finds, fun position part h proper => ?_⟩
  rcases prefix_append_cases h proper with ⟨within, proper⟩ | ⟨rest, rfl, within, proper⟩
  · obtain ⟨e, c, hrun, early⟩ := hr.misses position part within proper
    refine ⟨e, c, ?_, early⟩
    rw [bind_apply, hrun]
  · obtain ⟨e, c, hrun, early⟩ := hf.misses (position + p.length) rest within proper
    refine ⟨e, c, ?_, early⟩
    rw [bind_apply, hr.finds]
    exact hrun

/-- A reader that asks for its cursor takes what it takes at any. -/
lemma of_get {f : Cursor → Reader β} {p : List UInt8} {b : β} (hf : ∀ c, (f c).Takes p b) :
    (get >>= f).Takes p b :=
  ⟨.of_get fun c => (hf c).finds, fun position part => (hf ⟨position, part⟩).misses position part⟩

end Takes

namespace Local

/-- A value is local, as it passes no bytes. -/
lemma pure (a : α) : Local (Pure.pure a : Reader α) := by
  intro c b c' h
  cases h
  exact ⟨[], rfl, .pure a⟩

/-- Local readers that follow each other are local. -/
lemma bind {r : Reader α} {f : α → Reader β} (hr : r.Local) (hf : ∀ a, (f a).Local) :
    (r >>= f).Local := by
  intro c b c' h
  obtain ⟨a, c₁, hfirst, hsecond⟩ := bind_eq_ok h
  obtain ⟨p, hp, first⟩ := hr _ _ _ hfirst
  obtain ⟨q, hq, second⟩ := hf a _ _ _ hsecond
  exact ⟨p ++ q, by rw [hp, hq, List.append_assoc], first.bind second⟩

end Local

/-- The groups of a number are read alike wherever they stand, and none of them may be missing. -/
lemma groups_local {start index n : Nat} {bytes : List UInt8} {c : Cursor}
    (h : groups start index bytes = .ok n c) :
    ∃ passed, bytes = passed ++ c.ahead ∧
      (∀ start rest, groups start index (passed ++ rest) =
        .ok n ⟨start + index + passed.length, rest⟩) ∧
      ∀ start part, part <+: passed → part ≠ passed →
        ∃ e c, groups start index part = .error e c ∧ e.isEarlyEnd := by
  induction bytes generalizing index n c with
  | nil => cases h
  | cons byte bytes ih =>
    rw [groups] at h
    split at h
    · cases h
    rename_i room
    split at h
    · rename_i more
      cases hhigh : groups start (index + 1) bytes with
      | error e c' =>
        rw [hhigh] at h
        cases h
      | ok high c' =>
        rw [hhigh] at h
        cases h
        obtain ⟨passed, rfl, whole, parts⟩ := ih hhigh
        refine ⟨byte :: passed, rfl, fun start rest => ?_, fun start part hpart proper => ?_⟩
        · rw [List.cons_append, groups, if_neg room, if_pos more, whole]
          simp only [List.length_cons]
          congr 2
          omega
        · cases part with
          | nil => exact ⟨_, _, rfl, rfl⟩
          | cons b part =>
            obtain ⟨rfl, within⟩ := List.cons_prefix_cons.1 hpart
            obtain ⟨e, c, hrun, early⟩ := parts start part within fun e => proper (by rw [e])
            refine ⟨e, c, ?_, early⟩
            rw [groups, if_neg room, if_pos more, hrun]
    · rename_i last
      cases h
      refine ⟨[byte], rfl, fun start rest => ?_, fun start part hpart proper => ?_⟩
      · rw [List.singleton_append, groups, if_neg room, if_neg last]
        rfl
      · cases part with
        | nil => exact ⟨_, _, rfl, rfl⟩
        | cons b part =>
          obtain ⟨rfl, within⟩ := List.cons_prefix_cons.1 hpart
          exact absurd (congrArg (b :: ·) (List.prefix_nil.1 within)) proper

/-- A number that was read takes the bytes that were passed. -/
lemma varint_local : varint.Local := by
  intro c value c' h
  unfold varint at h
  cases hn : groups c.position 0 c.ahead with
  | error e c₁ =>
    rw [hn] at h
    cases h
  | ok n c₁ =>
    rw [hn] at h
    cases h
    obtain ⟨passed, hpassed, whole, parts⟩ := groups_local hn
    refine ⟨passed, hpassed, fun position rest => ?_, fun position part hpart proper => ?_⟩
    · rw [varint, whole]
      rfl
    · obtain ⟨e, c, hrun, early⟩ := parts position part hpart proper
      refine ⟨e, c, ?_, early⟩
      rw [varint, hrun]

/-- As many bytes are taken as are asked for, and missed if they are cut short by an early end. -/
lemma take_takes {bytes : List UInt8} {fault : Nat → WireError}
    (early : ∀ n, (fault n).isEarlyEnd) : (take bytes.length fault).Takes bytes bytes := by
  refine ⟨take_finds bytes fault, fun position part within proper => ?_⟩
  have length_le := within.length_le
  have length_ne : part.length ≠ bytes.length := fun e => proper (within.eq_of_length e)
  refine ⟨fault position, ⟨position, part⟩, ?_, early position⟩
  rw [take, if_neg]
  rw [List.length_take]
  dsimp only
  omega

/-- Bytes that are taken are those ahead. -/
lemma bytes_of_take {count : Nat} {fault : Nat → WireError} {c c' : Cursor} {bytes : List UInt8}
    (h : take count fault c = .ok bytes c') : bytes.length = count ∧ c.ahead = bytes ++ c'.ahead := by
  unfold take at h
  dsimp only at h
  split at h
  · rename_i enough
    cases h
    exact ⟨enough, (List.take_append_drop count c.ahead).symm⟩
  · cases h

/-- Bytes that were taken are those that were passed, if a lack of them is an early end. -/
lemma take_local {count : Nat} {fault : Nat → WireError} (early : ∀ n, (fault n).isEarlyEnd) :
    (take count fault).Local := by
  intro c bytes c' h
  obtain ⟨rfl, hbytes⟩ := bytes_of_take h
  exact ⟨bytes, hbytes, take_takes early⟩

/-- A key that was read takes the bytes that were passed. -/
lemma key_local : key.Local := by
  intro c k c' h
  obtain ⟨_, _, hget, h⟩ := bind_eq_ok h
  cases hget
  obtain ⟨n, c₁, hn, hchecks⟩ := bind_eq_ok h
  obtain ⟨passed, hpassed, number⟩ := varint_local _ _ _ hn
  cases htype : WireType.ofCode? (n.toNat % 8) with
  | none =>
    rw [htype] at hchecks
    cases hchecks
  | some type =>
    rw [htype] at hchecks
    change (if _ then _ else if _ then _ else _ : Reader Key) c₁ = _ at hchecks
    by_cases large : UInt32.size ≤ n.toNat / 8
    · rw [if_pos large] at hchecks
      cases hchecks
    rw [if_neg large] at hchecks
    by_cases zero : n.toNat / 8 = 0
    · rw [if_pos zero] at hchecks
      cases hchecks
    rw [if_neg zero] at hchecks
    cases hchecks
    -- the checks that follow the number take no bytes, and they pass wherever it stands
    refine ⟨passed, hpassed, .of_get fun c => ?_⟩
    rw [← List.append_nil passed]
    apply number.bind
    rw [htype]
    show Takes (if _ then _ else if _ then _ else _) _ _
    rw [if_neg large, if_neg zero]
    exact .pure _

/-- A block that was read takes the bytes that were passed. -/
lemma block_local : block.Local := by
  intro c bytes c' h
  obtain ⟨_, _, hget, h⟩ := bind_eq_ok h
  cases hget
  obtain ⟨n, c₁, hn, htake⟩ := bind_eq_ok h
  obtain ⟨passed, hpassed, length⟩ := varint_local _ _ _ hn
  obtain ⟨hlength, hbytes⟩ := bytes_of_take htake
  refine ⟨passed ++ bytes, by rw [hpassed, hbytes, List.append_assoc], ?_⟩
  refine .of_get fun c => length.bind ?_
  rw [← hlength]
  exact take_takes fun _ => rfl

/-- A payload that was read takes the bytes that were passed. -/
lemma payload_local : ∀ type, (payload type).Local
  | .varint => .bind varint_local fun _ => .pure _
  | .fixed64 => .bind (take_local fun _ => rfl) fun _ => .pure _
  | .lengthDelimited => .bind block_local fun _ => .pure _
  | .fixed32 => .bind (take_local fun _ => rfl) fun _ => .pure _

end Reader

/-- The bytes are those of one field: read from their start, they give its key and its payload, and
then there are no more. -/
def Spells (bytes : List UInt8) (key : Key) (payload : Payload) : Prop :=
  ∃ c c', Reader.key (.ofBytes bytes) = .ok key c ∧
    Reader.payload key.type c = .ok payload c' ∧ c'.ahead = []

namespace Spells

variable {bytes : List UInt8} {key : Key} {payload : Payload}

/-- The bytes of a field are those of its key and those of its payload. -/
lemma of_takes {first second : List UInt8} (hkey : Reader.key.Takes first key)
    (hpayload : (Reader.payload key.type).Takes second payload) :
    Spells (first ++ second) key payload := by
  have rest := hpayload.finds first.length []
  rw [List.append_nil] at rest
  refine ⟨⟨first.length, second⟩, _, ?_, rest, rfl⟩
  have whole := hkey.finds 0 second
  rw [Nat.zero_add] at whole
  exact whole

/-- The bytes of a field are those of its key and then those of its payload. -/
lemma parts (h : Spells bytes key payload) : ∃ first second, bytes = first ++ second ∧
    Reader.key.Takes first key ∧ (Reader.payload key.type).Takes second payload := by
  obtain ⟨c, c', hkey, hpayload, hend⟩ := h
  obtain ⟨first, hfirst, key⟩ := Reader.key_local _ _ _ hkey
  obtain ⟨second, hsecond, payload⟩ := Reader.payload_local _ _ _ _ hpayload
  refine ⟨first, second, ?_, key, payload⟩
  rw [hend, List.append_nil] at hsecond
  rw [← hsecond]
  exact hfirst

/-- Where a key and its payload were read, the bytes that were passed are those of a field. -/
lemma of_read {c c₁ c₂ : Cursor} (hkey : Reader.key c = .ok key c₁)
    (hpayload : Reader.payload key.type c₁ = .ok payload c₂) :
    ∃ bytes, c.ahead = bytes ++ c₂.ahead ∧ Spells bytes key payload := by
  obtain ⟨first, hfirst, key⟩ := Reader.key_local _ _ _ hkey
  obtain ⟨second, hsecond, payload⟩ := Reader.payload_local _ _ _ _ hpayload
  exact ⟨first ++ second, by rw [hfirst, hsecond, List.append_assoc], of_takes key payload⟩

/-- The payload of a field has the layout that its key tells. -/
lemma type_eq (h : Spells bytes key payload) : payload.type = key.type := by
  obtain ⟨c, c', -, h, -⟩ := h
  cases htype : key.type <;> rw [htype] at h <;> obtain ⟨_, _, -, h⟩ := Reader.bind_eq_ok h <;>
    cases h <;> rfl

/-- In front of the bytes of a field, it is the first field, whatever follows. -/
theorem fields_append (h : Spells bytes key payload) (position : Nat) (rest : List UInt8) :
    ∃ offset, Cursor.fields ⟨position, bytes ++ rest⟩ =
      .whole key offset payload :: Cursor.fields ⟨position + bytes.length, rest⟩ := by
  obtain ⟨first, second, rfl, hkey, hpayload⟩ := h.parts
  refine ⟨position + first.length, ?_⟩
  rw [List.append_assoc, List.length_append, ← Nat.add_assoc]
  exact Cursor.fields_of_payload (hkey.finds _ _) (hpayload.finds _ _)

/-- In front of a part of the bytes of a field there is a fault, and it is that bytes are missing.
The key is that of the field or is not there. -/
theorem fields_of_part (h : Spells bytes key payload) {part : List UInt8} (within : part <+: bytes)
    (proper : part ≠ bytes) (hne : part ≠ []) (position : Nat) : ∃ e : WireError, e.isEarlyEnd ∧
      (Cursor.fields ⟨position, part⟩ = [.unreadable e] ∨
        Cursor.fields ⟨position, part⟩ = [.broken key e]) := by
  obtain ⟨first, second, rfl, hkey, hpayload⟩ := h.parts
  rcases prefix_append_cases within proper with ⟨within, proper⟩ | ⟨part, rfl, within, proper⟩
  · obtain ⟨e, c, hrun, early⟩ := hkey.misses position part within proper
    refine ⟨e, early, .inl (Cursor.fields_of_key_error ?_ hrun)⟩
    rw [Cursor.hasMore, Bool.not_eq_true', List.isEmpty_eq_false_iff]
    exact hne
  · obtain ⟨e, c, hrun, early⟩ := hpayload.misses (position + first.length) part within proper
    exact ⟨e, early, .inr (Cursor.fields_of_payload_error (hkey.finds _ _) hrun)⟩

end Spells

end ClassMetadata
