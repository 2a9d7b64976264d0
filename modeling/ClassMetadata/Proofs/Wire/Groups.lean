import Mathlib.Data.Nat.Digits.Defs
import Mathlib.Data.Nat.Digits.Lemmas
import ClassMetadata.Proofs.Wire.RoundTrip

/-!
# Numbers in groups

Which bytes are read as a number, and as which one, told by the bytes of the buffer alone.

* `Varint.StandsAt`, `Varint.TooLongAt` and `Varint.CutShortAt` are what can be found at a place, and
  one of them is (`Varint.found_at`). What the reader does follows from which one it is
  (`Varint.groups_append` goes through the groups that are followed by others).
* `Varint.padded` are the groups of a number with zeros behind them. Bytes that are read as a number
  are among these (`Varint.eq_padded`), and they are no shorter than what is written for it.
* `Varint.read_by_grammar` puts both together.
-/

namespace ClassMetadata

/-- The cursor at a position in a buffer. -/
def Cursor.at (buffer : List UInt8) (position : Nat) : Cursor := ⟨position, buffer.drop position⟩

namespace Varint

/-- The byte at this place says that another group follows. -/
def GoesOnAt (buffer : List UInt8) (i : Nat) : Prop := ∃ b, buffer[i]? = some b ∧ 128 ≤ b.toNat

/-- A number of so many groups stands at this place. Each byte but the last says that another group
follows; there are at most ten groups, and a tenth is zero or one. -/
structure StandsAt (buffer : List UInt8) (start count : Nat) : Prop where
  pos : 1 ≤ count
  le_ten : count ≤ 10
  more : ∀ i < count - 1, GoesOnAt buffer (start + i)
  last : ∃ b, buffer[start + (count - 1)]? = some b ∧ b.toNat < 128 ∧ (count = 10 → b.toNat ≤ 1)

/-- At this place there are ten groups of which the tenth is larger than one, or there is an
eleventh. -/
inductive TooLongAt (buffer : List UInt8) (start : Nat) : Prop where
  | tenth {b : UInt8} (more : ∀ i < 9, GoesOnAt buffer (start + i))
    (there : buffer[start + 9]? = some b) (large : 1 < b.toNat % 128)
  | eleventh (more : ∀ i < 10, GoesOnAt buffer (start + i)) (there : start + 10 < buffer.length)

/-- The buffer ends before the number at this place does, and before it is too long. -/
structure CutShortAt (buffer : List UInt8) (start : Nat) : Prop where
  more : ∀ i, start + i < buffer.length → GoesOnAt buffer (start + i)
  few : buffer.length ≤ start + 10
  tenth : ∀ b, buffer[start + 9]? = some b → b.toNat % 128 ≤ 1

/-- The number whose digits to the base 128 are so many groups at this place, the lowest first. -/
def valueAt (buffer : List UInt8) (start count : Nat) : Nat :=
  Nat.ofDigits 128 (((buffer.drop start).take count).map fun b => b.toNat % 128)

variable {buffer : List UInt8} {start count n : Nat} {b : UInt8}

/-- A byte stands in the buffer at the places that the buffer has. -/
lemma lt_length_of_getElem? {i : Nat} (h : buffer[i]? = some b) : i < buffer.length :=
  (List.getElem?_eq_some_iff.1 h).1

/-- One of three things is found at every place. -/
lemma found_at (h : start ≤ buffer.length) :
    (∃ count, StandsAt buffer start count) ∨ TooLongAt buffer start ∨ CutShortAt buffer start := by
  classical
  have stops : ∃ n, ¬ GoesOnAt buffer (start + n) := by
    refine ⟨buffer.length - start, fun ⟨b, hb, _⟩ => ?_⟩
    have := lt_length_of_getElem? hb
    omega
  -- the groups before the first byte that does not go on
  obtain ⟨n, stop, more⟩ : ∃ n, ¬ GoesOnAt buffer (start + n) ∧
      ∀ i < n, GoesOnAt buffer (start + i) :=
    ⟨Nat.find stops, Nat.find_spec stops, fun i hi => not_not.1 (Nat.find_min stops hi)⟩
  by_cases ten : 10 ≤ n
  · obtain ⟨b, hb, -⟩ := more 9 (by omega)
    have there := lt_length_of_getElem? hb
    by_cases large : 1 < b.toNat % 128
    · exact .inr (.inl (.tenth (fun i hi => more i (by omega)) hb large))
    · by_cases eleventh : start + 10 < buffer.length
      · exact .inr (.inl (.eleventh (fun i hi => more i (by omega)) eleventh))
      · refine .inr (.inr ⟨fun i hi => more i (by omega), by omega, fun b' hb' => ?_⟩)
        rw [hb] at hb'
        cases hb'
        omega
  · cases hb : buffer[start + n]? with
    | none =>
      rw [List.getElem?_eq_none_iff] at hb
      refine .inr (.inr ⟨fun i hi => more i (by omega), by omega, fun b hb' => ?_⟩)
      have := lt_length_of_getElem? hb'
      omega
    | some b =>
      have last : b.toNat < 128 := Nat.lt_of_not_le fun more => stop ⟨b, hb, more⟩
      by_cases fits : n = 9 → b.toNat ≤ 1
      · refine .inl ⟨n + 1, by omega, by omega, fun i hi => more i hi, b, hb, last, fun e => ?_⟩
        exact fits (by omega)
      · obtain ⟨rfl, large⟩ := Classical.not_imp.1 fits
        exact .inr (.inl (.tenth more hb (by omega)))

/-! ## What the reader finds -/

/-- A group is no excess before the tenth, and the tenth is none up to one. -/
lemma exceeds_eq_false_iff {i : Nat} :
    exceeds i b = false ↔ i < 9 ∨ i = 9 ∧ group b ≤ 1 := by
  simp only [exceeds, Bool.or_eq_false_iff, Bool.and_eq_false_iff, decide_eq_false_iff_not,
    beq_eq_false_iff_ne]
  omega

/-- One more group counts with its place. -/
lemma valueAt_succ (h : buffer[start + n]? = some b) :
    valueAt buffer start (n + 1) = valueAt buffer start n + 128 ^ n * group b := by
  have there := lt_length_of_getElem? h
  have length : ((buffer.drop start).take n).length = n := by
    rw [List.length_take, List.length_drop]
    omega
  rw [← List.getElem?_drop] at h
  rw [valueAt, List.take_add_one, h, List.map_append, Nat.ofDigits_append, List.length_map, length]
  simp [valueAt, group]

/-- Groups that are followed by others have been read, and the reader goes on behind them. -/
lemma groups_append (more : ∀ i < n, GoesOnAt buffer (start + i))
    (fits : ∀ i < n, ∀ b, buffer[start + i]? = some b → exceeds i b = false) :
    Reader.groups start 0 (buffer.drop start) =
      match Reader.groups start n (buffer.drop (start + n)) with
      | .ok high c => .ok (valueAt buffer start n + 128 ^ n * high) c
      | .error e c => .error e c := by
  induction n with
  | zero =>
    rw [Nat.add_zero]
    cases Reader.groups start 0 (buffer.drop start) <;> simp [valueAt]
  | succ n ih =>
    obtain ⟨b, hb, goesOn⟩ := more n (Nat.lt_succ_self n)
    obtain ⟨there, at_eq⟩ := List.getElem?_eq_some_iff.1 hb
    have continues : continues b = true := decide_eq_true goesOn
    rw [ih (fun i hi => more i (by omega)) (fun i hi => fits i (by omega)),
      List.drop_eq_getElem_cons there, at_eq, Reader.groups, fits n (Nat.lt_succ_self n) b hb,
      continues, valueAt_succ hb, Nat.add_assoc start n 1]
    cases Reader.groups start (n + 1) (buffer.drop (start + (n + 1))) with
    | ok high c =>
      show EStateM.Result.ok (_ + 128 ^ n * (group b + 128 * high)) c = .ok (_ + _ + _) c
      congr 1
      ring
    | error e c => rfl

namespace StandsAt

/-- Of the groups of a number the last is read last. -/
lemma exists_last (h : StandsAt buffer start count) : ∃ n b, count = n + 1 ∧
    buffer[start + n]? = some b ∧ b.toNat < 128 ∧ n ≤ 9 ∧ (n = 9 → b.toNat ≤ 1) ∧
      ∀ i < n, GoesOnAt buffer (start + i) := by
  obtain ⟨b, hb, last, tenth⟩ := h.last
  have pos := h.pos
  have few := h.le_ten
  exact ⟨count - 1, b, by omega, hb, last, by omega, fun e => tenth (by omega), h.more⟩

/-- Ten groups with a tenth of at most one are a number of 64 bits. -/
lemma valueAt_lt (h : StandsAt buffer start count) : valueAt buffer start count < 2 ^ 64 := by
  obtain ⟨n, b, rfl, hb, last, few, tenth, -⟩ := h.exists_last
  have digits : ∀ d ∈ ((buffer.drop start).take n).map fun b => b.toNat % 128, d < 128 := by
    rw [List.forall_mem_map]
    exact fun b _ => Nat.mod_lt _ (by decide)
  have high : valueAt buffer start n < 128 ^ n :=
    (Nat.ofDigits_lt_base_pow_length (by decide) digits).trans_le <|
      Nat.pow_le_pow_right (by decide) (by rw [List.length_map]; exact List.length_take_le _ _)
  rw [valueAt_succ hb, group, Nat.mod_eq_of_lt last]
  by_cases ten : n = 9
  · subst ten
    have := tenth rfl
    omega
  · calc valueAt buffer start n + 128 ^ n * b.toNat
        < 128 ^ n + 128 ^ n * b.toNat := Nat.add_lt_add_right high _
      _ = 128 ^ n * (b.toNat + 1) := by rw [Nat.mul_succ, Nat.add_comm]
      _ ≤ 128 ^ 8 * 128 := Nat.mul_le_mul (Nat.pow_le_pow_right (by decide) (by omega)) last
      _ ≤ 2 ^ 64 := by decide

/-- The number that stands at a place is read. -/
lemma varint_eq (h : StandsAt buffer start count) : Reader.varint (.at buffer start) =
    .ok (UInt64.ofNat (valueAt buffer start count)) (.at buffer (start + count)) := by
  obtain ⟨n, b, rfl, hb, last, few, tenth, more⟩ := h.exists_last
  obtain ⟨there, at_eq⟩ := List.getElem?_eq_some_iff.1 hb
  have fits : exceeds n b = false := by
    have low : group b ≤ b.toNat := Nat.mod_le _ _
    exact exceeds_eq_false_iff.2 (by omega)
  have ends : continues b = false := decide_eq_false (Nat.not_le_of_lt last)
  have read := groups_append more fun i hi b _ => exceeds_eq_false_iff.2 (.inl (by omega))
  rw [List.drop_eq_getElem_cons there, at_eq, Reader.groups, fits, ends] at read
  rw [Reader.varint, Cursor.at, read, valueAt_succ hb]
  rfl

end StandsAt

/-- A group that exceeds the room for it is refused where the number starts. -/
lemma varint_of_exceeds (hb : buffer[start + n]? = some b) (high : exceeds n b = true)
    (more : ∀ i < n, GoesOnAt buffer (start + i))
    (fits : ∀ i < n, ∀ b, buffer[start + i]? = some b → exceeds i b = false) :
    ∃ c, Reader.varint (.at buffer start) = .error (.varintOverflow start) c := by
  obtain ⟨there, at_eq⟩ := List.getElem?_eq_some_iff.1 hb
  have read := groups_append more fits
  rw [List.drop_eq_getElem_cons there, at_eq, Reader.groups, high] at read
  refine ⟨⟨start + n + 1, buffer.drop (start + n + 1)⟩, ?_⟩
  rw [Reader.varint, Cursor.at, read]
  rfl

/-- Behind the tenth group every one is an excess. -/
lemma exceeds_of_lt {i : Nat} (h : 9 < i) : exceeds i b = true := by
  rw [exceeds, decide_eq_true h, Bool.true_or]

/-- A number that is too long is reported at its start. -/
lemma TooLongAt.varint_eq (h : TooLongAt buffer start) :
    ∃ c, Reader.varint (.at buffer start) = .error (.varintOverflow start) c := by
  have tenth {b : UInt8} (more : ∀ i < 9, GoesOnAt buffer (start + i))
      (there : buffer[start + 9]? = some b) (large : 1 < b.toNat % 128) :
      ∃ c, Reader.varint (.at buffer start) = .error (.varintOverflow start) c := by
    have high : exceeds 9 b = true := decide_eq_true large
    exact varint_of_exceeds there high more fun i hi b _ => exceeds_eq_false_iff.2 (.inl hi)
  cases h with
  | tenth more there large => exact tenth more there large
  | eleventh more there =>
    obtain ⟨b, hb, -⟩ := more 9 (by decide)
    by_cases large : 1 < b.toNat % 128
    · exact tenth (fun i hi => more i (by omega)) hb large
    · refine varint_of_exceeds (List.getElem?_eq_getElem there) (exceeds_of_lt (by decide)) more ?_
      intro i hi b' hb'
      by_cases ten : i = 9
      · subst ten
        rw [hb] at hb'
        cases hb'
        exact exceeds_eq_false_iff.2 (.inr ⟨rfl, Nat.le_of_not_lt large⟩)
      · exact exceeds_eq_false_iff.2 (.inl (by omega))

/-- Where the buffer ends too early, its end is reported. -/
lemma CutShortAt.varint_eq (h : CutShortAt buffer start) (hstart : start ≤ buffer.length) :
    ∃ c, Reader.varint (.at buffer start) = .error (.unexpectedEnd buffer.length) c := by
  obtain ⟨n, hn⟩ := Nat.exists_eq_add_of_le hstart
  have few := h.few
  have read := groups_append (n := n)
    (fun i hi => h.more i (by omega)) fun i hi b hb => by
      by_cases ten : i = 9
      · subst ten
        exact exceeds_eq_false_iff.2 (.inr ⟨rfl, h.tenth b hb⟩)
      · exact exceeds_eq_false_iff.2 (.inl (by omega))
  rw [List.drop_eq_nil_of_le (Nat.le_of_eq hn), Reader.groups, ← hn] at read
  refine ⟨⟨buffer.length, []⟩, ?_⟩
  rw [Reader.varint, Cursor.at, read]

/-- A number is read when one stands there. -/
lemma varint_eq_ok_iff (h : start ≤ buffer.length) {v : UInt64} {c : Cursor} :
    Reader.varint (.at buffer start) = .ok v c ↔ ∃ count, StandsAt buffer start count ∧
      v.toNat = valueAt buffer start count ∧ c = .at buffer (start + count) := by
  refine ⟨fun read => ?_, ?_⟩
  · rcases found_at h with ⟨count, stands⟩ | tooLong | cutShort
    · rw [stands.varint_eq] at read
      cases read
      refine ⟨count, stands, ?_, rfl⟩
      rw [UInt64.toNat_ofNat', Nat.mod_eq_of_lt stands.valueAt_lt]
    · obtain ⟨c', refused⟩ := tooLong.varint_eq
      rw [refused] at read
      cases read
    · obtain ⟨c', refused⟩ := cutShort.varint_eq h
      rw [refused] at read
      cases read
  · rintro ⟨count, stands, value, rfl⟩
    rw [stands.varint_eq, ← value, UInt64.ofNat_toNat]

/-- A number fails when it is too long or is cut short. -/
lemma varint_eq_error_iff (h : start ≤ buffer.length) {e : WireError} :
    (∃ c, Reader.varint (.at buffer start) = .error e c) ↔
      TooLongAt buffer start ∧ e = .varintOverflow start ∨
        CutShortAt buffer start ∧ e = .unexpectedEnd buffer.length := by
  constructor
  · rintro ⟨c, refused⟩
    rcases found_at h with ⟨count, stands⟩ | tooLong | cutShort
    · rw [stands.varint_eq] at refused
      cases refused
    · obtain ⟨c', overflow⟩ := tooLong.varint_eq
      rw [overflow] at refused
      cases refused
      exact .inl ⟨tooLong, rfl⟩
    · obtain ⟨c', ended⟩ := cutShort.varint_eq h
      rw [ended] at refused
      cases refused
      exact .inr ⟨cutShort, rfl⟩
  · rintro (⟨tooLong, rfl⟩ | ⟨cutShort, rfl⟩)
    · exact tooLong.varint_eq
    · exact cutShort.varint_eq h

/-! ## Zero groups -/

/-- Groups as bytes: every group but the last says that another one follows. -/
def ofGroups : List Nat → List UInt8
  | [] => []
  | [g] => [UInt8.ofNat g]
  | g :: g' :: gs => UInt8.ofNat (g + 128) :: ofGroups (g' :: gs)

/-- The groups of a number in its shortest form. -/
def groupsOf (v : Nat) : List Nat := (encode v).map group

/-- The shortest form of a number, with zero groups put behind its groups. -/
def padded (v zeros : Nat) : List UInt8 := ofGroups (groupsOf v ++ List.replicate zeros 0)

/-- Every group but the last has a mark that another one follows. -/
lemma ofGroups_cons (g : Nat) {gs : List Nat} (h : gs ≠ []) :
    ofGroups (g :: gs) = UInt8.ofNat (g + 128) :: ofGroups gs := by
  cases gs with
  | nil => contradiction
  | cons g' gs => rfl

/-- A number has a group. -/
lemma groupsOf_ne_nil (v : Nat) : groupsOf v ≠ [] := by
  rw [groupsOf, Ne, List.map_eq_nil_iff]
  exact encode_ne_nil v

/-- A number below the size of a group is one group. -/
lemma groupsOf_of_lt {v : Nat} (h : v < 128) : groupsOf v = [v] := by
  rw [groupsOf, encode, if_pos h, List.map_singleton, (Reader.group_low h).1]

/-- A number of more groups is its low seven bits and then the rest. -/
lemma groupsOf_of_ge {v : Nat} (h : 128 ≤ v) : groupsOf v = v % 128 :: groupsOf (v / 128) := by
  rw [groupsOf, encode, if_neg (Nat.not_lt.2 h), List.map_cons, (Reader.group_high v).1]
  rfl

/-- No zero group makes the shortest form. -/
lemma padded_zero (v : Nat) : padded v 0 = encode v := by
  rw [padded, List.replicate_zero, List.append_nil]
  induction v using Nat.strongRecOn with
  | ind v ih =>
    by_cases small : v < 128
    · rw [groupsOf_of_lt small, encode, if_pos small]
      rfl
    · rw [groupsOf_of_ge (Nat.le_of_not_lt small), ofGroups_cons _ (groupsOf_ne_nil _),
        ih (v / 128) (by omega), encode.eq_def v, if_neg small]

/-- The groups of a number are its digits. -/
lemma ofDigits_groupsOf (v : Nat) : Nat.ofDigits 128 (groupsOf v) = v := by
  induction v using Nat.strongRecOn with
  | ind v ih =>
    by_cases small : v < 128
    · rw [groupsOf_of_lt small, Nat.ofDigits_singleton]
    · rw [groupsOf_of_ge (Nat.le_of_not_lt small), Nat.ofDigits_cons, ih (v / 128) (by omega)]
      exact Nat.mod_add_div v 128

/-- Digits are the groups of their number and zeros behind them. -/
lemma exists_zeros {gs : List Nat} (hne : gs ≠ []) (h : ∀ g ∈ gs, g < 128) :
    ∃ zeros, gs = groupsOf (Nat.ofDigits 128 gs) ++ List.replicate zeros 0 := by
  induction gs with
  | nil => contradiction
  | cons g gs ih =>
    obtain ⟨hg, hgs⟩ := List.forall_mem_cons.1 h
    by_cases single : gs = []
    · subst single
      refine ⟨0, ?_⟩
      rw [Nat.ofDigits_singleton, groupsOf_of_lt hg]
      rfl
    · obtain ⟨zeros, eq⟩ := ih single hgs
      rw [Nat.ofDigits_cons]
      generalize Nat.ofDigits 128 gs = high at eq
      by_cases none : high = 0
      · -- there are only zeros behind the first group
        subst none
        refine ⟨zeros + 1, ?_⟩
        rw [Nat.mul_zero, Nat.add_zero, groupsOf_of_lt hg, eq, groupsOf_of_lt (by decide)]
        rfl
      · refine ⟨zeros, ?_⟩
        have low : (g + 128 * high) % 128 = g := by omega
        have rest : (g + 128 * high) / 128 = high := by omega
        rw [groupsOf_of_ge (by omega), low, rest, List.cons_append, ← eq]

/-- Of these bytes the last one and no other says that no group follows. -/
def Ends (bytes : List UInt8) : Prop :=
  bytes ≠ [] ∧ ∀ i b, bytes[i]? = some b → (128 ≤ b.toNat ↔ i + 1 < bytes.length)

/-- Bytes are told by their groups. -/
lemma Ends.ofGroups_eq {bytes : List UInt8} (h : Ends bytes) :
    ofGroups (bytes.map fun b => b.toNat % 128) = bytes := by
  obtain ⟨-, h⟩ := h
  induction bytes with
  | nil => rfl
  | cons b bytes ih =>
    have first := h 0 b rfl
    cases bytes with
    | nil =>
      have last : b.toNat < 128 := by simpa using first
      rw [List.map_singleton, ofGroups, Nat.mod_eq_of_lt last, UInt8.ofNat_toNat]
    | cons b' bytes =>
      have more : 128 ≤ b.toNat := first.2 (by simp)
      have same : b.toNat % 128 + 128 = b.toNat := by
        have := b.toNat_lt
        omega
      rw [List.map_cons, ofGroups_cons _ (by simp), same, UInt8.ofNat_toNat, ih]
      intro i c hc
      rw [h (i + 1) c hc, List.length_cons, Nat.add_lt_add_iff_right]

/-- A byte without the mark is a number's end. -/
lemma Ends.singleton {b : UInt8} (h : b.toNat < 128) : Ends [b] := by
  refine ⟨List.cons_ne_nil _ _, fun i c hc => ?_⟩
  obtain ⟨hi, rfl⟩ := List.getElem?_eq_some_iff.1 hc
  rw [List.length_singleton] at hi ⊢
  rw [List.getElem_singleton]
  omega

/-- A byte with the mark puts off the end. -/
lemma Ends.cons {bytes : List UInt8} (h : Ends bytes) {b : UInt8} (hb : 128 ≤ b.toNat) :
    Ends (b :: bytes) := by
  obtain ⟨hne, h⟩ := h
  have := List.length_pos_iff.2 hne
  refine ⟨List.cons_ne_nil _ _, fun i c hc => ?_⟩
  rw [List.length_cons]
  cases i with
  | zero =>
    cases hc
    omega
  | succ i =>
    rw [h i c hc]
    omega

/-- Groups can be told from their bytes. -/
lemma ends_ofGroups {gs : List Nat} (hne : gs ≠ []) (h : ∀ g ∈ gs, g < 128) :
    Ends (ofGroups gs) ∧ (ofGroups gs).map (fun b => b.toNat % 128) = gs := by
  induction gs with
  | nil => contradiction
  | cons g gs ih =>
    obtain ⟨hg, hgs⟩ := List.forall_mem_cons.1 h
    by_cases single : gs = []
    · subst single
      have byte : (UInt8.ofNat g).toNat = g := by
        rw [UInt8.toNat_ofNat']
        omega
      refine ⟨.singleton (by rw [byte]; exact hg), ?_⟩
      rw [ofGroups, List.map_singleton, byte, Nat.mod_eq_of_lt hg]
    · obtain ⟨ends, same⟩ := ih single hgs
      have byte : (UInt8.ofNat (g + 128)).toNat = g + 128 := by
        rw [UInt8.toNat_ofNat']
        omega
      rw [ofGroups_cons g single, List.map_cons, same, byte]
      exact ⟨ends.cons (by rw [byte]; omega), by rw [Nat.add_mod_right, Nat.mod_eq_of_lt hg]⟩

/-- A number takes up the whole of some bytes exactly if they end like one, are ten at most, and have
no tenth larger than one. -/
lemma standsAt_length_iff {bytes : List UInt8} : StandsAt bytes 0 bytes.length ↔
    Ends bytes ∧ bytes.length ≤ 10 ∧ ∀ b, bytes[9]? = some b → b.toNat ≤ 1 := by
  constructor
  · intro h
    obtain ⟨n, b, length, hb, last, few, tenth, more⟩ := h.exists_last
    simp only [Nat.zero_add] at hb more
    refine ⟨⟨List.ne_nil_of_length_pos h.pos, fun i c hc => ?_⟩, h.le_ten, fun c hc => ?_⟩
    · have there := lt_length_of_getElem? hc
      by_cases before : i < n
      · obtain ⟨c', hc', goesOn⟩ := more i before
        rw [hc] at hc'
        cases hc'
        exact ⟨fun _ => by omega, fun _ => goesOn⟩
      · obtain rfl : i = n := by omega
        rw [hb] at hc
        cases hc
        omega
    · have there := lt_length_of_getElem? hc
      obtain rfl : n = 9 := by omega
      rw [hb] at hc
      cases hc
      exact tenth rfl
  · rintro ⟨⟨hne, ends⟩, few, tenth⟩
    have pos := List.length_pos_iff.2 hne
    have byte (i : Nat) (hi : i < bytes.length) : bytes[0 + i]? = some bytes[i] := by
      rw [Nat.zero_add]
      exact List.getElem?_eq_getElem hi
    refine ⟨pos, few, fun i hi => ⟨_, byte i (by omega), ?_⟩, _, byte (bytes.length - 1) (by omega), ?_⟩
    · exact (ends i _ (List.getElem?_eq_getElem (by omega))).2 (by omega)
    · have last := List.getElem?_eq_getElem (l := bytes) (i := bytes.length - 1) (by omega)
      have stops := ends _ _ last
      refine ⟨by omega, fun ten => tenth _ ?_⟩
      rw [← last, ten]

/-- The bytes are read as this number, and nothing is left of them. -/
def ReadAs (bytes : List UInt8) (v : UInt64) : Prop :=
  Reader.varint (.ofBytes bytes) = .ok v ⟨bytes.length, []⟩

/-- Bytes are read as a number when one stands there and they are its groups. -/
lemma readAs_iff {bytes : List UInt8} {v : UInt64} : ReadAs bytes v ↔
    StandsAt bytes 0 bytes.length ∧
      v.toNat = Nat.ofDigits 128 (bytes.map fun b => b.toNat % 128) := by
  have whole : valueAt bytes 0 bytes.length =
      Nat.ofDigits 128 (bytes.map fun b => b.toNat % 128) := by
    rw [valueAt, List.drop_zero, List.take_length]
  have all : (⟨bytes.length, []⟩ : Cursor) = .at bytes bytes.length := by
    rw [Cursor.at, List.drop_length]
  rw [← whole, ReadAs, all]
  refine (varint_eq_ok_iff (Nat.zero_le bytes.length)).trans ⟨?_, fun ⟨stands, value⟩ => ?_⟩
  · rintro ⟨count, stands, value, same⟩
    have length : bytes.length = 0 + count := congrArg Cursor.position same
    rw [Nat.zero_add] at length
    subst length
    exact ⟨stands, value⟩
  · exact ⟨_, stands, value, by rw [Nat.zero_add]⟩

/-- Groups are below their size. -/
lemma lt_of_mem_groupsOf {v g : Nat} (h : g ∈ groupsOf v) : g < 128 := by
  obtain ⟨b, -, rfl⟩ := List.mem_map.1 h
  exact Nat.mod_lt _ (by decide)

section

variable (v zeros : Nat)

/-- A number that is padded ends at its last byte, and the padding adds zeros to its groups. -/
lemma ends_padded : Ends (padded v zeros) ∧
    (padded v zeros).map (fun b => b.toNat % 128) = groupsOf v ++ List.replicate zeros 0 := by
  refine ends_ofGroups (List.append_ne_nil_of_left_ne_nil (groupsOf_ne_nil v) _) fun g hg => ?_
  rcases List.mem_append.1 hg with digit | zero
  · exact lt_of_mem_groupsOf digit
  · rw [List.eq_of_mem_replicate zero]
    decide

/-- The padding counts byte by byte. -/
lemma length_padded : (padded v zeros).length = (encode v).length + zeros := by
  have length := congrArg List.length (ends_padded v zeros).2
  rw [List.length_map, List.length_append, List.length_replicate, groupsOf, List.length_map] at length
  exact length

end

/-- Bytes that are read as a number are its groups with zero groups behind them. -/
lemma ReadAs.eq_padded {bytes : List UInt8} {v : UInt64} (h : ReadAs bytes v) :
    ∃ zeros, bytes = padded v.toNat zeros := by
  obtain ⟨stands, value⟩ := readAs_iff.1 h
  obtain ⟨ends, -, -⟩ := standsAt_length_iff.1 stands
  have nonempty : bytes.map (fun b => b.toNat % 128) ≠ [] := mt List.map_eq_nil_iff.1 ends.1
  have digits : ∀ g ∈ bytes.map fun b => b.toNat % 128, g < 128 := by
    rw [List.forall_mem_map]
    exact fun b _ => Nat.mod_lt _ (by decide)
  obtain ⟨zeros, groups⟩ := exists_zeros nonempty digits
  refine ⟨zeros, ?_⟩
  rw [padded, value, ← groups, ends.ofGroups_eq]

/-- Zero groups do not change the number, as long as there are no more than ten groups. -/
lemma readAs_padded {v : UInt64} {zeros : Nat} (h : (padded v.toNat zeros).length ≤ 10) :
    ReadAs (padded v.toNat zeros) v := by
  obtain ⟨ends, groups⟩ := ends_padded v.toNat zeros
  have value : v.toNat =
      Nat.ofDigits 128 ((padded v.toNat zeros).map fun b => b.toNat % 128) := by
    rw [groups, Nat.ofDigits_append_replicate_zero, ofDigits_groupsOf]
  refine readAs_iff.2 ⟨standsAt_length_iff.2 ⟨ends, h, fun b hb => ?_⟩, value⟩
  -- a tenth group larger than one would make a number of more than 64 bits
  have there := lt_length_of_getElem? hb
  have length : (padded v.toNat zeros).length = 9 + 1 := by omega
  have last := ends.2 9 b hb
  have tenth : (padded v.toNat zeros)[0 + 9]? = some b := by
    rw [Nat.zero_add]
    exact hb
  have top := valueAt_succ tenth
  rw [valueAt, List.drop_zero, ← length, List.take_length, ← value, group] at top
  have := v.toNat_lt
  omega

/-- What is read as a number. There is one exactly where groups that are followed by others come to an
end in time, and it is their sum with the powers of 128; otherwise the place of the number is reported
if it is too long, and the end of the buffer if that comes first. A number is read from what is
written for it, from nothing shorter and nothing else of that length, and apart from it only from its
groups with zero groups behind them. -/
theorem read_by_grammar :
    (∀ buffer start, start ≤ buffer.length →
      (∀ v c, Reader.varint (.at buffer start) = .ok v c ↔
        ∃ count, StandsAt buffer start count ∧ v.toNat = valueAt buffer start count ∧
          c = .at buffer (start + count)) ∧
      (∀ count, StandsAt buffer start count → valueAt buffer start count < 2 ^ 64) ∧
      ∀ e, (∃ c, Reader.varint (.at buffer start) = .error e c) ↔
        TooLongAt buffer start ∧ e = .varintOverflow start ∨
          CutShortAt buffer start ∧ e = .unexpectedEnd buffer.length) ∧
    ∀ v : UInt64, ReadAs (encode v.toNat) v ∧
      ∀ bytes, (ReadAs bytes v → bytes ≠ encode v.toNat →
          (encode v.toNat).length < bytes.length) ∧
        (ReadAs bytes v ↔ bytes.length ≤ 10 ∧ ∃ zeros, bytes = padded v.toNat zeros) := by
  refine ⟨fun buffer start h => ⟨fun v c => varint_eq_ok_iff h, fun count stands =>
    stands.valueAt_lt, fun e => varint_eq_error_iff h⟩, fun v => ⟨?_, fun bytes => ⟨?_, ?_⟩⟩⟩
  · have read := Reader.varint_finds v 0 []
    rw [List.append_nil, Nat.zero_add] at read
    exact read
  · intro read other
    obtain ⟨zeros, rfl⟩ := read.eq_padded
    rw [length_padded]
    have : zeros ≠ 0 := by
      rintro rfl
      exact other (padded_zero _)
    omega
  · refine ⟨fun read => ⟨?_, read.eq_padded⟩, ?_⟩
    · exact (standsAt_length_iff.1 (readAs_iff.1 read).1).2.1
    · rintro ⟨few, zeros, rfl⟩
      exact readAs_padded few

/-- A zero with two zero groups behind it, in the middle of a buffer and by itself. -/
theorem read_by_grammar_zeroGroups :
    let buffer : List UInt8 := [255, 128, 128, 0, 7]
    1 ≤ buffer.length ∧ StandsAt buffer 1 3 ∧ valueAt buffer 1 3 < 2 ^ 64 ∧
      Reader.varint (.at buffer 1) = .ok 0 (.at buffer 4) ∧
      ReadAs [128, 128, 0] 0 ∧ [128, 128, 0] ≠ encode 0 ∧ (encode 0).length < 3 := by
  intro buffer
  have inside : 1 ≤ buffer.length := by decide
  obtain ⟨found, bounded, -⟩ := read_by_grammar.1 buffer 1 inside
  have read : Reader.varint (.at buffer 1) = .ok 0 (.at buffer 4) := rfl
  obtain ⟨count, stands, -, stop⟩ := (found 0 _).1 read
  have position : 4 = 1 + count := congrArg Cursor.position stop
  obtain rfl : count = 3 := by omega
  have alone : ReadAs [128, 128, 0] 0 := rfl
  have other : [128, 128, 0] ≠ encode 0 := by
    rw [encode]
    decide
  exact ⟨inside, stands, bounded 3 stands, read, alone, other, ((read_by_grammar.2 0).2 _).1 alone other⟩

end Varint

end ClassMetadata
