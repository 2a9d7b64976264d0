import ClassMetadata.Proofs.Packing.RoundTrip

/-!
# The strings that packing makes

How packed characters are laid out in strings, and how their text begins.

* `length_of_mem_dropLast_pieces`: of the pieces of a list only the last may be short, and none is
  empty (`ne_nil_of_mem_pieces`).
* `head?_encodeChars_septets` is the first character that septets are written with.
* `encode_layout` puts this together with the round trip.
-/

namespace ClassMetadata.Packing

variable {α : Type}

/-! ## Full pieces -/

/-- No piece is empty. -/
lemma ne_nil_of_mem_pieces {size : Nat} (hsize : 0 < size) {l piece : List α}
    (h : piece ∈ pieces size l) : piece ≠ [] := by
  induction l using pieces_induction hsize with
  | nil =>
    rw [pieces_nil] at h
    cases h
  | step l hl ih =>
    rw [pieces_cons hsize hl] at h
    rcases List.mem_cons.1 h with rfl | h
    · intro e
      rcases List.take_eq_nil_iff.1 e with zero | none
      · omega
      · exact hl none
    · exact ih h

/-- Every piece but the last is full. -/
lemma length_of_mem_dropLast_pieces {size : Nat} (hsize : 0 < size) {l piece : List α}
    (h : piece ∈ (pieces size l).dropLast) : piece.length = size := by
  induction l using pieces_induction hsize with
  | nil =>
    rw [pieces_nil] at h
    cases h
  | step l hl ih =>
    rw [pieces_cons hsize hl] at h
    by_cases last : l.drop size = []
    · rw [last, pieces_nil] at h
      cases h
    · -- there are members behind the first piece, and so it has all it can hold
      have long : size < l.length := by
        rw [List.drop_eq_nil_iff] at last
        omega
      have others : pieces size (l.drop size) ≠ [] := by
        rw [pieces_cons hsize last]
        exact List.cons_ne_nil _ _
      rw [List.dropLast_cons_of_ne_nil others] at h
      rcases List.mem_cons.1 h with rfl | h
      · rw [List.length_take]
        omega
      · exact ih h

/-! ## The first character -/

/-- The first unit has the low seven bits of the first byte. -/
lemma head?_septetsOfBytes (bytes : List UInt8) :
    (septetsOfBytes bytes).head? = bytes.head?.map (·.toNat % 128) := by
  cases bytes with
  | nil =>
    rw [septetsOfBytes_eq, List.flatMap_nil, pieces_nil]
    rfl
  | cons b bytes =>
    have nonempty : (b :: bytes).flatMap bitsOfByte ≠ [] := by
      rw [List.flatMap_cons]
      exact List.cons_ne_nil _ _
    have low : ((b :: bytes).flatMap bitsOfByte).take 7 = Bits.ofNat 7 b.toNat := by
      rw [List.flatMap_cons]
      rfl
    rw [septetsOfBytes_eq, pieces_cons (by decide) nonempty, low, List.map_cons, Bits.toNat_ofNat]
    rfl

/-- A unit is written like the mark of the other scheme when all of its bits are ones. -/
lemma septetChar_eq_mark_iff {unit : Nat} (h : unit < 128) :
    septetChar unit = bytewiseMark ↔ unit = 127 := by
  have back := (septet_septetChar h).2
  refine ⟨fun e => ?_, fun e => by rw [e]; rfl⟩
  rw [e] at back
  exact back.symm

/-- No unit is written like the mark of septets. -/
lemma septetChar_ne_septetMark {unit : Nat} (h : unit < 128) : septetChar unit ≠ septetMark := by
  intro e
  have small := (septet_septetChar h).1
  rw [e] at small
  exact absurd small (by decide)

/-- The first unit is written with the low seven bits of the first byte. -/
lemma head?_septetChars (bytes : List UInt8) : ((septetsOfBytes bytes).map septetChar).head? =
    bytes.head?.map fun b => septetChar (b.toNat % 128) := by
  rw [List.head?_map, head?_septetsOfBytes, Option.map_map]
  rfl

/-- Septets have a mark in front when the low seven bits of the first byte are all ones; otherwise they
begin with the first unit. -/
lemma head?_encodeChars_septets (bytes : List UInt8) :
    (encodeChars .septets bytes).head? = bytes.head?.map fun b =>
      if b.toNat % 128 = 127 then septetMark else septetChar (b.toNat % 128) := by
  have first := head?_septetChars bytes
  rw [encodeChars]
  cases bytes with
  | nil =>
    have unmarked : none ≠ some bytewiseMark := (Option.some_ne_none _).symm
    rw [if_neg (by rw [first]; exact unmarked), first]
    rfl
  | cons b bytes =>
    have small : b.toNat % 128 < 128 := Nat.mod_lt _ (by decide)
    rw [List.head?_cons, Option.map_some] at first ⊢
    by_cases ones : b.toNat % 128 = 127
    · rw [if_pos (by rw [first, (septetChar_eq_mark_iff small).2 ones]), if_pos ones]
      rfl
    · have unmarked : septetChar (b.toNat % 128) ≠ bytewiseMark := fun e =>
        ones ((septetChar_eq_mark_iff small).1 e)
      rw [if_neg (by rw [first, Option.some_inj]; exact unmarked), if_neg ones, first]

/-- Text of septets never begins like bytewise text. -/
lemma head?_encodeChars_septets_ne (bytes : List UInt8) :
    (encodeChars .septets bytes).head? ≠ some bytewiseMark := by
  rw [head?_encodeChars_septets]
  cases bytes with
  | nil => exact (Option.some_ne_none _).symm
  | cons b bytes =>
    have small : b.toNat % 128 < 128 := Nat.mod_lt _ (by decide)
    rw [List.head?_cons, Option.map_some, Ne, Option.some_inj]
    by_cases ones : b.toNat % 128 = 127
    · rw [if_pos ones]
      decide
    · rw [if_neg ones]
      exact fun e => ones ((septetChar_eq_mark_iff small).1 e)

/-- Text of septets has a mark exactly when the low seven bits of a first byte are all ones. -/
lemma head?_encodeChars_septets_eq_iff (bytes : List UInt8) :
    (encodeChars .septets bytes).head? = some septetMark ↔
      ∃ b rest, bytes = b :: rest ∧ b.toNat % 128 = 127 := by
  rw [head?_encodeChars_septets]
  cases bytes with
  | nil =>
    refine ⟨fun e => absurd e (Option.some_ne_none _).symm, ?_⟩
    rintro ⟨_, _, e, -⟩
    cases e
  | cons b bytes =>
    have small : b.toNat % 128 < 128 := Nat.mod_lt _ (by decide)
    rw [List.head?_cons, Option.map_some, Option.some_inj]
    by_cases ones : b.toNat % 128 = 127
    · rw [if_pos ones]
      exact ⟨fun _ => ⟨b, bytes, rfl, ones⟩, fun _ => rfl⟩
    · rw [if_neg ones]
      -- no unit is written like the mark, which lies outside what units are written as
      refine ⟨fun e => absurd e (septetChar_ne_septetMark small), ?_⟩
      rintro ⟨_, _, e, h⟩
      cases e
      exact absurd h ones

/-! ## Strings -/

section

variable {scheme : Scheme} {bytes : List UInt8} {string : String}

/-- No string is empty. -/
lemma ne_empty_of_mem_encode (h : string ∈ encode scheme bytes) : string ≠ "" := by
  obtain ⟨piece, hpiece, rfl⟩ := List.mem_map.1 h
  intro e
  have chars := congrArg String.toList e
  rw [String.toList_ofList] at chars
  exact ne_nil_of_mem_pieces (by decide) hpiece chars

/-- No string is longer than it may be. -/
lemma length_le_of_mem_encode (h : string ∈ encode scheme bytes) : string.length ≤ 32767 := by
  obtain ⟨piece, hpiece, rfl⟩ := List.mem_map.1 h
  rw [String.length_ofList]
  exact length_le_of_mem_pieces (by decide) hpiece

/-- Every string but the last is as long as it may be. -/
lemma length_of_mem_dropLast_encode (h : string ∈ (encode scheme bytes).dropLast) :
    string.length = 32767 := by
  rw [encode, ← List.map_dropLast] at h
  obtain ⟨piece, hpiece, rfl⟩ := List.mem_map.1 h
  rw [String.length_ofList]
  exact length_of_mem_dropLast_pieces (by decide) hpiece

end

/-- What is packed is unpacked. No string is empty, and all but the last have as many characters as a
string may have. Bytewise text begins with its mark; text of septets never does, and it begins with a
mark of its own exactly when the low seven bits of a first byte are all ones. -/
theorem encode_layout (bytes : List UInt8) :
    (∀ scheme, decode (encode scheme bytes) = .ok bytes ∧
      (∀ string ∈ encode scheme bytes, string ≠ "" ∧ string.length ≤ 32767) ∧
      ∀ string ∈ (encode scheme bytes).dropLast, string.length = 32767) ∧
    ((encode .bytewise bytes).flatMap String.toList).head? = some '\x00' ∧
    ((encode .septets bytes).flatMap String.toList).head? ≠ some '\x00' ∧
    (((encode .septets bytes).flatMap String.toList).head? = some '\uffff' ↔
      ∃ b rest, bytes = b :: rest ∧ b.toNat % 128 = 127) := by
  refine ⟨fun scheme => ⟨decode_encode scheme bytes, fun string h => ?_, fun string h => ?_⟩,
    ?_, ?_, ?_⟩
  · exact ⟨ne_empty_of_mem_encode h, length_le_of_mem_encode h⟩
  · exact length_of_mem_dropLast_encode h
  · rw [chars_encode]
    rfl
  · rw [chars_encode]
    exact head?_encodeChars_septets_ne bytes
  · rw [chars_encode]
    exact head?_encodeChars_septets_eq_iff bytes

end ClassMetadata.Packing
