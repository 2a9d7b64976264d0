import ClassMetadata.Proofs.Packing.Regrouping

/-!
# What is packed is unpacked

Both schemes give back the bytes that they were given.

* `exists_padding`: what is put into units is their bits, save for a few zeros at the end.
* `decode_of_chars`: how packed characters are split into strings plays no part, as long as the first
  string has the first of them.
* `decode_encode` is the round trip.
-/

namespace ClassMetadata.Packing

variable {α : Type}

/-- The pieces of a list make up the list. -/
lemma flatten_pieces {size : Nat} (hsize : 0 < size) (l : List α) : (pieces size l).flatten = l := by
  induction l using pieces_induction hsize with
  | nil => rw [pieces_nil, List.flatten_nil]
  | step l hl ih => rw [pieces_cons hsize hl, List.flatten_cons, ih, List.take_append_drop]

/-- No piece is longer than it may be. -/
lemma length_le_of_mem_pieces {size : Nat} (hsize : 0 < size) {l piece : List α}
    (h : piece ∈ pieces size l) : piece.length ≤ size := by
  induction l using pieces_induction hsize with
  | nil =>
    rw [pieces_nil] at h
    cases h
  | step l hl ih =>
    rw [pieces_cons hsize hl] at h
    rcases List.mem_cons.1 h with rfl | h
    · exact List.length_take_le size l
    · exact ih h

/-! ## Septets -/

namespace Bits

/-- Fewer bits are filled up with zeros. -/
lemma ofNat_toNat_of_le {width : Nat} {bits : List Bool} (h : bits.length ≤ width) :
    ofNat width (toNat bits) = bits ++ List.replicate (width - bits.length) false := by
  induction bits generalizing width with
  | nil =>
    induction width with
    | zero => rfl
    | succ width ih =>
      rw [ofNat, toNat, Nat.zero_div]
      exact congrArg (false :: ·) (ih (Nat.zero_le _))
  | cons b bits ih =>
    obtain ⟨width, rfl⟩ : ∃ n, width = n + 1 := ⟨width - 1, by rw [List.length_cons] at h; omega⟩
    rw [List.length_cons, Nat.add_le_add_iff_right] at h
    have bit := b.toNat_lt
    have low : (b.toNat + 2 * toNat bits) % 2 = b.toNat := by omega
    have high : (b.toNat + 2 * toNat bits) / 2 = toNat bits := by omega
    rw [ofNat, toNat, low, high, ih h, List.length_cons, Nat.add_sub_add_right]
    cases b <;> rfl

end Bits

/-- The units of bits, written out again, are the bits and a few zeros. -/
lemma exists_padding (bits : List Bool) : ∃ padding : List Bool, padding.length < 7 ∧
    ((pieces 7 bits).map Bits.toNat).flatMap (Bits.ofNat 7) = bits ++ padding := by
  induction bits using @pieces_induction Bool 7 (by decide) with
  | nil => exact ⟨[], by decide, by simp⟩
  | step bits hbits ih =>
    obtain ⟨padding, hpadding, h⟩ := ih
    rw [pieces_cons (by decide) hbits, List.map_cons, List.flatMap_cons, h]
    by_cases full : 7 ≤ bits.length
    · -- a whole unit: the padding is that of the rest
      refine ⟨padding, hpadding, ?_⟩
      have whole : (bits.take 7).length = 7 := by
        rw [List.length_take]
        omega
      rw [Bits.ofNat_toNat_of_le (Nat.le_of_eq whole), whole]
      simp [← List.append_assoc]
    · -- the last unit: nothing follows, and it is filled up
      have positive := List.length_pos_iff.2 hbits
      have rest : bits.drop 7 = [] := List.drop_eq_nil_of_le (by omega)
      have all : bits.take 7 = bits := List.take_of_length_le (by omega)
      rw [rest, pieces_nil] at h
      have none : padding = [] := by simpa using h.symm
      refine ⟨List.replicate (7 - bits.length) false, ?_, ?_⟩
      · rw [List.length_replicate]
        omega
      · rw [rest, all, none, Bits.ofNat_toNat_of_le (by omega), List.append_nil, List.append_nil]

/-- Every unit of bytes has seven bits. -/
lemma lt_of_mem_septets {bytes : List UInt8} {unit : Nat} (h : unit ∈ septetsOfBytes bytes) :
    unit < 128 := by
  rw [septetsOfBytes_eq] at h
  obtain ⟨bits, hbits, rfl⟩ := List.mem_map.1 h
  exact Bits.toNat_lt_of_le (length_le_of_mem_pieces (by decide) hbits)

/-- The units of bytes make up the bytes. -/
lemma bytesOfSeptets_septetsOfBytes (bytes : List UInt8) :
    bytesOfSeptets (septetsOfBytes bytes) = bytes := by
  obtain ⟨padding, hpadding, h⟩ := exists_padding (bytes.flatMap bitsOfByte)
  rw [bytesOfSeptets_eq fun unit => lt_of_mem_septets, septetsOfBytes_eq, h]
  exact bytesOfBits_append bytes (by omega)

/-! ## Characters and strings -/

/-- The characters of strings, in order, are those that are located in them. -/
lemma chars_locate (strings : List String) :
    (locate strings).map Located.char = strings.flatMap String.toList := by
  have inner : ∀ (l : List Char) (index : Nat),
      (l.zipIdx.map fun p => Located.mk index p.2 p.1).map Located.char = l := by
    intro l index
    rw [List.map_map]
    exact List.zipIdx_map_fst 0 l
  rw [locate, List.map_flatMap]
  calc (strings.zipIdx.flatMap fun p =>
        ((p.1.toList.zipIdx).map fun q => Located.mk p.2 q.2 q.1).map Located.char)
      = strings.zipIdx.flatMap fun p => p.1.toList :=
        congrArg (strings.zipIdx.flatMap ·) (funext fun p => inner p.1.toList p.2)
    _ = (strings.zipIdx.map Prod.fst).flatMap String.toList := (List.flatMap_map ..).symm
    _ = strings.flatMap String.toList := by rw [List.zipIdx_map_fst]

/-- Characters that keep to the limit are accepted. -/
lemma mapM_within {limit : Nat} {located : List Located}
    (h : ∀ c ∈ located.map Located.char, c.toNat ≤ limit) :
    located.mapM (Located.within limit) = .ok (located.map Located.char) := by
  induction located with
  | nil => rfl
  | cons c located ih =>
    rw [List.map_cons, List.forall_mem_cons] at h
    rw [List.mapM_cons, ih h.2, Located.within, if_pos h.1]
    rfl

/-- Characters that keep to the limit of their scheme are unpacked to their bytes, whichever strings
they stand in. -/
lemma decode_of_chars {strings : List String} {s : Scheme} {mark : Nat}
    (hscheme : scheme strings = (s, mark))
    (h : ∀ c ∈ (strings.flatMap String.toList).drop mark, c.toNat ≤ s.limit) :
    decode strings = .ok (s.bytes ((strings.flatMap String.toList).drop mark)) := by
  rw [← chars_locate, ← List.map_drop] at h ⊢
  rw [decode, hscheme]
  show (do return s.bytes (← ((locate strings).drop mark).mapM (Located.within s.limit))) = _
  rw [mapM_within h]
  rfl

/-- The characters of packed strings are those that were packed. -/
lemma chars_encode (s : Scheme) (bytes : List UInt8) :
    (encode s bytes).flatMap String.toList = encodeChars s bytes := by
  rw [encode, List.flatMap_map]
  simp only [String.toList_ofList]
  rw [List.flatMap_id', flatten_pieces (by decide)]

/-- The first character of the strings is the first that was packed. -/
lemma head_encode (s : Scheme) (bytes : List UInt8) :
    (encode s bytes).head?.bind (·.toList.head?) = (encodeChars s bytes).head? := by
  rw [encode]
  cases h : encodeChars s bytes with
  | nil => simp
  | cons c cs =>
    rw [pieces_cons (by decide) (List.cons_ne_nil c cs), List.map_cons, List.head?_cons]
    simp [maxPieceLength]

/-! ## The round trip -/

/-- A number below the gap is the number of its character. -/
lemma toNat_ofNat_of_lt {n : Nat} (h : n < 256) : (Char.ofNat n).toNat = n := by
  have valid : n.isValidChar := .inl (by omega)
  rw [Char.ofNat, dif_pos valid]
  rfl

/-- A unit is read back from its character, which keeps to the limit. -/
lemma septet_septetChar {unit : Nat} (h : unit < 128) :
    (septetChar unit).toNat < 128 ∧ septet (septetChar unit) = unit := by
  have number : (septetChar unit).toNat = (unit + 1) % 128 := toNat_ofNat_of_lt (by omega)
  rw [septet, number]
  omega

/-- Bytes are read back from bytewise characters. -/
lemma bytes_bytewise (bytes : List UInt8) :
    Scheme.bytewise.bytes (bytes.map fun b => Char.ofNat b.toNat) = bytes := by
  rw [Scheme.bytes, List.map_map]
  have same : (fun c : Char => UInt8.ofNat c.toNat) ∘ (fun b : UInt8 => Char.ofNat b.toNat) = id := by
    funext b
    show UInt8.ofNat (Char.ofNat b.toNat).toNat = b
    rw [toNat_ofNat_of_lt b.toNat_lt, UInt8.ofNat_toNat]
  rw [same, List.map_id]

/-- Bytes are read back from septets. -/
lemma bytes_septets (bytes : List UInt8) :
    Scheme.septets.bytes ((septetsOfBytes bytes).map septetChar) = bytes := by
  rw [Scheme.bytes, List.map_map]
  have same : (septetsOfBytes bytes).map (septet ∘ septetChar) = septetsOfBytes bytes := by
    conv_rhs => rw [← List.map_id (septetsOfBytes bytes)]
    exact List.map_congr_left fun unit h => (septet_septetChar (lt_of_mem_septets h)).2
  rw [same, bytesOfSeptets_septetsOfBytes]

/-- Packed bytes are unpacked to the same bytes. -/
theorem decode_encode (s : Scheme) (bytes : List UInt8) : decode (encode s bytes) = .ok bytes := by
  have chars := chars_encode s bytes
  have head := head_encode s bytes
  cases s with
  | bytewise =>
    have hscheme : scheme (encode .bytewise bytes) = (.bytewise, 1) := by
      rw [scheme, head]
      rfl
    rw [decode_of_chars hscheme, chars]
    · exact congrArg Except.ok (bytes_bytewise bytes)
    · rw [chars]
      intro c hc
      obtain ⟨b, -, rfl⟩ := List.mem_map.1 hc
      have := b.toNat_lt
      rw [toNat_ofNat_of_lt b.toNat_lt]
      show b.toNat ≤ 255
      omega
  | septets =>
    have limit : ∀ c ∈ (septetsOfBytes bytes).map septetChar, c.toNat ≤ Scheme.septets.limit := by
      intro c hc
      obtain ⟨unit, hunit, rfl⟩ := List.mem_map.1 hc
      exact Nat.le_of_lt_succ (septet_septetChar (lt_of_mem_septets hunit)).1
    rw [encodeChars] at chars head
    by_cases marked : ((septetsOfBytes bytes).map septetChar).head? = some bytewiseMark
    · -- septets that would be taken for the other scheme have a mark in front
      rw [if_pos marked] at chars head
      have hscheme : scheme (encode .septets bytes) = (.septets, 1) := by
        rw [scheme, head]
        rfl
      rw [decode_of_chars hscheme, chars]
      · exact congrArg Except.ok (bytes_septets bytes)
      · rw [chars]
        exact limit
    · rw [if_neg marked] at chars head
      have hscheme : scheme (encode .septets bytes) = (.septets, 0) := by
        rw [scheme, head]
        cases hc : ((septetsOfBytes bytes).map septetChar).head? with
        | none => rfl
        | some c =>
          have plain : c ≠ bytewiseMark := by
            rintro rfl
            exact marked hc
          -- the mark of septets is above their limit
          have small := limit c (List.mem_of_head? hc)
          have unmarked : c ≠ septetMark := by
            rintro rfl
            exact absurd small (by decide)
          show (if c = bytewiseMark then _ else if c = septetMark then _ else _) = _
          rw [if_neg plain, if_neg unmarked]
      rw [decode_of_chars hscheme, chars]
      · exact congrArg Except.ok (bytes_septets bytes)
      · rw [chars]
        exact limit

end ClassMetadata.Packing
