import Mathlib
import ClassMetadata.Packing.Basic

/-!
# Bits regrouped through a word

Units of one width are made out of units of another by way of a word that holds the bits in between.
How many these are differs from one unit to the next, and none of them is ever lost.

* `Regrouping.stream` is the stream of bits that a state stands for. A unit that is put in adds its bits
  to the stream (`stream_put`), and a unit that is made takes none away (`stream_take`).
* `Regrouping.Holds` is what the rounds of both loops preserve: there are too few bits for one more unit,
  and the word has no bits besides.
* `bytesOfSeptets_eq` and `septetsOfBytes_eq`: what comes out are the pieces of the stream.
-/

namespace ClassMetadata.Packing

variable {α : Type}

/-! ## Pieces of a stream -/

/-- To go through a list piece by piece. -/
theorem pieces_induction {size : Nat} (hsize : 0 < size) {motive : List α → Prop} (nil : motive [])
    (step : ∀ l, l ≠ [] → motive (l.drop size) → motive l) (l : List α) : motive l := by
  induction hn : l.length using Nat.strongRecOn generalizing l with
  | ind n ih =>
    by_cases h : l = []
    · rw [h]
      exact nil
    · have positive := List.length_pos_iff.2 h
      exact step l h (ih (l.drop size).length (by rw [List.length_drop]; omega) _ rfl)

/-- Lists of the right length that stand one behind the other are cut apart again. -/
lemma pieces_flatten_append {size : Nat} (hsize : 0 < size) {ls : List (List α)}
    (h : ∀ l ∈ ls, l.length = size) (rest : List α) :
    pieces size (ls.flatten ++ rest) = ls ++ pieces size rest := by
  induction ls with
  | nil => rfl
  | cons l ls ih =>
    obtain ⟨first, others⟩ := List.forall_mem_cons.1 h
    have nonempty : l ++ (ls.flatten ++ rest) ≠ [] := by
      intro e
      rw [(List.append_eq_nil_iff.1 e).1] at first
      exact absurd first (Nat.ne_of_lt hsize)
    rw [List.flatten_cons, List.append_assoc, pieces_cons hsize nonempty, List.take_left' first,
      List.drop_left' first, ih others, List.cons_append]

/-- What fits into one piece is one piece. -/
lemma pieces_eq_singleton {size : Nat} {l : List α} (hl : l ≠ []) (h : l.length ≤ size) :
    pieces size l = [l] := by
  have positive := List.length_pos_iff.2 hl
  rw [pieces_cons (by omega) hl, List.take_of_length_le h, List.drop_eq_nil_of_le h, pieces_nil]

namespace Bits

/-- A number written as bits and read again is the number, up to the bits that were cut off. -/
theorem toNat_ofNat (width n : Nat) : toNat (ofNat width n) = n % 2 ^ width := by
  induction width generalizing n with
  | zero => simp [ofNat, toNat, Nat.mod_one]
  | succ width ih =>
    have bit : ((n % 2 == 1) : Bool).toNat = n % 2 := by
      rcases Nat.mod_two_eq_zero_or_one n with h | h <;> simp [h]
    rw [ofNat, toNat, ih, bit, Nat.pow_succ, Nat.mul_comm (2 ^ width) 2, Nat.mod_mul]

/-- A number of so many bits is below that power of two. -/
lemma toNat_lt_of_le {width : Nat} {bits : List Bool} (h : bits.length ≤ width) :
    toNat bits < 2 ^ width := by
  have same := toNat_ofNat bits.length (toNat bits)
  rw [ofNat_toNat] at same
  calc toNat bits < 2 ^ bits.length := by
        rw [same]
        exact Nat.mod_lt _ (Nat.two_pow_pos _)
    _ ≤ 2 ^ width := Nat.pow_le_pow_right (by decide) h

/-- The bits of a number do not depend on what is cut off. -/
lemma ofNat_mod (width n : Nat) : ofNat width (n % 2 ^ width) = ofNat width n := by
  have same := ofNat_toNat (ofNat width n)
  rwa [length_ofNat, toNat_ofNat] at same

/-- The bits of a number are its low bits and behind them its high bits. -/
lemma ofNat_add (low high n : Nat) :
    ofNat (low + high) n = ofNat low n ++ ofNat high (n / 2 ^ low) := by
  induction low generalizing n with
  | zero => rw [Nat.zero_add, Nat.pow_zero, Nat.div_one, ofNat, List.nil_append]
  | succ low ih =>
    rw [Nat.add_right_comm, ofNat, ofNat, ih, Nat.div_div_eq_div_mul, ← Nat.pow_succ', List.cons_append]

/-- Where one number stands above the other, the bits of the one stand behind those of the other. -/
lemma ofNat_add_mul {width n : Nat} (h : n < 2 ^ width) (width' n' : Nat) :
    ofNat (width + width') (n + 2 ^ width * n') = ofNat width n ++ ofNat width' n' := by
  have low : (n + 2 ^ width * n') % 2 ^ width = n := by
    rw [Nat.add_mul_mod_self_left, Nat.mod_eq_of_lt h]
  have high : (n + 2 ^ width * n') / 2 ^ width = n' := by
    rw [Nat.add_mul_div_left n n' (Nat.two_pow_pos width), Nat.div_eq_of_lt h, Nat.zero_add]
  rw [ofNat_add, high, ← ofNat_mod, low]

end Bits

/-- Where every member makes as many, it makes no difference to their number which members there are. -/
lemma length_flatMap {β : Type} {f : α → List β} {width : Nat} (h : ∀ a, (f a).length = width)
    (l : List α) : (l.flatMap f).length = width * l.length := by
  induction l with
  | nil => rfl
  | cons a l ih => rw [List.flatMap_cons, List.length_append, h, ih, List.length_cons, Nat.mul_succ,
      Nat.add_comm]

/-- The bits of a byte. -/
def bitsOfByte (b : UInt8) : List Bool := Bits.ofNat 8 b.toNat

/-- A byte has eight bits. -/
lemma length_bitsOfByte (b : UInt8) : (bitsOfByte b).length = 8 := Bits.length_ofNat 8 b.toNat

/-- The bytes that bits fill. -/
def bytesOfBits (bits : List Bool) : List UInt8 :=
  ((pieces 8 bits).filter (·.length == 8)).map fun bits => UInt8.ofNat (Bits.toNat bits)

/-- Bytes are put together again from their bits, and what does not fill a byte is dropped. -/
lemma bytesOfBits_append (bytes : List UInt8) {padding : List Bool} (h : padding.length < 8) :
    bytesOfBits (bytes.flatMap bitsOfByte ++ padding) = bytes := by
  have full : ∀ bits ∈ bytes.map bitsOfByte, bits.length = 8 :=
    List.forall_mem_map.2 fun b _ => length_bitsOfByte b
  have short : (pieces 8 padding).filter (·.length == 8) = [] := by
    by_cases hp : padding = []
    · rw [hp, pieces_nil]
      rfl
    · rw [pieces_eq_singleton hp (by omega), List.filter_cons_of_neg, List.filter_nil]
      rw [beq_iff_eq]
      omega
  have back : (fun bits => UInt8.ofNat (Bits.toNat bits)) ∘ bitsOfByte = id := by
    funext b
    show UInt8.ofNat (Bits.toNat (Bits.ofNat 8 b.toNat)) = b
    rw [Bits.toNat_ofNat, Nat.mod_eq_of_lt b.toNat_lt, UInt8.ofNat_toNat]
  rw [bytesOfBits, List.flatMap_def, pieces_flatten_append (by decide) full, List.filter_append, short,
    List.append_nil, List.filter_eq_self.2 fun bits hbits => beq_iff_eq.2 (full bits hbits),
    List.map_map, back, List.map_id]

/-! ## The word -/

namespace Regrouping

/-- The stream so far: the bits of the complete units, and those behind them. -/
def stream (width : Nat) (r : Regrouping) : List Bool :=
  r.units.toList.flatMap (fun unit => Bits.ofNat width unit.toNat) ++
    Bits.ofNat r.count r.word.toNat

/-- The word has no other bits than those that count. -/
def Clean (r : Regrouping) : Prop := r.word.toNat < 2 ^ r.count

section

variable {r : Regrouping} {width : Nat} {unit mask : UInt32}

/-- The unit stands above the bits that are there, and nothing of it is pushed out. -/
lemma toNat_word_put (clean : r.Clean) (fits : r.count + width < 32)
    (small : unit.toNat < 2 ^ width) :
    (r.put width unit).word.toNat = r.word.toNat + 2 ^ r.count * unit.toNat := by
  have amount : (UInt32.ofNat r.count).toNat % 32 = r.count := by
    rw [UInt32.toNat_ofNat']
    omega
  have whole : 2 ^ r.count * unit.toNat < 2 ^ 32 := by
    calc 2 ^ r.count * unit.toNat < 2 ^ r.count * 2 ^ width :=
          Nat.mul_lt_mul_of_pos_left small (Nat.two_pow_pos _)
      _ = 2 ^ (r.count + width) := (Nat.pow_add 2 _ _).symm
      _ ≤ 2 ^ 32 := Nat.pow_le_pow_right (by decide) (by omega)
  have shifted : (unit <<< UInt32.ofNat r.count).toNat = 2 ^ r.count * unit.toNat := by
    rw [UInt32.toNat_shiftLeft, amount, Nat.shiftLeft_eq, Nat.mul_comm, Nat.mod_eq_of_lt whole]
  show (r.word ||| unit <<< UInt32.ofNat r.count).toNat = _
  rw [UInt32.toNat_or, shifted, Nat.or_comm, ← Nat.two_pow_add_eq_or_of_lt clean, Nat.add_comm]

/-- No bits are added to the word but those of the unit. -/
lemma Clean.put (clean : r.Clean) (fits : r.count + width < 32) (small : unit.toNat < 2 ^ width) :
    (r.put width unit).Clean := by
  show (r.put width unit).word.toNat < 2 ^ (r.count + width)
  rw [toNat_word_put clean fits small]
  calc r.word.toNat + 2 ^ r.count * unit.toNat < 2 ^ r.count + 2 ^ r.count * unit.toNat :=
        Nat.add_lt_add_right clean _
    _ = 2 ^ r.count * (unit.toNat + 1) := by rw [Nat.mul_succ, Nat.add_comm]
    _ ≤ 2 ^ r.count * 2 ^ width := Nat.mul_le_mul_left _ small
    _ = 2 ^ (r.count + width) := (Nat.pow_add 2 _ _).symm

/-- A unit that is put in adds its bits to the stream. -/
lemma stream_put (made : Nat) (clean : r.Clean) (fits : r.count + width < 32)
    (small : unit.toNat < 2 ^ width) :
    (r.put width unit).stream made = r.stream made ++ Bits.ofNat width unit.toNat := by
  show _ ++ Bits.ofNat (r.count + width) (r.put width unit).word.toNat = _
  rw [toNat_word_put clean fits small, Bits.ofNat_add_mul clean, ← List.append_assoc]
  rfl

/-- The bits that stay in the word move down. -/
lemma toNat_word_take (h : width < 32) :
    (r.take width mask).word.toNat = r.word.toNat / 2 ^ width := by
  have amount : (UInt32.ofNat width).toNat % 32 = width := by
    rw [UInt32.toNat_ofNat']
    omega
  show (r.word >>> UInt32.ofNat width).toNat = _
  rw [UInt32.toNat_shiftRight, amount, Nat.shiftRight_eq_div_pow]

/-- The unit that is made has the low bits of the word. -/
lemma toNat_unit_take (h : width ≤ 8) (hmask : mask.toNat = 2 ^ width - 1) :
    (r.word &&& mask).toUInt8.toNat = r.word.toNat % 2 ^ width := by
  have byte : 2 ^ width ≤ 2 ^ 8 := Nat.pow_le_pow_right (by decide) h
  rw [UInt32.toNat_toUInt8, UInt32.toNat_and, hmask, Nat.and_two_pow_sub_one_eq_mod]
  exact Nat.mod_eq_of_lt (Nat.lt_of_lt_of_le (Nat.mod_lt _ (Nat.two_pow_pos _)) byte)

/-- The bits that stay in the word are those that still count. -/
lemma Clean.take (clean : r.Clean) (enough : width ≤ r.count) (h : width ≤ 8) :
    (r.take width mask).Clean := by
  show (r.take width mask).word.toNat < 2 ^ (r.count - width)
  rw [toNat_word_take (by omega)]
  apply Nat.div_lt_of_lt_mul
  rw [← Nat.pow_add, Nat.add_sub_cancel' enough]
  exact clean

/-- A unit that is made takes nothing away from the stream. -/
lemma stream_take (enough : width ≤ r.count) (h : width ≤ 8) (hmask : mask.toNat = 2 ^ width - 1) :
    (r.take width mask).stream width = r.stream width := by
  show (r.units.push (r.word &&& mask).toUInt8).toList.flatMap _ ++
    Bits.ofNat (r.count - width) (r.take width mask).word.toNat = r.units.toList.flatMap _ ++ _
  rw [Array.toList_push, List.flatMap_append, List.append_assoc, List.flatMap_singleton,
    toNat_unit_take h hmask, toNat_word_take (by omega), Bits.ofNat_mod, ← Bits.ofNat_add,
    Nat.add_sub_cancel' enough]

/-- The unit that is made is of its width, as are those before it. -/
lemma lt_of_mem_take (h : width ≤ 8) (hmask : mask.toNat = 2 ^ width - 1)
    (units : ∀ unit ∈ r.units, unit.toNat < 2 ^ width) :
    ∀ unit ∈ (r.take width mask).units, unit.toNat < 2 ^ width := by
  intro unit hunit
  rcases Array.mem_push.1 hunit with before | rfl
  · exact units unit before
  · rw [toNat_unit_take h hmask]
    exact Nat.mod_lt _ (Nat.two_pow_pos _)

end

/-! ## The rounds -/

/-- These bits have been put in, and as many units of the width were made of them as they fill. -/
structure Holds (r : Regrouping) (width : Nat) (bits : List Bool) : Prop where
  clean : r.Clean
  count_lt : r.count < width
  unit_lt : ∀ unit ∈ r.units, unit.toNat < 2 ^ width
  stream_eq : r.stream width = bits

namespace Holds

variable {r : Regrouping} {bits : List Bool}

/-- At the start there are no bits. -/
lemma start {width : Nat} (h : 0 < width) : Regrouping.start.Holds width [] where
  clean := Nat.zero_lt_one
  count_lt := h
  unit_lt _ hunit := absurd hunit (Array.not_mem_empty _)
  stream_eq := rfl

/-- A round of unpacking adds seven bits. -/
lemma putSeptet (h : r.Holds 8 bits) {unit : UInt32} (small : unit.toNat < 2 ^ 7) :
    (r.putSeptet unit).Holds 8 (bits ++ Bits.ofNat 7 unit.toNat) := by
  have count := h.count_lt
  have clean := h.clean.put (by omega) small
  have stream := stream_put 8 h.clean (by omega) small
  rw [h.stream_eq] at stream
  rw [Regrouping.putSeptet]
  split
  · rename_i enough
    refine ⟨clean.take enough (by decide), ?_, ?_, (stream_take enough (by decide) rfl).trans stream⟩
    · show r.count + 7 - 8 < 8
      omega
    · exact lt_of_mem_take (by decide) rfl h.unit_lt
  · rename_i few
    exact ⟨clean, Nat.lt_of_not_le few, h.unit_lt, stream⟩

/-- All rounds of unpacking. -/
lemma putSeptets (h : r.Holds 8 bits) {units : List Nat} (small : ∀ unit ∈ units, unit < 2 ^ 7) :
    (units.foldl (fun r unit => r.putSeptet (.ofNat unit)) r).Holds 8
      (bits ++ units.flatMap (Bits.ofNat 7)) := by
  induction units generalizing r bits with
  | nil => simpa using h
  | cons unit units ih =>
    obtain ⟨first, others⟩ := List.forall_mem_cons.1 small
    have same : (UInt32.ofNat unit).toNat = unit := by
      rw [UInt32.toNat_ofNat']
      omega
    have septet : (UInt32.ofNat unit).toNat < 2 ^ 7 := by
      rw [same]
      exact first
    have round := h.putSeptet septet
    rw [same] at round
    rw [List.foldl_cons, List.flatMap_cons, ← List.append_assoc]
    exact ih round others

/-- Making units adds nothing, and it goes on until the bits are too few. -/
lemma takeSeptets (clean : r.Clean) (units : ∀ unit ∈ r.units, unit.toNat < 2 ^ 7) :
    r.takeSeptets.Holds 7 (r.stream 7) := by
  induction r using Regrouping.takeSeptets.induct with
  | case1 r enough ih =>
    have stream : (r.take 7 0x7f).stream 7 = r.stream 7 := stream_take enough (by decide) rfl
    rw [Regrouping.takeSeptets, if_pos enough, ← stream]
    exact ih (clean.take enough (by decide)) (lt_of_mem_take (by decide) rfl units)
  | case2 r few =>
    rw [Regrouping.takeSeptets, if_neg few]
    exact ⟨clean, Nat.lt_of_not_le few, units, rfl⟩

/-- A round of packing adds eight bits. -/
lemma putByte (h : r.Holds 7 bits) (b : UInt8) : (r.putByte b).Holds 7 (bits ++ bitsOfByte b) := by
  have count := h.count_lt
  have small : b.toUInt32.toNat < 2 ^ 8 := by
    rw [UInt8.toNat_toUInt32]
    exact b.toNat_lt
  have stream := stream_put 7 h.clean (by omega) small
  rw [h.stream_eq, UInt8.toNat_toUInt32] at stream
  have made := takeSeptets (h.clean.put (by omega) small) h.unit_lt
  rwa [stream] at made

/-- All rounds of packing. -/
lemma putBytes (h : r.Holds 7 bits) (bytes : List UInt8) :
    (bytes.foldl Regrouping.putByte r).Holds 7 (bits ++ bytes.flatMap bitsOfByte) := by
  induction bytes generalizing r bits with
  | nil => simpa using h
  | cons b bytes ih =>
    rw [List.foldl_cons, List.flatMap_cons, ← List.append_assoc]
    exact ih (h.putByte b)

end Holds

end Regrouping

/-! ## What comes out -/

/-- The bytes of units are those that their bits fill, if each unit has seven bits. -/
theorem bytesOfSeptets_eq {units : List Nat} (small : ∀ unit ∈ units, unit < 2 ^ 7) :
    bytesOfSeptets units = bytesOfBits (units.flatMap (Bits.ofNat 7)) := by
  have holds := (Regrouping.Holds.start (by decide)).putSeptets small
  rw [List.nil_append] at holds
  rw [bytesOfSeptets]
  generalize units.foldl (fun (r : Regrouping) unit => r.putSeptet (.ofNat unit)) Regrouping.start = r
    at holds ⊢
  have count : 8 * r.units.size + r.count = 7 * units.length := by
    have lengths := congrArg List.length holds.stream_eq
    rwa [Regrouping.stream, List.length_append,
      length_flatMap fun b : UInt8 => Bits.length_ofNat 8 b.toNat, Bits.length_ofNat,
      length_flatMap (Bits.length_ofNat 7), Array.length_toList] at lengths
  have few := holds.count_lt
  -- the bytes that were made are as many as there have to be
  rw [List.take_of_length_le (by rw [Array.length_toList]; omega), ← holds.stream_eq]
  exact (bytesOfBits_append r.units.toList (by rw [Bits.length_ofNat]; exact few)).symm

/-- The units of bytes are the pieces of seven bits that their bits are cut into. -/
theorem septetsOfBytes_eq (bytes : List UInt8) :
    septetsOfBytes bytes = (pieces 7 (bytes.flatMap bitsOfByte)).map Bits.toNat := by
  have holds := (Regrouping.Holds.start (by decide)).putBytes bytes
  rw [List.nil_append] at holds
  rw [septetsOfBytes]
  generalize bytes.foldl Regrouping.putByte .start = r at holds ⊢
  have full : ∀ bits ∈ r.units.toList.map fun unit => Bits.ofNat 7 unit.toNat, bits.length = 7 :=
    List.forall_mem_map.2 fun unit _ => Bits.length_ofNat 7 unit.toNat
  have back : (r.units.toList.map fun unit => Bits.ofNat 7 unit.toNat).map Bits.toNat =
      r.units.toList.map UInt8.toNat := by
    rw [List.map_map]
    refine List.map_congr_left fun unit hunit => ?_
    exact (Bits.toNat_ofNat 7 _).trans (Nat.mod_eq_of_lt (holds.unit_lt unit (by simpa using hunit)))
  rw [← holds.stream_eq, Regrouping.stream, List.flatMap_def, pieces_flatten_append (by decide) full,
    List.map_append, back, Regrouping.flush]
  split
  · -- the bits that are left over make one more unit
    rename_i rest
    have few := holds.count_lt
    have nonempty : Bits.ofNat r.count r.word.toNat ≠ [] := by
      rw [Ne, ← List.length_eq_zero_iff, Bits.length_ofNat]
      omega
    have word : r.word.toNat < 2 ^ 7 := Nat.lt_of_lt_of_le holds.clean
      (Nat.pow_le_pow_right (by decide) (Nat.le_of_lt few))
    have unit : (r.word &&& 0x7f).toUInt8.toNat = r.word.toNat :=
      (Regrouping.toNat_unit_take (by decide) rfl).trans (Nat.mod_eq_of_lt word)
    rw [pieces_eq_singleton nonempty (by rw [Bits.length_ofNat]; omega), List.map_singleton,
      Bits.toNat_ofNat, Nat.mod_eq_of_lt holds.clean, Array.toList_push, List.map_append,
      List.map_singleton, unit]
  · rename_i none
    rw [Nat.eq_zero_of_not_pos none, Bits.ofNat, pieces_nil, List.map_nil, List.append_nil]

end ClassMetadata.Packing
