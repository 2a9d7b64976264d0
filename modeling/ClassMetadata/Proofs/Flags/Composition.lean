import Mathlib.Data.List.Induction
import ClassMetadata.Flags

/-!
# Flags put in one after the other

The fields of flags overlap, so it matters in which order flags are put into a word. For every single
bit only the last flag counts whose field covers it.

* `Flag.lastOver?` is this flag, and `Flags.composed` the bit that it leaves behind.
* `Flags.getLsbD_setAll` says so of every list of flags, by induction from its end, and
  `Flags.setAll_composes` adds what the flags test to afterwards.
* `Flags.test_set_of_clash` and `Flags.set_comm` are about two flags: those that want a bit
  differently exclude each other, and those without a common bit can be put in in either order.
-/

namespace ClassMetadata

namespace BitField

/-- What the field holds at bit `i` of a word. -/
def bitAt (f : BitField) (i : Nat) : Bool := f.value.getLsbD (i - f.offset)

/-- A word holds a field when it agrees with it at every bit that the field covers. -/
lemma holds_iff {f : BitField} {word : BitVec 32} :
    f.holds word = true ↔ ∀ i, f.Covers i → word.getLsbD i = f.bitAt i := by
  rw [holds, beq_iff_eq]
  refine ⟨fun h i ⟨low, high⟩ => ?_, fun h => BitVec.eq_of_getLsbD_eq fun j hj => ?_⟩
  · have inside : i - f.offset < f.width := by omega
    have same : f.offset + (i - f.offset) = i := by omega
    rw [bitAt, ← h, BitVec.getLsbD_extractLsb', decide_eq_true inside, same, Bool.true_and]
  · have covered := h (f.offset + j) ⟨Nat.le_add_right _ _, Nat.add_lt_add_left hj _⟩
    rw [BitVec.getLsbD_extractLsb', decide_eq_true hj, Bool.true_and, covered, bitAt,
      Nat.add_sub_cancel_left]

end BitField

namespace Flag

/-- The last of some flags whose field covers bit `i`. -/
def lastOver? (traits : List Flag) (i : Nat) : Option Flag :=
  (traits.filter fun flag => flag.field.Covers i).getLast?

variable {traits : List Flag} {flag : Flag} {i : Nat}

/-- A last flag that covers the bit is the last over it. -/
lemma lastOver?_concat_of_covers (h : flag.field.Covers i) :
    lastOver? (traits ++ [flag]) i = some flag := by
  simp [lastOver?, h]

/-- A last flag that does not cover the bit does not count. -/
lemma lastOver?_concat_of_not_covers (h : ¬ flag.field.Covers i) :
    lastOver? (traits ++ [flag]) i = lastOver? traits i := by
  simp [lastOver?, h]

end Flag

namespace Flags

/-- The bit that flags leave behind at `i`: that of the last one whose field covers it, and that of
the word where they were put in if there is none. -/
def composed (start : Flags) (traits : List Flag) (i : Nat) : Bool :=
  match Flag.lastOver? traits i with
  | some flag => flag.field.bitAt i
  | none => start.bits.toBitVec.getLsbD i

variable {flags : Flags} {flag other : Flag} {i : Nat}

/-- A flag sets the bits that its field covers and no others. No field reaches out of the word. -/
lemma getLsbD_set : (flags.set flag).bits.toBitVec.getLsbD i =
    if flag.field.Covers i then flag.field.bitAt i else flags.bits.toBitVec.getLsbD i := by
  by_cases inside : i < 32
  · exact flag.field.getLsbD_write _ inside
  · have outside : ¬ flag.field.Covers i := fun ⟨_, high⟩ => by
      have := flag.field_le_width
      omega
    rw [if_neg outside, BitVec.getLsbD_of_ge _ _ (Nat.le_of_not_lt inside),
      BitVec.getLsbD_of_ge _ _ (Nat.le_of_not_lt inside)]

/-- A word has a flag when it agrees with the flag's field at every bit that the field covers. -/
lemma test_iff : flags.test flag = true ↔
    ∀ i, flag.field.Covers i → flags.bits.toBitVec.getLsbD i = flag.field.bitAt i :=
  BitField.holds_iff

/-- Every bit behind a list of flags is the one that the last flag over it has put there. -/
lemma getLsbD_setAll (start : Flags) (traits : List Flag) (i : Nat) :
    (start.setAll traits).bits.toBitVec.getLsbD i = start.composed traits i := by
  induction traits using List.reverseRecOn with
  | nil => rfl
  | append_singleton traits last ih =>
    rw [setAll, List.foldl_append, List.foldl_cons, List.foldl_nil, getLsbD_set, composed]
    by_cases h : last.field.Covers i
    · rw [if_pos h, Flag.lastOver?_concat_of_covers h]
    · rw [if_neg h, Flag.lastOver?_concat_of_not_covers h]
      exact ih

/-- Flags that are put in one after the other: every bit comes from the last of them whose field
covers it, and from the start if none does; a list of flags by itself is put into the empty word; and
afterwards the word has a flag exactly when at each bit of its field what was left behind is the
flag's own. -/
theorem setAll_composes (start : Flags) (traits : List Flag) :
    (∀ i, (start.setAll traits).bits.toBitVec.getLsbD i = start.composed traits i) ∧
    (ofList traits = traits.foldl set ⟨0⟩ ∧
      ∀ i, (ofList traits).bits.toBitVec.getLsbD i = composed ⟨0⟩ traits i) ∧
    ∀ flag, (start.setAll traits).test flag = true ↔
      ∀ i, flag.field.Covers i → start.composed traits i = flag.field.bitAt i := by
  refine ⟨getLsbD_setAll start traits, ⟨rfl, getLsbD_setAll zero traits⟩, fun flag => ?_⟩
  rw [test_iff]
  exact forall₂_congr fun i _ => by rw [getLsbD_setAll]

-- the modality and the mark of a secondary constructor have a bit in common
example : (ofList [.isAbstract, .isSecondary, .isOpen]).bits = 16 ∧
    (ofList [.isSecondary, .isOpen, .isAbstract]).bits = 32 ∧
    (ofList [.isSecondary, .isOpen, .isAbstract]).test .isSecondary = false := by decide

/-- A flag that was put in is there. -/
theorem test_set_self (flags : Flags) (flag : Flag) : (flags.set flag).test flag = true :=
  test_iff.2 fun i covers => by rw [getLsbD_set, if_pos covers]

/-- Flags that want a bit differently exclude each other. -/
theorem test_set_of_clash (flags : Flags) (covers : flag.field.Covers i)
    (covers' : other.field.Covers i) (clash : flag.field.bitAt i ≠ other.field.bitAt i) :
    (flags.set flag).test other = false := by
  refine Bool.eq_false_iff.2 fun h => clash ?_
  have agreed := test_iff.1 h i covers'
  rwa [getLsbD_set, if_pos covers] at agreed

/-- Flags without a common bit can be put in in either order. -/
theorem set_comm (flags : Flags) (apart : ∀ i, flag.field.Covers i → ¬ other.field.Covers i) :
    (flags.set flag).set other = (flags.set other).set flag := by
  have bits : ((flags.set flag).set other).bits.toBitVec =
      ((flags.set other).set flag).bits.toBitVec := by
    refine BitVec.eq_of_getLsbD_eq fun i _ => ?_
    simp only [getLsbD_set]
    by_cases covers : flag.field.Covers i
    · rw [if_neg (apart i covers), if_pos covers, if_pos covers]
    · rw [if_neg covers, if_neg covers]
  exact congrArg (fun word => Flags.mk ⟨word⟩) bits

end Flags

end ClassMetadata
