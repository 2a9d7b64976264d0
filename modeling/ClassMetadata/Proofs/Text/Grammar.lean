import Mathlib.Data.Nat.Digits.Defs
import ClassMetadata.Text.Blank
import ClassMetadata.Text.Numeral
import ClassMetadata.Text.Separator

/-!
# Blanks, separators and numerals

What the functions on texts find, as relations between a text and its parts.

* `Trims` is a text and what it is without the blanks at its ends, `Splits` a text and its parts
  between separators, and `IsNumeral` a numeral and its value.
* `trim_eq_iff`, `splitOn_eq_iff` and `word?_eq_some_iff` tie them to the functions, and
  `isNumeral_decimal` says that the digits of a number are a numeral for it.
-/

namespace ClassMetadata.Text

/-! ## Blanks -/

/-- A text of blanks only. -/
def AllBlank (cs : List Char) : Prop := ∀ c ∈ cs, isBlank c = true

/-- Whether characters are all blank can be computed. -/
instance (cs : List Char) : Decidable (AllBlank cs) :=
  decidable_of_iff (cs.all isBlank = true) List.all_eq_true

/-- There is no blank at the start of a text. -/
def NoBlankFirst (cs : List Char) : Prop := ∀ c ∈ cs.head?, isBlank c = false

/-- What a text is without the blanks around it: the rest of the text are blanks, and neither end of
what remains is one. -/
def Trims (text core : List Char) : Prop :=
  ∃ before after, text = before ++ core ++ after ∧ AllBlank before ∧ AllBlank after ∧
    NoBlankFirst core ∧ NoBlankFirst core.reverse

section

variable {before after core text : List Char}

/-- Blanks are blanks from behind. -/
lemma AllBlank.reverse (h : AllBlank before) : AllBlank before.reverse :=
  fun c hc => h c (List.mem_reverse.1 hc)

/-- There is nothing to trim before a character that is not blank. -/
lemma trimStart_of_noBlankFirst (h : NoBlankFirst core) : trimStart core = core := by
  cases core with
  | nil => rfl
  | cons c core =>
    have first := h c rfl
    exact List.dropWhile_cons_of_neg (Bool.eq_false_iff.1 first)

/-- Blanks at the start are taken away, up to the first character that is none. -/
lemma trimStart_append (blank : AllBlank before) (h : NoBlankFirst core) :
    trimStart (before ++ core) = core := by
  rw [trimStart, List.dropWhile_append_of_pos blank]
  exact trimStart_of_noBlankFirst h

/-- What is taken away at the start are blanks, and what remains does not start with one. -/
lemma exists_trimStart (text : List Char) :
    ∃ before, text = before ++ trimStart text ∧ AllBlank before ∧ NoBlankFirst (trimStart text) := by
  refine ⟨text.takeWhile isBlank, List.takeWhile_append_dropWhile.symm,
    List.all_eq_true.1 List.all_takeWhile, fun c hc => ?_⟩
  have first := List.head?_dropWhile_not isBlank text
  rw [trimStart] at hc
  rwa [hc] at first

/-- The start of a text is the start of any part of it that starts there. -/
lemma NoBlankFirst.of_append (h : NoBlankFirst (core ++ after)) : NoBlankFirst core := by
  cases core with
  | nil => nofun
  | cons c core => exact h

/-- What trimming leaves is the text without the blanks around it. -/
theorem trim_eq_iff : trim text = core ↔ Trims text core := by
  refine ⟨?_, ?_⟩
  · rintro rfl
    obtain ⟨before, htext, blank, first⟩ := exists_trimStart text
    obtain ⟨after, hrest, blank', last⟩ := exists_trimStart (trimStart text).reverse
    have parts : trimStart text = trim text ++ after.reverse := by
      rw [trim, trimEnd, ← List.reverse_append, ← hrest, List.reverse_reverse]
    refine ⟨before, after.reverse, ?_, blank, blank'.reverse, ?_, ?_⟩
    · rw [List.append_assoc, ← parts, ← htext]
    · rw [parts] at first
      exact first.of_append
    · rwa [trim, trimEnd, List.reverse_reverse]
  · rintro ⟨before, after, rfl, blank, blank', first, last⟩
    cases core with
    | nil =>
      -- all of the text is blank, so it is gone after the first of the two cuts
      have all : AllBlank (before ++ after) := List.forall_mem_append.2 ⟨blank, blank'⟩
      have none : NoBlankFirst [] := nofun
      rw [trim, List.append_nil, ← List.append_nil (before ++ after), trimStart_append all none]
      rfl
    | cons c core =>
      have front : trimStart (before ++ (c :: core ++ after)) = c :: core ++ after :=
        trimStart_append blank first
      rw [trim, List.append_assoc, front, trimEnd, List.reverse_append,
        trimStart_append blank'.reverse last, List.reverse_reverse]

end

/-! ## Separators -/

/-- The parts of a text between separators. -/
def Splits (separator : Char) (text : List Char) (parts : List (List Char)) : Prop :=
  parts ≠ [] ∧ text = [separator].intercalate parts ∧ ∀ part ∈ parts, separator ∉ part

section

variable {separator : Char} {text : List Char} {parts : List (List Char)}

/-- A text is split as a list is. -/
lemma splitOn_eq (separator : Char) (text : List Char) :
    splitOn separator text = text.splitOn separator := by
  induction text with
  | nil => rfl
  | cons c text ih =>
    rw [splitOn, ih, List.splitOn_eq_splitOnP, List.splitOn_eq_splitOnP,
      List.splitOnP_cons_eq_if_modifyHead]
    by_cases h : c = separator
    · rw [if_pos h, if_pos (beq_iff_eq.2 h)]
    · rw [if_neg h, if_neg (mt beq_iff_eq.1 h)]
      obtain ⟨part, parts, h⟩ :=
        List.exists_cons_of_ne_nil (List.splitOnP_ne_nil (· == separator) text)
      rw [h]
      rfl

/-- No part of a text holds the separator. -/
lemma not_mem_of_mem_splitOn {part : List Char} (h : part ∈ splitOn separator text) :
    separator ∉ part := by
  induction text generalizing part with
  | nil =>
    cases List.mem_singleton.1 h
    exact List.not_mem_nil
  | cons c text ih =>
    rw [splitOn] at h
    split at h
    · rcases List.mem_cons.1 h with rfl | h
      · exact List.not_mem_nil
      · exact ih h
    · rename_i other
      cases hrest : splitOn separator text with
      | nil =>
        rw [hrest] at h
        cases List.mem_singleton.1 h
        exact fun same => other (List.mem_singleton.1 same).symm
      | cons first rest =>
        rw [hrest] at h ih
        rcases List.mem_cons.1 h with rfl | h
        · refine fun held => ?_
          rcases List.mem_cons.1 held with same | held
          · exact other same.symm
          · exact ih List.mem_cons_self held
        · exact ih (List.mem_cons_of_mem _ h)

/-- The parts of a text are free of the separator, and put together with it they are the text. -/
theorem splitOn_eq_iff : splitOn separator text = parts ↔ Splits separator text parts := by
  refine ⟨?_, ?_⟩
  · rintro rfl
    refine ⟨?_, ?_, fun part h => not_mem_of_mem_splitOn h⟩
    · rw [splitOn_eq]
      exact List.splitOn_ne_nil separator text
    · rw [splitOn_eq, List.intercalate_splitOn]
  · rintro ⟨nonempty, rfl, free⟩
    rw [splitOn_eq, List.splitOn_intercalate separator free nonempty]

end

/-! ## Numerals -/

/-- The value of decimal digits, the most significant one first. -/
def valueOf (digits : List Char) : Nat :=
  Nat.ofDigits 10 (digits.reverse.map fun c => c.toNat - '0'.toNat)

/-- A numeral for a number: decimal digits with its value, one at least, and perhaps a plus sign in
front. -/
def IsNumeral (cs : List Char) (n : Nat) : Prop :=
  ∃ sign digits, cs = sign ++ digits ∧ (sign = [] ∨ sign = ['+']) ∧ digits ≠ [] ∧
    (∀ c ∈ digits, c.isDigit = true) ∧ valueOf digits = n

section

variable {c : Char} {cs digits : List Char} {n : Nat}

/-- A digit stands for its distance from zero. -/
lemma digit?_eq (c : Char) : digit? c = if c.isDigit then some (c.toNat - '0'.toNat) else none := by
  have same : ('0' ≤ c ∧ c ≤ '9') ↔ c.isDigit = true := by
    rw [Char.isDigit, Bool.and_eq_true, decide_eq_true_iff, decide_eq_true_iff]
    rfl
  rw [digit?]
  simp only [same]

/-- The first digit counts for the most. -/
lemma valueOf_cons (c : Char) (cs : List Char) :
    valueOf (c :: cs) = (c.toNat - '0'.toNat) * 10 ^ cs.length + valueOf cs := by
  rw [valueOf, List.reverse_cons, List.map_append, Nat.ofDigits_append, List.map_singleton,
    Nat.ofDigits_singleton, List.length_map, List.length_reverse, valueOf, Nat.add_comm,
    Nat.mul_comm]

/-- Digits are read by their value, behind what was read before; anything else is not read. -/
lemma digits?_eq_some_iff (before : Nat) : digits? before cs = some n ↔
    (∀ c ∈ cs, c.isDigit = true) ∧ before * 10 ^ cs.length + valueOf cs = n := by
  induction cs generalizing before with
  | nil => simp [digits?, valueOf]
  | cons c cs ih =>
    rw [digits?, digit?_eq, List.forall_mem_cons]
    by_cases h : c.isDigit = true
    · have sum : (10 * before + (c.toNat - '0'.toNat)) * 10 ^ cs.length + valueOf cs =
          before * 10 ^ (c :: cs).length + valueOf (c :: cs) := by
        rw [valueOf_cons, List.length_cons, Nat.pow_succ, Nat.add_mul, Nat.mul_comm 10,
          Nat.mul_assoc, Nat.mul_comm 10, Nat.add_assoc]
      rw [if_pos h]
      dsimp only
      rw [ih, sum]
      exact ⟨fun ⟨rest, value⟩ => ⟨⟨h, rest⟩, value⟩, fun ⟨⟨_, rest⟩, value⟩ => ⟨rest, value⟩⟩
    · rw [if_neg h]
      exact ⟨nofun, fun ⟨⟨digit, _⟩, _⟩ => absurd digit h⟩

/-- Digits are read as the number that they show. -/
lemma natural?_eq_some_iff : natural? digits = some n ↔
    digits ≠ [] ∧ (∀ c ∈ digits, c.isDigit = true) ∧ valueOf digits = n := by
  cases digits with
  | nil => exact ⟨nofun, fun ⟨nonempty, _⟩ => absurd rfl nonempty⟩
  | cons c digits =>
    rw [natural?, digits?_eq_some_iff, Nat.zero_mul, Nat.zero_add]
    · exact ⟨fun h => ⟨List.cons_ne_nil _ _, h⟩, fun ⟨_, h⟩ => h⟩
    · exact List.cons_ne_nil _ _

/-- A plus sign is no digit, so there is one way to take a numeral apart. -/
lemma dropPlus_of_digits (h : ∀ c ∈ digits, c.isDigit = true) : dropPlus digits = digits := by
  unfold dropPlus
  split
  · exact absurd (h '+' List.mem_cons_self) (by decide)
  · rfl

/-- A number may have a plus in front. -/
theorem natural?_dropPlus_eq_some_iff : natural? (dropPlus cs) = some n ↔ IsNumeral cs n := by
  rw [natural?_eq_some_iff]
  refine ⟨fun h => ?_, ?_⟩
  · by_cases plus : ∃ rest, cs = '+' :: rest
    · obtain ⟨rest, rfl⟩ := plus
      exact ⟨['+'], rest, rfl, .inr rfl, h⟩
    · have unsigned : dropPlus cs = cs := by
        unfold dropPlus
        split
        · exact absurd ⟨_, rfl⟩ plus
        · rfl
      rw [unsigned] at h
      exact ⟨[], cs, rfl, .inl rfl, h⟩
  · rintro ⟨sign, digits, rfl, rfl | rfl, nonempty, each, value⟩
    · rw [List.nil_append, dropPlus_of_digits each]
      exact ⟨nonempty, each, value⟩
    · exact ⟨nonempty, each, value⟩

/-- A word of 32 bits is read from the numerals for its number. -/
theorem word?_eq_some_iff {w : UInt32} : word? cs = some w ↔ IsNumeral cs w.toNat := by
  rw [← natural?_dropPlus_eq_some_iff, word?]
  cases natural? (dropPlus cs) with
  | none => exact ⟨nofun, nofun⟩
  | some n =>
    dsimp only
    split
    · rename_i small
      rw [Option.some.injEq, Option.some.injEq, ← UInt32.toNat_inj, UInt32.toNat_ofNat_of_lt' small]
    · rename_i large
      refine ⟨nofun, fun h => absurd w.toNat_lt ?_⟩
      rw [← Option.some.inj h]
      exact large

/-- The character of a digit is a digit and stands for it. -/
lemma isDigit_digitChar (h : n < 10) :
    (digitChar n).isDigit = true ∧ (digitChar n).toNat - '0'.toNat = n := by
  decide +revert

/-- The last digit counts for the least. -/
lemma valueOf_concat (cs : List Char) (c : Char) :
    valueOf (cs ++ [c]) = (c.toNat - '0'.toNat) + 10 * valueOf cs := by
  rw [valueOf, List.reverse_concat, List.map_cons, Nat.ofDigits_cons, valueOf]

/-- The digits of a number are digits and have its value. -/
lemma decimal_digits (n : Nat) :
    (∀ c ∈ decimal n, c.isDigit = true) ∧ valueOf (decimal n) = n := by
  induction n using Nat.strongRecOn with
  | ind n ih =>
    rw [decimal]
    split
    · rename_i small
      obtain ⟨digit, value⟩ := isDigit_digitChar small
      refine ⟨List.forall_mem_singleton.2 digit, ?_⟩
      rw [valueOf, List.reverse_singleton, List.map_singleton, Nat.ofDigits_singleton, value]
    · rename_i large
      obtain ⟨digit, value⟩ := isDigit_digitChar (Nat.mod_lt n (by decide : 0 < 10))
      obtain ⟨digits, values⟩ := ih (n / 10) (by omega)
      refine ⟨List.forall_mem_append.2 ⟨digits, List.forall_mem_singleton.2 digit⟩, ?_⟩
      rw [valueOf_concat, value, values, Nat.mod_add_div]

/-- A number has a digit. -/
lemma decimal_ne_nil (n : Nat) : decimal n ≠ [] := by
  rw [decimal]
  split <;> simp

/-- A number that is written is a numeral for itself. -/
theorem isNumeral_decimal (n : Nat) : IsNumeral (decimal n) n :=
  ⟨[], decimal n, rfl, .inl rfl, decimal_ne_nil n, decimal_digits n⟩

end

end ClassMetadata.Text
