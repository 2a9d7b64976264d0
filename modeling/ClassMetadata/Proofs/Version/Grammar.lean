import ClassMetadata.Proofs.Text.Grammar
import ClassMetadata.Version

/-!
# The text of a version

A text shows a version when it is three numerals with points in between, whatever blanks stand around
it.

* `Version.Shows` is this grammar, and `ofText_eq_ok_iff` says that it is what is read.
* `Version.shows_text` puts the text of a version among blanks, and so it is read back.
-/

namespace ClassMetadata.Version

open Text

/-- A text shows a version: without the blanks around it, it is cut by points into three parts, and
these are numerals for the components. A component is a word of 32 bits. -/
def Shows (text : String) (v : Version) : Prop :=
  ∃ core major minor patch, Trims text.toList core ∧ Splits '.' core [major, minor, patch] ∧
    IsNumeral major v.major.toNat ∧ IsNumeral minor v.minor.toNat ∧ IsNumeral patch v.patch.toNat

section

variable {text : String} {v : Version} {parts : List (List Char)} {major minor patch : List Char}

/-- Three parts are read if each is. -/
lemma ofText_of_parts (h : splitOn '.' (trim text.toList) = [major, minor, patch]) :
    ofText text = .ok v ↔
      word? major = some v.major ∧ word? minor = some v.minor ∧ word? patch = some v.patch := by
  obtain ⟨a, b, c⟩ := v
  rw [ofText, h]
  dsimp only
  cases word? major with
  | none => simp [bind, Except.bind]
  | some a' =>
    cases word? minor with
    | none => simp [bind, Except.bind]
    | some b' => cases word? patch <;> simp [bind, Except.bind, pure, Except.pure]

/-- A text that is read has three parts. -/
lemma exists_parts (h : ofText text = .ok v) :
    ∃ major minor patch, splitOn '.' (trim text.toList) = [major, minor, patch] := by
  rw [ofText] at h
  split at h
  · rename_i hparts
    exact ⟨_, _, _, hparts⟩
  · cases h

/-- A version is read from the texts that show it. -/
lemma ofText_eq_ok_iff : ofText text = .ok v ↔ Shows text v := by
  refine ⟨fun h => ?_, ?_⟩
  · obtain ⟨major, minor, patch, hparts⟩ := exists_parts h
    rw [ofText_of_parts hparts, word?_eq_some_iff, word?_eq_some_iff, word?_eq_some_iff] at h
    exact ⟨_, major, minor, patch, trim_eq_iff.1 rfl, splitOn_eq_iff.1 hparts, h⟩
  · rintro ⟨core, major, minor, patch, trims, splits, h⟩
    have hparts : splitOn '.' (trim text.toList) = [major, minor, patch] := by
      rw [trim_eq_iff.2 trims, splitOn_eq_iff.2 splits]
    rwa [ofText_of_parts hparts, word?_eq_some_iff, word?_eq_some_iff, word?_eq_some_iff]

end

/-! ## Reading back -/

/-- A digit is neither a blank nor a point. -/
lemma not_blank_of_isDigit {c : Char} (h : c.isDigit = true) : isBlank c = false ∧ c ≠ '.' := by
  have others : ('.' :: blanks).all (fun b => !b.isDigit) = true := by decide
  have free : c ∉ '.' :: blanks := fun held => by
    have other := List.all_eq_true.1 others c held
    rw [h] at other
    cases other
  rw [List.mem_cons, not_or] at free
  refine ⟨?_, free.1⟩
  rw [isBlank, List.contains_eq_mem, decide_eq_false_iff_not]
  exact free.2

/-- The characters of a version's text. -/
lemma toList_text (v : Version) : v.text.toList =
    ['.'].intercalate [decimal v.major.toNat, decimal v.minor.toNat, decimal v.patch.toNat] := by
  simp [text, showNat, List.intercalate]

/-- A text that starts with the digits of a number does not start with a blank. -/
lemma noBlankFirst_digits {digits rest : List Char} (nonempty : digits ≠ [])
    (each : ∀ c ∈ digits, c.isDigit = true) : NoBlankFirst (digits ++ rest) := by
  obtain ⟨c, digits, rfl⟩ := List.exists_cons_of_ne_nil nonempty
  intro first h
  cases h
  exact (not_blank_of_isDigit (each c List.mem_cons_self)).1

/-- The text of a version shows the version, with any blanks around it. -/
lemma shows_text (v : Version) {before after : String} (blank : AllBlank before.toList)
    (blank' : AllBlank after.toList) : Shows (before ++ v.text ++ after) v := by
  obtain ⟨majorDigits, -⟩ := decimal_digits v.major.toNat
  obtain ⟨minorDigits, -⟩ := decimal_digits v.minor.toNat
  obtain ⟨patchDigits, -⟩ := decimal_digits v.patch.toNat
  have undotted {cs : List Char} (each : ∀ c ∈ cs, c.isDigit = true) : '.' ∉ cs :=
    fun held => (not_blank_of_isDigit (each '.' held)).2 rfl
  refine ⟨v.text.toList, _, _, _, ⟨before.toList, after.toList, ?_, blank, blank', ?_, ?_⟩,
    ⟨List.cons_ne_nil _ _, toList_text v, ?_⟩, isNumeral_decimal _, isNumeral_decimal _,
    isNumeral_decimal _⟩
  · rw [String.toList_append, String.toList_append]
  · rw [toList_text]
    exact noBlankFirst_digits (decimal_ne_nil _) majorDigits
  · -- from behind, the digits of the last component come first
    have behind : v.text.toList.reverse = (decimal v.patch.toNat).reverse ++
        (['.'].intercalate [decimal v.major.toNat, decimal v.minor.toNat] ++ ['.']).reverse := by
      rw [toList_text, ← List.reverse_append]
      simp [List.intercalate]
    rw [behind]
    refine noBlankFirst_digits (mt List.reverse_eq_nil_iff.1 (decimal_ne_nil _)) fun c hc => ?_
    exact patchDigits c (List.mem_reverse.1 hc)
  · intro part hpart
    simp only [List.mem_cons, List.not_mem_nil, or_false] at hpart
    rcases hpart with rfl | rfl | rfl
    · exact undotted majorDigits
    · exact undotted minorDigits
    · exact undotted patchDigits

/-- A text is read exactly when it shows a version, and as that version. The text of a version shows
it, so it is read back, whatever blanks stand around it. -/
theorem ofText_follows_grammar :
    (∀ text v, ofText text = .ok v ↔ Shows text v) ∧
    ∀ (v : Version) (before after : String), AllBlank before.toList → AllBlank after.toList →
      ofText (before ++ v.text ++ after) = .ok v :=
  ⟨fun _ _ => ofText_eq_ok_iff, fun v _ _ blank blank' => ofText_eq_ok_iff.2 (shows_text v blank blank')⟩

/-- A text with a sign, leading zeros and blanks around it, and the text of a version among blanks of
other kinds. -/
theorem ofText_follows_grammar_padded :
    Shows "\t+01.009.4294967295 " ⟨1, 9, 4294967295⟩ ∧
    AllBlank "\u3000\n".toList ∧ AllBlank "\u2028".toList ∧
      ofText ("\u3000\n" ++ text ⟨1, 9, 0⟩ ++ "\u2028") = .ok ⟨1, 9, 0⟩ := by
  obtain ⟨reads, among⟩ := ofText_follows_grammar
  have before : AllBlank "\u3000\n".toList := by decide
  have after : AllBlank "\u2028".toList := by decide
  exact ⟨(reads _ _).1 (by rfl), before, after, among ⟨1, 9, 0⟩ _ _ before after⟩

end ClassMetadata.Version
