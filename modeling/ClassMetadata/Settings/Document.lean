/-!
# Settings documents

Settings are written as lines `key = value`, a fragment of TOML: a value is a string in any of the
four forms of that language or a truth value. Lines may be blank and may end in a comment. Other
kinds of value, tables and dotted keys are of no use in settings, and a document with one is not
read.

* Each scanner gives what it has found and the characters behind it, which are fewer than it was
  given (`length_assignment_lt`), so `assignments` comes to the end of a document.
-/

namespace ClassMetadata.Document

/-- What a key is set to. -/
inductive Value where
  | text (value : String)
  | truth (value : Bool)
  deriving DecidableEq, Repr

/-- One line of a document. -/
structure Assignment where
  key : String
  value : Value
  deriving DecidableEq, Repr

/-! ## Characters -/

/-- The character is a space or a tab. -/
def isSpace (c : Char) : Bool := c == ' ' || c == '\t'

/-- The character may stand in a comment and, where it means nothing else, in a string. -/
def isPlain (c : Char) : Bool := c == '\t' || (' ' ≤ c && c != '\x7f')

/-- The character may stand in a key without quotes. -/
def isKeyChar (c : Char) : Bool := c.isAlphanum || c == '_' || c == '-'

/-- The characters after a line break, if there is one. -/
def newline? : List Char → Option (List Char)
  | '\n' :: cs => some cs
  | '\r' :: '\n' :: cs => some cs
  | _ => none

/-- The characters without a line break in front. -/
def dropNewline (cs : List Char) : List Char := (newline? cs).getD cs

/-- The characters without the spaces, tabs and line breaks in front. -/
def dropBlankLines : List Char → List Char
  | ' ' :: cs => dropBlankLines cs
  | '\t' :: cs => dropBlankLines cs
  | '\n' :: cs => dropBlankLines cs
  | '\r' :: '\n' :: cs => dropBlankLines cs
  | cs => cs

/-- The value of a hexadecimal digit. -/
def hexDigit? (c : Char) : Option Nat :=
  if '0' ≤ c ∧ c ≤ '9' then some (c.toNat - '0'.toNat)
  else if 'a' ≤ c ∧ c ≤ 'f' then some (c.toNat - 'a'.toNat + 10)
  else if 'A' ≤ c ∧ c ≤ 'F' then some (c.toNat - 'A'.toNat + 10)
  else none

/-- The character whose code is written in exactly `count` hexadecimal digits. -/
def hexChar? (count : Nat) (cs : List Char) : Option (Char × List Char) := do
  let digits ← (cs.take count).mapM hexDigit?
  let code := digits.foldl (16 * · + ·) 0
  if digits.length = count ∧ code.isValidChar then some (Char.ofNat code, cs.drop count) else none

/-- The character that an escape stands for; the backslash was read. -/
def escape? : List Char → Option (Char × List Char)
  | 'b' :: cs => some ('\x08', cs)
  | 't' :: cs => some ('\t', cs)
  | 'n' :: cs => some ('\n', cs)
  | 'f' :: cs => some ('\x0c', cs)
  | 'r' :: cs => some ('\r', cs)
  | '"' :: cs => some ('"', cs)
  | '\\' :: cs => some ('\\', cs)
  | 'u' :: cs => hexChar? 4 cs
  | 'U' :: cs => hexChar? 8 cs
  | _ => none

/-- Behind an escape there is less text than before. -/
theorem length_escape_lt {cs rest : List Char} {c : Char} (h : escape? cs = some (c, rest)) :
    rest.length < cs.length := by
  have drop (count : Nat) (cs : List Char) {r : Char × List Char}
      (hr : hexChar? count cs = some r) : r.2.length ≤ cs.length := by
    unfold hexChar? at hr
    cases hd : (cs.take count).mapM hexDigit? with
    | none => rw [hd] at hr; cases hr
    | some digits =>
      rw [hd] at hr
      simp only [Option.bind_eq_bind, Option.bind_some] at hr
      split at hr <;> cases hr
      simp
  unfold escape? at h
  split at h
  case h_8 cs => exact Nat.lt_succ_of_le (drop 4 cs h)
  case h_9 cs => exact Nat.lt_succ_of_le (drop 8 cs h)
  all_goals cases h <;> simp

/-! ## Strings -/

/-- One more character in front of what a scanner has found. -/
def found (c : Char) : List Char × List Char → List Char × List Char
  | (text, rest) => (c :: text, rest)

/-- A string between single quotation marks, in which nothing is escaped. -/
def literal : List Char → Option (List Char × List Char)
  | [] => none
  | '\'' :: cs => some ([], cs)
  | c :: cs => if isPlain c then (literal cs).map (found c) else none

/-- A string between double quotation marks. -/
def basic : List Char → Option (List Char × List Char)
  | [] => none
  | '"' :: cs => some ([], cs)
  | '\\' :: cs =>
    match _escape : escape? cs with
    | some (c, rest) => (basic rest).map (found c)
    | none => none
  | c :: cs => if isPlain c then (basic cs).map (found c) else none
termination_by cs => cs.length
decreasing_by
  · have := length_escape_lt _escape
    simp only [List.length_cons]
    omega
  · simp

/-- The end of a string between three quotation marks at either end: after the three that close it,
up to two more belong to the string. -/
def closing (quote : Char) (cs : List Char) : List Char × List Char :=
  let extra := (cs.take 2).takeWhile (· == quote)
  (extra, cs.drop extra.length)

/-- A string between three single quotation marks; it may have line breaks. -/
def longLiteral : List Char → Option (List Char × List Char)
  | [] => none
  | '\'' :: '\'' :: '\'' :: cs => some (closing '\'' cs)
  | '\r' :: '\n' :: cs => (longLiteral cs).map (found '\n')
  | c :: cs => if isPlain c || c == '\n' then (longLiteral cs).map (found c) else none

/-- The characters behind a line break that a backslash hides: only blank lines and the spaces in
front of the next line. -/
def hiddenBreak? (cs : List Char) : Option (List Char) :=
  (newline? (cs.dropWhile isSpace)).map dropBlankLines

/-- Without its blank lines a text is not longer. -/
theorem length_dropBlankLines_le (cs : List Char) : (dropBlankLines cs).length ≤ cs.length := by
  fun_induction dropBlankLines cs <;> simp_all <;> omega

/-- Behind a line break there is less text than before. -/
theorem length_newline_lt {cs rest : List Char} (h : newline? cs = some rest) :
    rest.length < cs.length := by
  unfold newline? at h
  split at h <;> cases h <;> simp only [List.length_cons] <;> omega

/-- Behind a hidden line break there is less text than before. -/
theorem length_hiddenBreak_lt {cs rest : List Char} (h : hiddenBreak? cs = some rest) :
    rest.length < cs.length := by
  obtain ⟨line, hline, rfl⟩ := Option.map_eq_some_iff.1 h
  have := length_newline_lt hline
  have := length_dropBlankLines_le line
  have : (cs.dropWhile isSpace).length ≤ cs.length := (List.dropWhile_sublist _).length_le
  omega

/-- A string between three double quotation marks; it may have line breaks, and it may hide them. -/
def longBasic : List Char → Option (List Char × List Char)
  | [] => none
  | '"' :: '"' :: '"' :: cs => some (closing '"' cs)
  | '\\' :: cs =>
    match _break : hiddenBreak? cs with
    | some rest => longBasic rest
    | none =>
      match _escape : escape? cs with
      | some (c, rest) => (longBasic rest).map (found c)
      | none => none
  | '\r' :: '\n' :: cs => (longBasic cs).map (found '\n')
  | c :: cs => if isPlain c || c == '\n' then (longBasic cs).map (found c) else none
termination_by cs => cs.length
decreasing_by
  · have := length_hiddenBreak_lt _break
    simp only [List.length_cons]
    omega
  · have := length_escape_lt _escape
    simp only [List.length_cons]
    omega
  · simp only [List.length_cons]
    omega
  · simp

/-- A string of any form. -/
def string? : List Char → Option (List Char × List Char)
  | '"' :: '"' :: '"' :: cs => longBasic (dropNewline cs)
  | '"' :: cs => basic cs
  | '\'' :: '\'' :: '\'' :: cs => longLiteral (dropNewline cs)
  | '\'' :: cs => literal cs
  | _ => none

/-! ## Lines -/

/-- A value. -/
def value? : List Char → Option (Value × List Char)
  | 't' :: 'r' :: 'u' :: 'e' :: cs => some (.truth true, cs)
  | 'f' :: 'a' :: 'l' :: 's' :: 'e' :: cs => some (.truth false, cs)
  | cs => (string? cs).map fun (text, rest) => (.text (String.ofList text), rest)

/-- A key: a word, or a string on one line. -/
def key? : List Char → Option (String × List Char)
  | '"' :: cs => (basic cs).map fun (key, rest) => (String.ofList key, rest)
  | '\'' :: cs => (literal cs).map fun (key, rest) => (String.ofList key, rest)
  | cs =>
    let key := cs.takeWhile isKeyChar
    if key.isEmpty then none else some (String.ofList key, cs.dropWhile isKeyChar)

/-- The characters behind an equals sign. -/
def equals? : List Char → Option (List Char)
  | '=' :: cs => some cs
  | _ => none

/-- The characters behind a comment, if there is one. -/
def dropComment : List Char → List Char
  | '#' :: cs => cs.dropWhile isPlain
  | cs => cs

/-- The characters behind the end of a line, which may have spaces and a comment. -/
def lineEnd? (cs : List Char) : Option (List Char) :=
  match dropComment (cs.dropWhile isSpace) with
  | [] => some []
  | cs => newline? cs

/-- An assignment and the end of its line; the spaces in front of the key were read. -/
def assignment? (cs : List Char) : Option (Assignment × List Char) := do
  let (key, cs) ← key? cs
  let cs ← equals? (cs.dropWhile isSpace)
  let (value, cs) ← value? (cs.dropWhile isSpace)
  let cs ← lineEnd? cs
  return (⟨key, value⟩, cs)

/-! ## Scanning comes to an end -/

/-- A found character does not change what is behind. -/
theorem exists_of_found {c : Char} {scan : Option (List Char × List Char)} {text rest : List Char}
    (h : scan.map (found c) = some (text, rest)) : ∃ inner, scan = some (inner, rest) := by
  obtain ⟨⟨inner, r⟩, hr, he⟩ := Option.map_eq_some_iff.1 h
  cases he
  exact ⟨inner, hr⟩

/-- Behind a literal string there is no more text than before. -/
theorem length_literal_le {cs text rest : List Char} (h : literal cs = some (text, rest)) :
    rest.length ≤ cs.length := by
  fun_induction literal cs generalizing text with
  | case1 => cases h
  | case2 cs => cases h; simp
  | case3 c cs _ _ ih =>
    obtain ⟨inner, hinner⟩ := exists_of_found h
    exact Nat.le_succ_of_le (ih hinner)
  | case4 => cases h

/-- Behind a basic string there is no more text than before. -/
theorem length_basic_le {cs text rest : List Char} (h : basic cs = some (text, rest)) :
    rest.length ≤ cs.length := by
  fun_induction basic cs generalizing text with
  | case1 => cases h
  | case2 cs => cases h; simp
  | case3 cs c after hescape ih =>
    have := length_escape_lt hescape
    obtain ⟨inner, hinner⟩ := exists_of_found h
    have := ih hinner
    simp only [List.length_cons]
    omega
  | case4 => cases h
  | case5 c cs _ _ _ ih =>
    obtain ⟨inner, hinner⟩ := exists_of_found h
    exact Nat.le_succ_of_le (ih hinner)
  | case6 => cases h

/-- Behind the quotes that close a long string there is no more text than before. -/
theorem length_closing_le {quote : Char} {cs text rest : List Char}
    (h : closing quote cs = (text, rest)) : rest.length ≤ cs.length := by
  cases h
  simp

/-- Behind a long literal string there is no more text than before. -/
theorem length_longLiteral_le {cs text rest : List Char}
    (h : longLiteral cs = some (text, rest)) : rest.length ≤ cs.length := by
  fun_induction longLiteral cs generalizing text with
  | case1 => cases h
  | case2 cs =>
    have := length_closing_le (Option.some.inj h)
    simp only [List.length_cons]
    omega
  | case3 cs ih =>
    obtain ⟨inner, hinner⟩ := exists_of_found h
    have := ih hinner
    simp only [List.length_cons]
    omega
  | case4 c cs _ _ _ ih =>
    obtain ⟨inner, hinner⟩ := exists_of_found h
    exact Nat.le_succ_of_le (ih hinner)
  | case5 => cases h

/-- Behind a long basic string there is no more text than before. -/
theorem length_longBasic_le {cs text rest : List Char}
    (h : longBasic cs = some (text, rest)) : rest.length ≤ cs.length := by
  fun_induction longBasic cs generalizing text with
  | case1 => cases h
  | case2 cs =>
    have := length_closing_le (Option.some.inj h)
    simp only [List.length_cons]
    omega
  | case3 cs after hbreak ih =>
    have := length_hiddenBreak_lt hbreak
    have := ih h
    simp only [List.length_cons]
    omega
  | case4 cs _ c after hescape ih =>
    have := length_escape_lt hescape
    obtain ⟨inner, hinner⟩ := exists_of_found h
    have := ih hinner
    simp only [List.length_cons]
    omega
  | case5 => cases h
  | case6 cs ih =>
    obtain ⟨inner, hinner⟩ := exists_of_found h
    have := ih hinner
    simp only [List.length_cons]
    omega
  | case7 c cs _ _ _ _ ih =>
    obtain ⟨inner, hinner⟩ := exists_of_found h
    exact Nat.le_succ_of_le (ih hinner)
  | case8 => cases h

/-- Behind a string of any kind there is no more text than before. -/
theorem length_string_le {cs text rest : List Char} (h : string? cs = some (text, rest)) :
    rest.length ≤ cs.length := by
  have newline (cs : List Char) : (dropNewline cs).length ≤ cs.length := by
    unfold dropNewline
    cases hn : newline? cs with
    | none => simp
    | some rest => exact Nat.le_of_lt (length_newline_lt hn)
  unfold string? at h
  split at h
  · rename_i cs
    have := length_longBasic_le h
    have := newline cs
    simp only [List.length_cons]
    omega
  · exact Nat.le_succ_of_le (length_basic_le h)
  · rename_i cs
    have := length_longLiteral_le h
    have := newline cs
    simp only [List.length_cons]
    omega
  · exact Nat.le_succ_of_le (length_literal_le h)
  · cases h

/-- Behind a value there is no more text than before. -/
theorem length_value_le {cs rest : List Char} {value : Value} (h : value? cs = some (value, rest)) :
    rest.length ≤ cs.length := by
  unfold value? at h
  split at h
  · cases h; simp; omega
  · cases h; simp; omega
  · obtain ⟨⟨text, r⟩, hr, he⟩ := Option.map_eq_some_iff.1 h
    cases he
    exact length_string_le hr

/-- Behind a key there is no more text than before. -/
theorem length_key_le {cs rest : List Char} {key : String} (h : key? cs = some (key, rest)) :
    rest.length ≤ cs.length := by
  unfold key? at h
  split at h
  · obtain ⟨⟨text, r⟩, hr, he⟩ := Option.map_eq_some_iff.1 h
    cases he
    exact Nat.le_succ_of_le (length_basic_le hr)
  · obtain ⟨⟨text, r⟩, hr, he⟩ := Option.map_eq_some_iff.1 h
    cases he
    exact Nat.le_succ_of_le (length_literal_le hr)
  · dsimp only at h
    split at h <;> cases h
    exact (List.dropWhile_sublist _).length_le

/-- The end of a line takes a character, unless nothing is left. -/
theorem length_lineEnd_lt {cs rest : List Char} (h : lineEnd? cs = some rest) (hcs : cs ≠ []) :
    rest.length < cs.length := by
  have comment (cs : List Char) : (dropComment cs).length ≤ cs.length := by
    unfold dropComment
    split
    · exact Nat.le_succ_of_le (List.dropWhile_sublist _).length_le
    · exact Nat.le_refl _
  have := comment (cs.dropWhile isSpace)
  have : (cs.dropWhile isSpace).length ≤ cs.length := (List.dropWhile_sublist _).length_le
  unfold lineEnd? at h
  split at h
  · cases h
    exact List.length_pos_iff.2 hcs
  · have := length_newline_lt h
    omega

/-- Behind the end of a line there is no more text than before. -/
theorem length_lineEnd_le {cs rest : List Char} (h : lineEnd? cs = some rest) :
    rest.length ≤ cs.length := by
  by_cases hcs : cs = []
  · subst hcs
    cases h
    exact Nat.le_refl _
  · exact Nat.le_of_lt (length_lineEnd_lt h hcs)

/-- Behind an assignment there is less text than before. -/
theorem length_assignment_lt {cs rest : List Char} {a : Assignment}
    (h : assignment? cs = some (a, rest)) : rest.length < cs.length := by
  simp only [assignment?, Option.bind_eq_bind, Option.bind_eq_some_iff, Option.pure_def,
    Option.some.injEq, Prod.mk.injEq] at h
  obtain ⟨⟨key, cs₁⟩, hkey, cs₂, hequals, ⟨value, cs₃⟩, hvalue, cs₄, hend, -, rfl⟩ := h
  have h₁ := length_key_le hkey
  have h₂ : (cs₁.dropWhile isSpace).length ≤ cs₁.length := (List.dropWhile_sublist _).length_le
  have h₃ : cs₂.length < (cs₁.dropWhile isSpace).length := by
    unfold equals? at hequals
    split at hequals <;> cases hequals
    rename_i heq
    rw [heq]
    simp
  have h₄ : (cs₂.dropWhile isSpace).length ≤ cs₂.length := (List.dropWhile_sublist _).length_le
  have h₅ := length_value_le hvalue
  have h₆ := length_lineEnd_le hend
  dsimp only at *
  omega

/-! ## Documents -/

/-- The assignments of a document, in order. -/
def assignments (cs : List Char) : Option (List Assignment) :=
  match _line : cs.dropWhile isSpace with
  | [] => some []
  | c :: rest =>
    match _blank : lineEnd? (c :: rest) with
    | some after => assignments after
    | none =>
      match _assignment : assignment? (c :: rest) with
      | some (a, after) => (assignments after).map (a :: ·)
      | none => none
termination_by cs.length
decreasing_by
  · have : (cs.dropWhile isSpace).length ≤ cs.length := (List.dropWhile_sublist _).length_le
    have := length_lineEnd_lt _blank (List.cons_ne_nil c rest)
    rw [_line] at *
    omega
  · have : (cs.dropWhile isSpace).length ≤ cs.length := (List.dropWhile_sublist _).length_le
    have := length_assignment_lt _assignment
    rw [_line] at *
    omega

/-- The assignments that a text makes. A byte order mark in front of it says nothing. -/
def ofText (text : String) : Option (List Assignment) :=
  match text.toList with
  | '\ufeff' :: cs => assignments cs
  | cs => assignments cs

end ClassMetadata.Document
