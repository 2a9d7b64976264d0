/-!
# Signature tables

A table from signatures to places in a list of members, in the order in which the signatures first
appeared. Writing to a signature that is there replaces its place and keeps its rank.

* `get?_insert` says what a write does to look-up, and `keys_insert` what it does to the order.
-/

namespace ClassMetadata

/-- A table with an entry for each of some signatures. -/
structure SignatureTable (α : Type) where
  entries : List (String × α)
  deriving DecidableEq, Repr

namespace SignatureTable

variable {α : Type}

/-- The table without entries. -/
def empty : SignatureTable α := ⟨[]⟩

/-- The entry of a signature. -/
def get? (t : SignatureTable α) (signature : String) : Option α :=
  t.entries.lookup signature

/-- The signatures of a table, in order of first appearance. -/
def keys (t : SignatureTable α) : List String := t.entries.map Prod.fst

/-- The entries with that of a signature replaced, or put at the end where there is none. -/
def insertEntry (signature : String) (value : α) : List (String × α) → List (String × α)
  | [] => [(signature, value)]
  | (s, v) :: entries =>
    if signature = s then (s, value) :: entries else (s, v) :: insertEntry signature value entries

/-- The table after a write. -/
def insert (t : SignatureTable α) (signature : String) (value : α) : SignatureTable α :=
  ⟨insertEntry signature value t.entries⟩

/-- The table after a write, if there is a signature to write to. -/
def insert? (t : SignatureTable α) (signature : Option String) (value : α) : SignatureTable α :=
  match signature with
  | some s => t.insert s value
  | none => t

/-- The table with every place changed by a function. -/
def map {β : Type} (f : α → β) (t : SignatureTable α) : SignatureTable β :=
  ⟨t.entries.map fun (signature, value) => (signature, f value)⟩

/-- Two tables have the same entries, in whatever order. -/
def agrees [DecidableEq α] (t u : SignatureTable α) : Bool :=
  t.entries.length == u.entries.length && t.keys.all fun s => t.get? s == u.get? s

/-- After a write, the signature has the new entry and every other one its old. -/
theorem get?_insert (t : SignatureTable α) (signature s : String) (value : α) :
    (t.insert signature value).get? s = if s = signature then some value else t.get? s := by
  obtain ⟨entries⟩ := t
  simp only [insert, get?]
  induction entries with
  | nil =>
    by_cases h : s = signature
    · simp [insertEntry, h]
    · have : (s == signature) = false := by simpa using h
      simp [insertEntry, List.lookup_cons, this, h]
  | cons entry entries ih =>
    obtain ⟨k, v⟩ := entry
    by_cases hk : signature = k
    · subst hk
      by_cases h : s = signature
      · simp [insertEntry, h]
      · have : (s == signature) = false := by simpa using h
        simp [insertEntry, List.lookup_cons, this, h]
    · by_cases h : s = k
      · have hs : ¬ s = signature := fun e => hk (e.symm.trans h)
        have : (s == k) = true := by simpa using h
        simp [insertEntry, hk, List.lookup_cons, this, hs]
      · have : (s == k) = false := by simpa using h
        simp [insertEntry, hk, List.lookup_cons, this, ih]

/-- A write adds its signature behind all others, unless the table has it. -/
theorem keys_insert (t : SignatureTable α) (signature : String) (value : α) :
    (t.insert signature value).keys =
      if signature ∈ t.keys then t.keys else t.keys ++ [signature] := by
  obtain ⟨entries⟩ := t
  simp only [insert, keys]
  induction entries with
  | nil => simp [insertEntry]
  | cons entry entries ih =>
    obtain ⟨k, v⟩ := entry
    by_cases hk : signature = k
    · simp [insertEntry, hk]
    · simp only [insertEntry, hk, if_false, List.map_cons, ih, List.mem_cons, false_or]
      by_cases h : signature ∈ entries.map Prod.fst <;> simp [h]

end SignatureTable

end ClassMetadata
