import Mathlib.Data.List.Induction

/-!
# Runs and what they remember

Questions put one after the other to something that may change with each of them, and tables that
keep what was answered.

* `stateAfter` is the state behind some inputs, and `logOf` are the inputs with their outputs. Both
  go through lists of inputs joined together (`stateAfter_append`, `logOf_append`).
* `Remembers` ties a table of answers to the requests whose answers it keeps: a key finds what
  answers the earliest request with an equal key. A request whose key is found changes nothing
  (`Remembers.again`), and any other one is kept behind the others (`Remembers.concat`).
-/

namespace ClassMetadata

section

variable {σ α β : Type} (step : σ → α → β × σ)

/-- The state behind inputs. -/
def stateAfter (s : σ) (inputs : List α) : σ := inputs.foldl (fun s a => (step s a).2) s

/-- Inputs one after the other, each with its output. -/
def logOf : σ → List α → List (α × β)
  | _, [] => []
  | s, a :: inputs => (a, (step s a).1) :: logOf (step s a).2 inputs

/-- Inputs that follow each other are taken one after the other. -/
lemma stateAfter_append (s : σ) (inputs inputs' : List α) :
    stateAfter step s (inputs ++ inputs') = stateAfter step (stateAfter step s inputs) inputs' :=
  List.foldl_append

/-- The last input is taken in the state behind all others. -/
lemma stateAfter_concat (s : σ) (inputs : List α) (a : α) :
    stateAfter step s (inputs ++ [a]) = (step (stateAfter step s inputs) a).2 :=
  stateAfter_append step s inputs [a]

/-- A log goes on from the state behind its first part. -/
lemma logOf_append (s : σ) (inputs inputs' : List α) :
    logOf step s (inputs ++ inputs') =
      logOf step s inputs ++ logOf step (stateAfter step s inputs) inputs' := by
  induction inputs generalizing s with
  | nil => rfl
  | cons a inputs ih =>
    rw [List.cons_append, logOf, ih]
    rfl

/-- The log ends with what the last input comes to. -/
lemma logOf_concat (s : σ) (inputs : List α) (a : α) :
    logOf step s (inputs ++ [a]) =
      logOf step s inputs ++ [(a, (step (stateAfter step s inputs) a).1)] :=
  logOf_append step s inputs [a]

end

/-! ## Tables of answers -/

section

variable {κ ι ε α : Type} [BEq ι] {key : κ → ι} {answer : κ → Except ε α} {requests : List κ}
  {table : List (ι × α)} {request : κ}

/-- A table keeps the answers to requests: a key finds what answers the earliest request with an
equal key. -/
def Remembers (key : κ → ι) (answer : κ → Except ε α) (requests : List κ)
    (table : List (ι × α)) : Prop :=
  ∀ i, (table.lookup i).map .ok = (requests.find? (i == key ·)).map answer

namespace Remembers

/-- Without requests nothing is remembered. -/
lemma nil : Remembers key answer [] [] := fun _ => rfl

/-- What a key finds answers the earliest request with an equal key. -/
lemma of_lookup (h : Remembers key answer requests table) {i : ι} {a : α}
    (found : table.lookup i = some a) :
    ∃ r, requests.find? (i == key ·) = some r ∧ answer r = .ok a := by
  have := h i
  rw [found] at this
  exact Option.map_eq_some_iff.1 this.symm

/-- What the table does not have was never asked for. -/
lemma find?_eq_none (h : Remembers key answer requests table) {i : ι}
    (unknown : table.lookup i = none) : requests.find? (i == key ·) = none := by
  have := h i
  rw [unknown] at this
  exact Option.map_eq_none_iff.1 this.symm

/-- A key finds something if one of the requests has an equal key. -/
lemma isSome_lookup (h : Remembers key answer requests table) (i : ι) :
    (table.lookup i).isSome = requests.any (i == key ·) := by
  have := congrArg Option.isSome (h i)
  rwa [Option.isSome_map, Option.isSome_map, List.isSome_find?] at this

/-- What is remembered is only what the table answers. -/
lemma congr (h : Remembers key answer requests table) {table' : List (ι × α)}
    (same : ∀ i, table'.lookup i = table.lookup i) : Remembers key answer requests table' :=
  fun i => (congrArg _ (same i)).trans (h i)

/-- A request with a known key is no earliest one. -/
theorem again [PartialEquivBEq ι] (h : Remembers key answer requests table) {a : α}
    (found : table.lookup (key request) = some a) :
    Remembers key answer (requests ++ [request]) table := by
  intro i
  rw [h i, List.find?_append]
  cases hi : requests.find? (i == key ·) with
  | some r => rfl
  | none =>
    -- a key equal to the new one would have found the earlier request
    obtain ⟨r, hr, -⟩ := h.of_lookup found
    have other : (i == key request) = false := by
      refine Bool.eq_false_iff.2 fun same => ?_
      have earlier : (key request == key r) = true := by simpa using List.find?_some hr
      exact List.find?_eq_none.1 hi r (List.mem_of_find?_eq_some hr) (BEq.trans same earlier)
    rw [List.find?_singleton, other]
    rfl

/-- The answer to one more request is kept behind the others. -/
theorem concat (h : Remembers key answer requests table) {a : α} (ha : answer request = .ok a) :
    Remembers key answer (requests ++ [request]) (table ++ [(key request, a)]) := by
  intro i
  rw [List.lookup_append, List.find?_append, Option.map_or, Option.map_or, h i,
    List.find?_singleton, List.lookup_cons]
  cases i == key request with
  | true => exact congrArg _ (congrArg some ha.symm)
  | false => rfl

end Remembers

end

end ClassMetadata
