import Mathlib.Data.Finset.Card
import ClassMetadata.Correlation.MethodIndex
import ClassMetadata.Proofs.Declaration.SignatureTable

/-!
# Laws of method indexes

An index of methods has, under every signature, the first method that bears it, and it has no
signature twice.

* `get?_ofMethods` is the answer of an index, and `keys_ofMethods` are its signatures.
* `ofHost_keeps_earliest` is about the index of a host type: what it finds, what it does not find,
  and how many signatures it has.
-/

namespace ClassMetadata

namespace MethodIndex

variable {μ : Type}

/-- The signatures of an index, in order. -/
def keys (index : MethodIndex μ) : List String := index.entries.map Prod.fst

/-- A signature finds nothing when it is not among the keys. -/
lemma get?_eq_none_iff (index : MethodIndex μ) (s : String) :
    index.get? s = none ↔ s ∉ index.keys := by
  rw [get?, List.lookup_eq_none_iff, keys, List.mem_map]
  refine ⟨?_, fun h p hp => ?_⟩
  · rintro h ⟨p, hp, rfl⟩
    exact absurd (h p hp) (by simp)
  · exact bne_iff_ne.2 fun e => h ⟨p, hp, e.symm⟩

/-- A method that is put in is found unless its signature was taken. -/
lemma get?_insertNew (index : MethodIndex μ) (s s' : String) (m : μ) :
    (index.insertNew s m).get? s' = (index.get? s').or (if s == s' then some m else none) := by
  rw [insertNew]
  cases taken : index.get? s with
  | some m' =>
    by_cases same : s = s'
    · cases same
      rw [taken, Option.some_or]
    · rw [beq_eq_false_iff_ne.2 same]
      exact Option.or_none.symm
  | none =>
    show (index.entries ++ [(s, m)]).lookup s' = _
    rw [List.lookup_append, List.lookup_cons, BEq.comm]
    cases s == s' <;> rfl

/-- A method brings its signature in if no earlier one has it. -/
lemma keys_insertNew (index : MethodIndex μ) (s : String) (m : μ) :
    (index.insertNew s m).keys = if s ∈ index.keys then index.keys else index.keys ++ [s] := by
  rw [insertNew]
  cases taken : index.get? s with
  | some m' =>
    have known : s ∈ index.keys := by
      by_contra new
      rw [(get?_eq_none_iff index s).2 new] at taken
      cases taken
    rw [if_pos known]
  | none =>
    rw [if_neg ((get?_eq_none_iff index s).1 taken), keys, List.map_append]
    rfl

variable (signature : μ → String) (methods : List μ)

/-- The last method of a host type is the last to come into its index. -/
lemma ofMethods_concat (m : μ) :
    ofMethods signature (methods ++ [m]) = (ofMethods signature methods).insertNew (signature m) m :=
  List.foldl_append

/-- An index has the first method that bears a signature. -/
theorem get?_ofMethods (s : String) :
    (ofMethods signature methods).get? s = methods.find? (signature · == s) := by
  induction methods using List.reverseRecOn with
  | nil => rfl
  | append_singleton methods m ih =>
    rw [ofMethods_concat, get?_insertNew, ih, List.find?_append, List.find?_singleton]

/-- The signatures of an index are those of the methods, each once. -/
theorem keys_ofMethods :
    (ofMethods signature methods).keys = (methods.map signature).eraseDups := by
  induction methods using List.reverseRecOn with
  | nil => rfl
  | append_singleton methods m ih =>
    rw [ofMethods_concat, keys_insertNew, ih, List.map_append]
    show _ = (methods.map signature ++ [signature m]).eraseDups
    rw [eraseDups_concat]
    simp only [List.mem_eraseDups]

/-- There are as many entries as there are different signatures. -/
lemma size_ofMethods :
    (ofMethods signature methods).size = (methods.map signature).eraseDups.length := by
  rw [← keys_ofMethods, keys, List.length_map, size]

/-- A signature that the list has is under its first bearer. -/
lemma get?_ofMethods_eq_some_iff (s : String) (m : μ) :
    (ofMethods signature methods).get? s = some m ↔ ∃ before after,
      methods = before ++ m :: after ∧ signature m = s ∧ ∀ m' ∈ before, signature m' ≠ s := by
  rw [get?_ofMethods, List.find?_eq_some_iff_append]
  refine ⟨?_, ?_⟩
  · rintro ⟨bears, before, after, split, others⟩
    exact ⟨before, after, split, beq_iff_eq.1 bears, fun m' hm' => by simpa using others m' hm'⟩
  · rintro ⟨before, after, split, bears, others⟩
    exact ⟨beq_iff_eq.2 bears, before, after, split, fun m' hm' => by simpa using others m' hm'⟩

/-- A signature finds nothing when no method has it. -/
lemma get?_ofMethods_eq_none_iff (s : String) :
    (ofMethods signature methods).get? s = none ↔ ∀ m ∈ methods, signature m ≠ s := by
  rw [get?_eq_none_iff, keys_ofMethods, List.mem_eraseDups, List.mem_map]
  exact ⟨fun h m hm bears => h ⟨m, hm, bears⟩, fun h ⟨m, hm, bears⟩ => h m hm bears⟩

/-- There are as many signatures in an index as the methods have different ones. -/
lemma size_ofMethods_eq_card :
    (ofMethods signature methods).size = (methods.map signature).toFinset.card := by
  rw [size_ofMethods, ← List.toFinset_card_of_nodup (nodup_eraseDups _)]
  congr 1
  ext s
  rw [List.mem_toFinset, List.mem_toFinset, List.mem_eraseDups]

/-- An index is empty when there are no methods. -/
lemma isEmpty_ofMethods : (ofMethods signature methods).isEmpty = true ↔ methods = [] := by
  rw [isEmpty, List.isEmpty_iff_length_eq_zero, ← size, size_ofMethods_eq_card, Finset.card_eq_zero,
    List.toFinset_eq_empty_iff, List.map_eq_nil_iff]

/-- The index of a host type keeps the earliest methods. Whatever its methods are and whatever
signatures they bear, the method under a signature is the first one that bears it, and there is none
if no method does. The size is the number of different signatures, and an index is empty only for a
host type without methods. -/
theorem ofHost_keeps_earliest {H ι φ : Type} [HostType H ι μ φ] (host : H) :
    (∀ s m, (ofHost host).get? s = some m ↔ ∃ before after,
      HostType.methods host = before ++ m :: after ∧ HostType.methodSignature host m = s ∧
        ∀ m' ∈ before, HostType.methodSignature host m' ≠ s) ∧
    (∀ s, (ofHost host).get? s = none ↔
      ∀ m ∈ HostType.methods host, HostType.methodSignature host m ≠ s) ∧
    (ofHost host).size =
      ((HostType.methods host).map (HostType.methodSignature host)).toFinset.card ∧
    ((ofHost host).isEmpty = true ↔ HostType.methods host = []) := by
  refine ⟨?_, ?_, ?_, ?_⟩
  · exact get?_ofMethods_eq_some_iff (HostType.methodSignature host) (HostType.methods host)
  · exact get?_ofMethods_eq_none_iff (HostType.methodSignature host) (HostType.methods host)
  · exact size_ofMethods_eq_card (HostType.methodSignature host) (HostType.methods host)
  · exact isEmpty_ofMethods (HostType.methodSignature host) (HostType.methods host)

/-- Of three methods with two signatures the last one is left out. -/
example : (ofMethods Prod.snd [(1, "a()V"), (2, "b()V"), (3, "a()V")]).entries =
    [("a()V", (1, "a()V")), ("b()V", (2, "b()V"))] := by
  decide

end MethodIndex

end ClassMetadata
