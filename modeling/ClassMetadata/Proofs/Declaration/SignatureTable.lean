import Mathlib.Data.List.Induction
import Mathlib.Data.List.Nodup
import Mathlib.Data.List.Perm.Subperm
import Mathlib.Order.Basic
import ClassMetadata.Declaration.SignatureTable

/-!
# Laws of signature tables

What a table answers and what it lists are two views of one thing as long as no signature stands in
it twice, which every write preserves.

* `get?_eq_some_iff`: the answers of a table are its entries.
* `agrees_iff`: two tables agree when they answer every signature alike.
* `eraseDups_concat`: first appearances, one more member at a time. This is how the keys of a table
  grow, and also the constructors of a class. Where members are equal without being the same,
  `eraseDups_concat_any` takes its place.
-/

namespace ClassMetadata

/-! ## First appearances -/

section

variable {α : Type}

/-- The next member is kept unless an equal one is. -/
lemma eraseDupsBy_loop_cons (r : α → α → Bool) (a : α) (l kept : List α) :
    List.eraseDupsBy.loop r (a :: l) kept =
      List.eraseDupsBy.loop r l (if kept.any (r a) then kept else a :: kept) := by
  rw [List.eraseDupsBy.loop]
  cases kept.any (r a) <;> rfl

/-- The last member is kept unless an equal one is. -/
lemma eraseDupsBy_loop_concat (r : α → α → Bool) (l : List α) (a : α) (kept : List α) :
    List.eraseDupsBy.loop r (l ++ [a]) kept =
      if (List.eraseDupsBy.loop r l kept).any (r a) then List.eraseDupsBy.loop r l kept
      else List.eraseDupsBy.loop r l kept ++ [a] := by
  induction l generalizing kept with
  | nil =>
    rw [List.nil_append, eraseDupsBy_loop_cons]
    show List.reverse _ = if kept.reverse.any (r a) then kept.reverse else kept.reverse ++ [a]
    rw [List.any_reverse]
    split
    · rfl
    · exact List.reverse_cons
  | cons b l ih => rw [List.cons_append, eraseDupsBy_loop_cons, eraseDupsBy_loop_cons, ih]

/-- One more member is a first appearance unless it is equal to one. -/
lemma eraseDups_concat_any [BEq α] (l : List α) (a : α) :
    (l ++ [a]).eraseDups = if l.eraseDups.any (a == ·) then l.eraseDups else l.eraseDups ++ [a] :=
  eraseDupsBy_loop_concat _ l a []

/-- No two first appearances are equal. -/
lemma pairwise_eraseDups [BEq α] [PartialEquivBEq α] (l : List α) :
    l.eraseDups.Pairwise fun a b => (a == b) = false := by
  induction l using List.reverseRecOn with
  | nil => exact .nil
  | append_singleton l a ih =>
    rw [eraseDups_concat_any]
    split
    · exact ih
    · rename_i new
      refine List.pairwise_append.2 ⟨ih, List.pairwise_singleton _ a, fun b hb c hc => ?_⟩
      rw [List.mem_singleton.1 hc, BEq.comm]
      refine Bool.eq_false_iff.2 fun same => new ?_
      exact List.any_eq_true.2 ⟨b, hb, same⟩

end

/-- One more member is a first appearance unless the list has it. -/
lemma eraseDups_concat {α : Type} [DecidableEq α] (l : List α) (a : α) :
    (l ++ [a]).eraseDups = if a ∈ l then l.eraseDups else l.eraseDups ++ [a] := by
  rw [eraseDups_concat_any]
  refine if_congr ?_ rfl rfl
  rw [List.any_beq, List.contains_iff_mem, List.mem_eraseDups]

/-- What is found first from the end is the last member, if that has the property. -/
lemma find?_reverse_concat {α : Type} (p : α → Bool) (l : List α) (a : α) :
    (l ++ [a]).reverse.find? p = if p a then some a else l.reverse.find? p := by
  rw [List.reverse_append, List.reverse_singleton, List.singleton_append, List.find?_cons]
  cases p a <;> rfl

/-- First appearances are all different. -/
lemma nodup_eraseDups {α : Type} [DecidableEq α] (l : List α) : l.eraseDups.Nodup :=
  (pairwise_eraseDups l).imp fun apart => beq_eq_false_iff_ne.1 apart

/-- Where all members are different, each is a first appearance. -/
lemma eraseDups_of_nodup {α : Type} [DecidableEq α] {l : List α} (h : l.Nodup) :
    l.eraseDups = l := by
  induction l using List.reverseRecOn with
  | nil => rfl
  | append_singleton l a ih =>
    obtain ⟨hl, -, apart⟩ := List.nodup_append.1 h
    have new : a ∉ l := fun ha => apart a ha a (List.mem_singleton_self a) rfl
    rw [eraseDups_concat, if_neg new, ih hl]

/-- First appearances stand in the order of the list. -/
lemma sublist_eraseDups {α : Type} [DecidableEq α] (l : List α) : l.eraseDups.Sublist l := by
  induction l using List.reverseRecOn with
  | nil => exact List.Sublist.refl _
  | append_singleton l a ih =>
    rw [eraseDups_concat]
    split
    · exact ih.trans (List.sublist_append_left l [a])
    · exact ih.append_right [a]

namespace SignatureTable

variable {α β : Type}

/-- A signature has an entry when it is among the keys. -/
lemma isSome_get?_iff (t : SignatureTable α) (s : String) : (t.get? s).isSome ↔ s ∈ t.keys := by
  rw [get?, List.lookup_isSome_iff, keys, List.mem_map]
  refine ⟨?_, ?_⟩
  · rintro ⟨p, hp, e⟩
    exact ⟨p, hp, (eq_of_beq e).symm⟩
  · rintro ⟨p, hp, e⟩
    exact ⟨p, hp, beq_iff_eq.2 e.symm⟩

/-- What a table answers is one of its entries. -/
lemma mem_of_get? {t : SignatureTable α} {s : String} {v : α} (h : t.get? s = some v) :
    (s, v) ∈ t.entries := by
  obtain ⟨l₁, l₂, e, -⟩ := List.lookup_eq_some_iff.1 h
  rw [e]
  exact List.mem_append_right _ (List.mem_cons_self)

/-- Where no signature stands twice, the answers of a table are its entries. -/
lemma get?_eq_some_iff {t : SignatureTable α} (nodup : t.keys.Nodup) {s : String} {v : α} :
    t.get? s = some v ↔ (s, v) ∈ t.entries := by
  refine ⟨mem_of_get?, fun h => ?_⟩
  obtain ⟨entries⟩ := t
  induction entries with
  | nil => cases h
  | cons entry entries ih =>
    obtain ⟨k, w⟩ := entry
    obtain ⟨hk, nodup⟩ := List.nodup_cons.1 nodup
    rcases List.mem_cons.1 h with e | hmem
    · cases e
      exact List.lookup_cons_self
    · have hs : (s == k) = false := by
        rw [beq_eq_false_iff_ne]
        rintro rfl
        exact hk (List.mem_map.2 ⟨_, hmem, rfl⟩)
      have := ih nodup hmem
      simpa [get?, List.lookup_cons, hs] using this

/-- After a write that may have no signature, only its signature has another entry. -/
lemma get?_insert? (t : SignatureTable α) (signature : Option String) (v : α) (s : String) :
    (t.insert? signature v).get? s = if signature = some s then some v else t.get? s := by
  cases signature with
  | none => rfl
  | some k => simp [insert?, get?_insert, eq_comm]

/-- Where keys are first appearances, a write lets its signature appear. -/
lemma keys_insert? {t : SignatureTable α} {l : List String} (h : t.keys = l.eraseDups)
    (signature : Option String) (v : α) :
    (t.insert? signature v).keys = (l ++ signature.toList).eraseDups := by
  cases signature with
  | none => simpa [insert?] using h
  | some s =>
    rw [insert?, keys_insert, h, Option.toList_some, eraseDups_concat]
    simp only [List.mem_eraseDups]

/-- Changing the places does not change the keys. -/
@[simp] lemma keys_map (f : α → β) (t : SignatureTable α) : (t.map f).keys = t.keys := by
  simp [keys, map, Function.comp_def]

/-- The entry of a signature is changed as all are. -/
@[simp] lemma get?_map (f : α → β) (t : SignatureTable α) (s : String) :
    (t.map f).get? s = (t.get? s).map f := by
  obtain ⟨entries⟩ := t
  simp only [map, get?]
  induction entries with
  | nil => rfl
  | cons entry entries ih =>
    obtain ⟨k, v⟩ := entry
    by_cases h : s = k
    · subst h
      simp
    · have hs : (s == k) = false := by simpa using h
      simp [List.lookup_cons, hs, ih]

/-- Listing what the places of a table lead to lists its keys, if every place leads somewhere. -/
lemma keys_of_listing {t : SignatureTable α} {g : α → Option β}
    (leads : ∀ s v, (s, v) ∈ t.entries → ∃ b, g v = some b) :
    (t.entries.filterMap fun (s, v) => (g v).map (s, ·)).map Prod.fst = t.keys := by
  obtain ⟨entries⟩ := t
  induction entries with
  | nil => rfl
  | cons entry entries ih =>
    obtain ⟨k, v⟩ := entry
    obtain ⟨b, hb⟩ := leads k v List.mem_cons_self
    have rest := ih fun s w h => leads s w (List.mem_cons_of_mem _ h)
    simpa [keys, hb] using rest

/-- Two tables agree when they answer every signature alike. -/
lemma agrees_iff [DecidableEq α] {t u : SignatureTable α} (ht : t.keys.Nodup) (hu : u.keys.Nodup) :
    t.agrees u = true ↔ ∀ s, t.get? s = u.get? s := by
  have length_keys : ∀ w : SignatureTable α, w.entries.length = w.keys.length := by
    intro w
    simp [keys]
  rw [agrees, Bool.and_eq_true, beq_iff_eq, length_keys, length_keys, List.all_eq_true]
  refine ⟨?_, ?_⟩
  · rintro ⟨len, same⟩ s
    have same : ∀ s ∈ t.keys, t.get? s = u.get? s := fun s hs => eq_of_beq (same s hs)
    have sub : t.keys ⊆ u.keys := by
      intro s hs
      rw [← isSome_get?_iff, ← same s hs]
      exact (isSome_get?_iff t s).2 hs
    -- as many keys without repetition, and all of `t` among those of `u`
    have perm : t.keys.Perm u.keys :=
      (ht.subperm sub).perm_of_length_le (Nat.le_of_eq len.symm)
    by_cases hs : s ∈ t.keys
    · exact same s hs
    · have hs' : s ∉ u.keys := fun h => hs (perm.mem_iff.2 h)
      rw [← isSome_get?_iff, Option.not_isSome_iff_eq_none] at hs hs'
      rw [hs, hs']
  · intro same
    refine ⟨?_, fun s _ => beq_iff_eq.2 (same s)⟩
    have mem : ∀ s, s ∈ t.keys ↔ s ∈ u.keys := by
      intro s
      rw [← isSome_get?_iff, ← isSome_get?_iff, same]
    exact ((List.perm_ext_iff_of_nodup ht hu).2 mem).length_eq

end SignatureTable

end ClassMetadata
