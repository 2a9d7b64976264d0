import ClassMetadata.Proofs.Declaration.Building

/-!
# Classes built one behind the other

Two lists of edits, one behind the other, build a class that has the members of both classes, in this
order. What both of them answer is answered as by the second.

* `Joins` says this of three classes, and `build_joins` is the theorem.
* `build_append_flags` and `build_append_name`: the second class has its flags and its name only if
  its own edits set them.
-/

namespace ClassMetadata

/-- First appearances in two lists, one behind the other: those in the first, and then those in the
second of what the first does not have. -/
lemma eraseDups_append_filter {α : Type} [DecidableEq α] (l l' : List α) :
    (l ++ l').eraseDups = l.eraseDups ++ l'.eraseDups.filter (· ∉ l.eraseDups) := by
  induction l' using List.reverseRecOn with
  | nil => simp
  | append_singleton l' a ih =>
    rw [← List.append_assoc, eraseDups_concat, eraseDups_concat, ih]
    by_cases again : a ∈ l'
    · rw [if_pos (List.mem_append_right l again), if_pos again]
    rw [if_neg again, List.filter_append, ← List.append_assoc]
    by_cases known : a ∈ l
    · rw [if_pos (List.mem_append_left l' known)]
      simp [known]
    · rw [if_neg (by simp [known, again])]
      simp [known]

/-- What two lists set last, one behind the other, is what the second sets last, if it sets
anything. -/
lemma getLast?_filterMap_append {α β : Type} (set? : α → Option β) (l l' : List α) (b : β) :
    ((l ++ l').filterMap set?).getLast?.getD b =
      if l'.any (fun a => (set? a).isSome) then (l'.filterMap set?).getLast?.getD b
      else (l.filterMap set?).getLast?.getD b := by
  rw [List.filterMap_append, List.getLast?_append]
  by_cases sets : l'.any (fun a => (set? a).isSome) = true
  · rw [if_pos sets]
    obtain ⟨a, ha, hset⟩ := List.any_eq_true.1 sets
    obtain ⟨b', hb'⟩ := Option.isSome_iff_exists.1 hset
    have hne : l'.filterMap set? ≠ [] := List.ne_nil_of_mem (List.mem_filterMap.2 ⟨a, ha, hb'⟩)
    rw [List.getLast?_eq_some_getLast hne]
    rfl
  · rw [if_neg sets]
    have none : l'.filterMap set? = [] := by
      rw [List.filterMap_eq_nil_iff]
      intro a ha
      rw [← Option.not_isSome_iff_eq_none]
      exact fun h => sets (List.any_eq_true.2 ⟨a, ha, h⟩)
    rw [none]
    rfl

namespace ClassDecl

/-- A class has the members of two others, those of the first before those of the second, and answers
as the second does where that has an answer. -/
structure Joins (c₁ c₂ c : ClassDecl) : Prop where
  companion_eq : c.companion = c₂.companion.or c₁.companion
  /-- A constructor of the first is not added again. -/
  constructors_eq : c.constructors =
    c₁.constructors ++ c₂.constructors.filter (· ∉ c₁.constructors)
  functions_eq : c.functions = c₁.functions ++ c₂.functions
  properties_eq : c.properties = c₁.properties ++ c₂.properties
  function_found : ∀ s, c.functionBySignature s =
    (c₂.functionBySignature s).or (c₁.functionBySignature s)
  property_found : ∀ s, c.propertyByField s = (c₂.propertyByField s).or (c₁.propertyByField s)

/-- The members of a class are the first of another one. -/
structure Begins (c' c : ClassDecl) : Prop where
  constructors : c'.constructors <+: c.constructors
  functions : c'.functions <+: c.functions
  properties : c'.properties <+: c.properties

/-- The joined class begins as the first of the two. -/
lemma Joins.begins {c₁ c₂ c : ClassDecl} (h : Joins c₁ c₂ c) : Begins c₁ c := by
  refine ⟨?_, ?_, ?_⟩
  · rw [h.constructors_eq]
    exact List.prefix_append _ _
  · rw [h.functions_eq]
    exact List.prefix_append _ _
  · rw [h.properties_eq]
    exact List.prefix_append _ _

/-- Edits one behind the other join what each of them build. -/
theorem build_joins (flags : Flags) (name : String) (edits edits' : List Edit) :
    Joins (build flags name edits) (build flags name edits') (build flags name (edits ++ edits')) := by
  have first := build_traces flags name edits
  have second := build_traces flags name edits'
  have both := build_traces flags name (edits ++ edits')
  refine ⟨?_, ?_, ?_, ?_, fun s => ?_, fun s => ?_⟩
  · rw [build_companion, build_companion, build_companion, List.filterMap_append,
      List.getLast?_append]
  · rw [both.constructors_eq, first.constructors_eq, second.constructors_eq, List.filterMap_append]
    exact eraseDups_append_filter _ _
  · rw [both.functions_eq, first.functions_eq, second.functions_eq, List.filterMap_append]
  · rw [both.properties_eq, first.properties_eq, second.properties_eq, List.filterMap_append]
  · rw [both.functionBySignature_eq, first.functionBySignature_eq, second.functionBySignature_eq,
      both.member_last, first.member_last, second.member_last, List.filterMap_append,
      List.reverse_append, List.find?_append]
  · rw [both.propertyByField_eq, first.propertyByField_eq, second.propertyByField_eq,
      both.properties_eq, first.properties_eq, second.properties_eq, List.filterMap_append,
      List.reverse_append, List.find?_append]

variable (flags : Flags) (name : String) (edits edits' : List Edit)

/-- The second part of the edits decides on the flags if it sets any. -/
lemma build_append_flags : (build flags name (edits ++ edits')).flags =
    if edits'.any (·.flags?.isSome) then (build flags name edits').flags
    else (build flags name edits).flags := by
  rw [build_flags, build_flags, build_flags]
  exact getLast?_filterMap_append _ _ _ _

/-- The second part of the edits decides on the name if it sets one. -/
lemma build_append_name : (build flags name (edits ++ edits')).name =
    if edits'.any (·.name?.isSome) then (build flags name edits').name
    else (build flags name edits).name := by
  rw [build_name, build_name, build_name]
  exact getLast?_filterMap_append _ _ _ _

end ClassDecl

end ClassMetadata
