import ClassMetadata.Proofs.Declaration.Building

/-!
# Classes that agree

Two built classes agree when they list the same and every signature finds the same member: places
can be told from members, because no constructor stands in a class twice and a function has a
signature only as the last that bears it.

* `agrees_of_lookup` and `lookup_of_agrees` are the two directions of this.
* `function_last_of_distinct`: where no constructor shares its signature, signatures are found as if
  all constructors had been added before all functions.
-/

namespace ClassMetadata.ClassDecl

variable {edits edits' : List Edit} {c d : ClassDecl}

/-- The lists of two classes and what is said beside them are the same. -/
structure Lists (c d : ClassDecl) : Prop where
  flags_eq : c.flags = d.flags
  name_eq : c.name = d.name
  companion_eq : c.companion = d.companion
  constructors_eq : c.constructors = d.constructors
  functions_eq : c.functions = d.functions
  properties_eq : c.properties = d.properties

/-- No function is equal to a constructor. -/
def Apart (c : ClassDecl) : Prop := ∀ f ∈ c.constructors, f ∉ c.functions

/-- Classes with the same lists have the same members in every slot. -/
lemma Lists.member?_eq (h : Lists c d) : c.member? = d.member? := by
  funext slot
  cases slot <;> simp [member?, h.constructors_eq, h.functions_eq]

/-- A constructor or function can be in one slot only, given its signature. -/
lemma Traces.slot_unique (hc : Traces edits c) (h : Lists c d) (apart : c.Apart) {s : String}
    {slot slot' : Slot} (hs : c.Holds s slot) (hs' : d.Holds s slot')
    (same : c.member? slot = d.member? slot') : slot = slot' := by
  obtain ⟨f, hf, -⟩ := hs.exists_member
  have hf' := hf
  rw [same, ← h.member?_eq] at hf'
  match slot, slot', hs, hs' with
  | .constructor i, .constructor j, _, _ =>
    -- equal constructors stand in one place, since none stands in the list twice
    have nodup : c.constructors.Nodup := by
      rw [hc.constructors_eq]
      exact nodup_eraseDups _
    obtain ⟨hi, _⟩ := List.getElem?_eq_some_iff.1 hf
    have same : c.constructors[i]? = c.constructors[j]? := by
      change c.constructors[i]? = some f at hf
      change c.constructors[j]? = some f at hf'
      rw [hf, hf']
    rw [(List.getElem?_inj hi nodup).1 same]
  | .function i, .function j, hs, hs' =>
    -- functions may stand in the list twice, but only the last with `s` has it
    change lastIndex? _ c.functions = some i at hs
    change lastIndex? _ d.functions = some j at hs'
    rw [← h.functions_eq, hs] at hs'
    cases hs'
    rfl
  | .constructor i, .function j, _, _ =>
    -- the same member as a constructor and as a function
    exact absurd (List.mem_of_getElem? hf') (apart f (List.mem_of_getElem? hf))
  | .function i, .constructor j, _, _ =>
    exact absurd (List.mem_of_getElem? hf) (apart f (List.mem_of_getElem? hf'))

/-- Where every signature finds the same, it has the same slot. -/
lemma Traces.slot_eq (hc : Traces edits c) (hd : Traces edits' d) (h : Lists c d) (apart : c.Apart)
    {s : String} (same : c.functionBySignature s = d.functionBySignature s) :
    c.functionTable.get? s = d.functionTable.get? s := by
  rw [hc.functionBySignature_eq, hd.functionBySignature_eq] at same
  cases hslot : c.functionTable.get? s with
  | none =>
    cases hslot' : d.functionTable.get? s with
    | none => rfl
    | some slot' =>
      obtain ⟨f, hf, -⟩ := (hd.holds s slot' hslot').exists_member
      rw [hslot, hslot', Option.bind_some, hf] at same
      cases same
  | some slot =>
    have hs := hc.holds s slot hslot
    obtain ⟨f, hf, -⟩ := hs.exists_member
    cases hslot' : d.functionTable.get? s with
    | none =>
      rw [hslot, hslot', Option.bind_some, hf] at same
      cases same
    | some slot' =>
      rw [hslot, hslot', Option.bind_some, Option.bind_some] at same
      rw [hc.slot_unique h apart hs (hd.holds s slot' hslot') same]

/-- Two classes agree when they say and list the same and have the same tables. -/
lemma agrees_iff_tables : c.agrees d = true ↔
    Lists c d ∧ c.offsets.agrees d.offsets = true ∧ c.fieldTable.agrees d.fieldTable = true := by
  simp only [agrees, Bool.and_eq_true, beq_iff_eq]
  refine ⟨?_, ?_⟩
  · rintro ⟨⟨⟨⟨⟨⟨⟨hflags, hname⟩, hcompanion⟩, hconstructors⟩, hfunctions⟩, hproperties⟩, ho⟩, hf⟩
    exact ⟨⟨hflags, hname, hcompanion, hconstructors, hfunctions, hproperties⟩, ho, hf⟩
  · rintro ⟨h, ho, hf⟩
    exact ⟨⟨⟨⟨⟨⟨⟨h.flags_eq, h.name_eq⟩, h.companion_eq⟩, h.constructors_eq⟩, h.functions_eq⟩,
      h.properties_eq⟩, ho⟩, hf⟩

/-- In built classes that agree every signature finds the same. -/
theorem Traces.lookup_of_agrees (hc : Traces edits c) (hd : Traces edits' d)
    (h : c.agrees d = true) (s : String) : c.functionBySignature s = d.functionBySignature s := by
  obtain ⟨lists, offsets, -⟩ := agrees_iff_tables.1 h
  rw [SignatureTable.agrees_iff hc.offsets_nodup hd.offsets_nodup] at offsets
  have memberAt : c.memberAt? = d.memberAt? := by
    funext n
    rw [memberAt?, memberAt?, lists.constructors_eq, lists.functions_eq]
  rw [functionBySignature, functionBySignature, offsets, memberAt]

/-- Built classes agree when they list the same and every signature finds the same. -/
theorem Traces.agrees_of_lookup (hc : Traces edits c) (hd : Traces edits' d) (h : Lists c d)
    (apart : c.Apart) (same : ∀ s, c.functionBySignature s = d.functionBySignature s) :
    c.agrees d = true := by
  refine agrees_iff_tables.2 ⟨h, ?_, ?_⟩
  · refine (SignatureTable.agrees_iff hc.offsets_nodup hd.offsets_nodup).2 fun s => ?_
    rw [offsets, offsets, SignatureTable.get?_map, SignatureTable.get?_map,
      hc.slot_eq hd h apart (same s), h.constructors_eq]
  · refine (SignatureTable.agrees_iff hc.fieldKeys_nodup hd.fieldKeys_nodup).2 fun s => ?_
    rw [hc.field_last, hd.field_last, h.properties_eq]

/-- The members of a class, the constructors before the functions. -/
def members (c : ClassDecl) : List FunctionDecl := c.constructors ++ c.functions

/-- Every member of a class was added to it. -/
lemma Traces.mem_added (h : Traces edits c) {f : FunctionDecl} (hf : f ∈ c.members) :
    f ∈ edits.filterMap Edit.member? := by
  rw [members, h.constructors_eq, h.functions_eq, List.mem_append, List.mem_eraseDups,
    List.mem_filterMap, List.mem_filterMap] at hf
  rw [List.mem_filterMap]
  rcases hf with ⟨e, he, hadds⟩ | ⟨e, he, hadds⟩
  · cases e <;> cases hadds
    exact ⟨_, he, rfl⟩
  · cases e <;> cases hadds
    exact ⟨_, he, rfl⟩

/-- Where no constructor shares its signature with another or with a function, signatures are found
as if all constructors had been added before all functions. -/
lemma Traces.function_last_of_distinct (h : Traces edits c)
    (constructors : ∀ f ∈ c.constructors, ∀ g ∈ c.constructors, ∀ s,
      f.signature = some s → g.signature = some s → f = g)
    (functions : ∀ f ∈ c.constructors, ∀ g ∈ c.functions, ∀ s,
      f.signature = some s → g.signature ≠ some s) (s : String) :
    c.functionBySignature s = c.members.reverse.find? (signedBy s) := by
  rw [h.functionBySignature_eq]
  cases hslot : c.functionTable.get? s with
  | none =>
    have nowhere := h.member_last s
    rw [hslot, Option.bind_none, eq_comm, List.find?_eq_none] at nowhere
    refine (List.find?_eq_none.2 fun f hf => nowhere f ?_).symm
    rw [List.mem_reverse] at hf ⊢
    exact h.mem_added hf
  | some slot =>
    rw [members, List.reverse_append, List.find?_append, Option.bind_some]
    match slot, h.holds s slot hslot with
    | .constructor i, ⟨f, hf, hsigned⟩ =>
      have mem := List.mem_of_getElem? hf
      have none : c.functions.reverse.find? (signedBy s) = none := by
        refine List.find?_eq_none.2 fun g hg hsig => ?_
        exact functions f mem g (List.mem_reverse.1 hg) s (signedBy_iff.1 hsigned)
          (signedBy_iff.1 hsig)
      obtain ⟨g, hg⟩ := Option.isSome_iff_exists.1
        (List.find?_isSome.2 ⟨f, List.mem_reverse.2 mem, hsigned⟩)
      have same : f = g := constructors f mem g (List.mem_reverse.1 (List.mem_of_find?_eq_some hg)) s
        (signedBy_iff.1 hsigned) (signedBy_iff.1 (List.find?_some hg))
      rw [none, hg, ← same]
      exact hf
    | .function i, last =>
      change lastIndex? (signedBy s) c.functions = some i at last
      obtain ⟨f, hf, -⟩ := exists_of_lastIndex? last
      rw [← bind_lastIndex?, last, Option.bind_some, hf]
      exact hf

end ClassMetadata.ClassDecl
