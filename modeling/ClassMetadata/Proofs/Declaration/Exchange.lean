import ClassMetadata.Proofs.Declaration.Agreement

/-!
# Edits in another order

Two edits of different kinds are about different parts of a class, all but a constructor and a
function, which share a table. Unless these two bear one signature it makes no difference which
edit comes first, except to the order in which the tables list their entries.

* `Alike` is what remains the same: the lists and the answers of both tables. It is kept by every
  further edit (`Alike.edit`), and built classes that are alike agree (`Traces.agrees_of_alike`).
* `build_exchange` is about two neighbours anywhere among the edits of a class.
-/

namespace ClassMetadata.ClassDecl

variable {c d : ClassDecl} {e e' : Edit}

/-- Two classes list the same, and their tables have the same answers. -/
structure Alike (c d : ClassDecl) : Prop extends Lists c d where
  functionTable_eq : ∀ s, c.functionTable.get? s = d.functionTable.get? s
  fieldTable_eq : ∀ s, c.fieldTable.get? s = d.fieldTable.get? s

/-- A class is like itself. -/
lemma Alike.refl (c : ClassDecl) : Alike c c :=
  ⟨⟨rfl, rfl, rfl, rfl, rfl, rfl⟩, fun _ => rfl, fun _ => rfl⟩

/-- Likeness goes both ways. -/
lemma Alike.symm (h : Alike c d) : Alike d c where
  flags_eq := h.flags_eq.symm
  name_eq := h.name_eq.symm
  companion_eq := h.companion_eq.symm
  constructors_eq := h.constructors_eq.symm
  functions_eq := h.functions_eq.symm
  properties_eq := h.properties_eq.symm
  functionTable_eq s := (h.functionTable_eq s).symm
  fieldTable_eq s := (h.fieldTable_eq s).symm

/-- The same edit keeps classes alike. -/
lemma Alike.edit (h : Alike c d) (e : Edit) : Alike (c.edit e) (d.edit e) := by
  obtain ⟨⟨hflags, hname, hcompanion, hconstructors, hfunctions, hproperties⟩, ht, hu⟩ := h
  cases e with
  | flags flags => exact ⟨⟨rfl, hname, hcompanion, hconstructors, hfunctions, hproperties⟩, ht, hu⟩
  | name name => exact ⟨⟨hflags, rfl, hcompanion, hconstructors, hfunctions, hproperties⟩, ht, hu⟩
  | companion name => exact ⟨⟨hflags, hname, rfl, hconstructors, hfunctions, hproperties⟩, ht, hu⟩
  | constructor f =>
    refine ⟨⟨hflags, hname, hcompanion, ?_, hfunctions, hproperties⟩, fun s => ?_, hu⟩
    · show (if f ∈ c.constructors then _ else _) = if f ∈ d.constructors then _ else _
      rw [hconstructors]
    · show (c.functionTable.insert? _ _).get? s = (d.functionTable.insert? _ _).get? s
      rw [SignatureTable.get?_insert?, SignatureTable.get?_insert?, ht, hconstructors]
  | function f =>
    refine ⟨⟨hflags, hname, hcompanion, hconstructors, ?_, hproperties⟩, fun s => ?_, hu⟩
    · show c.functions ++ [f] = d.functions ++ [f]
      rw [hfunctions]
    · show (c.functionTable.insert? _ _).get? s = (d.functionTable.insert? _ _).get? s
      rw [SignatureTable.get?_insert?, SignatureTable.get?_insert?, ht, hfunctions]
  | property p =>
    refine ⟨⟨hflags, hname, hcompanion, hconstructors, hfunctions, ?_⟩, ht, fun s => ?_⟩
    · show c.properties ++ [p] = d.properties ++ [p]
      rw [hproperties]
    · show (c.fieldTable.insert? _ _).get? s = (d.fieldTable.insert? _ _).get? s
      rw [SignatureTable.get?_insert?, SignatureTable.get?_insert?, hu, hproperties]

/-- Built classes that are alike agree. -/
theorem Traces.agrees_of_alike {edits edits' : List Edit} (hc : Traces edits c)
    (hd : Traces edits' d) (h : Alike c d) : c.agrees d = true := by
  refine agrees_iff_tables.2 ⟨h.toLists, ?_, ?_⟩
  · refine (SignatureTable.agrees_iff hc.offsets_nodup hd.offsets_nodup).2 fun s => ?_
    rw [offsets, offsets, SignatureTable.get?_map, SignatureTable.get?_map, h.functionTable_eq,
      h.constructors_eq]
  · exact (SignatureTable.agrees_iff hc.fieldKeys_nodup hd.fieldKeys_nodup).2 h.fieldTable_eq

/-- A constructor and a function that bear the same signature. -/
def Edit.Clash : Edit → Edit → Prop
  | .constructor f, .function g => ∃ s, f.signature = some s ∧ g.signature = some s
  | _, _ => False

/-- Writes to different signatures can change places, as far as look-up goes. -/
lemma get?_insert?_comm {α : Type} (t : SignatureTable α) {k l : Option String} (v w : α)
    (apart : ¬ ∃ s, k = some s ∧ l = some s) (s : String) :
    ((t.insert? k v).insert? l w).get? s = ((t.insert? l w).insert? k v).get? s := by
  simp only [SignatureTable.get?_insert?]
  by_cases hk : k = some s
  · have hl : l ≠ some s := fun hl => apart ⟨s, hk, hl⟩
    rw [if_neg hl, if_pos hk, if_pos hk]
  · rw [if_neg hk, if_neg hk]

/-- A constructor and a function that have no signature in common can change places. -/
lemma alike_constructor_function {f g : FunctionDecl}
    (apart : ¬ ∃ s, f.signature = some s ∧ g.signature = some s) (c : ClassDecl) :
    Alike ((c.edit (.constructor f)).edit (.function g))
      ((c.edit (.function g)).edit (.constructor f)) where
  toLists := ⟨rfl, rfl, rfl, rfl, rfl, rfl⟩
  functionTable_eq := get?_insert?_comm c.functionTable _ _ apart
  fieldTable_eq _ := rfl

/-- Edits of different kinds that do not clash may be made in either order. -/
lemma alike_of_kinds (kinds : e.ctorIdx ≠ e'.ctorIdx) (apart : ¬ e.Clash e' ∧ ¬ e'.Clash e)
    (c : ClassDecl) : Alike ((c.edit e).edit e') ((c.edit e').edit e) := by
  cases e <;> cases e'
  case constructor.function f g => exact alike_constructor_function apart.1 c
  case function.constructor g f => exact (alike_constructor_function apart.2 c).symm
  all_goals first | exact absurd rfl kinds | exact .refl _

/-- Alike classes are alike behind the same edits. -/
lemma Alike.foldl (h : Alike c d) (edits : List Edit) :
    Alike (edits.foldl ClassDecl.edit c) (edits.foldl ClassDecl.edit d) := by
  induction edits generalizing c d with
  | nil => exact h
  | cons e edits ih => exact ih (h.edit e)

/-- Two neighbours of different kinds that do not clash may change places. -/
theorem build_exchange (kinds : e.ctorIdx ≠ e'.ctorIdx) (apart : ¬ e.Clash e' ∧ ¬ e'.Clash e)
    (flags : Flags) (name : String) (before behind : List Edit) :
    Alike (build flags name (before ++ [e, e'] ++ behind))
      (build flags name (before ++ [e', e] ++ behind)) := by
  simp only [build, List.foldl_append]
  exact (alike_of_kinds kinds apart _).foldl behind

end ClassMetadata.ClassDecl
