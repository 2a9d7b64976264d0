import Mathlib.Data.List.Nodup
import ClassMetadata.Proofs.Correlation.Answers
import ClassMetadata.Proofs.Encoding.Rewriting

/-!
# Fields and their properties

Which property of a class a field of the host belongs to.

* `Made.mem_propertiesByField_iff`: what a class lists under a field signature is the property that
  was added last with it, so a property that was overwritten, or has no field, is not listed.
* `IsCandidate` says which name a field stands for, by the text of the field's name alone.
* `Settles` gives the outcome for a field by the listed properties. There is one for every field
  (`findProperty_settles`) and no other (`Settles.unique`).
-/

namespace ClassMetadata

/-- What is found first from the end has nothing with the property behind it. -/
lemma find?_reverse_eq_some_iff {α : Type} {p : α → Bool} {l : List α} {a : α} :
    l.reverse.find? p = some a ↔
      p a ∧ ∃ before after, l = before ++ a :: after ∧ ∀ b ∈ after, ¬ p b := by
  rw [List.find?_eq_some_iff_append]
  refine and_congr_right fun _ => ⟨?_, ?_⟩
  · rintro ⟨after, before, h, none⟩
    refine ⟨before.reverse, after.reverse, ?_, fun b hb => ?_⟩
    · rw [← List.reverse_reverse l, h, List.reverse_append, List.reverse_cons, List.append_assoc]
      rfl
    · rw [Bool.not_eq_true, ← Bool.not_eq_true']
      exact none b (List.mem_reverse.1 hb)
  · rintro ⟨before, after, rfl, none⟩
    refine ⟨after.reverse, before.reverse, ?_, fun b hb => ?_⟩
    · rw [List.reverse_append, List.reverse_cons, List.append_assoc]
      rfl
    · rw [Bool.not_eq_true', ← Bool.not_eq_true]
      exact none b (List.mem_reverse.1 hb)

/-- Where nothing stands twice, what is counted once is a member unlike all others. -/
lemma countP_eq_one_iff {α : Type} {p : α → Bool} {l : List α} (nodup : l.Nodup) :
    l.countP p = 1 ↔ ∃ a ∈ l, p a ∧ ∀ b ∈ l, p b → b = a := by
  rw [List.countP_eq_length_filter, List.length_eq_one_iff]
  refine exists_congr fun a => ⟨fun h => ?_, ?_⟩
  · have mem (b : α) : b ∈ l ∧ p b ↔ b = a := by
      rw [← List.mem_filter, h, List.mem_singleton]
    obtain ⟨ha, hp⟩ := (mem a).2 rfl
    exact ⟨ha, hp, fun b hb hpb => (mem b).1 ⟨hb, hpb⟩⟩
  · rintro ⟨ha, hp, only⟩
    refine List.perm_singleton.1 ((List.perm_ext_iff_of_nodup (nodup.filter p) ?_).2 fun b => ?_)
    · exact List.nodup_singleton a
    · rw [List.mem_filter, List.mem_singleton]
      refine ⟨fun ⟨hb, hpb⟩ => only b hb hpb, ?_⟩
      rintro rfl
      exact ⟨ha, hp⟩

/-! ## Classes that a builder or a decoder makes -/

namespace ClassDecl

/-- A class that was built by edits, or that a header describes. -/
inductive Made : ClassDecl → Prop where
  | built (flags : Flags) (name : String) (edits : List Edit) : Made (build flags name edits)
  | decoded {header : Header} {settings : Settings} {c : ClassDecl}
    (h : header.decode settings = .ok c) : Made c

/-- The property was added last among those with this field signature. -/
structure IsLatest (c : ClassDecl) (signature : String) (p : PropertyDecl) : Prop where
  signature_eq : p.fieldSignature = some signature
  last : ∃ before after, c.properties = before ++ p :: after ∧
    ∀ q ∈ after, q.fieldSignature ≠ some signature

variable {c : ClassDecl} {s : String} {p : PropertyDecl}

/-- A field signature finds the property that is listed under it. -/
lemma Traces.propertyByField_eq_some_iff {edits : List Edit} (h : Traces edits c) :
    c.propertyByField s = some p ↔ (s, p) ∈ c.propertiesByField := by
  refine ⟨fun found => ?_, h.propertyByField_of_mem⟩
  obtain ⟨n, hn, hp⟩ := Option.bind_eq_some_iff.1 found
  refine List.mem_filterMap.2 ⟨(s, n), SignatureTable.mem_of_get? hn, ?_⟩
  show c.properties[n]?.map (s, ·) = _
  rw [hp]
  rfl

/-- The entries of properties that have a name. -/
def namesakes (c : ClassDecl) (name : String) : List (String × PropertyDecl) :=
  c.propertiesByField.filter (·.2.name == name)

/-- The namesakes are the listed properties with this name. -/
lemma mem_namesakes {name : String} {e : String × PropertyDecl} :
    e ∈ c.namesakes name ↔ e ∈ c.propertiesByField ∧ e.2.name = name := by
  rw [namesakes, List.mem_filter, beq_iff_eq]

/-- The properties with a field and a name are the namesakes, without their field signatures. -/
lemma filter_fieldProperties {name : String} :
    c.fieldProperties.filter (·.name == name) = (c.namesakes name).map Prod.snd :=
  List.filter_map

/-- There are as many listed properties with a name as there are namesakes. -/
lemma countP_eq_length {name : String} {es : List (String × PropertyDecl)}
    (h : c.namesakes name = es) : c.propertiesByField.countP (·.2.name == name) = es.length := by
  rw [List.countP_eq_length_filter]
  exact congrArg List.length h

/-- No entry is listed twice, since no signature is. -/
lemma Traces.propertiesByField_nodup {edits : List Edit} (h : Traces edits c) :
    c.propertiesByField.Nodup := by
  apply List.Nodup.of_map Prod.fst
  rw [h.propertiesByField_keys]
  exact nodup_eraseDups _

namespace Made

/-- A class that is made in either way can be traced to edits. -/
lemma traces (made : c.Made) : ∃ edits, Traces edits c := by
  cases made with
  | built flags name edits => exact ⟨edits, build_traces flags name edits⟩
  | decoded h =>
    obtain ⟨edits, rfl, -⟩ := Header.built_of_decode h
    exact ⟨edits, build_traces .default "" edits⟩

/-- What is listed under a field signature is the property that was added last with it. -/
theorem mem_propertiesByField_iff (made : c.Made) :
    (s, p) ∈ c.propertiesByField ↔ c.IsLatest s p := by
  obtain ⟨edits, traces⟩ := made.traces
  rw [← traces.propertyByField_eq_some_iff, traces.propertyByField_eq, find?_reverse_eq_some_iff,
    storedIn_iff]
  refine ⟨fun ⟨signature, before, after, eq, later⟩ => ⟨signature, before, after, eq, ?_⟩,
    fun ⟨signature, before, after, eq, later⟩ => ⟨signature, before, after, eq, ?_⟩⟩
  · exact fun q hq => mt storedIn_iff.2 (later q hq)
  · exact fun q hq => mt storedIn_iff.1 (later q hq)

end Made

end ClassDecl

/-! ## The property of a field -/

namespace TypeMetadata

/-- The name that a field's name stands for: the name itself, or what stands in front of the mark of
delegation where the name ends in that. -/
def IsCandidate (fieldName stem : String) : Prop :=
  fieldName = stem ++ "$delegate" ∨ (∀ front, fieldName ≠ front ++ "$delegate") ∧ stem = fieldName

/-- The candidate is what a field name stands for. -/
lemma isCandidate_candidate (fieldName : String) : IsCandidate fieldName (candidate fieldName) := by
  unfold candidate
  dsimp only
  split
  · rename_i marked
    obtain ⟨front, h⟩ := List.isSuffixOf_iff_suffix.1 marked
    left
    rw [← h, List.length_append, Nat.add_sub_cancel, List.take_left]
    apply String.toList_inj.1
    rw [String.toList_append, String.toList_ofList]
    exact h.symm
  · rename_i unmarked
    refine .inr ⟨fun front h => unmarked (List.isSuffixOf_iff_suffix.2 ⟨front.toList, ?_⟩), rfl⟩
    rw [h, String.toList_append]
    rfl

/-- A field's name stands for one name only. -/
lemma IsCandidate.unique {fieldName stem stem' : String} (h : IsCandidate fieldName stem)
    (h' : IsCandidate fieldName stem') : stem = stem' := by
  obtain h | ⟨unmarked, rfl⟩ := h
  · obtain h' | ⟨unmarked', -⟩ := h'
    · exact (String.append_left_inj _).1 (h.symm.trans h')
    · exact absurd h (unmarked' stem)
  · obtain h' | ⟨-, rfl⟩ := h'
    · exact absurd h' (unmarked stem')
    · rfl

/-- What the listed properties of a class have to say about a field of a host. -/
inductive Settles (c : ClassDecl) (host fieldName signature : String) :
    Except ResolveError PropertyDecl → Prop where
  /-- A property is listed under the signature of the field, whatever its name. -/
  | stored {p : PropertyDecl} (entry : (signature, p) ∈ c.propertiesByField) :
    Settles c host fieldName signature (.ok p)
  /-- None is, and a single entry has the name that the field stands for. -/
  | named {s stem : String} {p : PropertyDecl} (absent : ∀ q, (signature, q) ∉ c.propertiesByField)
    (stands : IsCandidate fieldName stem) (entry : (s, p) ∈ c.propertiesByField)
    (called : p.name = stem) (only : ∀ e ∈ c.propertiesByField, e.2.name = stem → e = (s, p)) :
    Settles c host fieldName signature (.ok p)
  /-- None is, and no entry or more than one has that name. -/
  | undecided {stem : String} {n : Nat} (absent : ∀ q, (signature, q) ∉ c.propertiesByField)
    (stands : IsCandidate fieldName stem)
    (count : c.propertiesByField.countP (·.2.name == stem) = n) (several : n ≠ 1) :
    Settles c host fieldName signature
      (.error (.propertyNotFound (host ++ "." ++ fieldName) stem n))

/-- No two outcomes for one field. -/
lemma Settles.unique {c : ClassDecl} (made : c.Made) {host fieldName signature : String}
    {r r' : Except ResolveError PropertyDecl} (h : Settles c host fieldName signature r)
    (h' : Settles c host fieldName signature r') : r = r' := by
  obtain ⟨edits, traces⟩ := made.traces
  have once {s stem : String} {p : PropertyDecl} (entry : (s, p) ∈ c.propertiesByField)
      (called : p.name = stem) (only : ∀ e ∈ c.propertiesByField, e.2.name = stem → e = (s, p)) :
      c.propertiesByField.countP (·.2.name == stem) = 1 :=
    (countP_eq_one_iff traces.propertiesByField_nodup).2
      ⟨(s, p), entry, beq_iff_eq.2 called, fun e he hname => only e he (beq_iff_eq.1 hname)⟩
  cases h with
  | stored entry =>
    cases h' with
    | stored entry' =>
      have found := traces.propertyByField_of_mem entry
      rw [traces.propertyByField_of_mem entry'] at found
      exact congrArg _ (Option.some.inj found).symm
    | named absent | undecided absent => exact absurd entry (absent _)
  | named absent stands entry called only =>
    cases h' with
    | stored entry' => exact absurd entry' (absent _)
    | named absent' stands' entry' called' only' =>
      cases stands.unique stands'
      cases only _ entry' called'
      rfl
    | undecided absent' stands' count several =>
      cases stands.unique stands'
      exact absurd (count.symm.trans (once entry called only)) several
  | undecided absent stands count several =>
    cases h' with
    | stored entry' => exact absurd entry' (absent _)
    | named absent' stands' entry' called' only' =>
      cases stands.unique stands'
      exact absurd (count.symm.trans (once entry' called' only')) several
    | undecided absent' stands' count' several' =>
      cases stands.unique stands'
      rw [← count, count']

variable {H ι μ φ : Type} [HostType H ι μ φ]

/-- What is found for a field is what its signature and its name settle. -/
lemma findProperty_settles (t : TypeMetadata H μ φ) (field : φ) (made : t.decl.Made) :
    Settles t.decl (HostType.name t.host) (HostType.fieldName t.host field)
      (HostType.fieldSignature t.host field) (t.findProperty field) := by
  obtain ⟨edits, traces⟩ := made.traces
  have stands := isCandidate_candidate (HostType.fieldName t.host field)
  unfold findProperty
  cases stored : t.decl.propertyByField (HostType.fieldSignature t.host field) with
  | some p => exact .stored (traces.propertyByField_eq_some_iff.1 stored)
  | none =>
    have absent (q : PropertyDecl) :
        (HostType.fieldSignature t.host field, q) ∉ t.decl.propertiesByField := by
      intro entry
      rw [traces.propertyByField_of_mem entry] at stored
      cases stored
    -- all that is left to know is what is listed under the name
    dsimp only
    generalize candidate (HostType.fieldName t.host field) = stem at stands ⊢
    rw [ClassDecl.filter_fieldProperties]
    cases found : t.decl.namesakes stem with
    | nil => exact .undecided absent stands (ClassDecl.countP_eq_length found) nofun
    | cons e es =>
      cases es with
      | nil =>
        have mem (e' : String × PropertyDecl) :
            e' ∈ t.decl.propertiesByField ∧ e'.2.name = stem ↔ e' = e := by
          rw [← ClassDecl.mem_namesakes, found, List.mem_singleton]
        obtain ⟨entry, called⟩ := (mem e).2 rfl
        exact .named absent stands entry called fun e' he' hname => (mem e').1 ⟨he', hname⟩
      | cons e' es =>
        have several : (e :: e' :: es).length ≠ 1 := nofun
        have count := ClassDecl.countP_eq_length found
        rw [← List.length_map Prod.snd] at several count
        exact .undecided absent stands count several

/-- Whether a field has a property is settled by what is listed, for every class that was built or
decoded. A property that is given for a field has a field signature, and no property that was added
behind it has the same one. -/
theorem findProperty_decides (t : TypeMetadata H μ φ) (field : φ) (made : t.decl.Made) :
    (∀ r, t.findProperty field = r ↔
      Settles t.decl (HostType.name t.host) (HostType.fieldName t.host field)
        (HostType.fieldSignature t.host field) r) ∧
    ∀ p, t.findProperty field = .ok p → ∃ s, t.decl.IsLatest s p := by
  have settled := t.findProperty_settles field made
  refine ⟨fun r => ⟨?_, fun h => settled.unique made h⟩, fun p found => ?_⟩
  · rintro rfl
    exact settled
  · rw [found] at settled
    cases settled with
    | stored entry => exact ⟨_, made.mem_propertiesByField_iff.1 entry⟩
    | named _ _ entry => exact ⟨_, made.mem_propertiesByField_iff.1 entry⟩

/-- A class where one property has taken the field of another, two have the same name and fields of
their own, and one has no field. -/
def rivals : ClassDecl :=
  .build .default "app/Store" [
    .property ⟨.default, "cache", none, none, some "cache:I", none, none, none⟩,
    .property ⟨.default, "store", none, none, some "cache:I", none, none, none⟩,
    .property ⟨.default, "value", none, none, some "value:I", none, none, none⟩,
    .property ⟨.default, "value", none, none, some "value:J", none, none, none⟩,
    .property ⟨.default, "cache", none, none, none, none, none, none⟩]

/-- By name the property that took the field is found, but neither the one it was taken from nor the
one without a field; and of two with the same name, none. -/
theorem findProperty_decides_rivals :
    rivals.Made ∧
      (∃ s, rivals.IsLatest s ⟨.default, "store", none, none, some "cache:I", none, none, none⟩) ∧
      Settles rivals "app/Store" "cache$delegate" "cache$delegate:J"
        (.error (.propertyNotFound "app/Store.cache$delegate" "cache" 0)) ∧
      Settles rivals "app/Store" "value$delegate" "value$delegate:J"
        (.error (.propertyNotFound "app/Store.value$delegate" "value" 2)) := by
  have made : rivals.Made := .built _ _ _
  let host : ListedHost := ⟨0, "app/Store", none, []⟩
  have settled (field : ListedField) := (ofDecl host rivals).findProperty_decides field made
  refine ⟨made, ?_, ?_, ?_⟩
  · exact (settled ⟨0, "store$delegate", "store$delegate:J"⟩).2 _ (by cbv)
  · exact ((settled ⟨0, "cache$delegate", "cache$delegate:J"⟩).1 _).1 (by cbv)
  · exact ((settled ⟨0, "value$delegate", "value$delegate:J"⟩).1 _).1 (by cbv)

end TypeMetadata

end ClassMetadata
