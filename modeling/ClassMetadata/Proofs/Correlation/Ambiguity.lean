import ClassMetadata.Proofs.Correlation.Properties

/-!
# Properties with the same name

When a field has a signature that no property of its class has, the property is found by name, and
only if there is no doubt about it. All declared properties with a field should be in doubt, but only
those are that still have their field: where several were declared with one field signature, the last
of them has taken it from the others, and these do not count any more.

* `LastAt` tells where the last property with a field signature stands. These places and the listed
  properties are two views of one thing (`Made.mem_propertiesByField_iff_lastAt`).
* `Made.existsUnique_heldAt_iff` carries uniqueness from the one to the other.
* `findProperty_iff_existsUnique_heldAt` is about the class's list of properties alone, and
  `findProperty_iff_existsUnique_namedAt` about classes where none was overtaken. Where one was, a
  property may be picked from two of its name (`findProperty_not_iff_existsUnique_namedAt`).
-/

namespace ClassMetadata

namespace ClassDecl

/-- A property with this name and with a field stands at this position. -/
def NamedAt (c : ClassDecl) (name : String) (n : Nat) : Prop :=
  ∃ p, c.properties[n]? = some p ∧ p.fieldSignature.isSome ∧ p.name = name

/-- A property further on has the field signature of the one at this position. -/
def OvertakenAt (c : ClassDecl) (n : Nat) : Prop :=
  ∃ m p q, n < m ∧ c.properties[n]? = some p ∧ c.properties[m]? = some q ∧
    q.fieldSignature = p.fieldSignature

/-- A property with this name stands at this position, and it still has the field that it was
declared with. -/
def HeldAt (c : ClassDecl) (name : String) (n : Nat) : Prop :=
  c.NamedAt name n ∧ ¬ c.OvertakenAt n

/-- The last property with this field signature stands at this position. -/
structure LastAt (c : ClassDecl) (signature : String) (n : Nat) (p : PropertyDecl) : Prop where
  at_eq : c.properties[n]? = some p
  signature_eq : p.fieldSignature = some signature
  last : ∀ m q, n < m → c.properties[m]? = some q → q.fieldSignature ≠ some signature

variable {c : ClassDecl} {s name : String} {p : PropertyDecl} {n : Nat}

/-- What was added last under a field signature is what stands last with it. -/
lemma isLatest_iff_exists_lastAt : c.IsLatest s p ↔ ∃ n, c.LastAt s n p := by
  refine ⟨fun ⟨signature, before, after, eq, later⟩ => ?_, fun ⟨n, h⟩ => ?_⟩
  · refine ⟨before.length, ?_, signature, fun m q hm hq => later q ?_⟩
    · rw [eq, List.getElem?_append_right (Nat.le_refl _), Nat.sub_self]
      rfl
    · obtain ⟨k, rfl⟩ := Nat.exists_eq_add_of_lt hm
      rw [eq, List.getElem?_append_right (by omega), Nat.add_assoc, Nat.add_sub_cancel_left,
        List.getElem?_cons_succ] at hq
      exact List.mem_of_getElem? hq
  · obtain ⟨hn, at_eq⟩ := List.getElem?_eq_some_iff.1 h.at_eq
    refine ⟨h.signature_eq, c.properties.take n, c.properties.drop (n + 1), ?_, fun q hq => ?_⟩
    · rw [← at_eq, ← List.drop_eq_getElem_cons hn, List.take_append_drop]
    · obtain ⟨k, hk⟩ := List.mem_iff_getElem?.1 hq
      rw [List.getElem?_drop] at hk
      exact h.last _ q (by omega) hk

/-- The listed properties are those that stand last with their field signature. -/
lemma Made.mem_propertiesByField_iff_lastAt (made : c.Made) :
    (s, p) ∈ c.propertiesByField ↔ ∃ n, c.LastAt s n p :=
  made.mem_propertiesByField_iff.trans isLatest_iff_exists_lastAt

namespace LastAt

/-- A position is the last for one signature at most. -/
lemma entry_unique {s' : String} {p' : PropertyDecl} (h : c.LastAt s n p) (h' : c.LastAt s' n p') :
    (s', p') = (s, p) := by
  have same : some p' = some p := h'.at_eq.symm.trans h.at_eq
  cases same
  have signature : some s' = some s := h'.signature_eq.symm.trans h.signature_eq
  cases signature
  rfl

/-- A signature has one last position. -/
lemma position_unique {m : Nat} {p' : PropertyDecl} (h : c.LastAt s n p) (h' : c.LastAt s m p') :
    m = n := by
  rcases Nat.lt_trichotomy m n with before | same | behind
  · exact absurd h.signature_eq (h'.last n p before h.at_eq)
  · exact same
  · exact absurd h'.signature_eq (h.last m p' behind h'.at_eq)

end LastAt

/-- A property that still has its field is the last one with the signature of that field. -/
lemma heldAt_iff_exists_lastAt : c.HeldAt name n ↔ ∃ s p, c.LastAt s n p ∧ p.name = name := by
  refine ⟨fun ⟨⟨p, at_eq, field, called⟩, held⟩ => ?_, fun ⟨s, p, h, called⟩ => ⟨?_, ?_⟩⟩
  · obtain ⟨s, signature⟩ := Option.isSome_iff_exists.1 field
    refine ⟨s, p, ⟨at_eq, signature, fun m q hm hq same => held ?_⟩, called⟩
    exact ⟨m, p, q, hm, at_eq, hq, same.trans signature.symm⟩
  · exact ⟨p, h.at_eq, by rw [h.signature_eq]; rfl, called⟩
  · rintro ⟨m, p', q, hm, at_eq, hq, same⟩
    have : some p' = some p := at_eq.symm.trans h.at_eq
    cases this
    exact h.last m q hm hq (same.trans h.signature_eq)

/-- One position has a property with this name and its field, exactly if one entry is listed for
such a property. -/
lemma Made.existsUnique_heldAt_iff (made : c.Made) : (∃! n, c.HeldAt name n) ↔
    ∃ e ∈ c.propertiesByField, e.2.name = name ∧
      ∀ e' ∈ c.propertiesByField, e'.2.name = name → e' = e := by
  refine ⟨fun ⟨n, held, only⟩ => ?_, fun ⟨⟨s, p⟩, entry, called, only⟩ => ?_⟩
  · obtain ⟨s, p, h, called⟩ := heldAt_iff_exists_lastAt.1 held
    refine ⟨(s, p), made.mem_propertiesByField_iff_lastAt.2 ⟨n, h⟩, called, fun ⟨s', p'⟩ he' hc' => ?_⟩
    obtain ⟨m, h'⟩ := made.mem_propertiesByField_iff_lastAt.1 he'
    have same := only m (heldAt_iff_exists_lastAt.2 ⟨s', p', h', hc'⟩)
    subst same
    exact h.entry_unique h'
  · obtain ⟨n, h⟩ := made.mem_propertiesByField_iff_lastAt.1 entry
    refine ⟨n, heldAt_iff_exists_lastAt.2 ⟨s, p, h, called⟩, fun m held => ?_⟩
    obtain ⟨s', p', h', hc'⟩ := heldAt_iff_exists_lastAt.1 held
    cases only (s', p') (made.mem_propertiesByField_iff_lastAt.2 ⟨m, h'⟩) hc'
    exact h.position_unique h'

end ClassDecl

namespace TypeMetadata

variable {H ι μ φ : Type} [HostType H ι μ φ]

/-- Where no declared property has the signature of a field, the field has a property exactly if a
single declared property has the name that the field stands for and still has the field it was
declared with; it is that property. Otherwise none is picked, however many there are. -/
theorem findProperty_iff_existsUnique_heldAt (t : TypeMetadata H μ φ) (field : φ)
    (made : t.decl.Made)
    (unsigned : ∀ p ∈ t.decl.properties,
      p.fieldSignature ≠ some (HostType.fieldSignature t.host field))
    {stem : String} (stands : IsCandidate (HostType.fieldName t.host field) stem) :
    ((∃ p, t.findProperty field = .ok p) ↔ ∃! n, t.decl.HeldAt stem n) ∧
    (∀ p, t.findProperty field = .ok p →
      ∃ n, t.decl.HeldAt stem n ∧ t.decl.properties[n]? = some p) ∧
    ((¬ ∃! n, t.decl.HeldAt stem n) → ∃ k, k ≠ 1 ∧ t.findProperty field =
      .error (.propertyNotFound
        (HostType.name t.host ++ "." ++ HostType.fieldName t.host field) stem k)) := by
  have settled := t.findProperty_settles field made
  generalize t.findProperty field = r at settled
  rw [made.existsUnique_heldAt_iff]
  cases settled with
  | stored entry =>
    obtain ⟨n, h⟩ := made.mem_propertiesByField_iff_lastAt.1 entry
    exact absurd h.signature_eq (unsigned _ (List.mem_of_getElem? h.at_eq))
  | @named s stem' p absent stands' entry called only =>
    cases stands.unique stands'
    obtain ⟨n, h⟩ := made.mem_propertiesByField_iff_lastAt.1 entry
    have single : ∃ e ∈ t.decl.propertiesByField, e.2.name = stem ∧
        ∀ e' ∈ t.decl.propertiesByField, e'.2.name = stem → e' = e := ⟨(s, p), entry, called, only⟩
    refine ⟨⟨fun _ => single, fun _ => ⟨p, rfl⟩⟩, fun q hq => ?_, fun none => absurd single none⟩
    cases hq
    exact ⟨n, ClassDecl.heldAt_iff_exists_lastAt.2 ⟨s, p, h, called⟩, h.at_eq⟩
  | @undecided stem' k absent stands' count several =>
    cases stands.unique stands'
    obtain ⟨edits, traces⟩ := made.traces
    have twice : ¬ ∃ e ∈ t.decl.propertiesByField, e.2.name = stem ∧
        ∀ e' ∈ t.decl.propertiesByField, e'.2.name = stem → e' = e := by
      rintro ⟨e, entry, called, only⟩
      refine several (count.symm.trans ((countP_eq_one_iff traces.propertiesByField_nodup).2 ?_))
      exact ⟨e, entry, beq_iff_eq.2 called, fun e' he' hname => only e' he' (beq_iff_eq.1 hname)⟩
    refine ⟨⟨?_, fun single => absurd single twice⟩, ?_, fun _ => ⟨k, several, rfl⟩⟩
    · rintro ⟨_, found⟩
      cases found
    · rintro _ found
      cases found

/-- Where no declared property has the signature of a field, and no later property has taken the field of
one with the name that the field stands for, the field has a property exactly if a single declared
property with a field has that name; it is that property. Otherwise none is picked, however many there
are. -/
theorem findProperty_iff_existsUnique_namedAt (t : TypeMetadata H μ φ) (field : φ)
    (made : t.decl.Made)
    (unsigned : ∀ p ∈ t.decl.properties,
      p.fieldSignature ≠ some (HostType.fieldSignature t.host field))
    {stem : String} (stands : IsCandidate (HostType.fieldName t.host field) stem)
    (kept : ∀ n, t.decl.NamedAt stem n → ¬ t.decl.OvertakenAt n) :
    ((∃ p, t.findProperty field = .ok p) ↔ ∃! n, t.decl.NamedAt stem n) ∧
    (∀ p, t.findProperty field = .ok p →
      ∃ n, t.decl.NamedAt stem n ∧ t.decl.properties[n]? = some p) ∧
    ((¬ ∃! n, t.decl.NamedAt stem n) → ∃ k, k ≠ 1 ∧ t.findProperty field =
      .error (.propertyNotFound
        (HostType.name t.host ++ "." ++ HostType.fieldName t.host field) stem k)) := by
  have same : t.decl.HeldAt stem = t.decl.NamedAt stem :=
    funext fun n => propext ⟨And.left, fun named => ⟨named, kept n named⟩⟩
  have decided := t.findProperty_iff_existsUnique_heldAt field made unsigned stands
  rwa [same] at decided

/-- A class where every property has kept its field. One of the two with the same name has none. -/
def neighbours : ClassDecl :=
  .build .default "app/Store" [
    .property ⟨.defaultProperty, "value", none, none, some "value:I", none, none, none⟩,
    .property ⟨.defaultProperty, "value", none, none, none, some "getValue()I", none, none⟩,
    .property ⟨.defaultProperty, "cache", none, none, some "slot:I", none, none, none⟩]

/-- Of two properties with one name only one has a field, and it is found. -/
theorem findProperty_iff_existsUnique_namedAt_neighbours :
    neighbours.Made ∧ (∀ p ∈ neighbours.properties, p.fieldSignature ≠ some "value$delegate:J") ∧
      IsCandidate "value$delegate" "value" ∧
      (∀ n, neighbours.NamedAt "value" n → ¬ neighbours.OvertakenAt n) ∧
      ∃! n, neighbours.NamedAt "value" n := by
  have made : neighbours.Made := .built _ _ _
  have unsigned : ∀ p ∈ neighbours.properties, p.fieldSignature ≠ some "value$delegate:J" := by
    decide
  have stands : IsCandidate "value$delegate" "value" := .inl rfl
  have kept : ∀ n, neighbours.NamedAt "value" n → ¬ neighbours.OvertakenAt n := by
    rintro n ⟨p, at_eq, field, -⟩ ⟨m, p', q, before, at_eq', hq, same⟩
    have distinct : ∀ n < neighbours.properties.length, ∀ m < neighbours.properties.length, n < m →
        (neighbours.properties[n]?.bind PropertyDecl.fieldSignature).isSome →
        neighbours.properties[m]?.bind PropertyDecl.fieldSignature ≠
          neighbours.properties[n]?.bind PropertyDecl.fieldSignature := by decide
    obtain ⟨hn, -⟩ := List.getElem?_eq_some_iff.1 at_eq
    obtain ⟨hm, -⟩ := List.getElem?_eq_some_iff.1 hq
    cases at_eq.symm.trans at_eq'
    refine distinct n hn m hm before ?_ ?_
    · rw [at_eq]
      exact field
    · rw [at_eq, hq]
      exact same
  let host : ListedHost := ⟨0, "app/Store", none, []⟩
  let field : ListedField := ⟨0, "value$delegate", "value$delegate:J"⟩
  have decided :=
    (ofDecl host neighbours).findProperty_iff_existsUnique_namedAt field made unsigned stands kept
  exact ⟨made, unsigned, stands, kept, decided.1.1 ⟨_, by cbv⟩⟩

/-- A class where two properties have the same name and the same field, and where one property has
taken the field of another. -/
def twins : ClassDecl :=
  .build .default "app/Store" [
    .property ⟨.defaultProperty, "value", none, none, some "value:I", none, none, none⟩,
    .property ⟨.defaultProperty, "value", none, none, some "value:I", some "getValue()I", none, none⟩,
    .property ⟨.defaultProperty, "cache", none, none, some "slot:I", none, none, none⟩,
    .property ⟨.defaultProperty, "store", none, none, some "slot:I", none, none, none⟩]

/-- How many properties were declared with a name and a field does not decide: of two, one is found,
and of one, none. -/
theorem findProperty_not_iff_existsUnique_namedAt :
    let t : TypeMetadata ListedHost (Nat × String) ListedField :=
      ofDecl ⟨0, "app/Store", none, []⟩ twins
    t.decl.Made ∧
      (∀ p ∈ t.decl.properties, p.fieldSignature ≠ some "value$delegate:J" ∧
        p.fieldSignature ≠ some "cache$delegate:J") ∧
      IsCandidate "value$delegate" "value" ∧ IsCandidate "cache$delegate" "cache" ∧
      ((∃ p, t.findProperty ⟨0, "value$delegate", "value$delegate:J"⟩ = .ok p) ∧
        ¬ ∃! n, t.decl.NamedAt "value" n) ∧
      (∀ p, t.findProperty ⟨1, "cache$delegate", "cache$delegate:J"⟩ ≠ .ok p) ∧
        ∃! n, t.decl.NamedAt "cache" n := by
  intro t
  refine ⟨.built _ _ _, by decide, .inl rfl, .inl rfl, ⟨⟨_, by cbv⟩, ?_⟩, ?_, ?_⟩
  · rintro ⟨n, -, only⟩
    have first := only 0 ⟨_, rfl, rfl, rfl⟩
    have second := only 1 ⟨_, rfl, rfl, rfl⟩
    omega
  · have missing : t.findProperty ⟨1, "cache$delegate", "cache$delegate:J"⟩ =
        .error (.propertyNotFound "app/Store.cache$delegate" "cache" 0) := by cbv
    intro p found
    rw [missing] at found
    cases found
  · have named : ∀ n < t.decl.properties.length,
        t.decl.properties[n]?.map PropertyDecl.name = some "cache" → n = 2 := by decide
    refine ⟨2, ⟨_, rfl, rfl, rfl⟩, ?_⟩
    rintro n ⟨p, at_eq, -, called⟩
    obtain ⟨hn, -⟩ := List.getElem?_eq_some_iff.1 at_eq
    exact named n hn (by rw [at_eq, Option.map_some, called])

end TypeMetadata

end ClassMetadata
