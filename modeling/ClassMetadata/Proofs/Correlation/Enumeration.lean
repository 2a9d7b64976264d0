import ClassMetadata.Proofs.Correlation.Sessions

/-!
# Enumeration of host methods

The methods of a host type are enumerated when a query needs them for the first time, and then never
again. Only a host type that has made an entry is enumerated at all.

* `Query.demandsMethods` says of a query, by the host and the class and the queries answered before,
  whether it needs the methods, and `Demanded` that one of those before did.
* `Enumerates` is what one query does to the index and to the count; `Tracks` is what holds behind
  answered queries, and `Tracked` says so of all entries of a session.
* `Session.enumerated` are the host types whose methods were enumerated, as often as they were, and
  `Session.enumerates_on_first_demand` is about whole runs.
-/

namespace ClassMetadata

variable {H ι μ φ : Type} [HostType H ι μ φ]

/-! ## Queries that need the methods -/

/-- The property of a field is found, and it has a signature of some kind. -/
def hasSignature (host : H) (decl : ClassDecl) (signature : PropertyDecl → Option String)
    (field : φ) : Bool :=
  match propertyOf host decl field with
  | .ok property => (signature property).isSome
  | .error _ => false

section

variable {host : H} {decl : ClassDecl} {signature : PropertyDecl → Option String} {field : φ}

/-- The property of a field tells whether the field has a signature of this kind. -/
lemma hasSignature_of_ok {property : PropertyDecl} (h : propertyOf host decl field = .ok property) :
    hasSignature host decl signature field = (signature property).isSome := by
  rw [hasSignature, h]

/-- A field without a property has no signature. -/
lemma hasSignature_of_error {e : ResolveError} (h : propertyOf host decl field = .error e) :
    hasSignature host decl signature field = false := by
  rw [hasSignature, h]

end

/-- The query needs the methods of the host, behind other queries: it asks for them by signature, or
for the carrier or the getter of a field that was settled for no equal field, and the property of the
field has a signature to look for. -/
def Query.demandsMethods [BEq φ] (host : H) (decl : ClassDecl)
    (log : List (Query μ φ × Answer H μ)) : Query μ φ → Bool
  | .methods _ => true
  | .carrier field | .isCarrierMissing field | .presentCarrier field =>
    !(settledFields carrierField? log).any (field == ·) &&
      hasSignature host decl (·.carrierSignature) field
  | .getter field =>
    !(settledFields getterField? log).any (field == ·) &&
      hasSignature host decl (·.getterSignature) field
  | .decl | .self | .hasDefaultParameter | .functionOf _ | .property _ => false

section

variable [BEq φ] {host : H} {decl : ClassDecl} {log : List (Query μ φ × Answer H μ)}
  {query : Query μ φ} {answer : Answer H μ}

/-- One of the answered queries needed the methods, behind those before it. -/
def Demanded (host : H) (decl : ClassDecl) (log : List (Query μ φ × Answer H μ)) : Prop :=
  ∃ earlier query answer later, log = earlier ++ (query, answer) :: later ∧
    query.demandsMethods host decl earlier = true

/-- Before the first query no methods were asked for. -/
lemma not_demanded_nil : ¬ Demanded host decl ([] : List (Query μ φ × Answer H μ)) := by
  rintro ⟨earlier, query, answer, later, h, -⟩
  exact List.append_ne_nil_of_right_ne_nil _ (List.cons_ne_nil _ _) h.symm

/-- Methods have been asked for when they were before or the last query needs them. -/
lemma demanded_concat : Demanded host decl (log ++ [(query, answer)]) ↔
    Demanded host decl log ∨ query.demandsMethods host decl log = true := by
  constructor
  · rintro ⟨earlier, query', answer', later, h, demands⟩
    rcases List.eq_nil_or_concat later with rfl | ⟨later, last, rfl⟩
    · obtain ⟨rfl, last⟩ := List.append_inj' h rfl
      cases last
      exact .inr demands
    · rw [List.concat_eq_append, ← List.cons_append, ← List.append_assoc] at h
      obtain ⟨rfl, -⟩ := List.append_inj' h rfl
      exact .inl ⟨earlier, query', answer', later, rfl, demands⟩
  · rintro (⟨earlier, query', answer', later, rfl, demands⟩ | demands)
    · exact ⟨earlier, query', answer', later ++ [(query, answer)], List.append_assoc .., demands⟩
    · exact ⟨log, query, answer, [], rfl, demands⟩

end

/-! ## What a query does to the index -/

section

variable {t t' : TypeMetadata H μ φ} {demand : Bool}

/-- If the methods are demanded, they are enumerated, unless there is an index of them already. -/
structure Enumerates (demand : Bool) (t t' : TypeMetadata H μ φ) : Prop where
  index : t'.index.isSome = (t.index.isSome || demand)
  enumerations : t'.enumerations = t.enumerations + if t.index.isSome then 0 else demand.toNat

namespace Enumerates

/-- What does nothing enumerates nothing. -/
lemma refl (t : TypeMetadata H μ φ) : Enumerates false t t where
  index := (Bool.or_false _).symm
  enumerations := by rw [Bool.toNat_false, ite_self, Nat.add_zero]

/-- To ask for the index enumerates the methods if they were not enumerated before. -/
lemma methodIndex (t : TypeMetadata H μ φ) : Enumerates true t t.methodIndex.2 := by
  obtain ⟨index, known, same⟩ | ⟨unknown, made⟩ := t.methodIndex_cases
  · rw [same]
    exact ⟨by rw [known]; rfl, by rw [known]; rfl⟩
  · rw [made]
    exact ⟨by rw [unknown]; rfl, by rw [unknown]; rfl⟩

/-- A search enumerates methods if there is a signature to look for. -/
lemma search (t : TypeMetadata H μ φ) (signature : Option String) :
    Enumerates signature.isSome t (t.search signature).2 := by
  cases signature with
  | none => exact .refl t
  | some signature => exact .methodIndex t

variable [BEq φ] {host : H} {decl : ClassDecl} {log : List (Query μ φ × Answer H μ)} {field : φ}

/-- What is kept for a field, or cannot be found, enumerates nothing; what is found is searched for by
its signature. -/
lemma of_lookup {α : Type} {table : List (φ × α)} {fields : List φ}
    {signature : PropertyDecl → Option String}
    (settled : (table.lookup field).isSome = fields.any (field == ·))
    (known : ∀ a, table.lookup field = some a → t' = t)
    (failed : ∀ e, table.lookup field = none → propertyOf host decl field = .error e → t' = t)
    (found : ∀ p, table.lookup field = none → propertyOf host decl field = .ok p →
      Enumerates (signature p).isSome t t') :
    Enumerates (!fields.any (field == ·) && hasSignature host decl signature field) t t' := by
  rw [← settled]
  cases hlookup : table.lookup field with
  | some a =>
    rw [known a hlookup]
    exact .refl t
  | none =>
    cases hp : propertyOf host decl field with
    | error e =>
      rw [failed e hlookup hp, hasSignature_of_error hp]
      exact .refl t
    | ok p =>
      rw [hasSignature_of_ok hp]
      exact found p hlookup hp

/-- A carrier is looked for if it was not found before and its property has a carrier signature. -/
lemma carrier (h : Knows host decl log t) (field : φ) :
    Enumerates (!(settledFields Query.carrierField? log).any (field == ·) &&
      hasSignature host decl (·.carrierSignature) field) t (t.carrier field).2 := by
  refine of_lookup (h.carriers.isSome_lookup field) (fun a known => ?_) (fun e unknown hp => ?_)
    fun p unknown hp => ?_
  · rw [TypeMetadata.carrier_of_known known]
  · rw [TypeMetadata.carrier_of_error unknown ((h.findProperty_eq field).trans hp)]
  · rw [TypeMetadata.carrier_of_unknown unknown ((h.findProperty_eq field).trans hp)]
    -- to keep what was found leaves the index alone
    have searched := search t p.carrierSignature
    exact ⟨searched.index, searched.enumerations⟩

/-- A getter is looked for if it was not found before and its property has a getter signature. -/
lemma getter (h : Knows host decl log t) (field : φ) :
    Enumerates (!(settledFields Query.getterField? log).any (field == ·) &&
      hasSignature host decl (·.getterSignature) field) t (t.getter field).2 := by
  refine of_lookup (h.getters.isSome_lookup field) (fun a known => ?_) (fun e unknown hp => ?_)
    fun p unknown hp => ?_
  · rw [TypeMetadata.getter_of_known known]
  · rw [TypeMetadata.getter_of_error unknown ((h.findProperty_eq field).trans hp)]
  · rw [TypeMetadata.getter_of_unknown unknown ((h.findProperty_eq field).trans hp)]
    have searched := search t p.getterSignature
    exact ⟨searched.index, searched.enumerations⟩

/-- A query enumerates the methods if it needs them and they were not enumerated before. -/
theorem answer (h : Knows host decl log t) (query : Query μ φ) :
    Enumerates (query.demandsMethods host decl log) t (t.answer query).2 := by
  cases query with
  | decl | self | hasDefaultParameter | functionOf | property => exact .refl t
  | methods => exact .methodIndex t
  | carrier field | isCarrierMissing field | presentCarrier field => exact .carrier h field
  | getter field => exact .getter h field

end Enumerates

end

section

variable [BEq φ] {host : H} {decl : ClassDecl} {log : List (Query μ φ × Answer H μ)}
  {t : TypeMetadata H μ φ}

/-- Behind answered queries there is an index of the methods if one of them needed it, and then the
methods were enumerated once. -/
structure Tracks (host : H) (decl : ClassDecl) (log : List (Query μ φ × Answer H μ))
    (t : TypeMetadata H μ φ) : Prop extends Knows host decl log t where
  index_iff : t.index.isSome = true ↔ Demanded host decl log
  enumerations_eq : t.enumerations = t.index.isSome.toNat

namespace Tracks

/-- Before the first query nothing was enumerated. -/
lemma start (host : H) (decl : ClassDecl) :
    Tracks host decl [] (.ofDecl host decl : TypeMetadata H μ φ) where
  toKnows := .start host decl
  index_iff := ⟨nofun, fun h => (not_demanded_nil h).elim⟩
  enumerations_eq := rfl

/-- One more query is counted when it is the first that needs the methods. -/
theorem step [EquivBEq φ] (h : Tracks host decl log t) (query : Query μ φ) :
    Tracks host decl (log ++ [(query, (t.answer query).1)]) (t.answer query).2 := by
  have done := Enumerates.answer h.toKnows query
  refine { (h.toKnows.step query).2 with index_iff := ?_, enumerations_eq := ?_ }
  · rw [done.index, Bool.or_eq_true, h.index_iff, demanded_concat]
  · rw [done.enumerations, done.index, h.enumerations_eq]
    cases t.index.isSome with
    | true => rfl
    | false => exact Nat.zero_add _

end Tracks

end

/-! ## Sessions -/

/-- The queries about an identity that were answered from its entry, with the answers. -/
def answersAbout [BEq ι] (id : ι) (log : List (Question H μ φ × Reply H μ)) :
    List (Query μ φ × Answer H μ) :=
  log.filterMap fun
    | (.ask host query, .answer answer) => if HostType.id host == id then some (query, answer) else none
    | _ => none

section

variable [BEq ι] {log : List (Question H μ φ × Reply H μ)} {i j : ι} {host : H} {query : Query μ φ}
  {question : Question H μ φ} {reply : Reply H μ} {answer : Answer H μ}

/-- What was answered about an identity is collected question by question. -/
lemma answersAbout_concat : answersAbout i (log ++ [(question, reply)]) =
    answersAbout i log ++ answersAbout i [(question, reply)] :=
  List.filterMap_append

/-- An answer is about the identity of its host type. -/
lemma answersAbout_answer : answersAbout i [(.ask host query, .answer answer)] =
    if HostType.id host == i then [(query, answer)] else [] := by
  cases same : HostType.id host == i <;> simp [answersAbout, same]

/-- Equal identities are answered alike. -/
lemma answersAbout_congr [PartialEquivBEq ι] (same : (i == j) = true) :
    answersAbout i log = answersAbout j log := by
  unfold answersAbout
  refine congrArg (log.filterMap ·) (funext fun p => ?_)
  rcases p with ⟨_ | _ | _ | _ | _ | _, _ | _ | _ | _ | _⟩ <;> try rfl
  simp only [BEq.congr_right same]

end

namespace Session

section

variable {H : Type}

/-- The host types whose methods were enumerated, each as often as they were. -/
def enumerated (s : Session H ι μ φ) : List H :=
  s.types.flatMap fun p => List.replicate p.2.enumerations p.2.host

variable {s : Session H ι μ φ} {i : ι} {t t' : TypeMetadata H μ φ}

/-- A new entry adds the host types that it has enumerated. -/
lemma enumerated_add : (s.add i t).enumerated =
    s.enumerated ++ List.replicate t.enumerations t.host := by
  show (s.types ++ [(i, t)]).flatMap _ = _
  rw [List.flatMap_append, List.flatMap_singleton]
  rfl

variable [BEq ι]

/-- Where an entry was enumerated some more, its host type stands some more times. -/
lemma enumerated_update [EquivBEq ι] (distinct : s.keys.Pairwise fun a b => (a == b) = false)
    (known : s.find? i = some t) (host_eq : t'.host = t.host) {n : ℕ}
    (more : t'.enumerations = t.enumerations + n) :
    (s.update i t').enumerated.Perm (s.enumerated ++ List.replicate n t.host) := by
  obtain ⟨before, key, behind, types_eq, updated⟩ := update_of_known distinct known t'
  rw [enumerated, enumerated, updated, types_eq]
  simp only [List.flatMap_append, List.flatMap_cons, host_eq, more, List.replicate_add,
    List.append_assoc]
  refine List.Perm.append_left _ (List.Perm.append_left _ ?_)
  exact List.perm_append_comm

end

section

variable [BEq ι] {settings : Settings} {questions : List (Question H μ φ)}
  {log : List (Question H μ φ × Reply H μ)} {s : Session H ι μ φ} {i : ι} {t : TypeMetadata H μ φ}

end

section

variable [BEq ι] [BEq φ]

/-- Behind answered questions, every entry is behind the queries that were answered from it, and none
were where there is no entry. -/
def Tracked (log : List (Question H μ φ × Reply H μ)) (s : Session H ι μ φ) : Prop :=
  ∀ i, match s.find? i with
    | some t => Tracks t.host t.decl (answersAbout i log) t
    | none => answersAbout i log = []

/-- Before the first question nothing was enumerated. -/
lemma Tracked.start (settings : Settings) : Tracked [] (empty settings : Session H ι μ φ) :=
  fun _ => rfl

variable {settings : Settings} {questions : List (Question H μ φ)}
  {log : List (Question H μ φ × Reply H μ)} {s : Session H ι μ φ}

namespace Tracked

/-- An entry follows the answers that were given about its identity. -/
lemma known (h : Tracked log s) {i : ι} {t : TypeMetadata H μ φ} (known : s.find? i = some t) :
    Tracks t.host t.decl (answersAbout i log) t := by
  have := h i
  rwa [known] at this

/-- Where there is no entry, no answer was given. -/
lemma unknown (h : Tracked log s) {i : ι} (unknown : s.find? i = none) : answersAbout i log = [] := by
  have := h i
  rwa [unknown] at this

variable [EquivBEq ι]

/-- A query finds no entry and makes none, or it is answered from an entry; then the host type of that
is enumerated, if the methods are demanded and were not so far. -/
lemma ask_cases (h : Tracked log s) (distinct : s.keys.Pairwise fun a b => (a == b) = false)
    (host : H) (query : Query μ φ) :
    (∃ e, s.find? (HostType.id host) = none ∧ s.ask host query = (.noEntry e, s)) ∨
      ∃ t, Tracks t.host t.decl (answersAbout (HostType.id host) log) t ∧
        (s.ask host query).1 = .answer (t.answer query).1 ∧
        (s.ask host query).2.find? (HostType.id host) = some (t.answer query).2 ∧
        (s.ask host query).2.enumerated.Perm (s.enumerated ++ List.replicate
          (if t.index.isSome then 0 else
            (query.demandsMethods t.host t.decl (answersAbout (HostType.id host) log)).toNat)
          t.host) := by
  rcases s.ask_cases host query with
    ⟨t, known, heq⟩ | ⟨e, unknown, -, heq⟩ | ⟨decl, unknown, -, heq⟩
  · have tracks := h.known known
    refine .inr ⟨t, tracks, by rw [heq], find?_ask_of_known known query, ?_⟩
    rw [heq]
    exact enumerated_update distinct known (t.answer_keeps query).1
      (Enumerates.answer tracks.toKnows query).enumerations
  · exact .inl ⟨e, unknown, heq⟩
  · have tracks : Tracks host decl (answersAbout (HostType.id host) log)
        (.ofDecl host decl : TypeMetadata H μ φ) := by
      rw [h.unknown unknown]
      exact .start host decl
    refine .inr ⟨.ofDecl host decl, tracks, by rw [heq], ?_, ?_⟩
    · rw [heq, find?_add, unknown, if_pos BEq.rfl]
      rfl
    · have counted := (Enumerates.answer tracks.toKnows query).enumerations.trans (Nat.zero_add _)
      rw [heq, enumerated_add, counted, ((TypeMetadata.ofDecl host decl).answer_keeps query).1]
      rfl

/-- One more question is followed by the entry that it is about. -/
theorem step [EquivBEq φ] [BEq H] (h : Tracked log s)
    (distinct : s.keys.Pairwise fun a b => (a == b) = false) (question : Question H μ φ) :
    Tracked (log ++ [(question, (s.reply question).1)]) (s.reply question).2 := by
  -- what is answered without an entry is no query about any identity
  have quiet {reply : Reply H μ} (nothing : ∀ i, answersAbout i [(question, reply)] = []) :
      Tracked (log ++ [(question, reply)]) s := by
    intro i
    rw [answersAbout_concat, nothing, List.append_nil]
    exact h i
  cases question with
  | size | isEmpty | settings | hasMetadata | enumerations => exact quiet fun _ => rfl
  | ask host query =>
    show Tracked (log ++ [(_, (s.ask host query).1)]) (s.ask host query).2
    rcases h.ask_cases distinct host query with ⟨e, -, heq⟩ | ⟨t, tracks, replied, found, -⟩
    · rw [heq]
      exact quiet fun _ => rfl
    · intro i
      rw [replied, answersAbout_concat, answersAbout_answer]
      cases same : HostType.id host == i with
      | true =>
        obtain ⟨host_eq, decl_eq, -⟩ := t.answer_keeps query
        rw [← find?_congr _ same, found, ← answersAbout_congr same]
        dsimp only
        rw [host_eq, decl_eq]
        exact tracks.step query
      | false =>
        rw [find?_ask_of_ne same, if_neg Bool.false_ne_true, List.append_nil]
        exact h i

/-- The entries of a session follow the answers in its log. -/
lemma after [EquivBEq φ] [BEq H] (settings : Settings) (questions : List (Question H μ φ)) :
    Tracked ((empty settings : Session H ι μ φ).log questions) ((empty settings).after questions) := by
  induction questions using List.reverseRecOn with
  | nil => exact .start settings
  | append_singleton questions question ih =>
    have distinct := (Kept.after (ι := ι) settings questions).distinct
    rw [log_eq] at ih ⊢
    rw [Session.after, logOf_concat, stateAfter_concat]
    exact ih.step distinct question

end Tracked

variable [EquivBEq ι]

section

variable (kept : Kept settings questions log s) (tracked : Tracked log s)
include kept tracked

end

end

end Session

end ClassMetadata
