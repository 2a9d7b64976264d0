import ClassMetadata.Correlation.Session
import ClassMetadata.Proofs.Correlation.Answers

/-!
# Entries of a session

A session asks the metadata of a host type once, when there is no entry for its identity, and keeps
what they declare. Nothing is kept of a failure.

* `Session.ask_cases` says all that a query to the entry for a host type can do.
* `Session.find?_after` follows an entry through later questions.
-/

namespace ClassMetadata

/-! ## Metadata through queries -/

section

variable {H ι μ φ : Type} [HostType H ι μ φ] {t : TypeMetadata H μ φ} {query : Query μ φ}

namespace TypeMetadata

/-- A search does not change the host type. -/
@[simp] lemma host_search (signature : Option String) : (t.search signature).2.host = t.host := by
  cases signature with
  | none => rfl
  | some signature => exact host_methodIndex

/-- A search does not change the declaration. -/
@[simp] lemma decl_search (signature : Option String) : (t.search signature).2.decl = t.decl := by
  cases signature with
  | none => rfl
  | some signature => exact decl_methodIndex

variable [BEq φ]

/-- All that a query about a carrier can do. -/
lemma carrier_cases (t : TypeMetadata H μ φ) (field : φ) :
    (∃ r, t.carrier field = (r, t)) ∨
      ∃ a signature, t.carrier field = (.ok a, (t.search signature).2.keepCarrier field a) := by
  cases known : t.carriers.lookup field with
  | some a => exact .inl ⟨_, carrier_of_known known⟩
  | none =>
    cases hp : t.findProperty field with
    | error e => exact .inl ⟨_, carrier_of_error known hp⟩
    | ok p => exact .inr ⟨_, _, carrier_of_unknown known hp⟩

/-- All that a query about a getter can do. -/
lemma getter_cases (t : TypeMetadata H μ φ) (field : φ) :
    (∃ r, t.getter field = (r, t)) ∨
      ∃ a signature, t.getter field = (.ok a, (t.search signature).2.keepGetter field a) := by
  cases known : t.getters.lookup field with
  | some a => exact .inl ⟨_, getter_of_known known⟩
  | none =>
    cases hp : t.findProperty field with
    | error e => exact .inl ⟨_, getter_of_error known hp⟩
    | ok p => exact .inr ⟨_, _, getter_of_unknown known hp⟩

/-- A query leaves host and class alone, and everything if it ends in an error. -/
lemma answer_keeps (t : TypeMetadata H μ φ) (query : Query μ φ) :
    (t.answer query).2.host = t.host ∧ (t.answer query).2.decl = t.decl ∧
      ((t.answer query).1.isError = true → (t.answer query).2 = t) := by
  cases hfield : query.carrierField? with
  | some field =>
    rw [answer_of_carrierField? hfield]
    rcases t.carrier_cases field with ⟨r, h⟩ | ⟨a, signature, h⟩
    · rw [h]
      exact ⟨rfl, rfl, fun _ => rfl⟩
    · rw [h]
      refine ⟨host_search signature, decl_search signature, fun error => ?_⟩
      rw [Query.isError_ofCarrier_ok] at error
      cases error
  | none =>
    cases query with
    | carrier | isCarrierMissing | presentCarrier => cases hfield
    | decl | self | hasDefaultParameter | functionOf | property => exact ⟨rfl, rfl, fun _ => rfl⟩
    | methods => exact ⟨host_methodIndex, decl_methodIndex, nofun⟩
    | getter field =>
      show (t.getter field).2.host = _ ∧ (t.getter field).2.decl = _ ∧
        ((Answer.ofResult Answer.method (t.getter field).1 : Answer H μ).isError = true →
          (t.getter field).2 = t)
      rcases t.getter_cases field with ⟨r, h⟩ | ⟨a, signature, h⟩
      · rw [h]
        exact ⟨rfl, rfl, fun _ => rfl⟩
      · rw [h]
        exact ⟨host_search signature, decl_search signature, nofun⟩

/-- Queries change neither the host type nor the declaration of what they are put to. -/
lemma after_keeps (t : TypeMetadata H μ φ) (queries : List (Query μ φ)) :
    (t.after queries).host = t.host ∧ (t.after queries).decl = t.decl := by
  induction queries generalizing t with
  | nil => exact ⟨rfl, rfl⟩
  | cons query queries ih =>
    obtain ⟨host_eq, decl_eq⟩ := ih (t.answer query).2
    exact ⟨host_eq.trans (t.answer_keeps query).1, decl_eq.trans (t.answer_keeps query).2.1⟩

end TypeMetadata

end

/-! ## Entries by identity -/

namespace Session

section

variable {H ι μ φ : Type}

/-- The identities that have an entry. -/
def keys (s : Session H ι μ φ) : List ι := s.types.map Prod.fst

/-- The session with an entry behind the others. -/
def add (s : Session H ι μ φ) (id : ι) (t : TypeMetadata H μ φ) : Session H ι μ φ :=
  { s with types := s.types ++ [(id, t)] }

variable {s : Session H ι μ φ} {i j : ι} {t t' : TypeMetadata H μ φ}

/-- A session is as large as it has identities. -/
lemma size_eq (s : Session H ι μ φ) : s.size = s.keys.length := by
  rw [keys, List.length_map, size]

/-- An entry that is added has its identity behind all others. -/
lemma keys_add : (s.add i t).keys = s.keys ++ [i] := List.map_append

variable [BEq ι]

/-- An entry that is replaced keeps its identity. -/
lemma keys_update : (s.update i t).keys = s.keys := by
  simp only [keys, update, List.map_map]
  refine List.map_congr_left fun p _ => ?_
  show (if p.1 == i then (p.1, t) else (p.1, p.2)).1 = p.1
  split <;> rfl

/-- An identity is among those of a session when it finds an entry. -/
lemma any_keys : s.keys.any (i == ·) = (s.find? i).isSome := by
  rw [Bool.eq_iff_iff, find?, List.lookup_isSome_iff, keys, List.any_map, List.any_eq_true]
  rfl

/-- An added entry is found under its identity, unless an earlier one is. -/
lemma find?_add : (s.add i t).find? j = (s.find? j).or (if j == i then some t else none) := by
  show (s.types ++ [(i, t)]).lookup j = _
  rw [List.lookup_append, List.lookup_cons]
  cases j == i <;> rfl

/-- Where an identity finds nothing, no entry has it. -/
lemma ne_of_find?_eq_none (unknown : s.find? i = none) {p : ι × TypeMetadata H μ φ}
    (hp : p ∈ s.types) : (i == p.1) = false := by
  have apart := List.lookup_eq_none_iff.1 unknown p hp
  rwa [bne, Bool.not_eq_true'] at apart

/-- An update that finds nothing else under its identity changes nothing. -/
lemma update_eq_self (h : ∀ p ∈ s.types, (p.1 == i) = true → p.2 = t) : s.update i t = s := by
  have unchanged : ∀ p ∈ s.types, (if p.1 == i then (p.1, t) else (p.1, p.2)) = p := by
    intro p hp
    split
    · rename_i same
      rw [← h p hp same]
    · rfl
  exact congrArg (Session.mk s.settings) ((List.map_congr_left unchanged).trans (List.map_id _))

section

variable [PartialEquivBEq ι]

/-- Equal identities find the same entry. -/
lemma find?_congr (s : Session H ι μ φ) (same : (i == j) = true) : s.find? i = s.find? j := by
  unfold find?
  induction s.types with
  | nil => rfl
  | cons p types ih => rw [List.lookup_cons, List.lookup_cons, BEq.congr_left same, ih]

/-- A replaced entry is found under its identity, and every other identity finds what it found. -/
lemma find?_update :
    (s.update i t).find? j = if i == j then (s.find? j).map fun _ => t else s.find? j := by
  simp only [find?, update]
  induction s.types with
  | nil => cases i == j <;> rfl
  | cons p types ih =>
    rw [List.map_cons, List.lookup_cons, List.lookup_cons, ih]
    by_cases here : (j == p.1) = true
    · have : (p.1 == i) = (i == j) := by rw [BEq.congr_right here, BEq.comm]
      cases hi : i == j <;> simp [here, this, hi]
    · cases p.1 == i <;> simp [here]

/-- Without two equal identities, an update changes one entry. -/
lemma update_of_known (distinct : s.keys.Pairwise fun a b => (a == b) = false)
    (known : s.find? i = some t) (t' : TypeMetadata H μ φ) :
    ∃ before key behind, s.types = before ++ (key, t) :: behind ∧
      (s.update i t').types = before ++ (key, t') :: behind := by
  rw [keys] at distinct
  rw [find?] at known
  rw [update]
  dsimp only
  generalize s.types = types at distinct known ⊢
  induction types with
  | nil => cases known
  | cons p types ih =>
    obtain ⟨apart, distinct⟩ := List.pairwise_cons.1 distinct
    rw [List.lookup_cons] at known
    rw [List.map_cons]
    cases here : i == p.1 with
    | true =>
      rw [here] at known
      cases known
      refine ⟨[], p.1, types, rfl, ?_⟩
      rw [BEq.symm here, if_pos rfl]
      refine congrArg _ ((List.map_congr_left fun q hq => ?_).trans (List.map_id _))
      have other : (q.1 == i) = false := by
        rw [BEq.congr_right here, BEq.comm, apart q.1 (List.mem_map_of_mem hq)]
      rw [other, if_neg Bool.false_ne_true]
      rfl
    | false =>
      rw [here] at known
      obtain ⟨before, key, behind, rfl, updated⟩ := ih distinct known
      refine ⟨p :: before, key, behind, rfl, ?_⟩
      rw [updated, BEq.comm, here, if_neg Bool.false_ne_true]
      rfl

/-- Without two equal identities, what is found is all that there is. -/
lemma update_self (distinct : s.keys.Pairwise fun a b => (a == b) = false)
    (known : s.find? i = some t) : s.update i t = s := by
  obtain ⟨before, key, behind, types_eq, updated⟩ := update_of_known distinct known t
  exact congrArg (Session.mk s.settings) (updated.trans types_eq.symm)

end

/-- An entry that was just added is the one that is replaced. -/
lemma update_add [EquivBEq ι] (unknown : s.find? i = none) :
    (s.add i t).update i t' = s.add i t' := by
  have others : s.update i t' = s :=
    update_eq_self fun p hp same => by
      rw [BEq.comm, ne_of_find?_eq_none unknown hp] at same
      cases same
  have last : (if i == i then (i, t') else (i, t)) = (i, t') := if_pos BEq.rfl
  show Session.mk s.settings ((s.types ++ [(i, t)]).map _) = _
  rw [List.map_append]
  show Session.mk s.settings ((s.update i t').types ++ [if i == i then (i, t') else (i, t)]) = _
  rw [others, last]
  rfl

end

end Session

/-! ## Questions for an entry -/

section

variable {H ι μ φ : Type} [HostType H ι μ φ]

/-- The class of a host type by its metadata: of one without metadata there is none, and otherwise the
container is read as a header, and that is decoded. -/
def hostClass (settings : Settings) (host : H) : Except ResolveError ClassDecl := do
  let some container := HostType.container host | throw (.missingMetadata (HostType.name host))
  let header ← (Header.read container).mapError ResolveError.decode
  (header.decode settings).mapError ResolveError.decode

/-- A session makes the class of a host type from the annotations of the host type. -/
lemma decodeHost_eq (settings : Settings) (host : H) :
    Session.decodeHost settings host = hostClass settings host := by
  unfold Session.decodeHost hostClass
  cases HostType.container host with
  | none => rfl
  | some container =>
    cases hread : Header.read container with
    | error e => simp only [hread, bind, Except.bind, Except.mapError]
    | ok header =>
      cases hdecode : header.decode settings <;>
        simp only [hread, hdecode, bind, Except.bind, Except.mapError]

/-- The host type whose entry a question goes to. -/
def Question.asked? : Question H μ φ → Option H
  | ask host _ => some host
  | _ => none

variable [BEq ι]

/-- The queries of a run that go to the entry of an identity. -/
def queriesAbout (id : ι) (questions : List (Question H μ φ)) : List (Query μ φ) :=
  questions.filterMap fun
    | .ask host query => if HostType.id host == id then some query else none
    | _ => none

/-- The queries about an identity are those that were put to a host type of that identity. -/
lemma queriesAbout_ask {id : ι} {host : H} {query : Query μ φ} {questions : List (Question H μ φ)} :
    queriesAbout id (.ask host query :: questions) =
      if HostType.id host == id then query :: queriesAbout id questions
      else queriesAbout id questions := by
  cases same : HostType.id host == id <;> simp [queriesAbout, same]

namespace Session

section

variable {s : Session H ι μ φ} {host : H} {t : TypeMetadata H μ φ} {e : ResolveError}
  {decl : ClassDecl}

/-- Metadata that a session has is given again. -/
lemma metadataOf_of_known (known : s.find? (HostType.id host) = some t) :
    s.metadataOf host = (.ok t, s) := by
  rw [metadataOf, known]

/-- Metadata that cannot be made leaves no trace. -/
lemma metadataOf_of_error (unknown : s.find? (HostType.id host) = none)
    (h : hostClass s.settings host = .error e) : s.metadataOf host = (.error e, s) := by
  rw [metadataOf, unknown, decodeHost_eq, h]

/-- Metadata that is asked for the first time is made and kept. -/
lemma metadataOf_of_ok (unknown : s.find? (HostType.id host) = none)
    (h : hostClass s.settings host = .ok decl) :
    s.metadataOf host =
      (.ok (.ofDecl host decl), s.add (HostType.id host) (.ofDecl host decl)) := by
  rw [metadataOf, unknown, decodeHost_eq, h]
  rfl

section

variable [BEq φ]

/-- A query about a known host type is put to its entry, and the entry after it is kept. -/
lemma ask_of_known (known : s.find? (HostType.id host) = some t) (query : Query μ φ) :
    s.ask host query =
      (.answer (t.answer query).1, s.update (HostType.id host) (t.answer query).2) := by
  rw [ask, metadataOf_of_known known]

/-- A query about a host type whose class cannot be made changes nothing. -/
lemma ask_of_error (unknown : s.find? (HostType.id host) = none)
    (h : hostClass s.settings host = .error e) (query : Query μ φ) :
    s.ask host query = (.noEntry e, s) := by
  rw [ask, metadataOf_of_error unknown h]

variable [EquivBEq ι]

/-- A query about a new host type is put to a fresh entry, and the entry after it is kept. -/
lemma ask_of_ok (unknown : s.find? (HostType.id host) = none)
    (h : hostClass s.settings host = .ok decl) (query : Query μ φ) :
    s.ask host query = (.answer ((TypeMetadata.ofDecl host decl).answer query).1,
      s.add (HostType.id host) ((TypeMetadata.ofDecl host decl).answer query).2) := by
  rw [ask, metadataOf_of_ok unknown h]
  exact congrArg _ (update_add unknown)

/-- All that a query to the entry for a host type can do. -/
lemma ask_cases (s : Session H ι μ φ) (host : H) (query : Query μ φ) :
    (∃ t, s.find? (HostType.id host) = some t ∧ s.ask host query =
      (.answer (t.answer query).1, s.update (HostType.id host) (t.answer query).2)) ∨
    (∃ e, s.find? (HostType.id host) = none ∧ hostClass s.settings host = .error e ∧
      s.ask host query = (.noEntry e, s)) ∨
    ∃ decl, s.find? (HostType.id host) = none ∧ hostClass s.settings host = .ok decl ∧
      s.ask host query = (.answer ((TypeMetadata.ofDecl host decl).answer query).1,
        s.add (HostType.id host) ((TypeMetadata.ofDecl host decl).answer query).2) := by
  cases known : s.find? (HostType.id host) with
  | some t => exact .inl ⟨t, rfl, ask_of_known known query⟩
  | none =>
    cases h : hostClass s.settings host with
    | error e => exact .inr (.inl ⟨e, rfl, rfl, ask_of_error known h query⟩)
    | ok decl => exact .inr (.inr ⟨decl, rfl, rfl, ask_of_ok known h query⟩)

variable {i : ι}

/-- The entry of another identity is out of reach. -/
lemma find?_ask_of_ne (apart : (HostType.id host == i) = false) (query : Query μ φ) :
    (s.ask host query).2.find? i = s.find? i := by
  rcases s.ask_cases host query with ⟨t, -, h⟩ | ⟨e, -, -, h⟩ | ⟨decl, -, -, h⟩
  · rw [h, find?_update, apart]
    rfl
  · rw [h]
  · rw [h, find?_add, BEq.comm, apart]
    exact Option.or_none

/-- Behind a query, a known host type has the entry after that query. -/
lemma find?_ask_of_known (known : s.find? (HostType.id host) = some t) (query : Query μ φ) :
    (s.ask host query).2.find? (HostType.id host) = some (t.answer query).2 := by
  rw [ask_of_known known, find?_update, BEq.rfl, known]
  rfl

end

/-! ## Questions one after the other -/

variable [BEq H] [BEq φ]

/-- The session behind questions. -/
def after (s : Session H ι μ φ) (questions : List (Question H μ φ)) : Session H ι μ φ :=
  stateAfter reply s questions

/-- Questions put one after the other, each with its answer. -/
def log (s : Session H ι μ φ) (questions : List (Question H μ φ)) :
    List (Question H μ φ × Reply H μ) :=
  questions.zip ((s.replies questions).map Prod.fst)

/-- The log of a session is the log of its replies. -/
lemma log_eq (s : Session H ι μ φ) (questions : List (Question H μ φ)) :
    s.log questions = logOf reply s questions := by
  induction questions generalizing s with
  | nil => rfl
  | cons question questions ih =>
    rw [logOf, ← ih]
    rfl

/-- An entry stays, and later queries to it are what changes it. -/
lemma find?_after [EquivBEq ι] {i : ι} (known : s.find? i = some t)
    (later : List (Question H μ φ)) :
    (s.after later).find? i = some (t.after (queriesAbout i later)) := by
  induction later generalizing s t with
  | nil => exact known
  | cons question later ih =>
    cases question with
    | size | isEmpty | settings | hasMetadata | enumerations => exact ih known
    | ask host query =>
      rw [queriesAbout_ask]
      show ((s.ask host query).2.after later).find? i = _
      cases same : HostType.id host == i with
      | true =>
        have here : s.find? (HostType.id host) = some t := (find?_congr s same).trans known
        exact ih ((find?_congr _ same).symm.trans (find?_ask_of_known here query))
      | false => exact ih ((find?_ask_of_ne same query).trans known)

end

end Session

end

end ClassMetadata
