import Mathlib
import ClassMetadata.Proofs.Correlation.Entries

/-!
# Whole runs of a session

Of the host types with one identity that are asked about, the first whose metadata can be decoded
makes the entry, and the others find it.

* `Session.Kept` ties the entries of a session to the questions so far, and `Session.Kept.step` is one
  more question.
* `Session.keeps_earliest` is about whole runs.
-/

namespace ClassMetadata

variable {H ι μ φ : Type} [HostType H ι μ φ]

namespace Session

section

variable {settings : Settings} {questions : List (Question H μ φ)} {question : Question H μ φ}
  {log : List (Question H μ φ × Reply H μ)} {reply : Reply H μ} {s : Session H ι μ φ} {host : H}
  {query : Query μ φ}

/-- The host types of a run whose metadata can be decoded. -/
def decodable (settings : Settings) (questions : List (Question H μ φ)) : List H :=
  (questions.filterMap Question.asked?).filter fun host => (hostClass settings host).isOk

/-- The identities of the questions that found an entry or made one. -/
def answeredIds (log : List (Question H μ φ × Reply H μ)) : List ι :=
  log.filterMap fun
    | (.ask host _, .answer _) => some (HostType.id host)
    | _ => none

/-- One more question adds its host type, if that can be decoded. -/
lemma decodable_concat : decodable settings (questions ++ [question]) =
    decodable settings questions ++
      question.asked?.toList.filter fun host => (hostClass settings host).isOk := by
  rw [decodable, List.filterMap_append, List.filter_append]
  cases question <;> rfl

/-- A question about a host type that can be decoded adds it. -/
lemma decodable_concat_ok {decl : ClassDecl} (h : hostClass settings host = .ok decl) :
    decodable settings (questions ++ [.ask host query]) = decodable settings questions ++ [host] := by
  rw [decodable_concat]
  show _ ++ [host].filter _ = _
  rw [List.filter_cons_of_pos (by rw [h]; rfl)]
  rfl

/-- A question about a host type that cannot be decoded adds nothing. -/
lemma decodable_concat_error {e : ResolveError} (h : hostClass settings host = .error e) :
    decodable settings (questions ++ [.ask host query]) = decodable settings questions := by
  rw [decodable_concat]
  show _ ++ [host].filter _ = _
  rw [List.filter_cons_of_neg (by rw [h]; exact Bool.false_ne_true)]
  exact List.append_nil _

/-- What has an answer is collected question by question. -/
lemma answeredIds_concat : answeredIds (log ++ [(question, reply)]) =
    answeredIds log ++ answeredIds [(question, reply)] :=
  List.filterMap_append

/-- A host type and its class, when the metadata of it can be decoded. -/
def withClass (settings : Settings) (host : H) : Except ResolveError (H × ClassDecl) :=
  (hostClass settings host).map (host, ·)

/-- A host type that can be decoded comes with its class. -/
lemma withClass_of_ok {decl : ClassDecl} (h : hostClass settings host = .ok decl) :
    withClass settings host = .ok (host, decl) := by
  rw [withClass, h]
  rfl

end

section

variable {H : Type}

/-- The host types that made the entries, and their classes. -/
def origins (s : Session H ι μ φ) : List (ι × H × ClassDecl) :=
  s.types.map fun (key, t) => (key, t.host, t.decl)

/-- The origin of an identity is the host type and the class of its entry. -/
lemma lookup_origins [BEq ι] (s : Session H ι μ φ) (i : ι) :
    s.origins.lookup i = (s.find? i).map fun t => (t.host, t.decl) := by
  rw [origins, find?]
  induction s.types with
  | nil => rfl
  | cons p types ih =>
    rw [List.map_cons, List.lookup_cons, List.lookup_cons, ih]
    cases i == p.1 <;> rfl

/-- An entry has the host type and the class of its identity. -/
lemma lookup_origins_of_known [BEq ι] {s : Session H ι μ φ} {i : ι} {t : TypeMetadata H μ φ}
    (known : s.find? i = some t) : s.origins.lookup i = some (t.host, t.decl) := by
  rw [lookup_origins, known]
  rfl

end

variable [BEq ι]

/-- What a session has behind answered questions. -/
structure Kept (settings : Settings) (questions : List (Question H μ φ))
    (log : List (Question H μ φ × Reply H μ)) (s : Session H ι μ φ) : Prop where
  settings_eq : s.settings = settings
  origins : Remembers HostType.id (withClass settings) (decodable settings questions) s.origins
  keys_eq : s.keys = (answeredIds log).eraseDups

namespace Kept

variable {settings : Settings} {questions : List (Question H μ φ)} {question : Question H μ φ}
  {log : List (Question H μ φ × Reply H μ)} {s : Session H ι μ φ} {host : H} {query : Query μ φ}

/-- Before the first question a session keeps nothing. -/
lemma start (settings : Settings) : Kept settings [] [] (empty settings : Session H ι μ φ) where
  settings_eq := rfl
  origins := .nil
  keys_eq := rfl

/-- No identity stands in a session twice. -/
lemma distinct [PartialEquivBEq ι] (h : Kept settings questions log s) :
    s.keys.Pairwise fun a b => (a == b) = false := by
  rw [h.keys_eq]
  exact pairwise_eraseDups _

/-- An entry is of the first host type of its identity whose metadata can be decoded. -/
lemma of_known (h : Kept settings questions log s) {i : ι} {t : TypeMetadata H μ φ}
    (known : s.find? i = some t) :
    (decodable settings questions).find? (i == HostType.id ·) = some t.host ∧
      hostClass settings t.host = .ok t.decl := by
  obtain ⟨first, hfirst, hclass⟩ := h.origins.of_lookup (lookup_origins_of_known known)
  rw [withClass] at hclass
  cases hc : hostClass settings first with
  | error e =>
    rw [hc] at hclass
    cases hclass
  | ok decl =>
    rw [hc] at hclass
    cases hclass
    exact ⟨hfirst, hc⟩

/-- An identity without an entry was not asked for with a host type that can be decoded. -/
lemma of_unknown (h : Kept settings questions log s) {i : ι} (unknown : s.find? i = none) :
    (decodable settings questions).find? (i == HostType.id ·) = none := by
  refine h.origins.find?_eq_none ?_
  rw [lookup_origins, unknown]
  rfl

/-- A session may stay as it is when a question brings no new host type and has no answer. -/
lemma quiet (h : Kept settings questions log s) {reply : Reply H μ}
    (noHost : decodable settings (questions ++ [question]) = decodable settings questions)
    (noId : answeredIds [(question, reply)] = []) :
    Kept settings (questions ++ [question]) (log ++ [(question, reply)]) s := by
  refine { h with origins := ?_, keys_eq := ?_ }
  · rw [noHost]
    exact h.origins
  · rw [answeredIds_concat, noId, List.append_nil]
    exact h.keys_eq

variable [BEq φ]

/-- A question about an entry that is there leaves the session with the same entries. -/
lemma known [PartialEquivBEq ι] (h : Kept settings questions log s) {t : TypeMetadata H μ φ}
    (known : s.find? (HostType.id host) = some t) (query : Query μ φ) :
    Kept settings (questions ++ [.ask host query])
      (log ++ [(.ask host query, .answer (t.answer query).1)])
      (s.update (HostType.id host) (t.answer query).2) where
  settings_eq := h.settings_eq
  origins := by
    obtain ⟨host_eq, decl_eq, -⟩ := t.answer_keeps query
    -- the entry learns something, but it is still of the same host type
    have unchanged (i : ι) : (s.update (HostType.id host) (t.answer query).2).origins.lookup i =
        s.origins.lookup i := by
      rw [lookup_origins, lookup_origins, find?_update]
      split
      · rename_i same
        rw [← find?_congr s same, known]
        simp only [Option.map_some, host_eq, decl_eq]
      · rfl
    refine Remembers.congr ?_ unchanged
    -- this host type may have metadata as well, but it comes too late
    cases hc : hostClass settings host with
    | error e =>
      rw [decodable_concat_error hc]
      exact h.origins
    | ok decl =>
      rw [decodable_concat_ok hc]
      exact h.origins.again (lookup_origins_of_known known)
  keys_eq := by
    have old : (answeredIds log).eraseDups.any (HostType.id host == ·) = true := by
      rw [← h.keys_eq, any_keys, known]
      rfl
    rw [keys_update, h.keys_eq, answeredIds_concat]
    show _ = (answeredIds log ++ [HostType.id host]).eraseDups
    rw [eraseDups_concat_any, if_pos old]

/-- A question about a new host type adds the entry that it makes. -/
lemma made (h : Kept settings questions log s) {decl : ClassDecl}
    (unknown : s.find? (HostType.id host) = none) (hc : hostClass settings host = .ok decl)
    (query : Query μ φ) :
    Kept settings (questions ++ [.ask host query])
      (log ++ [(.ask host query, .answer ((TypeMetadata.ofDecl host decl).answer query).1)])
      (s.add (HostType.id host) ((TypeMetadata.ofDecl host decl).answer query).2) where
  settings_eq := h.settings_eq
  origins := by
    obtain ⟨host_eq, decl_eq, -⟩ := (TypeMetadata.ofDecl host decl).answer_keeps query
    have extended :
        (s.add (HostType.id host) ((TypeMetadata.ofDecl host decl).answer query).2).origins =
          s.origins ++ [(HostType.id host, host, decl)] := by
      rw [Session.origins, add, List.map_append]
      show _ ++ [(_, _, _)] = _
      rw [host_eq, decl_eq]
      rfl
    rw [extended, decodable_concat_ok hc]
    exact h.origins.concat (withClass_of_ok hc)
  keys_eq := by
    have new : ¬ (answeredIds log).eraseDups.any (HostType.id host == ·) = true := by
      rw [← h.keys_eq, any_keys, unknown]
      exact Bool.false_ne_true
    rw [keys_add, h.keys_eq, answeredIds_concat]
    show _ = (answeredIds log ++ [HostType.id host]).eraseDups
    rw [eraseDups_concat_any, if_neg new]

/-- One more question is kept. -/
theorem step [EquivBEq ι] [BEq H] (h : Kept settings questions log s) (question : Question H μ φ) :
    Kept settings (questions ++ [question]) (log ++ [(question, (s.reply question).1)])
      (s.reply question).2 := by
  cases question with
  | size | isEmpty | settings | hasMetadata | enumerations =>
    exact h.quiet (decodable_concat.trans (List.append_nil _)) rfl
  | ask host query =>
    show Kept settings _ (log ++ [(_, (s.ask host query).1)]) (s.ask host query).2
    rcases s.ask_cases host query with
      ⟨t, found, heq⟩ | ⟨e, unknown, hc, heq⟩ | ⟨decl, unknown, hc, heq⟩
    · rw [heq]
      exact h.known found query
    · rw [heq]
      rw [h.settings_eq] at hc
      exact h.quiet (decodable_concat_error hc) rfl
    · rw [heq]
      rw [h.settings_eq] at hc
      exact h.made unknown hc query

/-- Every run of a session is kept. -/
lemma after [EquivBEq ι] [BEq H] (settings : Settings) (questions : List (Question H μ φ)) :
    Kept settings questions ((empty settings : Session H ι μ φ).log questions)
      ((empty settings).after questions) := by
  rw [log_eq]
  induction questions using List.reverseRecOn with
  | nil => exact .start settings
  | append_singleton questions question ih =>
    rw [Session.after, logOf_concat, stateAfter_concat]
    exact ih.step question

/-- A query that ends in an error leaves of its question no more than the entry. -/
lemma ask_of_error [EquivBEq ι] (h : Kept settings questions log s) {e : ResolveError}
    (failed : (s.ask host query).1 = .answer (.failed (.unresolved e))) :
    (s.ask host query).2 = (s.metadataOf host).2 := by
  rcases s.ask_cases host query with
    ⟨t, known, heq⟩ | ⟨e', unknown, hc, heq⟩ | ⟨decl, unknown, hc, heq⟩
  · rw [heq] at failed ⊢
    have error : (t.answer query).1.isError = true := by
      rw [Reply.answer.inj failed]
      rfl
    rw [(t.answer_keeps query).2.2 error, update_self h.distinct known, metadataOf_of_known known]
  · rw [heq] at failed
    cases failed
  · rw [heq] at failed ⊢
    have error : ((TypeMetadata.ofDecl host decl).answer query).1.isError = true := by
      rw [Reply.answer.inj failed]
      rfl
    rw [((TypeMetadata.ofDecl host decl).answer_keeps query).2.2 error, metadataOf_of_ok unknown hc]

end Kept

/-- A query without an entry changes nothing. -/
lemma ask_of_noEntry [BEq φ] [EquivBEq ι] {s : Session H ι μ φ} {host : H} {query : Query μ φ}
    {e : ResolveError} (failed : (s.ask host query).1 = .noEntry e) :
    (s.ask host query).2 = s := by
  rcases s.ask_cases host query with ⟨t, -, heq⟩ | ⟨e', -, -, heq⟩ | ⟨decl, -, -, heq⟩
  · rw [heq] at failed
    cases failed
  · rw [heq]
  · rw [heq] at failed
    cases failed

/-- Behind any questions, a host type is given the entry of the first one of its identity that was
asked about and whose metadata can be decoded. Without one its own metadata decide: they are missing,
cannot be read as a header, cannot be decoded, or make an entry. An entry stays and changes by queries
to it alone; nothing is kept of what fails; and there are as many entries as identities for which a
question found an entry or made one. -/
theorem keeps_earliest [EquivBEq ι] [BEq H] [BEq φ] (settings : Settings)
    (questions : List (Question H μ φ)) :
    let s := (empty settings : Session H ι μ φ).after questions
    (∀ host : H, match (decodable settings questions).find? (HostType.id host == HostType.id ·) with
      | some first => ∃ t, s.metadataOf host = (.ok t, s) ∧ s.find? (HostType.id host) = some t ∧
          t.host = first ∧ hostClass settings first = .ok t.decl
      | none => s.metadataOf host = match hostClass settings host with
        | .error e => (.error e, s)
        | .ok decl =>
          (.ok (.ofDecl host decl), s.add (HostType.id host) (.ofDecl host decl))) ∧
    (∀ id t later, s.find? id = some t →
      ∃ t', (s.after later).find? id = some t' ∧ t'.host = t.host ∧ t'.decl = t.decl ∧
        t' = t.after (queriesAbout id later)) ∧
    (∀ host query e, (s.ask host query).1 = .noEntry e → (s.ask host query).2 = s) ∧
    (∀ host query e, (s.ask host query).1 = .answer (.failed (.unresolved e)) →
      (s.ask host query).2 = (s.metadataOf host).2) ∧
    s.size = (answeredIds ((empty settings : Session H ι μ φ).log questions)).eraseDups.length := by
  intro s
  have kept := Kept.after (ι := ι) settings questions
  refine ⟨fun host => ?_, fun id t later known => ?_, fun host query e => ask_of_noEntry,
    fun host query e => kept.ask_of_error, ?_⟩
  · cases known : s.find? (HostType.id host) with
    | some t =>
      obtain ⟨first, hclass⟩ := kept.of_known known
      rw [first]
      exact ⟨t, metadataOf_of_known known, rfl, rfl, hclass⟩
    | none =>
      rw [kept.of_unknown known]
      have settings_eq : s.settings = settings := kept.settings_eq
      cases hc : hostClass settings host with
      | error e => exact metadataOf_of_error known (settings_eq ▸ hc)
      | ok decl => exact metadataOf_of_ok known (settings_eq ▸ hc)
  · obtain ⟨host_eq, decl_eq⟩ := t.after_keeps (queriesAbout id later)
    exact ⟨_, find?_after known later, host_eq, decl_eq, rfl⟩
  · rw [size_eq, kept.keys_eq]

/-- A header of a class that has nothing but a name. -/
def named (name : String) (version : Version) : Header where
  kind := .classFile
  version := version
  data := ["\x00\x18\x00"]
  strings := [name]
  extraString := ""
  packageName := none
  extraInt := none

/-- Four host types of one identity. The first has no metadata, and those of the second are too old. -/
def sameIdentity : List ListedHost :=
  [⟨0, "A", none, []⟩, ⟨1, "A", some (named "A" ⟨1, 0, 0⟩), []⟩,
    ⟨2, "A", some (named "A" .current), []⟩, ⟨3, "A", some (named "B" .current), []⟩]

/-- The third of them makes the entry, and the first is given it afterwards. -/
theorem keeps_earliest_sameIdentity :
    let s := (empty .default : Session ListedHost String (Nat × String) ListedField).after
      (sameIdentity.map (.ask · .self))
    (∃ t, s.metadataOf ⟨0, "A", none, []⟩ = (.ok t, s) ∧ t.host.number = 2) ∧ s.size = 1 := by
  intro s
  obtain ⟨given, -, -, -, size⟩ := keeps_earliest (ι := String) Settings.default
    (sameIdentity.map (.ask · .self))
  have first : (decodable .default (sameIdentity.map (Question.ask · .self))).find?
      (HostType.id (⟨0, "A", none, []⟩ : ListedHost) == HostType.id ·) =
        some ⟨2, "A", some (named "A" .current), []⟩ := by
    cbv
  have entry := given ⟨0, "A", none, []⟩
  rw [first] at entry
  obtain ⟨t, ht, -, host_eq, -⟩ := entry
  refine ⟨⟨t, ht, by rw [host_eq]⟩, size.trans ?_⟩
  cbv

end Session

end ClassMetadata
