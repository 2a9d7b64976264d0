import ClassMetadata.Proofs.Correlation.Sessions

/-!
# Separate identities

What a session answers about the host types of one identity does not depend on the questions about
others.

* `Session.restrict` leaves the entries of one identity. Questions about it commute with that
  (`Session.restrict_reply`), and all others are lost in it (`Session.restrict_reply_of_not_about`).
* `Session.filter_log` follows whole runs: the answers about one identity are those to its questions
  alone.
* `Session.interleavings_agree` compares two runs.
-/

namespace ClassMetadata

variable {H ι μ φ : Type} [HostType H ι μ φ]

namespace Question

/-- The host type that a question is about. -/
def host? : Question H μ φ → Option H
  | hasMetadata host | enumerations host | ask host _ => some host
  | size | isEmpty | settings => none

/-- A question is about a host type of an identity. -/
def about [BEq ι] (id : ι) (question : Question H μ φ) : Bool :=
  question.host?.any (HostType.id · == id)

end Question

namespace Session

/-! ## The entries of one identity -/

section

variable {H : Type} [BEq ι] {s : Session H ι μ φ} {i j : ι} {t : TypeMetadata H μ φ}

/-- The session with the entries of an identity alone. -/
def restrict (s : Session H ι μ φ) (id : ι) : Session H ι μ φ :=
  { s with types := s.types.filter (·.1 == id) }

/-- Restriction to an identity goes past the replacement of an entry. -/
lemma restrict_update : (s.update j t).restrict i = (s.restrict i).update j t := by
  refine congrArg (Session.mk s.settings) ?_
  show (s.types.map _).filter _ = (s.types.filter _).map _
  rw [List.filter_map]
  refine congrArg _ (List.filter_congr fun p _ => ?_)
  show ((if p.1 == j then (p.1, t) else (p.1, p.2)).1 == i) = (p.1 == i)
  split <;> rfl

/-- An added entry belongs to the restriction if it is of that identity. -/
lemma restrict_add : (s.add j t).restrict i =
    if j == i then (s.restrict i).add j t else s.restrict i := by
  have last : [(j, t)].filter (fun p => p.1 == i) = if j == i then [(j, t)] else [] :=
    List.filter_cons
  show Session.mk s.settings ((s.types ++ [(j, t)]).filter _) = _
  rw [List.filter_append, last]
  split
  · rfl
  · rw [List.append_nil]
    rfl

/-- Restriction to an identity keeps it, if it is there. -/
lemma mem_keys_restrict [ReflBEq ι] (s : Session H ι μ φ) (i : ι) :
    i ∈ (s.restrict i).keys ↔ i ∈ s.keys := by
  rw [keys, keys, List.mem_map, List.mem_map]
  refine ⟨?_, ?_⟩
  · rintro ⟨p, hp, rfl⟩
    exact ⟨p, (List.mem_filter.1 hp).1, rfl⟩
  · rintro ⟨p, hp, rfl⟩
    exact ⟨p, List.mem_filter.2 ⟨hp, BEq.rfl⟩, rfl⟩

variable [PartialEquivBEq ι]

/-- The entry of another identity is of no account. -/
lemma restrict_update_of_ne (apart : (j == i) = false) :
    (s.update j t).restrict i = s.restrict i := by
  rw [restrict_update]
  refine update_eq_self fun p hp same => ?_
  have here : (p.1 == i) = true := (List.mem_filter.1 hp).2
  rw [← BEq.congr_left same, here] at apart
  cases apart

/-- A restriction finds the entry of its identity. -/
lemma find?_restrict (same : (j == i) = true) : (s.restrict i).find? j = s.find? j := by
  simp only [find?, restrict]
  induction s.types with
  | nil => rfl
  | cons p types ih =>
    cases here : p.1 == i with
    | true => rw [List.filter_cons_of_pos (by exact here), List.lookup_cons, List.lookup_cons, ih]
    | false =>
      have apart : (j == p.1) = false := by rw [BEq.congr_left same, BEq.comm, here]
      rw [List.filter_cons_of_neg (by exact Bool.eq_false_iff.1 here), ih, List.lookup_cons,
        apart]

end

/-! ## Questions about one identity -/

section

variable [BEq ι] [EquivBEq ι] [BEq φ] {s : Session H ι μ φ} {i : ι} {host : H}
  {question : Question H μ φ}

/-- A question about the identity does to the restriction what it does to the session. -/
lemma restrict_ask (same : (HostType.id host == i) = true) (query : Query μ φ) :
    (s.restrict i).ask host query = ((s.ask host query).1, (s.ask host query).2.restrict i) := by
  rcases s.ask_cases host query with ⟨t, known, h⟩ | ⟨e, unknown, hc, h⟩ | ⟨decl, unknown, hc, h⟩
  · rw [h, ask_of_known ((find?_restrict same).trans known), restrict_update]
  · rw [h, ask_of_error ((find?_restrict same).trans unknown) hc]
  · rw [h, ask_of_ok ((find?_restrict same).trans unknown) hc, restrict_add, if_pos same]

/-- A question about another identity leaves the restriction as it is. -/
lemma restrict_ask_of_ne (apart : (HostType.id host == i) = false) (query : Query μ φ) :
    (s.ask host query).2.restrict i = s.restrict i := by
  rcases s.ask_cases host query with ⟨t, -, h⟩ | ⟨e, -, -, h⟩ | ⟨decl, -, -, h⟩
  · rw [h, restrict_update_of_ne apart]
  · rw [h]
  · rw [h, restrict_add, apart]
    rfl

variable [BEq H]

/-- A question about an identity sees the entry of that identity alone, and changes no other. -/
lemma restrict_reply (h : question.about i = true) :
    (s.restrict i).reply question = ((s.reply question).1, (s.reply question).2.restrict i) := by
  cases question with
  | size | isEmpty | settings => cases h
  | hasMetadata host => rfl
  | enumerations host =>
    show (Reply.count ((s.restrict i).enumerations host), s.restrict i) = (.count _, _)
    rw [enumerations, find?_restrict h]
    rfl
  | ask host query => exact restrict_ask h query

/-- A question that is not about the identity leaves the restriction as it is. -/
lemma restrict_reply_of_not_about (h : question.about i = false) :
    (s.reply question).2.restrict i = s.restrict i := by
  cases question with
  | ask host query => exact restrict_ask_of_ne h query
  | size | isEmpty | settings | hasMetadata | enumerations => rfl

/-! ## Whole runs -/

/-- The restriction of a run is the run of the questions about the identity. -/
lemma restrict_after (s : Session H ι μ φ) (i : ι) (questions : List (Question H μ φ)) :
    (s.after questions).restrict i = (s.restrict i).after (questions.filter (Question.about i)) := by
  induction questions generalizing s with
  | nil => rfl
  | cons question questions ih =>
    show ((s.reply question).2.after questions).restrict i = _
    cases h : question.about i with
    | true =>
      rw [ih, List.filter_cons_of_pos h]
      show _ = ((s.restrict i).reply question).2.after _
      rw [restrict_reply h]
    | false =>
      rw [ih, restrict_reply_of_not_about h, List.filter_cons_of_neg (Bool.eq_false_iff.1 h)]

/-- The answers about an identity are those to the questions about it alone. -/
theorem filter_log (s : Session H ι μ φ) (i : ι) (questions : List (Question H μ φ)) :
    (s.log questions).filter (·.1.about i) =
      (s.restrict i).log (questions.filter (Question.about i)) := by
  induction questions generalizing s with
  | nil => rfl
  | cons question questions ih =>
    show ((question, (s.reply question).1) :: (s.reply question).2.log questions).filter _ = _
    cases h : question.about i with
    | true =>
      rw [List.filter_cons_of_pos (by exact h), ih, List.filter_cons_of_pos h]
      show _ = (question, ((s.restrict i).reply question).1) ::
        ((s.restrict i).reply question).2.log _
      rw [restrict_reply h]
    | false =>
      rw [List.filter_cons_of_neg (by exact Bool.eq_false_iff.1 h), ih, restrict_reply_of_not_about h,
        List.filter_cons_of_neg (Bool.eq_false_iff.1 h)]

/-- No question changes the settings. -/
lemma settings_reply (s : Session H ι μ φ) (question : Question H μ φ) :
    (s.reply question).2.settings = s.settings := by
  cases question with
  | size | isEmpty | settings | hasMetadata | enumerations => rfl
  | ask host query =>
    show (s.ask host query).2.settings = _
    rcases s.ask_cases host query with ⟨t, -, h⟩ | ⟨e, -, -, h⟩ | ⟨decl, -, -, h⟩ <;> rw [h] <;> rfl

/-- The settings that are told are those of the session. -/
lemma settings_of_mem_log {s : Session H ι μ φ} {questions : List (Question H μ φ)}
    {reply : Reply H μ} (h : (.settings, reply) ∈ s.log questions) :
    reply = .settings s.settings := by
  induction questions generalizing s with
  | nil => cases h
  | cons question questions ih =>
    rcases List.mem_cons.1 h with now | later
    · cases now
      rfl
    · rw [ih later, settings_reply]

/-- Two runs that put the same questions about every identity in the same order, however those about
different ones are mixed, get the same answers to them; the settings are the same all the time, and in
the end there are equally many entries. -/
theorem interleavings_agree (settings : Settings) {run run' : List (Question H μ φ)}
    (same : ∀ id : ι, run.filter (Question.about id) = run'.filter (Question.about id)) :
    let s : Session H ι μ φ := empty settings
    (∀ id, (s.log run).filter (·.1.about id) = (s.log run').filter (·.1.about id)) ∧
      (∀ reply, (.settings, reply) ∈ s.log run ++ s.log run' → reply = .settings settings) ∧
      (s.after run).size = (s.after run').size := by
  intro s
  refine ⟨fun id => ?_, fun reply h => ?_, ?_⟩
  · rw [filter_log, filter_log, same id]
  · rcases List.mem_append.1 h with h | h
    · exact settings_of_mem_log h
    · exact settings_of_mem_log h
  · -- one entry for each identity, and it stands under the same key in both sessions
    have nodup (run : List (Question H μ φ)) : (s.after run).keys.Nodup :=
      (Kept.after settings run).distinct.imp fun apart e => by
        rw [e, BEq.rfl] at apart
        cases apart
    have keys : (s.after run).keys.Perm (s.after run').keys := by
      refine (List.perm_ext_iff_of_nodup (nodup run) (nodup run')).2 fun id => ?_
      rw [← mem_keys_restrict, ← mem_keys_restrict (s.after run'), restrict_after, restrict_after,
        same id]
    rw [size_eq, size_eq, keys.length_eq]

end

/-- A host type whose methods are counted, between questions about another one. -/
def countedFirst : List (Question ListedHost (Nat × String) ListedField) :=
  [.ask ⟨0, "A", some (named "A" .current), [(1, "f()V")]⟩ (.methods ["f()V"]),
    .ask ⟨1, "B", none, []⟩ .self,
    .enumerations ⟨0, "A", some (named "A" .current), [(1, "f()V")]⟩]

/-- The same questions, but the other host type is asked about first. -/
def countedLast : List (Question ListedHost (Nat × String) ListedField) :=
  [.ask ⟨1, "B", none, []⟩ .self, .size,
    .ask ⟨0, "A", some (named "A" .current), [(1, "f()V")]⟩ (.methods ["f()V"]),
    .enumerations ⟨0, "A", some (named "A" .current), [(1, "f()V")]⟩]

/-- The failure of the other one does not matter. -/
theorem interleavings_agree_counted :
    (∀ id : String, countedFirst.filter (Question.about id) = countedLast.filter (Question.about id)) ∧
      let s : Session ListedHost String (Nat × String) ListedField := empty .default
      (s.log countedFirst).filter (·.1.about "A") = (s.log countedLast).filter (·.1.about "A") ∧
        (s.after countedFirst).size = (s.after countedLast).size := by
  have same (id : String) :
      countedFirst.filter (Question.about id) = countedLast.filter (Question.about id) := by
    by_cases first : "A" = id
    · rw [← first]
      rfl
    · have apart : ("A" == id) = false := beq_eq_false_iff_ne.2 first
      simp [countedFirst, countedLast, List.filter_cons, Question.about, Question.host?, HostType.id,
        apart]
  obtain ⟨agree, -, size⟩ := interleavings_agree .default same
  exact ⟨same, agree "A", size⟩

end Session

end ClassMetadata
