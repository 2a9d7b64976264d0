import Mathlib.Tactic.Common
import ClassMetadata.Correlation.Query
import ClassMetadata.Header.Basic
import ClassMetadata.Proofs.Correlation.MethodIndex
import ClassMetadata.Proofs.Correlation.Runs

/-!
# Answers about a host type

A host type and its class answer queries one after the other, and keep some of the answers. What is
kept shows in later answers only through fields that are equal and not the same: for all of these the
field that was asked about first decides.

* `carrierOf` and `getterOf` say what a field has by the host and the class alone.
* `referenceAnswer` is the answer to a query by these, given the queries that were answered before:
  `origin` finds the field that decides.
* `Knows` says what a run of queries has left behind, and `Knows.step` is one more query.
* `answer_eq_reference` is about whole runs.
-/

namespace ClassMetadata

variable {H ι μ φ : Type} [HostType H ι μ φ]

/-! ## Reference answers -/

/-- The first method of a host that has a signature. -/
def hostMethod? (host : H) (signature : String) : Option μ :=
  (HostType.methods host).find? (HostType.methodSignature host · == signature)

/-- The property of a field. -/
def propertyOf (host : H) (decl : ClassDecl) (field : φ) : Except ResolveError PropertyDecl :=
  (TypeMetadata.ofDecl host decl).findProperty field

/-- The carrier of a field: none if its property has no signature for one, and missing if no method of
the host has that signature. -/
def carrierOf (host : H) (decl : ClassDecl) (field : φ) :
    Except ResolveError (Option (Resolved μ)) := do
  let property ← propertyOf host decl field
  match property.carrierSignature with
  | none => return none
  | some signature =>
    match hostMethod? host signature with
    | some method => return some (.found method)
    | none => return some .missing

/-- The getter of a field: none if its property has no signature for one, and none if no method of the
host has that signature. -/
def getterOf (host : H) (decl : ClassDecl) (field : φ) : Except ResolveError (Option μ) := do
  let property ← propertyOf host decl field
  return property.getterSignature.bind (hostMethod? host)

namespace Query

/-- The field whose carrier a query is about. -/
def carrierField? : Query μ φ → Option φ
  | carrier field | isCarrierMissing field | presentCarrier field => some field
  | _ => none

/-- The field whose getter a query is about. -/
def getterField? : Query μ φ → Option φ
  | getter field => some field
  | _ => none

end Query

/-- There is no answer because something could not be resolved. A missing member that was demanded is
not such an answer. -/
def Answer.isError : Answer H μ → Bool
  | failed (.unresolved _) => true
  | _ => false

/-- The fields of the queries of one family that did not end in an error, in order. -/
def settledFields (family : Query μ φ → Option φ) (log : List (Query μ φ × Answer H μ)) : List φ :=
  log.flatMap fun (query, answer) => if answer.isError then [] else (family query).toList

/-- The earliest of some fields that is equal to a field, or the field itself. -/
def origin [BEq φ] (fields : List φ) (field : φ) : φ := (fields.find? (field == ·)).getD field

/-- The answer to a query behind others by the host and the class. -/
def referenceAnswer [BEq φ] (host : H) (decl : ClassDecl) (log : List (Query μ φ × Answer H μ)) :
    Query μ φ → Answer H μ
  | .decl => .decl decl
  | .self => .self host decl
  | .hasDefaultParameter => .truth decl.hasDefaultParameter
  | .methods signatures =>
    .methods ((HostType.methods host).map (HostType.methodSignature host)).eraseDups.length
      (signatures.map (hostMethod? host))
  | .functionOf method =>
    .functionOf (decl.functionBySignature (HostType.methodSignature host method))
  | .property field => .ofResult .property (propertyOf host decl field)
  | .carrier field =>
    .ofResult .carrier (carrierOf host decl (origin (settledFields Query.carrierField? log) field))
  | .isCarrierMissing field =>
    .ofResult (fun
      | some .missing => .truth true
      | _ => .truth false)
      (carrierOf host decl (origin (settledFields Query.carrierField? log) field))
  | .presentCarrier field =>
    .ofResult (fun
      | none => .method none
      | some (.found method) => .method (some method)
      | some .missing => .failed .missingMember)
      (carrierOf host decl (origin (settledFields Query.carrierField? log) field))
  | .getter field =>
    .ofResult .method (getterOf host decl (origin (settledFields Query.getterField? log) field))

namespace TypeMetadata

/-- The metadata behind queries. -/
def after [BEq φ] (t : TypeMetadata H μ φ) (queries : List (Query μ φ)) : TypeMetadata H μ φ :=
  stateAfter answer t queries

/-- Queries put one after the other, each with its answer. -/
def log [BEq φ] (t : TypeMetadata H μ φ) (queries : List (Query μ φ)) :
    List (Query μ φ × Answer H μ) :=
  logOf answer t queries

end TypeMetadata

/-! ## Settled fields -/

section

variable {family : Query μ φ → Option φ} {log : List (Query μ φ × Answer H μ)} {query : Query μ φ}
  {answer : Answer H μ} {field : φ}

/-- One more answer settles at most the field that its query is about. -/
lemma settledFields_concat : settledFields family (log ++ [(query, answer)]) =
    settledFields family log ++ if answer.isError then [] else (family query).toList := by
  rw [settledFields, List.flatMap_append, List.flatMap_singleton]
  rfl

/-- A query that ends in an error settles nothing. -/
lemma settledFields_of_error (h : answer.isError = true) :
    settledFields family (log ++ [(query, answer)]) = settledFields family log := by
  rw [settledFields_concat, if_pos h, List.append_nil]

/-- A query of another family settles nothing. -/
lemma settledFields_of_none (h : family query = none) :
    settledFields family (log ++ [(query, answer)]) = settledFields family log := by
  rw [settledFields_concat, h]
  split <;> exact List.append_nil _

/-- A query that is answered settles its field. -/
lemma settledFields_of_some (h : family query = some field) (settled : answer.isError = false) :
    settledFields family (log ++ [(query, answer)]) = settledFields family log ++ [field] := by
  rw [settledFields_concat, h, settled]
  rfl

/-- A field finds the answer to the field that decides, or it decides itself. -/
lemma Remembers.recall [BEq φ] {α : Type} {reference : φ → Except ResolveError α} {fields : List φ}
    {table : List (φ × α)}
    (h : Remembers id reference fields table) (field : φ) :
    (∃ a, table.lookup field = some a ∧ reference (origin fields field) = .ok a) ∨
      table.lookup field = none ∧ origin fields field = field := by
  cases found : table.lookup field with
  | some a =>
    obtain ⟨f, hf, ha⟩ := h.of_lookup found
    refine .inl ⟨a, rfl, ?_⟩
    change fields.find? (field == ·) = some f at hf
    rw [origin, hf]
    exact ha
  | none =>
    have := h.find?_eq_none found
    change fields.find? (field == ·) = none at this
    refine .inr ⟨rfl, ?_⟩
    rw [origin, this]
    rfl

end

/-! ## Carriers and getters -/

/-- The answer to a query about a carrier, from the carrier. -/
def Query.ofCarrier : Query μ φ → Except ResolveError (Option (Resolved μ)) → Answer H μ
  | isCarrierMissing _ => .ofResult fun carrier => .truth (carrier.any (·.isMissing))
  | presentCarrier _ => .ofResult .ofPresent
  | _ => .ofResult .carrier

section

variable {host : H} {decl : ClassDecl} {field : φ} {property : PropertyDecl} {e : ResolveError}
  {query : Query μ φ}

/-- A field without a property has no carrier, for the same reason. -/
lemma carrierOf_of_error (h : propertyOf host decl field = .error e) :
    carrierOf host decl field = .error e := by
  rw [carrierOf, h]
  rfl

/-- The carrier of a field is the host method with the carrier signature of its property. -/
lemma carrierOf_of_ok (h : propertyOf host decl field = .ok property) :
    carrierOf host decl field =
      .ok ((property.carrierSignature.map (hostMethod? host)).map .ofSearch) := by
  rw [carrierOf, h]
  show (match property.carrierSignature with | none => _ | some signature => _) = _
  cases property.carrierSignature with
  | none => rfl
  | some signature =>
    show (match hostMethod? host signature with | some method => _ | none => _) =
      Except.ok (some (Resolved.ofSearch (hostMethod? host signature)))
    cases hostMethod? host signature <;> rfl

/-- A field without a property has no getter, for the same reason. -/
lemma getterOf_of_error (h : propertyOf host decl field = .error e) :
    getterOf host decl field = .error e := by
  rw [getterOf, h]
  rfl

/-- The getter of a field is the host method with the getter signature of its property. -/
lemma getterOf_of_ok (h : propertyOf host decl field = .ok property) :
    getterOf host decl field = .ok (property.getterSignature.map (hostMethod? host)).join := by
  rw [getterOf, h]
  show Except.ok (property.getterSignature.bind (hostMethod? host)) = _
  cases property.getterSignature <;> rfl

/-- An answer made of a carrier is not an error. -/
lemma Query.isError_ofCarrier_ok {carrier : Option (Resolved μ)} :
    (query.ofCarrier (.ok carrier) : Answer H μ).isError = false := by
  cases query <;> rcases carrier with _ | _ | _ <;> rfl

/-- An answer made of an error is one. -/
lemma Query.isError_ofCarrier_error : (query.ofCarrier (.error e) : Answer H μ).isError = true := by
  cases query <;> rfl

variable [BEq φ] {t : TypeMetadata H μ φ} {log : List (Query μ φ × Answer H μ)}

/-- A query about a carrier is answered by the search for it, whichever part of it the query asks
for. -/
lemma answer_of_carrierField? (h : query.carrierField? = some field) :
    t.answer query = (query.ofCarrier (t.carrier field).1, (t.carrier field).2) := by
  cases query <;> cases h <;> rfl

/-- The reference for a query about a carrier goes back to the first field that was settled under
it. -/
lemma referenceAnswer_of_carrierField? (h : query.carrierField? = some field) :
    referenceAnswer host decl log query = query.ofCarrier
      (carrierOf host decl (origin (settledFields Query.carrierField? log) field)) := by
  cases query <;> cases h
  · rfl
  · refine congrArg (fun f => Answer.ofResult f _) (funext fun carrier => ?_)
    rcases carrier with _ | _ | _ <;> rfl
  · refine congrArg (fun f => Answer.ofResult f _) (funext fun carrier => ?_)
    rcases carrier with _ | _ | _ <;> rfl

namespace TypeMetadata

/-- What is known, and the carrier of one more field. -/
def keepCarrier (t : TypeMetadata H μ φ) (field : φ) (carrier : Option (Resolved μ)) :
    TypeMetadata H μ φ :=
  { t with carriers := t.carriers ++ [(field, carrier)] }

/-- What is known, and the getter of one more field. -/
def keepGetter (t : TypeMetadata H μ φ) (field : φ) (getter : Option μ) : TypeMetadata H μ φ :=
  { t with getters := t.getters ++ [(field, getter)] }

/-- A carrier that was found before is given again, and nothing is looked for. -/
lemma carrier_of_known {a : Option (Resolved μ)} (h : t.carriers.lookup field = some a) :
    t.carrier field = (.ok a, t) := by
  rw [carrier, h]

/-- A carrier that cannot be told leaves no trace. -/
lemma carrier_of_error (unknown : t.carriers.lookup field = none)
    (h : t.findProperty field = .error e) : t.carrier field = (.error e, t) := by
  rw [carrier, unknown, h]

/-- A carrier that is asked for the first time is looked for and kept. -/
lemma carrier_of_unknown (unknown : t.carriers.lookup field = none)
    (h : t.findProperty field = .ok property) :
    t.carrier field = (.ok ((t.search property.carrierSignature).1.map .ofSearch),
      (t.search property.carrierSignature).2.keepCarrier field
        ((t.search property.carrierSignature).1.map .ofSearch)) := by
  rw [carrier, unknown, h]
  rfl

/-- A getter that was found before is given again, and nothing is looked for. -/
lemma getter_of_known {a : Option μ} (h : t.getters.lookup field = some a) :
    t.getter field = (.ok a, t) := by
  rw [getter, h]

/-- A getter that cannot be told leaves no trace. -/
lemma getter_of_error (unknown : t.getters.lookup field = none)
    (h : t.findProperty field = .error e) : t.getter field = (.error e, t) := by
  rw [getter, unknown, h]

/-- A getter that is asked for the first time is looked for and kept. -/
lemma getter_of_unknown (unknown : t.getters.lookup field = none)
    (h : t.findProperty field = .ok property) :
    t.getter field = (.ok (t.search property.getterSignature).1.join,
      (t.search property.getterSignature).2.keepGetter field
        (t.search property.getterSignature).1.join) := by
  rw [getter, unknown, h]
  rfl

end TypeMetadata

end

/-! ## What a run leaves behind -/

namespace TypeMetadata

variable {t : TypeMetadata H μ φ}

/-- The methods are enumerated if they were not, and nothing else about the type is changed by that. -/
lemma methodIndex_cases (t : TypeMetadata H μ φ) :
    (∃ index, t.index = some index ∧ t.methodIndex = (index, t)) ∨
      t.index = none ∧ t.methodIndex = (.ofHost t.host,
        { t with index := some (.ofHost t.host), enumerations := t.enumerations + 1 }) := by
  rw [methodIndex]
  cases t.index with
  | some index => exact .inl ⟨index, rfl, rfl⟩
  | none => exact .inr ⟨rfl, rfl⟩

/-- Enumerating the methods does not change the host type. -/
@[simp] lemma host_methodIndex : t.methodIndex.2.host = t.host := by
  obtain ⟨index, -, same⟩ | ⟨-, made⟩ := t.methodIndex_cases
  · rw [same]
  · rw [made]

/-- Enumerating the methods does not change the declaration. -/
@[simp] lemma decl_methodIndex : t.methodIndex.2.decl = t.decl := by
  obtain ⟨index, -, same⟩ | ⟨-, made⟩ := t.methodIndex_cases
  · rw [same]
  · rw [made]

end TypeMetadata

section

variable [BEq φ] {host : H} {decl : ClassDecl} {log : List (Query μ φ × Answer H μ)}
  {t : TypeMetadata H μ φ} {query : Query μ φ} {answer : Answer H μ} {field : φ}

/-- What the metadata of a host and a class know behind answered queries. -/
structure Knows (host : H) (decl : ClassDecl) (log : List (Query μ φ × Answer H μ))
    (t : TypeMetadata H μ φ) : Prop where
  host_eq : t.host = host
  decl_eq : t.decl = decl
  index_eq : ∀ index, t.index = some index → index = .ofHost host
  carriers : Remembers id (carrierOf host decl) (settledFields Query.carrierField? log) t.carriers
  getters : Remembers id (getterOf host decl) (settledFields Query.getterField? log) t.getters

namespace Knows

/-- Before the first query there is nothing to know. -/
lemma start (host : H) (decl : ClassDecl) :
    Knows host decl [] (.ofDecl host decl : TypeMetadata H μ φ) where
  host_eq := rfl
  decl_eq := rfl
  index_eq _ h := nomatch h
  carriers := .nil
  getters := .nil

/-- The property of a field does not depend on what was asked before. -/
lemma findProperty_eq (h : Knows host decl log t) (field : φ) :
    t.findProperty field = propertyOf host decl field := by
  unfold propertyOf TypeMetadata.findProperty
  rw [h.host_eq, h.decl_eq]
  rfl

/-! Host methods -/

/-- The index of methods is that of the host type, whenever it is made. -/
lemma methodIndex_eq (h : Knows host decl log t) : t.methodIndex.1 = .ofHost host := by
  obtain ⟨index, known, same⟩ | ⟨-, made⟩ := t.methodIndex_cases
  · rw [same]
    exact h.index_eq index known
  · rw [made, h.host_eq]

/-- An enumeration adds nothing to what is known but the index. -/
lemma methodIndex (h : Knows host decl log t) : Knows host decl log t.methodIndex.2 := by
  obtain ⟨index, -, same⟩ | ⟨-, made⟩ := t.methodIndex_cases
  · rw [same]
    exact h
  · have index_eq (index : MethodIndex μ) (hindex : some (.ofHost t.host) = some index) :
        index = .ofHost host := by
      rw [← Option.some.inj hindex, h.host_eq]
    rw [made]
    exact ⟨h.host_eq, h.decl_eq, index_eq, h.carriers, h.getters⟩

/-- A search finds the first method of the host type that has the signature. -/
lemma search_eq (h : Knows host decl log t) (signature : Option String) :
    (t.search signature).1 = signature.map (hostMethod? host) := by
  cases signature with
  | none => rfl
  | some signature =>
    show some (t.methodIndex.1.get? signature) = _
    rw [h.methodIndex_eq, MethodIndex.ofHost, MethodIndex.get?_ofMethods]
    rfl

/-- A search adds nothing to what is known but the index. -/
lemma search (h : Knows host decl log t) (signature : Option String) :
    Knows host decl log (t.search signature).2 := by
  cases signature with
  | none => exact h
  | some signature => exact h.methodIndex

/-! One more query -/

/-- Nothing new is known when a query is about no carrier and no getter, or ends in an error. -/
lemma quiet (h : Knows host decl log t) (hquiet : answer.isError = true ∨
      query.carrierField? = none ∧ query.getterField? = none) :
    Knows host decl (log ++ [(query, answer)]) t := by
  refine { h with carriers := ?_, getters := ?_ }
  · rcases hquiet with error | ⟨noCarrier, -⟩
    · rw [settledFields_of_error error]
      exact h.carriers
    · rw [settledFields_of_none noCarrier]
      exact h.carriers
  · rcases hquiet with error | ⟨-, noGetter⟩
    · rw [settledFields_of_error error]
      exact h.getters
    · rw [settledFields_of_none noGetter]
      exact h.getters

variable [EquivBEq φ]

/-- A query about a carrier is answered as the reference says, and what is known stays right. -/
lemma carrier_step (h : Knows host decl log t) (hquery : query.carrierField? = some field) :
    (t.answer query).1 = referenceAnswer host decl log query ∧
      Knows host decl (log ++ [(query, (t.answer query).1)]) (t.answer query).2 := by
  have noGetter : query.getterField? = none := by
    cases query <;> first | rfl | cases hquery
  rw [answer_of_carrierField? hquery, referenceAnswer_of_carrierField? hquery]
  rcases h.carriers.recall field with ⟨a, found, ha⟩ | ⟨unknown, itself⟩
  · rw [TypeMetadata.carrier_of_known found, ha]
    refine ⟨rfl, { h with carriers := ?_, getters := ?_ }⟩
    · rw [settledFields_of_some hquery Query.isError_ofCarrier_ok]
      exact h.carriers.again found
    · rw [settledFields_of_none noGetter]
      exact h.getters
  · rw [itself]
    cases hp : propertyOf host decl field with
    | error e =>
      rw [TypeMetadata.carrier_of_error unknown ((h.findProperty_eq field).trans hp),
        carrierOf_of_error hp]
      exact ⟨rfl, h.quiet (.inl Query.isError_ofCarrier_error)⟩
    | ok p =>
      rw [TypeMetadata.carrier_of_unknown unknown ((h.findProperty_eq field).trans hp),
        h.search_eq, carrierOf_of_ok hp]
      have searched := h.search p.carrierSignature
      refine ⟨rfl, { searched with carriers := ?_, getters := ?_ }⟩
      · rw [settledFields_of_some hquery Query.isError_ofCarrier_ok]
        exact searched.carriers.concat (carrierOf_of_ok hp)
      · rw [settledFields_of_none noGetter]
        exact searched.getters

/-- A query about a getter is answered as the reference says, and what is known stays right. -/
lemma getter_step (h : Knows host decl log t) (field : φ) :
    (t.answer (.getter field)).1 = referenceAnswer host decl log (.getter field) ∧
      Knows host decl (log ++ [(.getter field, (t.answer (.getter field)).1)])
        (t.answer (.getter field)).2 := by
  show Answer.ofResult .method (t.getter field).1 = .ofResult .method _ ∧
    Knows host decl (log ++ [(.getter field, .ofResult .method (t.getter field).1)])
      (t.getter field).2
  rcases h.getters.recall field with ⟨a, found, ha⟩ | ⟨unknown, itself⟩
  · rw [TypeMetadata.getter_of_known found, ha]
    refine ⟨rfl, { h with carriers := ?_, getters := ?_ }⟩
    · rw [settledFields_of_none rfl]
      exact h.carriers
    · rw [settledFields_of_some rfl rfl]
      exact h.getters.again found
  · rw [itself]
    cases hp : propertyOf host decl field with
    | error e =>
      rw [TypeMetadata.getter_of_error unknown ((h.findProperty_eq field).trans hp),
        getterOf_of_error hp]
      exact ⟨rfl, h.quiet (.inl rfl)⟩
    | ok p =>
      rw [TypeMetadata.getter_of_unknown unknown ((h.findProperty_eq field).trans hp),
        h.search_eq, getterOf_of_ok hp]
      have searched := h.search p.getterSignature
      refine ⟨rfl, { searched with carriers := ?_, getters := ?_ }⟩
      · rw [settledFields_of_none rfl]
        exact searched.carriers
      · rw [settledFields_of_some rfl rfl]
        exact searched.getters.concat (getterOf_of_ok hp)

/-- One more query is answered by the reference, and what is known afterwards is known behind it. -/
theorem step (h : Knows host decl log t) (query : Query μ φ) :
    (t.answer query).1 = referenceAnswer host decl log query ∧
      Knows host decl (log ++ [(query, (t.answer query).1)]) (t.answer query).2 := by
  cases query with
  | carrier field | isCarrierMissing field | presentCarrier field => exact h.carrier_step rfl
  | getter field => exact h.getter_step field
  | decl => exact ⟨congrArg _ h.decl_eq, h.quiet (.inr ⟨rfl, rfl⟩)⟩
  | self => exact ⟨congrArg₂ _ h.host_eq h.decl_eq, h.quiet (.inr ⟨rfl, rfl⟩)⟩
  | hasDefaultParameter =>
    exact ⟨congrArg (fun d : ClassDecl => Answer.truth d.hasDefaultParameter) h.decl_eq,
      h.quiet (.inr ⟨rfl, rfl⟩)⟩
  | methods signatures =>
    refine ⟨?_, h.methodIndex.quiet (.inr ⟨rfl, rfl⟩)⟩
    show Answer.methods t.methodIndex.1.size (signatures.map t.methodIndex.1.get?) = .methods _ _
    rw [h.methodIndex_eq, MethodIndex.ofHost, MethodIndex.size_ofMethods]
    exact congrArg _ (List.map_congr_left fun s _ => MethodIndex.get?_ofMethods _ _ s)
  | functionOf method =>
    refine ⟨?_, h.quiet (.inr ⟨rfl, rfl⟩)⟩
    show Answer.functionOf (t.decl.functionBySignature (HostType.methodSignature t.host method)) = _
    rw [h.host_eq, h.decl_eq]
    rfl
  | property field =>
    exact ⟨congrArg (Answer.ofResult .property) (h.findProperty_eq field),
      h.quiet (.inr ⟨rfl, rfl⟩)⟩

/-- A run of queries leaves behind what is known from their answers. -/
lemma after (host : H) (decl : ClassDecl) (queries : List (Query μ φ)) :
    Knows host decl ((TypeMetadata.ofDecl host decl).log queries)
      ((TypeMetadata.ofDecl host decl).after queries) := by
  induction queries using List.reverseRecOn with
  | nil => exact .start host decl
  | append_singleton queries query ih =>
    rw [TypeMetadata.log, TypeMetadata.after, logOf_concat, stateAfter_concat]
    exact (ih.step query).2

end Knows

/-- Queries are answered by the reference. Behind any queries, a query about the carrier of a field is
answered as for the earliest equal field whose carrier query did not end in an error, and so is a query
about its getter by the earlier queries about getters; all other answers come from the host and the
class alone. -/
theorem answer_eq_reference [EquivBEq φ] (host : H) (decl : ClassDecl) (earlier : List (Query μ φ))
    (query : Query μ φ) :
    (((TypeMetadata.ofDecl host decl).after earlier).answer query).1 =
      referenceAnswer host decl ((TypeMetadata.ofDecl host decl).log earlier) query :=
  ((Knows.after host decl earlier).step query).1

end

/-! ## A listed host -/

/-- A host type given by its metadata and its methods. Methods are told apart by their numbers. -/
structure ListedHost where
  number : Nat
  id : String
  header : Option Header
  methods : List (Nat × String)

/-- A field that is told apart by its number alone. -/
structure ListedField where
  number : Nat
  name : String
  signature : String

namespace ListedHost

/-- Host types are equal when they have the same number. -/
instance : BEq ListedHost := ⟨fun host host' => host.number == host'.number⟩

/-- A listed host is a host type, and its number is its identity. -/
instance : HostType ListedHost String (Nat × String) ListedField where
  id host := host.id
  name host := host.id
  container host := host.header.map Header.container
  methods host := host.methods
  methodSignature _ method := method.2
  fieldSignature _ field := field.signature
  fieldName _ field := field.name

end ListedHost

/-- Fields are equal when they have the same number. -/
instance : BEq ListedField := ⟨fun field field' => field.number == field'.number⟩

/-- Equality of numbers is an equivalence. -/
instance : EquivBEq ListedField where
  rfl {field} := beq_self_eq_true field.number
  symm {field field'} h := BEq.symm (show (field.number == field'.number) = true from h)
  trans {f g h} hfg hgh := by
    simp only [BEq.beq, decide_eq_true_eq] at hfg hgh ⊢
    omega

/-- A class with two properties, the first of which has a carrier that the host lacks. -/
def twoProperties : ClassDecl :=
  .build .default "A" [
    .property ⟨.default, "a", none, none, some "a:I", some "getA()I", none, some "a$annotations()V"⟩,
    .property ⟨.default, "b", none, none, some "b:I", some "getB()I", none, some "b$annotations()V"⟩]

/-- A host with the methods of the second property. -/
def halfHost : ListedHost :=
  ⟨0, "A", none, [(1, "getB()I"), (2, "getB()I"), (3, "b$annotations()V")]⟩

/-- Of three equal fields the first has no property and decides nothing. The second does, although its
carrier is missing, for the third one as well; but not for the getter of that. -/
theorem answer_eq_reference_equalFields :
    let t := (TypeMetadata.ofDecl halfHost twoProperties).after
      [.carrier ⟨7, "z", "z:I"⟩, .presentCarrier ⟨7, "a", "a:I"⟩]
    (t.answer (.carrier ⟨7, "b", "b:I"⟩)).1 = .carrier (some .missing) ∧
      (t.answer (.getter ⟨7, "b", "b:I"⟩)).1 = .method (some (1, "getB()I")) := by
  refine ⟨(answer_eq_reference halfHost twoProperties _ _).trans ?_,
    (answer_eq_reference halfHost twoProperties _ _).trans ?_⟩
  · rfl
  · rfl

end ClassMetadata
