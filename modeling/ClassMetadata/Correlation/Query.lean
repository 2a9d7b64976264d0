import ClassMetadata.Correlation.TypeMetadata

/-!
# Queries about a host type

The queries that a host type with metadata answers, as data. A query may find out something that is
kept, so its answer comes with the metadata after it (`TypeMetadata.answer`).
-/

namespace ClassMetadata

/-- A query about a host type. -/
inductive Query (μ φ : Type) where
  /-- Which class do the metadata declare? -/
  | decl
  /-- Which host type is it, and which class? -/
  | self
  /-- Has a constructor a parameter with a default value? -/
  | hasDefaultParameter
  /-- Which methods have these signatures? -/
  | methods (signatures : List String)
  /-- Which declaration has a host method? -/
  | functionOf (method : μ)
  /-- Which property does a field belong to? -/
  | property (field : φ)
  /-- Which method carries the annotations of a field's property? -/
  | carrier (field : φ)
  /-- Is that method missing? -/
  | isCarrierMissing (field : φ)
  /-- Which method is it, given that it is not missing? -/
  | presentCarrier (field : φ)
  /-- Which method reads a field's property? -/
  | getter (field : φ)

/-- The answer to a query. -/
inductive Answer (H μ : Type) where
  | decl (decl : ClassDecl)
  | self (host : H) (decl : ClassDecl)
  | truth (b : Bool)
  /-- The number of all signatures, and the methods that have those asked for. -/
  | methods (size : Nat) (found : List (Option μ))
  | functionOf (decl : Option FunctionDecl)
  | property (decl : PropertyDecl)
  | carrier (carrier : Option (Resolved μ))
  | method (method : Option μ)
  | failed (error : QueryError)

namespace Answer

variable {H μ : Type}

/-- The answer that a result makes. -/
def ofResult {α : Type} (answer : α → Answer H μ) : Except ResolveError α → Answer H μ
  | .ok a => answer a
  | .error e => failed (.unresolved e)

/-- A carrier that was demanded in the belief that it is not missing. -/
def ofPresent : Option (Resolved μ) → Answer H μ
  | none => method none
  | some (.found m) => method (some m)
  | some .missing => failed .missingMember

end Answer

/-- The answer to a query, and the metadata after it. -/
def TypeMetadata.answer {H ι μ φ : Type} [HostType H ι μ φ] [BEq φ] (t : TypeMetadata H μ φ) :
    Query μ φ → Answer H μ × TypeMetadata H μ φ
  | .decl => (.decl t.decl, t)
  | .self => (.self t.host t.decl, t)
  | .hasDefaultParameter => (.truth t.decl.hasDefaultParameter, t)
  | .methods signatures =>
    let (index, t) := t.methodIndex
    (.methods index.size (signatures.map index.get?), t)
  | .functionOf method => (.functionOf (t.functionOf method), t)
  | .property field => (.ofResult .property (t.findProperty field), t)
  | .carrier field =>
    let (result, t) := t.carrier field
    (.ofResult .carrier result, t)
  | .isCarrierMissing field =>
    let (result, t) := t.carrier field
    (.ofResult (fun c => .truth (c.any (·.isMissing))) result, t)
  | .presentCarrier field =>
    let (result, t) := t.carrier field
    (.ofResult .ofPresent result, t)
  | .getter field =>
    let (result, t) := t.getter field
    (.ofResult .method result, t)

end ClassMetadata
