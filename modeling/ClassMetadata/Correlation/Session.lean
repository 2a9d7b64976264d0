import ClassMetadata.Correlation.Query
import ClassMetadata.Decoding.Header

/-!
# Sessions

A session holds the decoded metadata of host types, one entry for each identity. The first type of
an identity whose metadata can be decoded makes the entry, which then stays; a failure leaves
nothing behind. Questions about a type go to the entry of its identity.

* `Session.reply` is one step of a session: the answer to a `Question`, and the session after it.
-/

namespace ClassMetadata

/-- The metadata of the host types met so far. -/
structure Session (H ι μ φ : Type) where
  settings : Settings
  /-- The entries, in the order in which they were made. -/
  types : List (ι × TypeMetadata H μ φ)

/-- A question to a session. -/
inductive Question (H μ φ : Type) where
  /-- How many entries are there? -/
  | size
  /-- Are there no entries? -/
  | isEmpty
  /-- Which settings does the session decode with? -/
  | settings
  /-- Has the type a metadata container? -/
  | hasMetadata (host : H)
  /-- How often were the methods of this very type enumerated? -/
  | enumerations (host : H)
  /-- A query to the entry for a host type. -/
  | ask (host : H) (query : Query μ φ)

/-- The answer to a question. -/
inductive Reply (H μ : Type) where
  | count (n : Nat)
  | truth (b : Bool)
  | settings (settings : Settings)
  /-- There is no entry for the host type, and none can be made. -/
  | noEntry (error : ResolveError)
  | answer (answer : Answer H μ)

namespace Session

variable {H ι μ φ : Type} [HostType H ι μ φ] [BEq ι]

/-- A session without entries. -/
def empty (settings : Settings) : Session H ι μ φ := ⟨settings, []⟩

/-- The number of entries. -/
def size (s : Session H ι μ φ) : Nat := s.types.length

/-- The entry of an identity. -/
def find? (s : Session H ι μ φ) (id : ι) : Option (TypeMetadata H μ φ) := s.types.lookup id

/-- The session with what was found out about the entry of an identity. -/
def update (s : Session H ι μ φ) (id : ι) (t : TypeMetadata H μ φ) : Session H ι μ φ :=
  { s with types := s.types.map fun (key, old) => if key == id then (key, t) else (key, old) }

/-- The class in the metadata of a host type. -/
def decodeHost (settings : Settings) (host : H) : Except ResolveError ClassDecl :=
  match HostType.container host with
  | none => .error (.missingMetadata (HostType.name host))
  | some container =>
    match (do (← Header.read container).decode settings) with
    | .ok decl => .ok decl
    | .error e => .error (.decode e)

/-- The entry for a host type, made if there is none for its identity. -/
def metadataOf (s : Session H ι μ φ) (host : H) :
    Except ResolveError (TypeMetadata H μ φ) × Session H ι μ φ :=
  match s.find? (HostType.id host) with
  | some t => (.ok t, s)
  | none =>
    match decodeHost s.settings host with
    | .error e => (.error e, s)
    | .ok decl =>
      let t := TypeMetadata.ofDecl host decl
      (.ok t, { s with types := s.types ++ [(HostType.id host, t)] })

/-- How often the methods of this very host type were enumerated: only those of a type that made its
entry can have been. -/
def enumerations [BEq H] (s : Session H ι μ φ) (host : H) : Nat :=
  match s.find? (HostType.id host) with
  | some t => if t.host == host then t.enumerations else 0
  | none => 0

/-- The answer to a query, from the entry for a host type. -/
def ask [BEq φ] (s : Session H ι μ φ) (host : H) (query : Query μ φ) :
    Reply H μ × Session H ι μ φ :=
  match s.metadataOf host with
  | (.error e, s) => (.noEntry e, s)
  | (.ok t, s) =>
    let (answer, t) := t.answer query
    (.answer answer, s.update (HostType.id host) t)

/-- The answer to a question, and the session after it. -/
def reply [BEq H] [BEq φ] (s : Session H ι μ φ) : Question H μ φ → Reply H μ × Session H ι μ φ
  | .size => (.count s.size, s)
  | .isEmpty => (.truth s.types.isEmpty, s)
  | .settings => (.settings s.settings, s)
  | .hasMetadata host => (.truth (HostType.container host).isSome, s)
  | .enumerations host => (.count (s.enumerations host), s)
  | .ask host query => s.ask host query

/-- The answers to questions asked one after the other, each with the session after it. -/
def replies [BEq H] [BEq φ] (s : Session H ι μ φ) :
    List (Question H μ φ) → List (Reply H μ × Session H ι μ φ)
  | [] => []
  | question :: questions =>
    let step := s.reply question
    step :: step.2.replies questions

end Session

end ClassMetadata
