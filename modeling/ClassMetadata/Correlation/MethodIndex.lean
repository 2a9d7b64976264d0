import ClassMetadata.Correlation.Host

/-!
# Method indexes

The methods of a host type by signature. Of methods with one signature the earliest is kept.
-/

namespace ClassMetadata

/-- Methods under their signatures. -/
structure MethodIndex (μ : Type) where
  entries : List (String × μ)
  deriving DecidableEq, Repr

namespace MethodIndex

variable {μ : Type}

/-- The index without methods. -/
def empty : MethodIndex μ := ⟨[]⟩

/-- The method that has a signature. -/
def get? (index : MethodIndex μ) (signature : String) : Option μ :=
  index.entries.lookup signature

/-- The number of signatures. -/
def size (index : MethodIndex μ) : Nat := index.entries.length

/-- The index has no methods. -/
def isEmpty (index : MethodIndex μ) : Bool := index.entries.isEmpty

/-- The index with a method under a signature, unless the signature is taken. -/
def insertNew (index : MethodIndex μ) (signature : String) (method : μ) : MethodIndex μ :=
  match index.get? signature with
  | some _ => index
  | none => ⟨index.entries ++ [(signature, method)]⟩

/-- The index of methods under the signatures that a function gives them. -/
def ofMethods (signature : μ → String) (methods : List μ) : MethodIndex μ :=
  methods.foldl (fun index method => index.insertNew (signature method) method) empty

/-- The index of a host type's methods. -/
def ofHost {H ι φ : Type} [HostType H ι μ φ] (host : H) : MethodIndex μ :=
  ofMethods (HostType.methodSignature host) (HostType.methods host)

end MethodIndex

end ClassMetadata
