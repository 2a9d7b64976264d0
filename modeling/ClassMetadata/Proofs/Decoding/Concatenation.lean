import ClassMetadata.Proofs.Declaration.Joining
import ClassMetadata.Proofs.Decoding.Edits

/-!
# Class messages one behind the other

Two class messages make one when they are written one behind the other. It is accepted when both are,
and its class joins theirs: the members of the first and then those of the second, and of everything
that both say what the second says.

* `Reads.any_number`: a field under a known number makes an edit, and nothing else does. So the bytes
  tell whether a class message says anything about flags.
* `concatenation_merges` is about whole classes.
-/

namespace ClassMetadata

/-- The field can be read as far as its key, and this is its number. -/
def Field.hasNumber (n : Nat) : Field → Bool
  | whole key _ _ | broken key _ => key.field.toNat == n
  | unreadable _ => false

namespace Descent

variable {table : StringTable} {key : Key} {payload : Payload} {es t l : List ClassDecl.Edit} {n : Nat}

/-- A field under a known number amounts to an edit. -/
lemma Amounts.any_number (h : Amounts table key payload l)
    (known : n ∈ NodeKind.classNode.knownFields) :
    l.any (editNumber · == n) = (key.field.toNat == n) := by
  rcases h.eq_nil_or_singleton with rfl | ⟨e, rfl⟩
  · cases h with
    | nothing unknown =>
      rw [List.any_nil, eq_comm, beq_eq_false_iff_ne]
      rintro rfl
      exact unknown known
  · rw [h.number_eq, List.any_cons, List.any_nil, Bool.or_false]

/-- There are edits under a known number when there are fields under it. -/
theorem Reads.any_number {m : List UInt8} (h : Reads (classField table) es m t)
    (known : n ∈ NodeKind.classNode.knownFields) : t.any (editNumber · == n) =
      (es.any (editNumber · == n) || (fieldsOf m).any (Field.hasNumber n)) := by
  have anywhere : ∀ position, t.any (editNumber · == n) = (es.any (editNumber · == n) ||
      (Cursor.fields ⟨position, m⟩).any (Field.hasNumber n)) := by
    induction h with
    | nil s =>
      intro position
      rw [Cursor.fields_of_not_hasMore (by simp [Cursor.hasMore]), List.any_nil, Bool.or_false]
    | @field s s₁ s₂ bytes rest key payload spelled head _ ih =>
      intro position
      obtain ⟨l, rfl, amounts, -⟩ := effect_class spelled.type_eq head
      obtain ⟨offset, hfields⟩ := spelled.fields_append position rest
      rw [ih (position + bytes.length), hfields, List.any_append, amounts.any_number known,
        List.any_cons, Field.hasNumber, Bool.or_assoc]
  exact anywhere 0

/-- An edit names the class when it sets a name. -/
lemma namesClass_eq : namesClass = fun e => e.name?.isSome := by
  funext e
  cases e <;> rfl

/-- The flags of a class are set by the edits from its first field. -/
lemma isSome_flags? (e : ClassDecl.Edit) : e.flags?.isSome = (editNumber e == 1) := by
  cases e <;> rfl

/-- Two class messages that are accepted make one that is accepted as well. Its class has the members
of both, without the constructors of the second that the first has; a signature finds what the second
finds or else what the first finds. The name is that of the second, and so is the companion if the
second has one. The flags are those of the second if its message has a field for them. -/
theorem concatenation_merges {b₁ b₂ : List UInt8} {c₁ c₂ : ClassDecl}
    (h₁ : decodeMessage table b₁ = .ok c₁) (h₂ : decodeMessage table b₂ = .ok c₂) :
    ∃ c, decodeMessage table (b₁ ++ b₂) = .ok c ∧ c.name = c₂.name ∧
      c.flags = (if (fieldsOf b₂).any (Field.hasNumber 1) then c₂.flags else c₁.flags) ∧
      ClassDecl.Joins c₁ c₂ c := by
  obtain ⟨first, reads₁, named₁, rfl⟩ := decodeMessage_eq_ok_iff.1 h₁
  obtain ⟨second, reads₂, named₂, rfl⟩ := decodeMessage_eq_ok_iff.1 h₂
  have reads : Reads (classField table) [] (b₁ ++ b₂) (first ++ second) :=
    reads₁.append (reads_class_iff.2 ⟨second, reads₂, rfl⟩)
  have named : (first ++ second).any namesClass = true := by
    rw [List.any_append, named₁, Bool.true_or]
  refine ⟨_, decodeMessage_eq_ok_iff.2 ⟨_, reads, named, rfl⟩, ?_, ?_, ?_⟩
  · rw [namesClass_eq] at named₂
    rw [ClassDecl.build_append_name, if_pos named₂]
  · have number := reads₂.any_number (List.mem_cons_self : 1 ∈ NodeKind.classNode.knownFields)
    rw [List.any_nil, Bool.false_or] at number
    rw [ClassDecl.build_append_flags, ← number]
    simp only [isSome_flags?]
  · exact ClassDecl.build_joins _ _ first second

/-- A class `A` with flags, a companion, a constructor and a function `f`. -/
def firstHalf : List UInt8 := [0x08, 4, 0x18, 0, 0x20, 1, 0x42, 0, 0x4a, 2, 0x10, 2]

/-- A class `B` with the same constructor, another one and a function `g`. -/
def secondHalf : List UInt8 := [0x18, 3, 0x42, 0, 0x42, 2, 0x08, 1, 0x4a, 2, 0x10, 4]

/-- The two make a class `B` with the flags and the companion of the first. -/
theorem concatenation_merges_halves :
    ∃ c₁ c₂ c, decodeMessage ⟨["A", "C", "f", "B", "g"]⟩ firstHalf = .ok c₁ ∧
      decodeMessage ⟨["A", "C", "f", "B", "g"]⟩ secondHalf = .ok c₂ ∧
      decodeMessage ⟨["A", "C", "f", "B", "g"]⟩ (firstHalf ++ secondHalf) = .ok c ∧
      c.name = "B" ∧ c.flags = ⟨4⟩ ∧ c.companion = some "C" ∧ c.constructors.length = 2 ∧
      c.functions.map FunctionDecl.name = ["f", "g"] := by
  have first : decodeMessage ⟨["A", "C", "f", "B", "g"]⟩ firstHalf =
      .ok (.build .default "" [.flags ⟨4⟩, .name "A", .companion "C",
        .constructor ⟨.default, "<init>", none, []⟩, .function ⟨.default, "f", none, []⟩]) := by
    cbv
  have second : decodeMessage ⟨["A", "C", "f", "B", "g"]⟩ secondHalf =
      .ok (.build .default "" [.name "B", .constructor ⟨.default, "<init>", none, []⟩,
        .constructor ⟨⟨1⟩, "<init>", none, []⟩, .function ⟨.default, "g", none, []⟩]) := by
    cbv
  obtain ⟨c, hc, name, flags, joins⟩ := concatenation_merges first second
  refine ⟨_, _, c, first, second, hc, name, flags.trans ?_, joins.companion_eq, ?_, ?_⟩
  · cbv
  · rw [joins.constructors_eq]
    decide
  · rw [joins.functions_eq]
    decide

end Descent

end ClassMetadata
