import ClassMetadata.Proofs.Declaration.Joining
import ClassMetadata.Proofs.Decoding.Edits

/-!
# Class messages that are cut short

What remains of a class message when its last bytes are missing is never taken for something else.
If it was cut at a boundary of the fields of the class, the class has the first of its members, or it
has no name yet. If it was cut anywhere else, within a nested message as well, reading it fails
because bytes are missing.

* `Cut` relates the first bytes of a message to all of them, if the cut is behind one of its fields.
* `Reads.of_cut` and `Reads.cut_or_early` are about these two ways to cut a message of any kind.
* `truncation_recognized` is about whole classes.
-/

namespace ClassMetadata.Descent

/-- The first bytes of a message, up to the end of one of its fields or none at all. -/
inductive Cut : List UInt8 → List UInt8 → Prop where
  | start (message : List UInt8) : Cut [] message
  | behind {bytes part rest : List UInt8} {key : Key} {payload : Payload} :
    Spells bytes key payload →
    Cut part rest →
    Cut (bytes ++ part) (bytes ++ rest)

section

variable {σ : Type} {schema : Schema σ} {s s' : σ} {message part : List UInt8}

/-- What was read up to a boundary of fields is read first. -/
lemma Reads.of_cut (placeless : Placeless schema) (cut : Cut part message)
    (h : Reads schema s message s') :
    ∃ s₁ rest, Reads schema s part s₁ ∧ Reads schema s₁ rest s' := by
  induction cut generalizing s with
  | start message => exact ⟨s, message, .nil s, h⟩
  | behind spelled _ ih =>
    obtain ⟨s₁, head, tail⟩ := (append_iff placeless spelled).1 h
    obtain ⟨s₂, rest, hpart, hrest⟩ := ih tail
    exact ⟨s₂, rest, .field spelled head hpart, hrest⟩

/-- A field that does something is one that its schema allows. -/
lemma rule_of_effect {key : Key} {payload : Payload}
    (h : effect schema s key payload = some s') : ∃ step, schema key = .ok step := by
  obtain ⟨step, hstep, -⟩ := ok_of_bind (toOption_eq_some.1 h)
  exact ⟨step, hstep⟩

/-- What remains of a field when its last bytes are missing cannot be read for that reason. -/
lemma readMessage_of_part {bytes : List UInt8} {key : Key} {payload : Payload}
    (spelled : Spells bytes key payload) (head : effect schema s key payload = some s')
    (within : part <+: bytes) (proper : part ≠ bytes) (hne : part ≠ []) (position : Nat) :
    ∃ e : WireError, readMessage schema s ⟨position, part⟩ = .error (.wire e) ∧ e.isEarlyEnd := by
  obtain ⟨e, early, hfields⟩ := spelled.fields_of_part within proper hne position
  refine ⟨e, ?_, early⟩
  rw [readMessage_eq_foldlM]
  rcases hfields with hfields | hfields
  · rw [hfields]
    rfl
  · obtain ⟨step, hstep⟩ := rule_of_effect head
    rw [hfields, List.foldlM_cons, absorb, hstep]
    rfl

/-- A message that was accepted is cut at a boundary of fields, or the rest of it cannot be read
because bytes are missing. -/
theorem Reads.cut_or_early (placeless : Placeless schema) (h : Reads schema s message s')
    (hpart : part <+: message) : Cut part message ∨ ∀ position, ∃ e : WireError,
      readMessage schema s ⟨position, part⟩ = .error (.wire e) ∧ e.isEarlyEnd := by
  induction h generalizing part with
  | nil s =>
    rw [List.prefix_nil.1 hpart]
    exact .inl (.start [])
  | @field s s₁ s₂ bytes rest key payload spelled head _ ih =>
    rcases List.prefix_or_prefix_of_prefix hpart (List.prefix_append bytes rest) with
      within | ⟨part, rfl⟩
    · by_cases hnil : part = []
      · rw [hnil]
        exact .inl (.start _)
      by_cases whole : part = bytes
      · rw [whole, ← List.append_nil bytes, List.append_assoc]
        exact .inl (.behind spelled (.start _))
      · exact .inr (readMessage_of_part spelled head within whole hnil)
    · -- the first field is all there, so the cut is in what follows it
      rcases ih ((List.prefix_append_right_inj bytes).1 hpart) with cut | early
      · exact .inl (.behind spelled cut)
      · refine .inr fun position => ?_
        rw [readMessage_append placeless spelled head]
        exact early _

end

/-! ## Classes -/

variable {table : StringTable} {message part : List UInt8} {c : ClassDecl}

/-- What was cut at a boundary of fields gives a class with the first of the members, or it has no
name. -/
lemma decodeMessage_of_cut (h : decodeMessage table message = .ok c) (cut : Cut part message) :
    decodeMessage table part = .error (.missingName .classNode) ∨
      ∃ c', decodeMessage table part = .ok c' ∧ c'.Begins c := by
  obtain ⟨edits, reads, -, rfl⟩ := decodeMessage_eq_ok_iff.1 h
  obtain ⟨first, rest, hpart, hrest⟩ := reads.of_cut (classField_placeless table) cut
  obtain ⟨second, -, rfl⟩ := reads_class_iff.1 hrest
  by_cases named : first.any namesClass = true
  · refine .inr ⟨_, decodeMessage_eq_ok_iff.2 ⟨first, hpart, named, rfl⟩, ?_⟩
    exact (ClassDecl.build_joins .default "" first second).begins
  · refine .inl ?_
    rw [decodeMessage_eq, readClass, readEdits_iff.2 hpart]
    exact if_neg named

/-- What was cut anywhere else cannot be read because bytes are missing. -/
lemma decodeMessage_of_not_cut (h : decodeMessage table message = .ok c) (hpart : part <+: message)
    (cut : ¬ Cut part message) :
    ∃ e : WireError, decodeMessage table part = .error (.wire e) ∧ e.isEarlyEnd := by
  obtain ⟨edits, reads, -⟩ := decodeMessage_eq_ok_iff.1 h
  rcases reads.cut_or_early (classField_placeless table) hpart with atField | inside
  · exact absurd atField cut
  · obtain ⟨e, hread, early⟩ := inside 0
    refine ⟨e, ?_, early⟩
    rw [decodeMessage_eq, readClass, readEdits, Cursor.ofBytes, hread]
    rfl

/-- Truncation is never taken for other data. The first bytes of a class message that is accepted
cannot be read because bytes are missing, or the class that they describe has no name, or they give a
class with the first of the members; and the last two happen exactly when the cut is at a boundary of
the fields of the class. -/
theorem truncation_recognized (h : decodeMessage table message = .ok c) (hpart : part <+: message) :
    ((∃ e : WireError, decodeMessage table part = .error (.wire e) ∧ e.isEarlyEnd) ∨
      decodeMessage table part = .error (.missingName .classNode) ∨
      ∃ c', decodeMessage table part = .ok c' ∧ c'.Begins c) ∧
    ((decodeMessage table part = .error (.missingName .classNode) ∨
      ∃ c', decodeMessage table part = .ok c') ↔ Cut part message) := by
  by_cases cut : Cut part message
  · have outcome := decodeMessage_of_cut h cut
    refine ⟨.inr outcome, fun _ => cut, fun _ => outcome.imp_right ?_⟩
    exact fun ⟨c', hc', _⟩ => ⟨c', hc'⟩
  · obtain ⟨e, hread, early⟩ := decodeMessage_of_not_cut h hpart cut
    refine ⟨.inl ⟨e, hread, early⟩, ?_, fun h => absurd h cut⟩
    rw [hread]
    rintro (unnamed | ⟨c', hc'⟩)
    · cases unnamed
    · cases hc'

/-- A class `A` with a function `f`. -/
def memberMessage : List UInt8 := [0x18, 0, 0x4a, 2, 0x10, 1]

/-- Without its last byte the message cannot be read, although the class and its name are there. -/
theorem truncation_recognized_within_member :
    [0x18, 0, 0x4a, 2, 0x10] <+: memberMessage ∧ ¬ Cut [0x18, 0, 0x4a, 2, 0x10] memberMessage ∧
      ∃ c, decodeMessage ⟨["A", "f"]⟩ memberMessage = .ok c ∧
        ∃ e : WireError, decodeMessage ⟨["A", "f"]⟩ [0x18, 0, 0x4a, 2, 0x10] = .error (.wire e) ∧
          e.isEarlyEnd := by
  have decoded : decodeMessage ⟨["A", "f"]⟩ memberMessage =
      .ok (.build .default "" [.name "A", .function ⟨.default, "f", none, []⟩]) := by
    cbv
  have hpart : [0x18, 0, 0x4a, 2, 0x10] <+: memberMessage := ⟨[1], rfl⟩
  obtain ⟨outcome, boundary⟩ := truncation_recognized decoded hpart
  have read : decodeMessage ⟨["A", "f"]⟩ [0x18, 0, 0x4a, 2, 0x10] =
      .error (.wire (.lengthOverflow 2 3)) := by
    cbv
  refine ⟨hpart, fun cut => ?_, _, decoded, ?_⟩
  · rcases boundary.2 cut with unnamed | ⟨c', hc'⟩
    · cases unnamed.symm.trans read
    · cases hc'.symm.trans read
  · rcases outcome with early | unnamed | ⟨c', hc', -⟩
    · exact early
    · cases unnamed.symm.trans read
    · cases hc'.symm.trans read

end ClassMetadata.Descent
