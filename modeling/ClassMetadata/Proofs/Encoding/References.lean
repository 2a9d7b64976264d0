import ClassMetadata.Proofs.Decoding.Kinds
import ClassMetadata.Proofs.Encoding.Message
import ClassMetadata.Proofs.Encoding.TableBuilder

/-!
# References to the string table

The numbers in a written class message that are places in its string table, found in the bytes.

* `MessageKind.references` goes through the fields of a message, and through the messages in them, and
  lists the places in the order of the bytes.
* `Draft.Suits` says that a draft stands where a writer puts it in a kind of message. What is found in
  the bytes of such drafts are the places of their texts (`references_drafts`).
* `ClassDecl.encode_interns_strings` is about the string table of an encoded class.
-/

namespace ClassMetadata

/-! ## Places in the bytes -/

namespace MessageKind

/-- How deep messages can be nested in a message of this kind. -/
def rank : MessageKind → Nat
  | node .classNode => 3
  | node .property => 2
  | node .constructor | node .function | propertyBinding => 1
  | node .parameter | hostSignature => 0

/-- The kind of message that is written into a field with this number. Constructors and functions are
told apart by their names when they are written, so that one may be written in the place of the other:
its parameters stand where the other has them. -/
def holds? : MessageKind → Nat → Option MessageKind
  | node .constructor, 6 | node .function, 2 => some (node .parameter)
  | kind, n => kind.nested? n

/-- The number in a field with this number is a place in the string table: that of a name, or of a part
of a host member. A constructor has a name where a function has it if it is written as one. -/
def refersAt : MessageKind → Nat → Bool
  | node .constructor, n => NodeKind.function.role? n == some .name
  | node kind, n => kind.role? n == some .name || kind.role? n == some .companion
  | hostSignature, n => n == 1 || n == 2
  | propertyBinding, _ => false

/-- What is nested in a message is of lower rank. -/
lemma rank_lt_of_nested {kind child : MessageKind} {n : Nat} (h : kind.nested? n = some child) :
    child.rank < kind.rank := by
  unfold nested? at h
  split at h <;> cases h <;> decide

/-- What a message holds is of lower rank. -/
lemma rank_lt_of_holds {kind child : MessageKind} {n : Nat} (h : kind.holds? n = some child) :
    child.rank < kind.rank := by
  unfold holds? at h
  split at h
  · cases h
    decide
  · cases h
    decide
  · exact rank_lt_of_nested h

mutual

/-- The places in the string table that a written message has, in the order of the bytes. -/
def references (kind : MessageKind) (message : List UInt8) : List UInt64 :=
  (fieldsOf message).flatMap fun field => kind.referencesIn field
termination_by (kind.rank, 1)

/-- The places that a field has, with those in the message that it holds. -/
def referencesIn (kind : MessageKind) : Field → List UInt64
  | .whole key _ (.varint value) => if kind.refersAt key.field.toNat then [value] else []
  | .whole key _ (.block body) =>
    match _child : kind.holds? key.field.toNat with
    | some child => child.references body
    | none => []
  | _ => []
termination_by (kind.rank, 0)
decreasing_by exact Prod.Lex.left _ _ (rank_lt_of_holds _child)

end

/-- A number is a reference where its kind of message refers to the table. -/
lemma referencesIn_number (kind : MessageKind) (key : Key) (offset : Nat) (value : UInt64) :
    kind.referencesIn (.whole key offset (.varint value)) =
      if kind.refersAt key.field.toNat then [value] else [] := by
  rw [referencesIn]

/-- A message has the references of the messages that it holds. -/
lemma referencesIn_message {kind child : MessageKind} {key : Key}
    (h : kind.holds? key.field.toNat = some child) (offset : Nat) (body : List UInt8) :
    kind.referencesIn (.whole key offset (.block body)) = child.references body := by
  rw [referencesIn]
  split <;> simp_all

end MessageKind

/-! ## Places in drafts -/

namespace Draft

open MessageKind

/-- A draft stands where a writer puts it: its texts under the numbers of places, and its messages under
numbers that hold messages. -/
inductive Suits : MessageKind → Draft → Prop where
  | word {kind : MessageKind} {field value : UInt32} : field ≠ 0 →
    kind.refersAt field.toNat = false → Suits kind (.word field value)
  | text {kind : MessageKind} {field : UInt32} {name : String} : field ≠ 0 →
    kind.refersAt field.toNat = true → Suits kind (.text field name)
  | message {kind child : MessageKind} {field : UInt32} {body : List Draft} : field ≠ 0 →
    kind.holds? field.toNat = some child → (∀ d ∈ body, Suits child d) →
    Suits kind (.message field body)

/-- A draft that suits a message has a field number. -/
lemma Suits.number_ne {kind : MessageKind} {d : Draft} (h : Suits kind d) : d.number ≠ 0 := by
  cases h <;> assumption

/-- Fields that show drafts have the places of their texts if each of them has. -/
lemma references_of_fields {table : List String} {kind : MessageKind} {ds : List Draft}
    (sound : Sound table ds) (numbered : ∀ d ∈ ds, d.number ≠ 0)
    (h : ∀ d ∈ ds, ∀ f, Sound table [d] → (d.write table).Shows f →
      kind.referencesIn f = d.texts.map (place table)) :
    kind.references (bytes table ds) = (textsOf ds).map (place table) := by
  have shown := sound.fields numbered
  rw [references, textsOf_eq_flatMap]
  generalize fieldsOf (bytes table ds) = fields at shown
  induction shown with
  | nil => rfl
  | @cons d f ds fields first _ ih =>
    have here := h d List.mem_cons_self f (sound.of_mem List.mem_cons_self) first
    have rest := ih sound.tail (fun d hd => numbered d (List.mem_cons_of_mem _ hd)) fun d hd =>
      h d (List.mem_cons_of_mem _ hd)
    rw [List.flatMap_cons, List.flatMap_cons, List.map_append, here, rest]

/-- A field that shows a draft has the places of its texts. -/
lemma Suits.referencesIn_eq {table : List String} {kind : MessageKind} {d : Draft}
    (suits : Suits kind d) {f : Field} (sound : Sound table [d]) (shown : (d.write table).Shows f) :
    kind.referencesIn f = d.texts.map (place table) := by
  induction suits generalizing f with
  | word _ plain =>
    obtain ⟨key, offset, payload, hcontent, rfl⟩ := shown
    rw [content?_write] at hcontent
    cases hcontent
    rw [payload, referencesIn_number, texts]
    exact if_neg (Bool.eq_false_iff.1 plain)
  | text _ refers =>
    obtain ⟨key, offset, payload, hcontent, rfl⟩ := shown
    rw [content?_write] at hcontent
    cases hcontent
    rw [payload, referencesIn_number, texts]
    exact if_pos refers
  | @message kind child field body _ holds parts ih =>
    obtain ⟨key, offset, payload, hcontent, rfl⟩ := shown
    rw [content?_write] at hcontent
    cases hcontent
    rw [payload, referencesIn_message holds, texts]
    exact references_of_fields sound.body (fun d hd => (parts d hd).number_ne) fun d hd f sound shown =>
      ih d hd sound shown

/-- The places in the bytes of drafts are those of their texts. -/
theorem references_drafts {table : List String} {kind : MessageKind} {ds : List Draft}
    (suits : ∀ d ∈ ds, Suits kind d) (sound : Sound table ds) :
    kind.references (bytes table ds) = (textsOf ds).map (place table) :=
  references_of_fields sound (fun d hd => (suits d hd).number_ne) fun d hd _ sound shown =>
    (suits d hd).referencesIn_eq sound shown

/-! ## Where the texts of a class are written -/

section

variable {kind : MessageKind} {α : Type}

/-- Drafts suit a message together if they suit it in two parts. -/
lemma suits_append {ds es : List Draft} (hds : ∀ d ∈ ds, Suits kind d) (hes : ∀ d ∈ es, Suits kind d) :
    ∀ d ∈ ds ++ es, Suits kind d :=
  fun d hd => (List.mem_append.1 hd).elim (hds d) (hes d)

/-- Drafts of the same form suit a message together. -/
lemma suits_map {l : List α} {draft : α → Draft} (h : ∀ a, Suits kind (draft a)) :
    ∀ d ∈ l.map draft, Suits kind d :=
  List.forall_mem_map.2 fun a _ => h a

/-- A draft that may be missing suits a message if it does when it is there. -/
lemma suits_optional {part : Option α} {draft : α → Draft} (h : ∀ a, Suits kind (draft a)) :
    ∀ d ∈ Draft.optional part draft, Suits kind d := by
  cases part with
  | none => nofun
  | some a => exact List.forall_mem_singleton.2 (h a)

end

/-- The drafts of a host member suit a host signature. -/
lemma suits_hostMember (name descriptor : List Char) :
    ∀ d ∈ hostMember name descriptor, Suits .hostSignature d := by
  refine suits_append ?_ (List.forall_mem_singleton.2 (.text (by decide) rfl))
  split
  · nofun
  · exact List.forall_mem_singleton.2 (.text (by decide) rfl)

/-- The drafts of a host method suit a host signature. -/
lemma suits_method (signature : String) : ∀ d ∈ method signature, Suits .hostSignature d := by
  rw [method]
  split <;> exact suits_hostMember _ _

/-- The drafts of a host field suit a host signature. -/
lemma suits_field (signature : String) : ∀ d ∈ field signature, Suits .hostSignature d := by
  rw [field]
  split <;> exact suits_hostMember _ _

end Draft

open Draft

/-- The drafts of a parameter suit its message. -/
lemma ParameterDecl.suits_drafts (p : ParameterDecl) : ∀ d ∈ p.drafts, Suits (.node .parameter) d :=
  List.forall_mem_cons.2 ⟨.word (by decide) rfl,
    List.forall_mem_singleton.2 (.text (by decide) rfl)⟩

/-- Whether it is written as a constructor or as a function, it suits the place of either. -/
lemma FunctionDecl.suits_drafts (f : FunctionDecl) {kind : MessageKind}
    (hkind : kind = .node .constructor ∨ kind = .node .function) : ∀ d ∈ f.drafts, Suits kind d := by
  have parameters (n : UInt32) (hn : n = 2 ∨ n = 6) (p : ParameterDecl) :
      Suits kind (.message n p.drafts) := by
    rcases hn with rfl | rfl <;> rcases hkind with rfl | rfl <;>
      exact .message (by decide) rfl p.suits_drafts
  refine suits_append (suits_append (suits_append ?_ ?_) (suits_map (parameters _ ?_)))
    (suits_optional fun s => ?_)
  · rcases hkind with rfl | rfl <;> exact List.forall_mem_singleton.2 (.word (by decide) rfl)
  · split
    · nofun
    · rcases hkind with rfl | rfl <;> exact List.forall_mem_singleton.2 (.text (by decide) rfl)
  · split
    · exact .inl rfl
    · exact .inr rfl
  · rcases hkind with rfl | rfl <;> exact .message (by decide) rfl (suits_method s)

/-- The drafts of the host members suit the binding of a property. -/
lemma PropertyDecl.suits_bindingDrafts (p : PropertyDecl) :
    ∀ d ∈ p.bindingDrafts, Suits .propertyBinding d := by
  refine suits_append (suits_append (suits_append ?_ ?_) ?_) ?_
  · exact suits_optional fun s => .message (by decide) rfl (suits_field s)
  · exact suits_optional fun s => .message (by decide) rfl (suits_method s)
  · exact suits_optional fun s => .message (by decide) rfl (suits_method s)
  · exact suits_optional fun s => .message (by decide) rfl (suits_method s)

/-- The drafts of a property suit its message. -/
lemma PropertyDecl.suits_drafts (p : PropertyDecl) : ∀ d ∈ p.drafts, Suits (.node .property) d := by
  refine suits_append (suits_append (suits_append ?_ ?_) ?_) ?_
  · exact List.forall_mem_cons.2 ⟨.word (by decide) rfl,
      List.forall_mem_singleton.2 (.text (by decide) rfl)⟩
  · exact suits_optional fun _ => .word (by decide) rfl
  · exact suits_optional fun _ => .word (by decide) rfl
  · split
    · nofun
    · exact List.forall_mem_singleton.2 (.message (by decide) rfl p.suits_bindingDrafts)

/-- The drafts of a class suit its message. -/
lemma ClassDecl.suits_drafts (c : ClassDecl) : ∀ d ∈ c.drafts, Suits (.node .classNode) d := by
  refine suits_append (suits_append (suits_append (suits_append ?_ ?_) ?_) ?_) ?_
  · exact List.forall_mem_cons.2 ⟨.word (by decide) rfl,
      List.forall_mem_singleton.2 (.text (by decide) rfl)⟩
  · exact suits_optional fun _ => .text (by decide) rfl
  · exact suits_map fun f => .message (by decide) rfl (f.suits_drafts (.inl rfl))
  · exact suits_map fun f => .message (by decide) rfl (f.suits_drafts (.inr rfl))
  · exact suits_map fun p => .message (by decide) rfl p.suits_drafts

/-! ## The table of a class -/

/-- The places of texts among their first appearances are first seen in ascending order, one after the
other. -/
lemma eraseDups_map_idxOf (l : List String) :
    (l.map l.eraseDups.idxOf).eraseDups = List.range l.eraseDups.length := by
  induction l using List.reverseRecOn with
  | nil => rfl
  | append_singleton l a ih =>
    rw [List.map_append, List.map_singleton, eraseDups_concat (l.map _)]
    by_cases known : a ∈ l
    · have same : (l ++ [a]).eraseDups = l.eraseDups := by rw [eraseDups_concat, if_pos known]
      rw [same, if_pos (List.mem_map_of_mem known), ih]
    · have more : (l ++ [a]).eraseDups = l.eraseDups ++ [a] := by rw [eraseDups_concat, if_neg known]
      have kept : l.map (l.eraseDups ++ [a]).idxOf = l.map l.eraseDups.idxOf :=
        List.map_congr_left fun t ht => List.idxOf_append_of_mem (List.mem_eraseDups.2 ht)
      have last : (l.eraseDups ++ [a]).idxOf a = l.eraseDups.length := by
        rw [List.idxOf_append_of_notMem (fun old => known (List.mem_eraseDups.1 old)),
          List.idxOf_cons_self, Nat.add_zero]
      have new : l.eraseDups.length ∉ l.map l.eraseDups.idxOf := by
        rw [← List.mem_eraseDups, ih, List.mem_range]
        exact Nat.lt_irrefl _
      rw [more, kept, last, if_neg new, ih, List.length_append, List.length_singleton,
        List.range_succ]

namespace ClassDecl

variable (c : ClassDecl)

/-- A class message that is written in one pass is the message over the finished table. -/
lemma emitAll_drafts : (emitAll c.drafts).run .empty =
    (writeAll c.stringTable c.drafts, .after (textsOf c.drafts)) := by
  obtain ⟨builder, written⟩ := emitAll_eq [] c.drafts
  have whole := written []
  rw [List.append_nil, List.nil_append] at whole
  exact Prod.ext whole builder

/-- The name of a class is asked for first. -/
lemma head?_stringTable : c.stringTable.head? = some c.name := by
  have first : textsOf c.drafts = c.name :: textsOf (c.drafts.drop 2) := rfl
  rw [stringTable, tableOf, first, List.eraseDups_cons]
  rfl

variable {c}

/-- The places in a class message lead through its table in ascending order, as far as they are new. -/
lemma eraseDups_places (hsize : c.message.length < 2 ^ 64) :
    (((textsOf c.drafts).map (place c.stringTable)).map UInt64.toNat).eraseDups =
      List.range c.stringTable.length := by
  have counts : ((textsOf c.drafts).map (place c.stringTable)).map UInt64.toNat =
      (textsOf c.drafts).map (textsOf c.drafts).eraseDups.idxOf := by
    rw [List.map_map]
    exact List.map_congr_left fun t ht => (sound_drafts hsize).toNat_place ht
  rw [counts]
  exact eraseDups_map_idxOf _

end ClassDecl

/-- The string table of an encoded class. No string stands in it twice, and the name of the class comes
first. It is what remains of a table that grew while the message was written, request by request: an
answer is the place of the text in the finished table, and what the table had then it still has. The
places in the message that is unpacked again, one for each request, are in the table and denote what was
asked for; and seen in the order of the bytes they lead to every string, one after the other. A message
that fits into memory is shorter than a word of 64 bits can count. -/
theorem ClassDecl.encode_interns_strings (c : ClassDecl) (options : EncodeOptions) :
    (c.encode options).strings.Nodup ∧
    (c.encode options).strings.head? = some c.name ∧
    (∃ writes, (Draft.emitAll c.drafts).run .empty = (writes, .after (textsOf c.drafts)) ∧
      (TableBuilder.after (textsOf c.drafts)).strings = (c.encode options).strings ∧
      Packing.decode (c.encode options).data = .ok (Write.bytesOf writes)) ∧
    (∀ before text later, textsOf c.drafts = before ++ text :: later →
      (TableBuilder.after before).strings <+: (c.encode options).strings ∧
      ((TableBuilder.index text).run (.after before)).1 = place (c.encode options).strings text) ∧
    (c.message.length < 2 ^ 64 → ∃ message places, Packing.decode (c.encode options).data = .ok message ∧
      MessageKind.references (.node .classNode) message = places ∧
      List.Forall₂ (fun place text => place.toNat < (c.encode options).strings.length ∧
        (c.encode options).strings[place.toNat]? = some text) places (textsOf c.drafts) ∧
      (∀ n < (c.encode options).strings.length, ∃ place ∈ places, place.toNat = n) ∧
      (places.map UInt64.toNat).eraseDups = List.range (c.encode options).strings.length) := by
  have built := TableBuilder.after_built (textsOf c.drafts)
  have unpacked : Packing.decode (c.encode options).data = .ok c.message :=
    Packing.decode_encode options.scheme c.message
  refine ⟨nodup_eraseDups _, c.head?_stringTable, ⟨_, c.emitAll_drafts, built.strings_eq, unpacked⟩,
    fun before text later hrequests => ?_, fun hsize => ?_⟩
  · obtain ⟨answered, kept⟩ := TableBuilder.answer_lasts before later text
    rw [← hrequests, built.strings_eq] at answered kept
    exact ⟨kept, answered⟩
  · have sound := c.sound_drafts hsize
    have inOrder := ClassDecl.eraseDups_places hsize
    refine ⟨c.message, _, unpacked, references_drafts c.suits_drafts sound, ?_, fun n hn => ?_, inOrder⟩
    · rw [List.forall₂_map_left_iff, List.forall₂_same]
      exact fun t ht => sound.getElem?_place ht
    · have listed : n ∈ List.range c.stringTable.length := List.mem_range.2 hn
      rw [← inOrder, List.mem_eraseDups, List.mem_map] at listed
      exact listed

/-- A class with names that stand in it more than once, and a constructor that is written as a function
because it has a name of its own. -/
def recurringNames : ClassDecl :=
  .build .default "A" [.companion "C", .constructor ⟨.default, "A", none, [⟨.zero, "C"⟩]⟩,
    .function ⟨.default, "f", some "f()V", []⟩]

/-- Seven places are written for it, which denote four strings. -/
theorem ClassDecl.encode_interns_strings_recurringNames :
    recurringNames.message.length < 2 ^ 64 ∧
      (recurringNames.encode .default).strings = ["A", "C", "f", "()V"] ∧
      ∃ message places, Packing.decode (recurringNames.encode .default).data = .ok message ∧
        MessageKind.references (.node .classNode) message = places ∧
        List.Forall₂ (fun place text => place.toNat < 4 ∧
          ["A", "C", "f", "()V"][place.toNat]? = some text) places
          ["A", "C", "A", "C", "f", "f", "()V"] ∧
        (∀ n < 4, ∃ place ∈ places, place.toNat = n) ∧
        (places.map UInt64.toNat).eraseDups = [0, 1, 2, 3] := by
  have size : recurringNames.message.length < 2 ^ 64 := by cbv
  have strings : (recurringNames.encode .default).strings = ["A", "C", "f", "()V"] := by cbv
  have texts : textsOf recurringNames.drafts = ["A", "C", "A", "C", "f", "f", "()V"] := by cbv
  obtain ⟨-, -, -, -, read⟩ := encode_interns_strings recurringNames .default
  rw [strings, texts] at read
  exact ⟨size, strings, read size⟩

end ClassMetadata
