import ClassMetadata.Encoding.Class
import ClassMetadata.Proofs.Declaration.Joining
import ClassMetadata.Proofs.Encoding.Drafts

/-!
# The string table as it is built

A message is written in one pass. A text is asked for when its field is written, and what is written
then is the place that it has in the table, or the place behind all others if it is new. The table goes
on growing, and nothing that is written is ever changed.

* `TableBuilder` is a table that is being built, a list of strings and the place of each, and
  `Draft.emitAll` writes drafts with it.
* `TableBuilder.Built` says what a builder has become of the texts that it was asked for. Every request
  keeps it (`Built.index`), and the answer is the place in every later table (`place_eraseDups_append`).
* `Draft.emitAll_eq`: what is written in this way is what is written over the finished table.
-/

namespace ClassMetadata

/-- A string table that is being built. -/
structure TableBuilder where
  strings : List String
  /-- The place of every string, by which it is looked up. -/
  places : SignatureTable UInt64

namespace TableBuilder

/-- The table without strings. -/
def empty : TableBuilder := ⟨[], .empty⟩

/-- The place of a text. A text that the table has not goes behind its strings. -/
def index (text : String) : StateM TableBuilder UInt64 := fun b =>
  match b.places.get? text with
  | some place => (place, b)
  | none =>
    let place := UInt64.ofNat b.strings.length
    (place, ⟨b.strings ++ [text], b.places.insert text place⟩)

/-- The table after requests. -/
def after (requests : List String) : TableBuilder :=
  requests.foldl (fun b text => ((index text).run b).2) empty

end TableBuilder

namespace Draft

mutual

/-- Writes a draft, and asks for its texts meanwhile. -/
def emit : Draft → StateM TableBuilder Write
  | word field value => return .uint field value.toUInt64
  | text field name => return .uint field (← TableBuilder.index name)
  | message field body => return .message field (← emitAll body)

/-- Writes drafts, one after the other. -/
def emitAll : List Draft → StateM TableBuilder (List Write)
  | [] => return []
  | d :: ds => return (← d.emit) :: (← emitAll ds)

end

end Draft

/-! ## First appearances -/

/-- First appearances stay where they are. -/
lemma eraseDups_prefix (l l' : List String) : l.eraseDups <+: (l ++ l').eraseDups :=
  ⟨_, (eraseDups_append_filter l l').symm⟩

section

variable {l : List String} {text : String}

/-- A text keeps its place whatever is asked for later. -/
lemma place_eraseDups_append (h : text ∈ l) (l' : List String) :
    Draft.place (l ++ l').eraseDups text = Draft.place l.eraseDups text := by
  rw [Draft.place, Draft.place, eraseDups_append_filter,
    List.idxOf_append_of_mem (List.mem_eraseDups.2 h)]

/-- A new text has the place behind all others. -/
lemma place_eraseDups_concat (h : text ∉ l) :
    Draft.place (l ++ [text]).eraseDups text = UInt64.ofNat l.eraseDups.length := by
  have new : text ∉ l.eraseDups := fun known => h (List.mem_eraseDups.1 known)
  rw [Draft.place, eraseDups_concat, if_neg h, List.idxOf_append_of_notMem new, List.idxOf_cons_self,
    Nat.add_zero]

end

/-! ## Requests -/

namespace TableBuilder

/-- The table after requests has each text once, in the order in which it was first asked for, and the
places are those of the strings. -/
structure Built (requests : List String) (b : TableBuilder) : Prop where
  strings_eq : b.strings = requests.eraseDups
  get?_eq : ∀ text, b.places.get? text =
    if text ∈ requests then some (Draft.place requests.eraseDups text) else none

namespace Built

/-- Without requests the table is empty. -/
lemma empty : Built [] .empty := ⟨rfl, fun _ => rfl⟩

/-- A text that is asked for is answered with its place. -/
theorem index {requests : List String} {b : TableBuilder} (h : Built requests b) (text : String) :
    ∃ b', (TableBuilder.index text).run b = (Draft.place (requests ++ [text]).eraseDups text, b') ∧
      Built (requests ++ [text]) b' := by
  have found := h.get?_eq text
  by_cases known : text ∈ requests
  · rw [if_pos known] at found
    have same : (requests ++ [text]).eraseDups = requests.eraseDups := by
      rw [eraseDups_concat, if_pos known]
    refine ⟨b, ?_, ?_, fun t => ?_⟩
    · show TableBuilder.index text b = _
      rw [TableBuilder.index, found, same]
    · rw [same, h.strings_eq]
    · rw [same, h.get?_eq]
      refine if_congr ?_ rfl rfl
      rw [List.mem_append, List.mem_singleton]
      exact ⟨.inl, fun either => either.elim id fun e => e ▸ known⟩
  · rw [if_neg known] at found
    have more : (requests ++ [text]).eraseDups = requests.eraseDups ++ [text] := by
      rw [eraseDups_concat, if_neg known]
    refine ⟨⟨b.strings ++ [text], b.places.insert text (UInt64.ofNat b.strings.length)⟩, ?_, ?_,
      fun t => ?_⟩
    · show TableBuilder.index text b = _
      rw [TableBuilder.index, found, place_eraseDups_concat known, h.strings_eq]
    · rw [more, h.strings_eq]
    · rw [SignatureTable.get?_insert, h.get?_eq, h.strings_eq, ← place_eraseDups_concat known]
      by_cases same : t = text
      · rw [if_pos same, if_pos (by simp [same]), same]
      · rw [if_neg same]
        by_cases old : t ∈ requests
        · rw [if_pos old, if_pos (by simp [old]), place_eraseDups_append old]
        · rw [if_neg old, if_neg (by simp [old, same])]

end Built

/-- The last request comes to the table that the others made. -/
lemma after_concat (requests : List String) (text : String) :
    after (requests ++ [text]) = ((index text).run (after requests)).2 := by
  rw [after, List.foldl_append]
  rfl

/-- Any number of requests leave the strings and the places in step. -/
theorem after_built (requests : List String) : Built requests (after requests) := by
  induction requests using List.reverseRecOn with
  | nil => exact .empty
  | append_singleton requests text ih =>
    obtain ⟨b, answered, built⟩ := ih.index text
    rw [after_concat, answered]
    exact built

/-- The answer to a request is the place of the text in the table after all requests, and what the table
had then it still has. -/
theorem answer_lasts (before later : List String) (text : String) :
    ((index text).run (after before)).1 =
        Draft.place (after (before ++ text :: later)).strings text ∧
      (after before).strings <+: (after (before ++ text :: later)).strings := by
  obtain ⟨b, answered, -⟩ := (after_built before).index text
  rw [answered, (after_built _).strings_eq, (after_built _).strings_eq]
  refine ⟨?_, eraseDups_prefix _ _⟩
  have asked : text ∈ before ++ [text] := List.mem_append_right _ (List.mem_singleton_self text)
  rw [List.append_cons before text later, place_eraseDups_append asked]

end TableBuilder

/-! ## Messages in one pass -/

namespace Draft

open TableBuilder (Built after_concat)

mutual

/-- What is written of a draft is what is written over any later table. -/
lemma emit_eq (requests : List String) (d : Draft) :
    (d.emit.run (.after requests)).2 = .after (requests ++ d.texts) ∧
      ∀ later, (d.emit.run (.after requests)).1 =
        d.write (requests ++ d.texts ++ later).eraseDups := by
  cases d with
  | word field value =>
    rw [texts, List.append_nil]
    exact ⟨rfl, fun _ => by rw [write]; rfl⟩
  | text field name =>
    have asked : name ∈ requests ++ [name] := List.mem_append_right _ (List.mem_singleton_self name)
    rw [texts]
    refine ⟨(after_concat requests name).symm, fun later => ?_⟩
    obtain ⟨b, answered, -⟩ := (TableBuilder.after_built requests).index name
    show Write.uint field ((TableBuilder.index name).run (.after requests)).1 = _
    rw [answered, write, place_eraseDups_append asked]
  | message field body =>
    obtain ⟨builder, written⟩ := emitAll_eq requests body
    rw [texts]
    refine ⟨builder, fun later => ?_⟩
    show Write.message field ((emitAll body).run (.after requests)).1 = _
    rw [written, write]

/-- Drafts that are written in one pass are written as over any later table. -/
lemma emitAll_eq (requests : List String) (ds : List Draft) :
    ((emitAll ds).run (.after requests)).2 = .after (requests ++ textsOf ds) ∧
      ∀ later, ((emitAll ds).run (.after requests)).1 =
        writeAll (requests ++ textsOf ds ++ later).eraseDups ds := by
  cases ds with
  | nil =>
    rw [textsOf, List.append_nil]
    exact ⟨rfl, fun _ => by rw [writeAll]; rfl⟩
  | cons d ds =>
    obtain ⟨first, writtenFirst⟩ := emit_eq requests d
    obtain ⟨rest, writtenRest⟩ := emitAll_eq (requests ++ d.texts) ds
    rw [textsOf, ← List.append_assoc]
    refine ⟨?_, fun later => ?_⟩
    · show ((emitAll ds).run (d.emit.run (.after requests)).2).2 = _
      rw [first, rest]
    · show (d.emit.run (.after requests)).1 ::
        ((emitAll ds).run (d.emit.run (.after requests)).2).1 = _
      rw [first, writtenRest, writeAll, List.append_assoc _ (textsOf ds), ← writtenFirst]

end

end Draft

end ClassMetadata
