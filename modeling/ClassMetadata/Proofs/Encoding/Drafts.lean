import Mathlib.Data.List.Forall2
import ClassMetadata.Encoding.Class
import ClassMetadata.Proofs.Decoding.Schema
import ClassMetadata.Proofs.Wire.RoundTrip

/-!
# Reading drafts

What a descent makes of a message that was written from drafts.

* `Sound` collects what has to hold of drafts and a table so that they can be read back. It passes
  to every part of a message.
* `Absorbs` says what a single draft does to what was read so far, and `Leads` what many do, one
  after the other. There is one lemma for each form of draft.
* `Leads.readMessage` goes through the written message. `Comes.readMessage` does so when a draft may
  be refused, and then the first that is refused decides.
-/

namespace ClassMetadata

namespace Draft

/-- The number of the field. -/
def number : Draft → UInt32
  | word field _ | text field _ | message field _ => field

/-- The wire type of the field. -/
def type : Draft → WireType
  | word _ _ | text _ _ => .varint
  | message _ _ => .lengthDelimited

/-- The key of the field. -/
def key (d : Draft) : Key := ⟨d.number, d.type⟩

/-- The payload of the field over a string table. -/
def payload (table : List String) : Draft → Payload
  | word _ value => .varint value.toUInt64
  | text _ name => .varint (place table name)
  | message _ body => .block (Write.bytesOf (writeAll table body))

/-- The bytes of drafts over a string table. -/
def bytes (table : List String) (ds : List Draft) : List UInt8 := Write.bytesOf (writeAll table ds)

/-- A draft that is written has the content that was meant. -/
lemma content?_write (table : List String) (d : Draft) :
    (d.write table).content? = some (d.key, d.payload table) := by
  cases d with
  | word field value | text field name | message field body =>
    rw [write]
    rfl

/-- Drafts are written one by one. -/
lemma writeAll_eq_map (table : List String) (ds : List Draft) :
    writeAll table ds = ds.map (write table) := by
  induction ds with
  | nil => rw [writeAll, List.map_nil]
  | cons d ds ih => rw [writeAll, ih, List.map_cons]

/-- The texts of drafts come one draft after the other. -/
lemma textsOf_eq_flatMap (ds : List Draft) : textsOf ds = ds.flatMap texts := by
  induction ds with
  | nil => rw [textsOf, List.flatMap_nil]
  | cons d ds ih => rw [textsOf, ih, List.flatMap_cons]

/-- What has to hold of drafts and a table so that they can be read back: the table has all texts,
and neither the table nor the message is too long for its numbers. -/
structure Sound (table : List String) (ds : List Draft) : Prop where
  mem_table : ∀ t ∈ textsOf ds, t ∈ table
  table_lt : table.length < 2 ^ 64
  bytes_lt : (bytes table ds).length < 2 ^ 64

namespace Sound

variable {table : List String} {ds : List Draft}

/-- Each draft is as sound as all of them. -/
lemma of_mem (h : Sound table ds) {d : Draft} (hd : d ∈ ds) : Sound table [d] := by
  refine ⟨fun t ht => h.mem_table t ?_, h.table_lt, ?_⟩
  · rw [textsOf_eq_flatMap] at ht ⊢
    rw [List.flatMap_singleton] at ht
    exact List.mem_flatMap.2 ⟨d, hd, ht⟩
  · have part : d.write table ∈ writeAll table ds := by
      rw [writeAll_eq_map]
      exact List.mem_map_of_mem hd
    have short := Write.length_le_of_mem part
    have long := h.bytes_lt
    rw [bytes] at long ⊢
    rw [writeAll, writeAll, Write.bytesOf, Write.bytesOf, List.append_nil]
    omega

/-- Behind a sound draft the others are sound. -/
lemma tail {d : Draft} (h : Sound table (d :: ds)) : Sound table ds := by
  refine ⟨fun t ht => h.mem_table t ?_, h.table_lt, ?_⟩
  · rw [textsOf]
    exact List.mem_append_right _ ht
  · have long := h.bytes_lt
    rw [bytes, writeAll, Write.bytesOf, List.length_append] at long
    rw [bytes]
    omega

/-- The body of a nested message is as sound as the message. -/
lemma body {field : UInt32} {body : List Draft} (h : Sound table [.message field body]) :
    Sound table body := by
  refine ⟨fun t ht => h.mem_table t ?_, h.table_lt, ?_⟩
  · rw [textsOf, texts, textsOf, List.append_nil]
    exact ht
  · have long := h.bytes_lt
    rw [bytes, writeAll, writeAll, write, Write.bytesOf, Write.bytesOf, Write.bytes,
      Write.blockBytes, List.append_nil, List.length_append] at long
    rw [bytes]
    omega

/-- The place of a text counts the strings before it. -/
lemma toNat_place (h : Sound table ds) {t : String} (ht : t ∈ textsOf ds) :
    (place table t).toNat = table.idxOf t := by
  have bound := List.idxOf_lt_length_of_mem (h.mem_table t ht)
  have size := h.table_lt
  rw [place, UInt64.toNat_ofNat']
  omega

/-- The place of a text is in the table, and the text is found there. -/
lemma getElem?_place (h : Sound table ds) {t : String} (ht : t ∈ textsOf ds) :
    (place table t).toNat < table.length ∧ table[(place table t).toNat]? = some t := by
  have bound := List.idxOf_lt_length_of_mem (h.mem_table t ht)
  rw [h.toNat_place ht]
  exact ⟨bound, by rw [List.getElem?_eq_getElem bound, List.getElem_idxOf]⟩

/-- The place of a name leads back to the name. -/
lemma get_place {field : UInt32} {name : String} (h : Sound table [.text field name]) :
    StringTable.get ⟨table⟩ (place table name) = .ok name := by
  obtain ⟨-, found⟩ := h.getElem?_place (t := name) (by simp [textsOf, texts])
  simp only [StringTable.get, found]

/-- A draft that is sound and has a number is written so that it can be read. -/
lemma readable {d : Draft} (h : Sound table [d]) (hd : d.number ≠ 0) :
    (d.write table).Readable := by
  refine ⟨d.key, d.payload table, content?_write table d, hd, ?_⟩
  cases d with
  | word field value => trivial
  | text field name => trivial
  | message field body => exact h.body.bytes_lt

/-- The fields of the written message are the drafts, one by one. -/
lemma fields (h : Sound table ds) (numbered : ∀ d ∈ ds, d.number ≠ 0) :
    List.Forall₂ (fun d f => (d.write table).Shows f) ds (fieldsOf (bytes table ds)) := by
  have readable : ∀ w ∈ writeAll table ds, w.Readable := by
    intro w hw
    rw [writeAll_eq_map] at hw
    obtain ⟨d, hd, rfl⟩ := List.mem_map.1 hw
    exact (h.of_mem hd).readable (numbered d hd)
  have shown := Write.fields_bytesOf readable 0
  rw [writeAll_eq_map, List.forall₂_map_left_iff] at shown
  rw [bytes, writeAll_eq_map]
  exact shown

end Sound

end Draft

namespace Descent

open Draft

variable {σ : Type} {schema : Schema σ} {table : List String} {s s' : σ}

/-- A sound draft has a number and makes this of what was read so far. -/
def Absorbs (schema : Schema σ) (table : List String) (s : σ) (d : Draft) (s' : σ) : Prop :=
  d.number ≠ 0 ∧ ∀ f, Sound table [d] → (d.write table).Shows f → absorb schema s f = .ok s'

/-- Sound drafts make this of what was read so far, one after the other. -/
inductive Leads (schema : Schema σ) (table : List String) : σ → List Draft → σ → Prop where
  | nil (s : σ) : Leads schema table s [] s
  | cons {s s₁ s₂ : σ} {d : Draft} {ds : List Draft} (head : Absorbs schema table s d s₁)
    (tail : Leads schema table s₁ ds s₂) : Leads schema table s (d :: ds) s₂

/-- A number of 32 bits fits into 32 bits. -/
lemma narrow_toUInt64 (bits : UInt32) (offset : Nat) :
    NodeKind.narrow bits.toUInt64 offset = .ok bits := by
  have small : bits.toUInt64.toNat = bits.toNat := UInt32.toNat_toUInt64 bits
  rw [NodeKind.narrow, small, if_pos bits.toNat_lt, UInt32.ofNat_toNat]

/-- A number of 32 bits is absorbed as it was written. -/
lemma absorbs_word {n bits : UInt32} (g : σ → UInt32 → σ) (hn : n ≠ 0)
    (hschema : schema ⟨n, .varint⟩ = .ok (.word fun s bits => .ok (g s bits))) :
    Absorbs schema table s (.word n bits) (g s bits) := by
  refine ⟨hn, ?_⟩
  -- the field that is read has the key and the payload of the draft, whatever its offset
  rintro _ - ⟨key, offset, payload, hcontent, rfl⟩
  rw [content?_write] at hcontent
  cases hcontent
  change schema ⟨n, .varint⟩ >>= _ = _
  rw [hschema]
  show NodeKind.narrow bits.toUInt64 offset >>= _ = _
  rw [narrow_toUInt64]
  rfl

/-- A name is absorbed as it was written. -/
lemma absorbs_text {n : UInt32} {name : String} (g : σ → String → σ) (hn : n ≠ 0)
    (hschema : schema ⟨n, .varint⟩ =
      .ok (.number fun s index => return g s (← StringTable.get ⟨table⟩ index))) :
    Absorbs schema table s (.text n name) (g s name) := by
  refine ⟨hn, ?_⟩
  rintro _ sound ⟨key, offset, payload, hcontent, rfl⟩
  rw [content?_write] at hcontent
  cases hcontent
  change schema ⟨n, .varint⟩ >>= _ = _
  rw [hschema]
  show StringTable.get ⟨table⟩ (place table name) >>= _ = _
  rw [sound.get_place]
  rfl

/-- A nested message is absorbed if it is read as it was written. -/
lemma absorbs_message {α : Type} {n : UInt32} {body : List Draft} {a : α}
    {read : List UInt8 → Except DecodeError α} (g : σ → α → σ) (hn : n ≠ 0)
    (hschema : schema ⟨n, .lengthDelimited⟩ = .ok (.message fun s m => return g s (← read m)))
    (hread : Sound table body → read (bytes table body) = .ok a) :
    Absorbs schema table s (.message n body) (g s a) := by
  refine ⟨hn, ?_⟩
  rintro _ sound ⟨key, offset, payload, hcontent, rfl⟩
  rw [content?_write] at hcontent
  cases hcontent
  change schema ⟨n, .lengthDelimited⟩ >>= _ = _
  rw [hschema]
  show read (bytes table body) >>= _ = _
  rw [hread sound.body]
  rfl

namespace Leads

/-- No drafts lead nowhere else. -/
lemma eq_of_nil (h : Leads schema table s [] s') : s' = s := by
  cases h
  rfl

/-- A draft that is absorbed leads on. -/
lemma single {d : Draft} (h : Absorbs schema table s d s') : Leads schema table s [d] s' :=
  .cons h (.nil s')

/-- Drafts that follow each other lead on from where the first ones led to. -/
lemma append {s₁ : σ} {ds es : List Draft} (h : Leads schema table s ds s₁)
    (h' : Leads schema table s₁ es s') : Leads schema table s (ds ++ es) s' := by
  induction h with
  | nil s => exact h'
  | cons head _ ih => exact .cons head (ih h')

/-- A draft that may be missing leads on in both cases. -/
lemma optional {α : Type} {part : Option α} {draft : α → Draft} (absent : part = none → s' = s)
    (present : ∀ a, part = some a → Absorbs schema table s (draft a) s') :
    Leads schema table s (Draft.optional part draft) s' := by
  cases part with
  | none =>
    rw [absent rfl]
    exact .nil s
  | some a => exact single (present a rfl)

/-- Drafts of the members of a list, each of which puts something behind what was there. -/
lemma map {α : Type} {draft : α → Draft} (state : List α → σ) (before : List α) {l : List α}
    (h : ∀ before, ∀ a ∈ l, Absorbs schema table (state before) (draft a) (state (before ++ [a]))) :
    Leads schema table (state before) (l.map draft) (state (before ++ l)) := by
  induction l generalizing before with
  | nil =>
    rw [List.append_nil]
    exact .nil _
  | cons a l ih =>
    have rest := ih (before ++ [a]) fun before a ha => h before a (List.mem_cons_of_mem _ ha)
    rw [List.append_assoc] at rest
    exact .cons (h before a List.mem_cons_self) rest

/-- Drafts that lead anywhere have field numbers. -/
lemma numbered {ds : List Draft} (h : Leads schema table s ds s') : ∀ d ∈ ds, d.number ≠ 0 := by
  induction h with
  | nil s => nofun
  | cons head _ ih => exact List.forall_mem_cons.2 ⟨head.1, ih⟩

/-- The fields of drafts are gone through as the drafts say, and others may follow. -/
lemma foldlM {ds es : List Draft} (h : Leads schema table s ds s') (sound : Sound table (ds ++ es))
    {fields : List Field}
    (shown : List.Forall₂ (fun d f => (d.write table).Shows f) (ds ++ es) fields) :
    ∃ rest, List.Forall₂ (fun d f => (d.write table).Shows f) es rest ∧
      fields.foldlM (absorb schema) s = rest.foldlM (absorb schema) s' := by
  induction h generalizing fields with
  | nil s => exact ⟨fields, shown, rfl⟩
  | @cons s s₁ s₂ d ds head tail ih =>
    cases shown with
    | @cons _ f _ fields first others =>
      obtain ⟨rest, hrest, hfold⟩ := ih sound.tail others
      refine ⟨rest, hrest, ?_⟩
      rw [List.foldlM_cons, head.2 f (sound.of_mem List.mem_cons_self) first]
      exact hfold

/-- A message that was written from drafts is read as they say. -/
theorem readMessage {ds : List Draft} (h : Leads schema table s ds s') (sound : Sound table ds) :
    Descent.readMessage schema s (.ofBytes (bytes table ds)) = .ok s' := by
  have shown := sound.fields h.numbered
  rw [← List.append_nil ds] at sound
  -- no drafts follow, so no fields are left
  obtain ⟨rest, hrest, hfold⟩ := h.foldlM sound (by rw [List.append_nil]; exact shown)
  cases hrest
  rw [readMessage_eq_foldlM]
  exact hfold

end Leads

/-! ## Drafts that may be refused -/

/-- A value, unless there is a fault. -/
def okUnless {α : Type} : Option DecodeError → α → Except DecodeError α
  | some e, _ => .error e
  | none, a => .ok a

/-- A sound draft is refused behind what was read so far. -/
def Refuses (schema : Schema σ) (table : List String) (s : σ) (d : Draft) (e : DecodeError) : Prop :=
  ∀ f, Sound table [d] → (d.write table).Shows f → absorb schema s f = .error e

/-- A draft whose key is refused is refused. -/
lemma refuses_key {d : Draft} {e : DecodeError} (h : schema d.key = .error e) :
    Refuses schema table s d e := by
  rintro _ - ⟨key, offset, payload, hcontent, rfl⟩
  rw [content?_write] at hcontent
  cases hcontent
  rw [absorb, h]
  rfl

/-- A nested message that cannot be read is refused. -/
lemma refuses_message {α : Type} {n : UInt32} {body : List Draft} {e : DecodeError}
    {read : List UInt8 → Except DecodeError α} (g : σ → α → σ)
    (hschema : schema ⟨n, .lengthDelimited⟩ = .ok (.message fun s m => return g s (← read m)))
    (hread : Sound table body → read (bytes table body) = .error e) :
    Refuses schema table s (.message n body) e := by
  rintro _ sound ⟨key, offset, payload, hcontent, rfl⟩
  rw [content?_write] at hcontent
  cases hcontent
  change schema ⟨n, .lengthDelimited⟩ >>= _ = _
  rw [hschema]
  show read (bytes table body) >>= _ = _
  rw [hread sound.body]
  rfl

/-- What sound drafts come to, one after the other: the fault of the first that is refused, and
without one what they lead to. -/
inductive Comes (schema : Schema σ) (table : List String) :
    σ → List Draft → Except DecodeError σ → Prop where
  | done {s s' : σ} {ds : List Draft} (leads : Leads schema table s ds s') :
    Comes schema table s ds (.ok s')
  | stopped {s s' : σ} {ds es : List Draft} {d : Draft} {e : DecodeError}
    (leads : Leads schema table s ds s') (refused : Refuses schema table s' d e) :
    Comes schema table s (ds ++ d :: es) (.error e)

namespace Comes

variable {ds es : List Draft} {r : Except DecodeError σ}

/-- What comes behind drafts that were absorbed comes of them all. -/
lemma behind (h : Leads schema table s ds s') (h' : Comes schema table s' es r) :
    Comes schema table s (ds ++ es) r := by
  cases h' with
  | done leads => exact .done (h.append leads)
  | stopped leads refused =>
    rw [← List.append_assoc]
    exact .stopped (h.append leads) refused

/-- Drafts with a fault each, if there is one. -/
lemma append {s₁ s₂ : σ} {fault fault' : Option DecodeError}
    (h : Comes schema table s ds (okUnless fault s₁))
    (h' : Comes schema table s₁ es (okUnless fault' s₂)) :
    Comes schema table s (ds ++ es) (okUnless (fault.or fault') s₂) := by
  cases fault with
  | none =>
    cases h with
    | done leads => exact behind leads h'
  | some e =>
    cases h with
    | stopped leads refused =>
      rw [List.append_assoc, List.cons_append]
      exact .stopped leads refused

/-- A message that was written from drafts is read as they say. -/
theorem readMessage (h : Comes schema table s ds r) (numbered : ∀ d ∈ ds, d.number ≠ 0)
    (sound : Sound table ds) : Descent.readMessage schema s (.ofBytes (bytes table ds)) = r := by
  cases h with
  | done leads => exact leads.readMessage sound
  | @stopped s₁ ds es d e leads refused =>
    obtain ⟨rest, hrest, hfold⟩ := leads.foldlM sound (sound.fields numbered)
    rw [readMessage_eq_foldlM]
    refine hfold.trans ?_
    cases hrest with
    | cons first others =>
      rw [List.foldlM_cons, refused _ (sound.of_mem (List.mem_append_right ds List.mem_cons_self)) first]
      rfl

end Comes

end Descent

end ClassMetadata
