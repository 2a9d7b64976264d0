import Mathlib
import ClassMetadata.Proofs.Declaration.Agreement
import ClassMetadata.Proofs.Encoding.Message

/-!
# Classes that survive being written

Which classes are decoded to themselves after they were encoded.

* `Recoverable` is the condition, told from the class alone, and `recovers_iff` says that it is
  necessary and sufficient, whatever the header says beside the class.
* `build_round_trips` is about classes that were built: it is enough that they are `Writable`.
* `rewriting_recovers_iff` is about classes that were decoded before: not all of them can be
  rewritten without loss (`rewriting_loses`).
-/

namespace ClassMetadata

namespace ClassDecl

/-- The class can be told from its message and string table. -/
structure Recoverable (c : ClassDecl) : Prop where
  /-- No function bears the name of constructors. -/
  functions_named : ∀ f ∈ c.functions, f.name ≠ FunctionDecl.constructorName
  /-- Every method signature contains a parenthesis and something in front of it; or the member has
  the empty name, which then stands in front of whatever there is. -/
  members_split : ∀ f ∈ c.members, ∀ s, f.signature = some s → Splits '(' s ∨ f.name = ""
  /-- Every field signature contains a colon and something in front of it; or it starts with a colon
  and the property has the empty name. -/
  fields_split : ∀ p ∈ c.properties, ∀ s, p.fieldSignature = some s →
    Splits ':' s ∨ s.toList.head? = some ':' ∧ p.name = ""
  /-- The signature of every accessor contains a parenthesis and something in front of it. -/
  accessors_split : ∀ p ∈ c.properties, ∀ s, p.getterSignature = some s ∨
    p.setterSignature = some s ∨ p.carrierSignature = some s → Splits '(' s
  /-- Signatures find their members as if constructors had been added before functions, once each. -/
  lookup : ∀ s, c.functionBySignature s = c.members.reverse.find? (·.signature == some s)

section

variable (c : ClassDecl)

/-- What a rewritten class is built from, kind by kind. -/
lemma filterMap_rewrites {β : Type} (g : Edit → Option β) : c.rewrites.filterMap g =
    (g (.flags c.flags)).toList ++ (g (.name c.name)).toList
      ++ (c.companion.bind fun name => g (.companion name)).toList
      ++ c.constructors.filterMap (fun f => g (.constructor f.reread))
      ++ c.functions.filterMap (fun f => g (.function f.reread))
      ++ c.properties.filterMap (fun p => g (.property p.reread)) := by
  have head (e : Edit) (es : List Edit) :
      (e :: es).filterMap g = (g e).toList ++ es.filterMap g := by
    rw [List.filterMap_cons]
    cases g e <;> rfl
  have companion : (c.companion.map Edit.companion).toList.filterMap g =
      (c.companion.bind fun name => g (.companion name)).toList := by
    cases c.companion with
    | none => rfl
    | some name =>
      rw [Option.map_some, Option.toList_some, head, List.filterMap_nil, List.append_nil]
      rfl
  simp only [rewrites, List.filterMap_append, List.filterMap_map, head, companion,
    List.filterMap_nil, List.append_nil]
  rfl

/-- The class that an encoded class is decoded to. -/
def rewritten : ClassDecl := build .default "" c.rewrites

/-- The flags, the name and the companion are not touched. -/
lemma rewritten_eq :
    c.rewritten.flags = c.flags ∧ c.rewritten.name = c.name ∧
      c.rewritten.companion = c.companion := by
  refine ⟨?_, ?_, ?_⟩
  · rw [rewritten, build_flags, filterMap_rewrites]
    cases c.companion <;> simp [Edit.flags?]
  · rw [rewritten, build_name, filterMap_rewrites]
    cases c.companion <;> simp [Edit.name?]
  · rw [rewritten, build_companion, filterMap_rewrites]
    cases c.companion <;> simp [Edit.companion?]

/-- The members are reread; constructors that become equal are one. -/
lemma rewritten_members :
    c.rewritten.constructors = (c.constructors.map FunctionDecl.reread).eraseDups ∧
      c.rewritten.functions = c.functions.map FunctionDecl.reread ∧
      c.rewritten.properties = c.properties.map PropertyDecl.reread := by
  have traces := build_traces .default "" c.rewrites
  refine ⟨?_, ?_, ?_⟩
  · rw [rewritten, traces.constructors_eq, filterMap_rewrites]
    cases c.companion <;> simp [Edit.constructor?, List.filterMap_eq_map']
  · rw [rewritten, traces.functions_eq, filterMap_rewrites]
    cases c.companion <;> simp [Edit.function?, List.filterMap_eq_map']
  · rw [rewritten, traces.properties_eq, filterMap_rewrites]
    cases c.companion <;> simp [Edit.property?, List.filterMap_eq_map']

/-- A signature finds the last of the members as they are reread. -/
lemma rewritten_lookup (s : String) : c.rewritten.functionBySignature s =
    (c.members.map FunctionDecl.reread).reverse.find? (signedBy s) := by
  have traces := build_traces .default "" c.rewrites
  rw [rewritten, traces.functionBySignature_eq, traces.member_last, filterMap_rewrites, members]
  cases c.companion <;> simp [Edit.member?, List.filterMap_eq_map']

end

/-- A list stays the same under a function when its members do. -/
lemma map_eq_self_iff {α : Type} {f : α → α} {l : List α} : l.map f = l ↔ ∀ a ∈ l, f a = a := by
  conv_lhs => rhs; rw [← List.map_id l]
  exact List.map_inj_left

/-- First appearances among the images of distinct members that are these members again. -/
lemma eraseDups_map_eq_self_iff {α : Type} [DecidableEq α] {f : α → α} {l : List α}
    (nodup : l.Nodup) : (l.map f).eraseDups = l ↔ ∀ a ∈ l, f a = a := by
  rw [← map_eq_self_iff]
  refine ⟨fun h => ?_, fun h => ?_⟩
  · have all : (l.map f).eraseDups = l.map f := by
      refine (sublist_eraseDups (l.map f)).eq_of_length ?_
      rw [h, List.length_map]
    rw [← all, h]
  · rw [h, eraseDups_of_nodup nodup]

/-- A rewritten class lists the same when its members are the same after they were reread. -/
lemma lists_rewritten_iff {c : ClassDecl} (nodup : c.constructors.Nodup) :
    Lists c.rewritten c ↔
      (∀ f ∈ c.members, f.reread = f) ∧ ∀ p ∈ c.properties, p.reread = p := by
  obtain ⟨hflags, hname, hcompanion⟩ := c.rewritten_eq
  obtain ⟨hconstructors, hfunctions, hproperties⟩ := c.rewritten_members
  rw [members, List.forall_mem_append, ← eraseDups_map_eq_self_iff nodup, ← map_eq_self_iff,
    ← map_eq_self_iff, ← hconstructors, ← hfunctions, ← hproperties]
  refine ⟨fun h => ⟨⟨h.constructors_eq, h.functions_eq⟩, h.properties_eq⟩, ?_⟩
  rintro ⟨⟨hc, hf⟩, hp⟩
  exact ⟨hflags, hname, hcompanion, hc, hf, hp⟩

/-- A built class whose constructors have their name is decoded to itself after it was encoded when
it is recoverable, and only then. -/
theorem Traces.recovers_iff {edits : List Edit} {c : ClassDecl} (h : Traces edits c)
    (constructors : ∀ f ∈ c.constructors, f.name = FunctionDecl.constructorName)
    {options : EncodeOptions} (hversion : ¬ options.version < .minimumSupported)
    (hsize : c.message.length < 2 ^ 64) :
    (∃ d, (c.encode options).decode .default = .ok d ∧ d.agrees c = true) ↔ c.Recoverable := by
  have traces := build_traces .default "" c.rewrites
  have nodup : c.constructors.Nodup := by
    rw [h.constructors_eq]
    exact nodup_eraseDups _
  refine ⟨?_, fun r => ?_⟩
  · rintro ⟨d, hd, agrees⟩
    -- what is decoded is the rewritten class, and by agreement its members are those of `c`
    have functions : ∀ f ∈ c.functions, f.name ≠ FunctionDecl.constructorName := by
      intro f hf reserved
      rw [c.decode_encode hversion] at hd
      exact not_decodes hf reserved hsize d hd
    rw [decode_encode_eq constructors functions hversion hsize] at hd
    cases hd
    obtain ⟨lists, -, -⟩ := agrees_iff_tables.1 agrees
    obtain ⟨members, properties⟩ := (lists_rewritten_iff nodup).1 lists
    refine ⟨functions, ?_, ?_, ?_, ?_⟩
    · exact fun f hf => FunctionDecl.reread_eq_iff.1 (members f hf)
    · exact fun p hp => (PropertyDecl.reread_eq_iff.1 (properties p hp)).1
    · intro p hp s
      obtain ⟨-, getter, setter, carrier⟩ := PropertyDecl.reread_eq_iff.1 (properties p hp)
      rintro (hs | hs | hs)
      · exact getter s hs
      · exact setter s hs
      · exact carrier s hs
    · intro s
      rw [← traces.lookup_of_agrees h agrees s]
      refine (c.rewritten_lookup s).trans ?_
      rw [map_eq_self_iff.2 members]
      rfl
  · have members : ∀ f ∈ c.members, f.reread = f := fun f hf =>
      FunctionDecl.reread_eq_iff.2 (r.members_split f hf)
    have properties : ∀ p ∈ c.properties, p.reread = p := fun p hp =>
      PropertyDecl.reread_eq_iff.2 ⟨r.fields_split p hp,
        fun s hs => r.accessors_split p hp s (.inl hs),
        fun s hs => r.accessors_split p hp s (.inr (.inl hs)),
        fun s hs => r.accessors_split p hp s (.inr (.inr hs))⟩
    -- the lists are the same, so that only the places of signatures are left to compare
    have lists := (lists_rewritten_iff nodup).2 ⟨members, properties⟩
    have apart : c.rewritten.Apart := by
      intro f hf hf'
      rw [lists.constructors_eq] at hf
      rw [lists.functions_eq] at hf'
      exact r.functions_named f hf' (constructors f hf)
    refine ⟨c.rewritten, decode_encode_eq constructors r.functions_named hversion hsize, ?_⟩
    refine traces.agrees_of_lookup h lists apart fun s => ?_
    rw [r.lookup s]
    refine (c.rewritten_lookup s).trans ?_
    rw [map_eq_self_iff.2 members]
    rfl

/-- What makes a class easy to write: names and signatures say what a member is, and constructors do
not share signatures. -/
structure Writable (c : ClassDecl) : Prop where
  /-- Constructors have their name. -/
  constructors_named : ∀ f ∈ c.constructors, f.name = FunctionDecl.constructorName
  /-- No function has it. -/
  functions_named : ∀ f ∈ c.functions, f.name ≠ FunctionDecl.constructorName
  /-- Every method signature contains a parenthesis and does not start with it. -/
  members_split : ∀ f ∈ c.members, ∀ s, f.signature = some s → Splits '(' s
  /-- The signature of every accessor contains a parenthesis and does not start with it. -/
  accessors_split : ∀ p ∈ c.properties, ∀ s, p.getterSignature = some s ∨
    p.setterSignature = some s ∨ p.carrierSignature = some s → Splits '(' s
  /-- Every field signature contains a colon and does not start with it. -/
  fields_split : ∀ p ∈ c.properties, ∀ s, p.fieldSignature = some s → Splits ':' s
  /-- No constructor has the signature of another. -/
  constructors_distinct : ∀ f ∈ c.constructors, ∀ g ∈ c.constructors, ∀ s,
    f.signature = some s → g.signature = some s → f = g
  /-- No constructor has the signature of a function. -/
  functions_distinct : ∀ f ∈ c.constructors, ∀ g ∈ c.functions, ∀ s,
    f.signature = some s → g.signature ≠ some s

/-- What is easy to write is recoverable. -/
lemma Traces.recoverable {edits : List Edit} {c : ClassDecl} (h : Traces edits c)
    (w : c.Writable) : c.Recoverable where
  functions_named := w.functions_named
  members_split f hf s hs := .inl (w.members_split f hf s hs)
  fields_split p hp s hs := .inl (w.fields_split p hp s hs)
  accessors_split := w.accessors_split
  lookup := h.function_last_of_distinct w.constructors_distinct w.functions_distinct

/-- A class that was built in any way and is easy to write is decoded to itself after it was
encoded, under any options with a supported version. A message that fits into memory is
shorter than a word of 64 bits can count. -/
theorem build_round_trips {flags : Flags} {name : String} {edits : List Edit}
    (h : (build flags name edits).Writable) {options : EncodeOptions}
    (hversion : ¬ options.version < .minimumSupported)
    (hsize : (build flags name edits).message.length < 2 ^ 64) :
    ∃ d, ((build flags name edits).encode options).decode .default = .ok d ∧
      d.agrees (build flags name edits) = true := by
  have traces := build_traces flags name edits
  exact (traces.recovers_iff h.constructors_named hversion hsize).2 (traces.recoverable h)

/-- A constructor, a function and a property, built in an order in which they are not written. -/
def pointEdits : List Edit :=
  [.property ⟨.defaultProperty, "x", some .default, none, some "x:I", some "getX()I", none, none⟩,
    .function ⟨.default, "norm", some "norm()D", []⟩,
    .companion "Companion",
    .constructor ⟨.default, "<init>", some "<init>(I)V", [⟨.zero, "x"⟩]⟩]

/-- They come back out of seven-bit units. -/
theorem build_round_trips_point :
    ∃ d, ((build .default "Point" pointEdits).encode
        ⟨⟨1, 1, 0⟩, .septets, "xs", some "p", some (-1)⟩).decode .default = .ok d ∧
      d.agrees (build .default "Point" pointEdits) = true := by
  refine build_round_trips ⟨?_, ?_, ?_, ?_, ?_, ?_, ?_⟩ (by decide) (by cbv)
  · intro f hf
    cases List.mem_singleton.1 hf
    rfl
  · intro f hf
    cases List.mem_singleton.1 hf
    decide
  · intro f hf s hs
    rcases List.mem_pair.1 hf with rfl | rfl <;> cases hs <;> decide
  · intro p hp s hs
    cases List.mem_singleton.1 hp
    rcases hs with hs | hs | hs <;> cases hs
    decide
  · intro p hp s hs
    cases List.mem_singleton.1 hp
    cases hs
    decide
  · intro f hf g hg s _ _
    cases List.mem_singleton.1 hf
    cases List.mem_singleton.1 hg
    rfl
  · intro f hf g hg s hs
    cases List.mem_singleton.1 hf
    cases List.mem_singleton.1 hg
    cases hs
    decide

end ClassDecl

namespace Header

/-- A class that a header describes was built from edits, and its constructors have their name. -/
lemma built_of_decode {header : Header} {settings : Settings} {c : ClassDecl}
    (h : header.decode settings = .ok c) : ∃ edits, c = .build .default "" edits ∧
      ∀ f ∈ c.constructors, f.name = FunctionDecl.constructorName := by
  rw [decode] at h
  split at h
  · cases h
  · obtain ⟨message, -, h⟩ := ok_of_bind h
    exact Descent.built_of_decodeMessage _ h

/-- A class that was decoded can be rewritten without loss when it is recoverable, and only then.
A message that fits into memory is shorter than a word of 64 bits can count. -/
theorem rewriting_recovers_iff {header : Header} {settings : Settings} {c : ClassDecl}
    (h : header.decode settings = .ok c) {options : EncodeOptions}
    (hversion : ¬ options.version < .minimumSupported) (hsize : c.message.length < 2 ^ 64) :
    (∃ d, (c.encode options).decode .default = .ok d ∧ d.agrees c = true) ↔ c.Recoverable := by
  obtain ⟨edits, rfl, constructors⟩ := built_of_decode h
  exact (ClassDecl.build_traces .default "" edits).recovers_iff constructors hversion hsize

/-- A function whose host method has the empty name. -/
def emptyHostName : Header where
  kind := .classFile
  version := .current
  data := ["\x00\x18\x00\x4a\x09\x10\x01\xa2\x06\x04\x08\x02\x10\x03"]
  strings := ["A", "foo", "", "()V"]
  extraString := ""
  packageName := none
  extraInt := none

/-- The class that it describes. -/
def emptyHostClass : ClassDecl :=
  .build .default "" [.name "A", .function ⟨.default, "foo", some "()V", []⟩]

/-- It is not recoverable, and so no way to rewrite it keeps it. -/
theorem rewriting_recovers_iff_emptyHostName :
    emptyHostName.decode .default = .ok emptyHostClass ∧
      ¬ EncodeOptions.default.version < .minimumSupported ∧
      ¬ ∃ d, (emptyHostClass.encode .default).decode .default = .ok d ∧
        d.agrees emptyHostClass = true := by
  have decoded : emptyHostName.decode .default = .ok emptyHostClass := by cbv
  refine ⟨decoded, by decide, ?_⟩
  rw [rewriting_recovers_iff decoded (by decide) (by cbv)]
  intro r
  have split := r.members_split ⟨.default, "foo", some "()V", []⟩ List.mem_cons_self "()V" rfl
  revert split
  decide

/-- The empty name is lost: in its place the function provides its own. -/
theorem rewriting_loses :
    ¬ EncodeOptions.default.version < .minimumSupported ∧
      ∃ c d, emptyHostName.decode .default = .ok c ∧
        (c.encode .default).decode .default = .ok d ∧
        c.functions.map (·.signature) = [some "()V"] ∧
        d.functions.map (·.signature) = [some "foo()V"] ∧ d.agrees c = false := by
  refine ⟨by decide, emptyHostClass,
    .build .default "" [.name "A", .function ⟨.default, "foo", some "foo()V", []⟩], ?_, ?_, ?_, ?_, ?_⟩
  · cbv
  · cbv
  · rfl
  · rfl
  · decide

end Header

end ClassMetadata
