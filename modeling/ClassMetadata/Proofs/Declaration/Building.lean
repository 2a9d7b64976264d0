import Mathlib.Data.List.Induction
import ClassMetadata.Declaration.Class
import ClassMetadata.Proofs.Declaration.SignatureTable

/-!
# What a built class answers

A class is built by a list of edits. What it lists and what its tables answer can be told from that
list alone, without the tables: a signature belongs to what was added last under it.

* `Traces` relates a class to the edits that built it, slot by slot. One edit keeps it
  (`Traces.edit`), so every class that was built has it (`build_traces`).
* `memberAt?_offset`: a slot that is in use and its offset lead to the same member, however many
  constructors were added after the slot was given out.
* `build_reflects` says the same in the terms of someone who looks at the class.
-/

namespace ClassMetadata

/-- The position of the last member of a list with a property. -/
def lastIndex? {α : Type} (p : α → Bool) (l : List α) : Option Nat :=
  (l.reverse.findIdx? p).map (l.length - 1 - ·)

/-- One more member comes last, if it has the property. -/
lemma lastIndex?_concat {α : Type} (p : α → Bool) (l : List α) (a : α) :
    lastIndex? p (l ++ [a]) = if p a then some l.length else lastIndex? p l := by
  rw [lastIndex?, List.reverse_append, List.reverse_singleton, List.singleton_append,
    List.findIdx?_cons, List.length_append, List.length_singleton]
  by_cases h : p a
  · simp [h]
  · have shift : (fun i => l.length + 1 - 1 - i) ∘ (· + 1) = (l.length - 1 - ·) := by
      funext i
      show l.length + 1 - 1 - (i + 1) = l.length - 1 - i
      omega
    rw [if_neg h, if_neg h, Option.map_map, shift]
    rfl

/-- What stands at the last position is what is found first from the end. -/
lemma bind_lastIndex? {α : Type} (p : α → Bool) (l : List α) :
    (lastIndex? p l).bind (l[·]?) = l.reverse.find? p := by
  rw [lastIndex?, List.find?_eq_bind_findIdx?_getElem?]
  cases h : l.reverse.findIdx? p with
  | none => rfl
  | some i =>
    obtain ⟨hi, -⟩ := List.findIdx?_eq_some_iff_getElem.1 h
    rw [List.length_reverse] at hi
    exact (List.getElem?_reverse hi).symm

/-- A member with the property stands at the last position. -/
lemma exists_of_lastIndex? {α : Type} {p : α → Bool} {l : List α} {i : Nat}
    (h : lastIndex? p l = some i) : ∃ a, l[i]? = some a ∧ p a := by
  have found := bind_lastIndex? p l
  rw [h, Option.bind_some] at found
  obtain ⟨j, hj, e⟩ := Option.map_eq_some_iff.1 h
  obtain ⟨hj, -⟩ := List.findIdx?_eq_some_iff_getElem.1 hj
  rw [List.length_reverse] at hj
  have hi : i < l.length := by omega
  rw [List.getElem?_eq_getElem hi] at found ⊢
  exact ⟨l[i], rfl, List.find?_some found.symm⟩

/-- What stands in a list stays there when the list grows at its end. -/
lemma getElem?_of_prefix {α : Type} {l l' : List α} (h : l <+: l') {i : Nat} {a : α}
    (hi : l[i]? = some a) : l'[i]? = some a := by
  obtain ⟨t, rfl⟩ := h
  obtain ⟨hlt, -⟩ := List.getElem?_eq_some_iff.1 hi
  rw [List.getElem?_append_left hlt]
  exact hi

/-- A last member that makes nothing adds nothing. -/
lemma filterMap_concat_none {α β : Type} {g : α → Option β} {a : α} (l : List α)
    (h : g a = none) : (l ++ [a]).filterMap g = l.filterMap g := by
  simp [List.filterMap_append, h]

/-- A last member that makes something adds it at the end. -/
lemma filterMap_concat_some {α β : Type} {g : α → Option β} {a : α} {b : β} (l : List α)
    (h : g a = some b) : (l ++ [a]).filterMap g = l.filterMap g ++ [b] := by
  simp [List.filterMap_append, h]

namespace ClassDecl

/-! ## What an edit sets or adds -/

namespace Edit

/-- The flags that an edit sets. -/
def flags? : Edit → Option Flags
  | flags f => some f
  | _ => none

/-- The name that an edit sets. -/
def name? : Edit → Option String
  | name n => some n
  | _ => none

/-- The companion that an edit sets. -/
def companion? : Edit → Option String
  | companion n => some n
  | _ => none

/-- The constructor that an edit adds. -/
def constructor? : Edit → Option FunctionDecl
  | constructor f => some f
  | _ => none

/-- The function that an edit adds. -/
def function? : Edit → Option FunctionDecl
  | function f => some f
  | _ => none

/-- The constructor or function that an edit adds. -/
def member? : Edit → Option FunctionDecl
  | constructor f | function f => some f
  | _ => none

/-- The property that an edit adds. -/
def property? : Edit → Option PropertyDecl
  | property p => some p
  | _ => none

end Edit

/-! ## Classes and the edits that built them -/

/-- The member has this signature. -/
def signedBy (signature : String) (f : FunctionDecl) : Bool := f.signature == some signature

/-- The property has this field signature. -/
def storedIn (signature : String) (p : PropertyDecl) : Bool := p.fieldSignature == some signature

/-- A member has a signature when that is the one it was declared with. -/
lemma signedBy_iff {s : String} {f : FunctionDecl} : signedBy s f ↔ f.signature = some s :=
  beq_iff_eq

/-- A property has a field signature when that is the one it was declared with. -/
lemma storedIn_iff {s : String} {p : PropertyDecl} : storedIn s p ↔ p.fieldSignature = some s :=
  beq_iff_eq

/-- The slot may have the signature: a constructor with it, or the last function with it. -/
def Holds (c : ClassDecl) (signature : String) : Slot → Prop
  | .constructor i => ∃ f, c.constructors[i]? = some f ∧ signedBy signature f
  | .function i => lastIndex? (signedBy signature) c.functions = some i

/-- A class slot by slot, told from the edits that built it. -/
structure Traces (edits : List Edit) (c : ClassDecl) : Prop where
  constructors_eq : c.constructors = (edits.filterMap Edit.constructor?).eraseDups
  functions_eq : c.functions = edits.filterMap Edit.function?
  properties_eq : c.properties = edits.filterMap Edit.property?
  functionKeys_eq : c.functionTable.keys =
    ((edits.filterMap Edit.member?).filterMap FunctionDecl.signature).eraseDups
  holds : ∀ s slot, c.functionTable.get? s = some slot → c.Holds s slot
  member_last : ∀ s, (c.functionTable.get? s).bind c.member? =
    (edits.filterMap Edit.member?).reverse.find? (signedBy s)
  fieldKeys_eq : c.fieldTable.keys = (c.properties.filterMap PropertyDecl.fieldSignature).eraseDups
  field_last : ∀ s, c.fieldTable.get? s = lastIndex? (storedIn s) c.properties

/-- A slot that may have a signature holds a member with it. -/
lemma Holds.exists_member {c : ClassDecl} {s : String} {slot : Slot} (h : c.Holds s slot) :
    ∃ f, c.member? slot = some f ∧ signedBy s f := by
  cases slot with
  | constructor i => exact h
  | function i => exact exists_of_lastIndex? h

/-- Nothing is traced to no edits. -/
lemma empty_traces (flags : Flags) (name : String) : Traces [] (empty flags name) where
  constructors_eq := rfl
  functions_eq := rfl
  properties_eq := rfl
  functionKeys_eq := rfl
  holds := nofun
  member_last _ := rfl
  fieldKeys_eq := rfl
  field_last _ := rfl

/-- An edit that adds nothing and leaves lists and tables alone keeps the trace. -/
lemma Traces.silent {edits : List Edit} {c d : ClassDecl} {e : Edit} (h : Traces edits c)
    (nothing : e.constructor? = none ∧ e.function? = none ∧ e.member? = none ∧ e.property? = none)
    (lists : d.constructors = c.constructors ∧ d.functions = c.functions ∧
      d.properties = c.properties)
    (tables : d.functionTable = c.functionTable ∧ d.fieldTable = c.fieldTable) :
    Traces (edits ++ [e]) d := by
  obtain ⟨hc, hf, hm, hp⟩ := nothing
  obtain ⟨ec, ef, ep⟩ := lists
  obtain ⟨et, eu⟩ := tables
  have same : d.member? = c.member? := by
    funext slot
    cases slot <;> simp [member?, ec, ef]
  have holds : d.Holds = c.Holds := by
    funext s slot
    cases slot <;> simp [Holds, ec, ef]
  refine ⟨?_, ?_, ?_, ?_, ?_, ?_, ?_, ?_⟩
  · rw [filterMap_concat_none edits hc, ec]
    exact h.constructors_eq
  · rw [filterMap_concat_none edits hf, ef]
    exact h.functions_eq
  · rw [filterMap_concat_none edits hp, ep]
    exact h.properties_eq
  · rw [filterMap_concat_none edits hm, et]
    exact h.functionKeys_eq
  · rw [et, holds]
    exact h.holds
  · rw [filterMap_concat_none edits hm, et, same]
    exact h.member_last
  · rw [eu, ep]
    exact h.fieldKeys_eq
  · rw [eu, ep]
    exact h.field_last

/-- A slot that is in use keeps its member when lists grow at their ends. -/
lemma member?_of_prefix {c d : ClassDecl} (hc : c.constructors <+: d.constructors)
    (hf : c.functions <+: d.functions) {slot : Slot} {f : FunctionDecl}
    (h : c.member? slot = some f) : d.member? slot = some f := by
  cases slot with
  | constructor i => exact getElem?_of_prefix hc h
  | function i => exact getElem?_of_prefix hf h

/-- A member that is put into a slot under its signature is the last one with that signature. -/
lemma Traces.member_last_insert {edits : List Edit} {c d : ClassDecl} {e : Edit} {f : FunctionDecl}
    {slot : Slot} (h : Traces edits c) (he : e.member? = some f)
    (hc : c.constructors <+: d.constructors) (hf : c.functions <+: d.functions)
    (table : d.functionTable = c.functionTable.insert? f.signature slot)
    (placed : d.member? slot = some f) (s : String) :
    (d.functionTable.get? s).bind d.member? =
      ((edits ++ [e]).filterMap Edit.member?).reverse.find? (signedBy s) := by
  rw [filterMap_concat_some edits he, find?_reverse_concat, table, SignatureTable.get?_insert?]
  by_cases hs : f.signature = some s
  · rw [if_pos hs, if_pos (signedBy_iff.2 hs), Option.bind_some, placed]
  · -- another signature keeps its slot, and lists only grow, so the slot keeps its member
    rw [if_neg hs, if_neg (mt signedBy_iff.1 hs), ← h.member_last]
    cases hg : c.functionTable.get? s with
    | none => rfl
    | some slot' =>
      obtain ⟨g, hg', -⟩ := (h.holds s slot' hg).exists_member
      rw [Option.bind_some, Option.bind_some, hg']
      exact member?_of_prefix hc hf hg'

/-- A member that is put into a slot lets its signature appear. -/
lemma Traces.functionKeys_insert {edits : List Edit} {c : ClassDecl} {e : Edit} {f : FunctionDecl}
    (h : Traces edits c) (he : e.member? = some f) (slot : Slot) :
    (c.functionTable.insert? f.signature slot).keys =
      (((edits ++ [e]).filterMap Edit.member?).filterMap FunctionDecl.signature).eraseDups := by
  rw [SignatureTable.keys_insert? h.functionKeys_eq, filterMap_concat_some edits he]
  cases hs : f.signature <;> simp [List.filterMap_append, hs]

/-- A function that is added can be traced. -/
lemma Traces.addFunction {edits : List Edit} {c : ClassDecl} (h : Traces edits c)
    (f : FunctionDecl) : Traces (edits ++ [.function f]) (c.addFunction f) where
  constructors_eq := by
    rw [filterMap_concat_none edits rfl]
    exact h.constructors_eq
  functions_eq := by
    rw [filterMap_concat_some (g := Edit.function?) edits rfl, ← h.functions_eq]
    rfl
  properties_eq := by
    rw [filterMap_concat_none edits rfl]
    exact h.properties_eq
  functionKeys_eq := h.functionKeys_insert rfl _
  holds := by
    intro s slot hs
    rw [ClassDecl.addFunction, SignatureTable.get?_insert?] at hs
    by_cases hsig : f.signature = some s
    · rw [if_pos hsig] at hs
      cases hs
      show lastIndex? (signedBy s) (c.functions ++ [f]) = some c.functions.length
      rw [lastIndex?_concat, if_pos (signedBy_iff.2 hsig)]
    · rw [if_neg hsig] at hs
      have old := h.holds s slot hs
      cases slot with
      | constructor i => exact old
      | function i =>
        -- the new function does not bear `s`, so the last one that does is still the same
        show lastIndex? (signedBy s) (c.functions ++ [f]) = some i
        rw [lastIndex?_concat, if_neg (mt signedBy_iff.1 hsig)]
        exact old
  member_last :=
    h.member_last_insert rfl (List.prefix_refl _) (List.prefix_append _ _) rfl
      (by simp [member?, ClassDecl.addFunction])
  fieldKeys_eq := h.fieldKeys_eq
  field_last := h.field_last

/-- The slot of an added constructor holds it, whether the class had an equal one or not. -/
lemma getElem?_addConstructor (c : ClassDecl) (f : FunctionDecl) :
    (c.addConstructor f).constructors[c.constructors.idxOf f]? = some f := by
  by_cases hf : f ∈ c.constructors
  · simp [ClassDecl.addConstructor, hf]
  · simp [ClassDecl.addConstructor, hf]

/-- A constructor that is added can be traced, also if it was there before. -/
lemma Traces.addConstructor {edits : List Edit} {c : ClassDecl} (h : Traces edits c)
    (f : FunctionDecl) : Traces (edits ++ [.constructor f]) (c.addConstructor f) := by
  have grows : c.constructors <+: (c.addConstructor f).constructors := by
    show c.constructors <+: if f ∈ c.constructors then c.constructors else c.constructors ++ [f]
    split
    · exact List.prefix_refl _
    · exact List.prefix_append _ _
  -- an equal constructor takes its signature back, although the list stays as it is
  have placed := getElem?_addConstructor c f
  refine ⟨?_, ?_, ?_, ?_, ?_, ?_, h.fieldKeys_eq, h.field_last⟩
  · show (if f ∈ c.constructors then c.constructors else c.constructors ++ [f]) = _
    rw [filterMap_concat_some (g := Edit.constructor?) edits rfl, eraseDups_concat,
      h.constructors_eq]
    simp only [List.mem_eraseDups]
  · rw [filterMap_concat_none edits rfl]
    exact h.functions_eq
  · rw [filterMap_concat_none edits rfl]
    exact h.properties_eq
  · exact h.functionKeys_insert rfl _
  · intro s slot hs
    rw [ClassDecl.addConstructor, SignatureTable.get?_insert?] at hs
    by_cases hsig : f.signature = some s
    · rw [if_pos hsig] at hs
      cases hs
      exact ⟨f, placed, signedBy_iff.2 hsig⟩
    · rw [if_neg hsig] at hs
      have old := h.holds s slot hs
      cases slot with
      | constructor i =>
        obtain ⟨g, hg, hsg⟩ := old
        exact ⟨g, getElem?_of_prefix grows hg, hsg⟩
      | function i => exact old
  · exact h.member_last_insert rfl grows (List.prefix_refl _) rfl placed

/-- A property that is added can be traced. -/
lemma Traces.addProperty {edits : List Edit} {c : ClassDecl} (h : Traces edits c)
    (p : PropertyDecl) : Traces (edits ++ [.property p]) (c.addProperty p) where
  constructors_eq := by
    rw [filterMap_concat_none edits rfl]
    exact h.constructors_eq
  functions_eq := by
    rw [filterMap_concat_none edits rfl]
    exact h.functions_eq
  properties_eq := by
    rw [filterMap_concat_some (g := Edit.property?) edits rfl, ← h.properties_eq]
    rfl
  functionKeys_eq := by
    rw [filterMap_concat_none edits rfl]
    exact h.functionKeys_eq
  holds := h.holds
  member_last := by
    rw [filterMap_concat_none edits rfl]
    exact h.member_last
  fieldKeys_eq := by
    show (c.fieldTable.insert? p.fieldSignature c.properties.length).keys =
      ((c.properties ++ [p]).filterMap PropertyDecl.fieldSignature).eraseDups
    rw [SignatureTable.keys_insert? h.fieldKeys_eq]
    cases hs : p.fieldSignature <;> simp [List.filterMap_append, hs]
  field_last := by
    intro s
    show (c.fieldTable.insert? p.fieldSignature c.properties.length).get? s =
      lastIndex? (storedIn s) (c.properties ++ [p])
    rw [SignatureTable.get?_insert?, lastIndex?_concat, h.field_last]
    simp [storedIn]

/-- One more edit can be traced. -/
theorem Traces.edit {edits : List Edit} {c : ClassDecl} (h : Traces edits c) (e : Edit) :
    Traces (edits ++ [e]) (c.edit e) := by
  cases e with
  | flags flags => exact h.silent ⟨rfl, rfl, rfl, rfl⟩ ⟨rfl, rfl, rfl⟩ ⟨rfl, rfl⟩
  | name name => exact h.silent ⟨rfl, rfl, rfl, rfl⟩ ⟨rfl, rfl, rfl⟩ ⟨rfl, rfl⟩
  | companion name => exact h.silent ⟨rfl, rfl, rfl, rfl⟩ ⟨rfl, rfl, rfl⟩ ⟨rfl, rfl⟩
  | constructor f => exact h.addConstructor f
  | function f => exact h.addFunction f
  | property p => exact h.addProperty p

/-- The last edit is made to the class that the others build. -/
lemma build_concat (flags : Flags) (name : String) (edits : List Edit) (e : Edit) :
    build flags name (edits ++ [e]) = (build flags name edits).edit e := by
  rw [build, List.foldl_append]
  rfl

/-- A built class traces the edits that built it. -/
theorem build_traces (flags : Flags) (name : String) (edits : List Edit) :
    Traces edits (build flags name edits) := by
  induction edits using List.reverseRecOn with
  | nil => exact empty_traces flags name
  | append_singleton edits e ih =>
    rw [build_concat]
    exact ih.edit e

/-- What only the edits of one kind set is as the last of them has set it. -/
lemma build_last {α β : Type} (view : ClassDecl → α) (set? : Edit → Option β) (value : β → α)
    (step : ∀ c e, view (c.edit e) = ((set? e).map value).getD (view c)) (flags : Flags)
    (name : String) (edits : List Edit) : view (build flags name edits) =
      ((edits.filterMap set?).getLast?.map value).getD (view (empty flags name)) := by
  induction edits using List.reverseRecOn with
  | nil => rfl
  | append_singleton edits e ih =>
    rw [build_concat, step]
    cases he : set? e with
    | none =>
      rw [filterMap_concat_none edits he]
      exact ih
    | some b =>
      rw [filterMap_concat_some edits he, List.getLast?_concat]
      rfl

/-- Of flags that were set the last count. -/
lemma build_flags (flags : Flags) (name : String) (edits : List Edit) :
    (build flags name edits).flags = (edits.filterMap Edit.flags?).getLast?.getD flags := by
  have last := build_last ClassDecl.flags Edit.flags? id (fun c e => by cases e <;> rfl)
    flags name edits
  rw [last, Option.map_id]
  rfl

/-- The last name counts, and without one the class keeps that it began with. -/
lemma build_name (flags : Flags) (name : String) (edits : List Edit) :
    (build flags name edits).name = (edits.filterMap Edit.name?).getLast?.getD name := by
  have last := build_last ClassDecl.name Edit.name? id (fun c e => by cases e <;> rfl)
    flags name edits
  rw [last, Option.map_id]
  rfl

/-- The last companion counts. -/
lemma build_companion (flags : Flags) (name : String) (edits : List Edit) :
    (build flags name edits).companion = (edits.filterMap Edit.companion?).getLast? := by
  have last := build_last ClassDecl.companion Edit.companion? some
    (fun c e => by cases e <;> rfl) flags name edits
  rw [last]
  cases (edits.filterMap Edit.companion?).getLast? <;> rfl

/-! ## Slots and offsets -/

/-- A slot that is in use and its offset lead to the same member. -/
lemma memberAt?_offset {c : ClassDecl} {slot : Slot} {f : FunctionDecl}
    (h : c.member? slot = some f) : c.memberAt? (slot.offset c.constructors.length) = some f := by
  cases slot with
  | constructor i =>
    obtain ⟨hi, -⟩ := List.getElem?_eq_some_iff.1 h
    rw [Slot.offset, memberAt?, if_pos hi]
    exact h
  | function i =>
    -- all constructors are counted before, also those that were added after the slot was given out
    have hi : ¬ c.constructors.length + i < c.constructors.length := by omega
    rw [Slot.offset, memberAt?, if_neg hi, Nat.add_sub_cancel_left]
    exact h

/-- A signature finds the member in the slot that it has. -/
lemma functionBySignature_of_slot {c : ClassDecl} {s : String} {slot : Slot} {f : FunctionDecl}
    (hs : c.functionTable.get? s = some slot) (hf : c.member? slot = some f) :
    c.functionBySignature s = some f := by
  rw [functionBySignature, offsets, SignatureTable.get?_map, hs]
  exact memberAt?_offset hf

/-- A constructor that is added is found by its signature, also if it was there before. -/
lemma functionBySignature_addConstructor (c : ClassDecl) {f : FunctionDecl} {s : String}
    (h : f.signature = some s) : (c.addConstructor f).functionBySignature s = some f := by
  have slot : (c.addConstructor f).functionTable.get? s =
      some (.constructor (c.constructors.idxOf f)) :=
    (SignatureTable.get?_insert? ..).trans (if_pos h)
  refine functionBySignature_of_slot slot ?_
  show (if f ∈ c.constructors then c.constructors else c.constructors ++ [f])[_]? = some f
  by_cases known : f ∈ c.constructors
  · rw [if_pos known]
    exact List.getElem?_idxOf known
  · rw [if_neg known, List.idxOf_of_notMem known, List.getElem?_concat_length]

/-- A function that is added is found by its signature. -/
lemma functionBySignature_addFunction (c : ClassDecl) {f : FunctionDecl} {s : String}
    (h : f.signature = some s) : (c.addFunction f).functionBySignature s = some f := by
  have slot : (c.addFunction f).functionTable.get? s = some (.function c.functions.length) :=
    (SignatureTable.get?_insert? ..).trans (if_pos h)
  exact functionBySignature_of_slot slot List.getElem?_concat_length

/-- A property that is added is found by its field signature. -/
lemma propertyByField_addProperty (c : ClassDecl) {p : PropertyDecl} {s : String}
    (h : p.fieldSignature = some s) : (c.addProperty p).propertyByField s = some p := by
  have position : (c.addProperty p).fieldTable.get? s = some c.properties.length :=
    (SignatureTable.get?_insert? ..).trans (if_pos h)
  rw [propertyByField, position]
  exact List.getElem?_concat_length

/-- An offset that leads to a member lies within the two lists. -/
lemma lt_of_memberAt? {c : ClassDecl} {n : Nat} {f : FunctionDecl} (h : c.memberAt? n = some f) :
    n < c.constructors.length + c.functions.length := by
  rw [memberAt?] at h
  split at h
  · omega
  · obtain ⟨hi, -⟩ := List.getElem?_eq_some_iff.1 h
    omega

namespace Traces

variable {edits : List Edit} {c : ClassDecl}

/-- No signature stands twice in the table of functions. -/
lemma functionKeys_nodup (h : Traces edits c) : c.functionTable.keys.Nodup := by
  rw [h.functionKeys_eq]
  exact nodup_eraseDups _

/-- No signature stands twice in the table of fields. -/
lemma fieldKeys_nodup (h : Traces edits c) : c.fieldTable.keys.Nodup := by
  rw [h.fieldKeys_eq]
  exact nodup_eraseDups _

/-- Every slot in the table of functions holds a member with its signature. -/
lemma member_of_entry (h : Traces edits c) {s : String} {slot : Slot}
    (hs : (s, slot) ∈ c.functionTable.entries) :
    ∃ f, c.member? slot = some f ∧ f.signature = some s := by
  obtain ⟨f, hf, hsig⟩ :=
    (h.holds s slot ((SignatureTable.get?_eq_some_iff h.functionKeys_nodup).2 hs)).exists_member
  exact ⟨f, hf, signedBy_iff.1 hsig⟩

/-- Every offset leads to a member with its signature. -/
lemma member_of_offset (h : Traces edits c) {s : String} {n : Nat}
    (hs : (s, n) ∈ c.offsets.entries) : ∃ f, c.memberAt? n = some f ∧ f.signature = some s := by
  obtain ⟨⟨t, slot⟩, hslot, e⟩ := List.mem_map.1 hs
  cases e
  obtain ⟨f, hf, hsig⟩ := h.member_of_entry hslot
  exact ⟨f, memberAt?_offset hf, hsig⟩

/-- Every position in the table of fields leads to a property with its field signature. -/
lemma property_of_entry (h : Traces edits c) {s : String} {n : Nat}
    (hs : (s, n) ∈ c.fieldTable.entries) :
    ∃ p, c.properties[n]? = some p ∧ p.fieldSignature = some s := by
  rw [← SignatureTable.get?_eq_some_iff h.fieldKeys_nodup, h.field_last] at hs
  obtain ⟨p, hp, hsig⟩ := exists_of_lastIndex? hs
  exact ⟨p, hp, storedIn_iff.1 hsig⟩

/-- Looking up a signature finds the member in its slot. -/
lemma functionBySignature_eq (h : Traces edits c) (s : String) :
    c.functionBySignature s = (c.functionTable.get? s).bind c.member? := by
  rw [functionBySignature, offsets, SignatureTable.get?_map]
  cases hs : c.functionTable.get? s with
  | none => rfl
  | some slot =>
    obtain ⟨f, hf, -⟩ := (h.holds s slot hs).exists_member
    rw [Option.map_some, Option.bind_some, Option.bind_some, hf]
    exact memberAt?_offset hf

/-- Looking up a field signature finds the last property that has it. -/
lemma propertyByField_eq (h : Traces edits c) (s : String) :
    c.propertyByField s = c.properties.reverse.find? (storedIn s) := by
  rw [propertyByField, h.field_last, bind_lastIndex?]

/-- No signature has two offsets. -/
lemma offsets_nodup (h : Traces edits c) : c.offsets.keys.Nodup := by
  rw [offsets, SignatureTable.keys_map]
  exact h.functionKeys_nodup

/-- The signatures are listed in order of first appearance. -/
lemma functionsBySignature_keys (h : Traces edits c) : c.functionsBySignature.map Prod.fst =
    ((edits.filterMap Edit.member?).filterMap FunctionDecl.signature).eraseDups := by
  rw [functionsBySignature, SignatureTable.keys_of_listing, offsets, SignatureTable.keys_map]
  · exact h.functionKeys_eq
  · intro s n hs
    obtain ⟨f, hf, -⟩ := h.member_of_offset hs
    exact ⟨f, hf⟩

/-- The field signatures are listed in order of first appearance. -/
lemma propertiesByField_keys (h : Traces edits c) : c.propertiesByField.map Prod.fst =
    (c.properties.filterMap PropertyDecl.fieldSignature).eraseDups := by
  rw [propertiesByField, SignatureTable.keys_of_listing, h.fieldKeys_eq]
  intro s n hs
  obtain ⟨p, hp, -⟩ := h.property_of_entry hs
  exact ⟨p, hp⟩

/-- What is listed under a signature is what the signature finds. -/
lemma functionBySignature_of_mem (h : Traces edits c) {s : String} {f : FunctionDecl}
    (hs : (s, f) ∈ c.functionsBySignature) : c.functionBySignature s = some f := by
  obtain ⟨⟨t, n⟩, hn, e⟩ := List.mem_filterMap.1 hs
  obtain ⟨g, hg, e⟩ := Option.map_eq_some_iff.1 e
  cases e
  rw [functionBySignature, (SignatureTable.get?_eq_some_iff h.offsets_nodup).2 hn]
  exact hg

/-- What is listed under a field signature is what that finds. -/
lemma propertyByField_of_mem (h : Traces edits c) {s : String} {p : PropertyDecl}
    (hs : (s, p) ∈ c.propertiesByField) : c.propertyByField s = some p := by
  obtain ⟨⟨t, n⟩, hn, e⟩ := List.mem_filterMap.1 hs
  obtain ⟨q, hq, e⟩ := Option.map_eq_some_iff.1 e
  cases e
  rw [propertyByField, (SignatureTable.get?_eq_some_iff h.fieldKeys_nodup).2 hn]
  exact hq

end Traces

/-- What a class answers to someone who looks at it, told from the edits that built it from an empty
class with these flags and this name. -/
structure Reflects (flags : Flags) (name : String) (edits : List Edit) (c : ClassDecl) : Prop where
  /-- Of flags that were set the last count. -/
  flags_eq : c.flags = (edits.filterMap Edit.flags?).getLast?.getD flags
  /-- Of names that were set the last counts. -/
  name_eq : c.name = (edits.filterMap Edit.name?).getLast?.getD name
  /-- Of companions that were named the last counts. -/
  companion_eq : c.companion = (edits.filterMap Edit.companion?).getLast?
  /-- The functions are those that were added, in order. -/
  functions_eq : c.functions = edits.filterMap Edit.function?
  /-- The properties are those that were added, in order. -/
  properties_eq : c.properties = edits.filterMap Edit.property?
  /-- Of equal constructors the first counts, and they stand in order of first occurrence. -/
  constructors_eq : c.constructors = (edits.filterMap Edit.constructor?).eraseDups
  /-- A signature finds what was added last under it, and nothing if nothing was. -/
  function_last : ∀ s, c.functionBySignature s =
    (edits.filterMap Edit.member?).reverse.find? (·.signature == some s)
  /-- A field signature finds the property that was added last under it. -/
  property_last : ∀ s, c.propertyByField s =
    (edits.filterMap Edit.property?).reverse.find? (·.fieldSignature == some s)
  /-- The signatures are listed once each, in order of first appearance. -/
  functions_listed : c.functionsBySignature.map Prod.fst =
    ((edits.filterMap Edit.member?).filterMap (·.signature)).eraseDups
  /-- The field signatures are listed once each, in order of first appearance. -/
  properties_listed : c.propertiesByField.map Prod.fst =
    ((edits.filterMap Edit.property?).filterMap (·.fieldSignature)).eraseDups
  /-- What is listed under a signature is what the signature finds. -/
  function_of_listed : ∀ s f, (s, f) ∈ c.functionsBySignature → c.functionBySignature s = some f
  /-- What is listed under a field signature is what the signature finds. -/
  property_of_listed : ∀ s p, (s, p) ∈ c.propertiesByField → c.propertyByField s = some p
  /-- While the class is built, every slot is in use by a member with its signature. -/
  slot_valid : ∀ s slot, (s, slot) ∈ c.functionTable.entries →
    ∃ f, c.member? slot = some f ∧ f.signature = some s
  /-- In the class, every offset is in range and leads to a member with its signature. -/
  offset_valid : ∀ s n, (s, n) ∈ c.offsets.entries →
    n < c.constructors.length + c.functions.length ∧
      ∃ f, c.memberAt? n = some f ∧ f.signature = some s
  /-- Every position of a property is in range and leads to one with its field signature. -/
  position_valid : ∀ s n, (s, n) ∈ c.fieldTable.entries →
    n < c.properties.length ∧ ∃ p, c.properties[n]? = some p ∧ p.fieldSignature = some s

/-- A built class answers what the edits that built it say. -/
theorem build_reflects (flags : Flags) (name : String) (edits : List Edit) :
    Reflects flags name edits (build flags name edits) := by
  have h := build_traces flags name edits
  refine ⟨build_flags _ _ _, build_name _ _ _, build_companion _ _ _, h.functions_eq,
    h.properties_eq, h.constructors_eq, ?_, ?_, h.functionsBySignature_keys, ?_, ?_, ?_, ?_, ?_, ?_⟩
  · intro s
    rw [h.functionBySignature_eq, h.member_last]
    rfl
  · intro s
    rw [h.propertyByField_eq, h.properties_eq]
    rfl
  · rw [h.propertiesByField_keys, h.properties_eq]
  · exact fun s f hs => h.functionBySignature_of_mem hs
  · exact fun s p hs => h.propertyByField_of_mem hs
  · exact fun s slot hs => h.member_of_entry hs
  · intro s n hs
    obtain ⟨f, hf, hsig⟩ := h.member_of_offset hs
    exact ⟨lt_of_memberAt? hf, f, hf, hsig⟩
  · intro s n hs
    obtain ⟨p, hp, hsig⟩ := h.property_of_entry hs
    obtain ⟨hn, -⟩ := List.getElem?_eq_some_iff.1 hp
    exact ⟨hn, p, hp, hsig⟩

end ClassDecl

end ClassMetadata
