import Mathlib.Tactic.Common
import ClassMetadata.Decoding.AccessorName
import ClassMetadata.Decoding.HostBinding
import ClassMetadata.Encoding.Class

/-!
# Signatures taken apart and joined

A signature is written in two parts and joined again when it is read. An empty first part is not
written, and so the declaration provides the name.

* `method_ofMethod` and `field_ofField` say what becomes of a signature. It stays as it is when it
  `Splits` at its separator, behind at least one character.
* `reread` is a member after all of this, and `reread_eq_iff` says when it is the same member.
-/

namespace ClassMetadata

/-- Where a text is cut, the parts make up the text, and the second begins with the separator. -/
lemma Text.breakAt_eq_some {separator : Char} {l before after : List Char}
    (h : breakAt separator l = some (before, after)) :
    l = before ++ after ∧ separator ∉ before ∧ after.head? = some separator := by
  induction l generalizing before with
  | nil => cases h
  | cons c cs ih =>
    rw [breakAt] at h
    split at h
    · rename_i hc
      cases h
      exact ⟨rfl, List.not_mem_nil, congrArg some hc⟩
    · rename_i hc
      obtain ⟨⟨rest, _⟩, hrest, e⟩ := Option.map_eq_some_iff.1 h
      cases e
      obtain ⟨hl, hsep, hhead⟩ := ih hrest
      refine ⟨congrArg (c :: ·) hl, ?_, hhead⟩
      rw [List.mem_cons, not_or]
      exact ⟨fun e => hc e.symm, hsep⟩

/-- A text is not cut when the separator is not in it. -/
lemma Text.breakAt_eq_none {separator : Char} {l : List Char} (h : breakAt separator l = none) :
    separator ∉ l := by
  induction l with
  | nil => exact List.not_mem_nil
  | cons c cs ih =>
    rw [breakAt] at h
    split at h
    · cases h
    · rename_i hc
      rw [List.mem_cons, not_or]
      exact ⟨fun e => hc e.symm, ih (Option.map_eq_none_iff.1 h)⟩

/-- The text contains the separator and does not start with it. -/
def Splits (separator : Char) (s : String) : Prop :=
  separator ∈ s.toList ∧ s.toList.head? ≠ some separator

/-- Whether a signature can be split can be computed. -/
instance (separator : Char) (s : String) : Decidable (Splits separator s) :=
  inferInstanceAs (Decidable (_ ∧ _))

/-- A text that is cut behind its first character splits. -/
lemma Splits.of_breakAt {separator c : Char} {s : String} {before after : List Char}
    (h : Text.breakAt separator s.toList = some (c :: before, after)) : Splits separator s := by
  obtain ⟨hs, absent, hhead⟩ := Text.breakAt_eq_some h
  rw [Splits, hs]
  refine ⟨List.mem_append_right _ (List.mem_of_head? hhead), fun e => absent ?_⟩
  rw [List.cons_append, List.head?_cons] at e
  cases e
  exact List.mem_cons_self

namespace HostSignature

/-- The host member with these parts, as it is written: without a name when that is empty. -/
def ofParts (name descriptor : List Char) : HostSignature :=
  ⟨if name.isEmpty then none else some (String.ofList name), some (String.ofList descriptor)⟩

/-- The parts in which the signature of a method is written. -/
def ofMethod (signature : String) : HostSignature :=
  match Text.breakAt '(' signature.toList with
  | some (name, descriptor) => ofParts name descriptor
  | none => ofParts [] signature.toList

/-- The parts in which the signature of a field is written. -/
def ofField (signature : String) : HostSignature :=
  match Text.breakAt ':' signature.toList with
  | some (name, rest) => ofParts name (rest.drop 1)
  | none => ofParts [] signature.toList

/-- The signature of a method stays as it is when it splits, and otherwise gets a name in front. -/
lemma method_ofMethod (s defaultName : String) :
    (ofMethod s).method defaultName = some (if Splits '(' s then s else defaultName ++ s) := by
  rw [ofMethod]
  cases hb : Text.breakAt '(' s.toList with
  | none =>
    have whole : ¬ Splits '(' s := fun h => Text.breakAt_eq_none hb h.1
    rw [if_neg whole]
    simp [ofParts, method, nameOr]
  | some parts =>
    obtain ⟨name, descriptor⟩ := parts
    obtain ⟨hs, -, hhead⟩ := Text.breakAt_eq_some hb
    cases name with
    | nil =>
      -- the part in front is empty and not written: the name of the member takes its place
      have starts : ¬ Splits '(' s := fun h => h.2 (by rw [hs]; exact hhead)
      rw [List.nil_append] at hs
      rw [if_neg starts]
      simp [ofParts, method, nameOr, ← hs]
    | cons c name =>
      rw [if_pos (Splits.of_breakAt hb)]
      show some (String.ofList (c :: name) ++ String.ofList descriptor) = _
      rw [← String.ofList_append, ← hs, String.ofList_toList]

/-- The signature of a field stays as it is when it splits, and otherwise gets a name in front,
with a colon unless it starts with one. -/
lemma field_ofField (s defaultName : String) : (ofField s).field defaultName = some
    (if Splits ':' s then s
      else if s.toList.head? = some ':' then defaultName ++ s
      else defaultName ++ ":" ++ s) := by
  rw [ofField]
  cases hb : Text.breakAt ':' s.toList with
  | none =>
    have absent := Text.breakAt_eq_none hb
    have whole : ¬ Splits ':' s := fun h => absent h.1
    have headless : s.toList.head? ≠ some ':' := fun h => absent (List.mem_of_head? h)
    rw [if_neg whole, if_neg headless]
    simp [ofParts, field, nameOr]
  | some parts =>
    obtain ⟨name, rest⟩ := parts
    obtain ⟨hs, -, hhead⟩ := Text.breakAt_eq_some hb
    obtain ⟨descriptor, rfl⟩ : ∃ descriptor, rest = ':' :: descriptor := by
      cases rest with
      | nil => cases hhead
      | cons c descriptor => exact ⟨descriptor, congrArg (· :: descriptor) (Option.some.inj hhead)⟩
    cases name with
    | nil =>
      rw [List.nil_append] at hs
      have starts : s.toList.head? = some ':' := by
        rw [hs]
        rfl
      have text : s = ":" ++ String.ofList descriptor := by
        rw [← String.toList_inj, hs]
        simp
      rw [if_neg (fun h => h.2 starts), if_pos starts]
      show some (defaultName ++ ":" ++ String.ofList descriptor) = _
      rw [text, String.append_assoc]
    | cons c name =>
      have text : s = String.ofList (c :: name) ++ ":" ++ String.ofList descriptor := by
        rw [← String.toList_inj, hs]
        simp
      rw [if_pos (Splits.of_breakAt hb)]
      exact congrArg some text.symm

/-- When the signature of a method comes back as it was. -/
lemma method_ofMethod_eq_iff {s defaultName : String} :
    (ofMethod s).method defaultName = some s ↔ Splits '(' s ∨ defaultName = "" := by
  rw [method_ofMethod]
  by_cases h : Splits '(' s
  · simp [h]
  · simp [h]

/-- The signature of a field is put together again if it can be split, or if it begins with a colon
and the property has the empty name. -/
lemma field_ofField_eq_iff {s defaultName : String} : (ofField s).field defaultName = some s ↔
    Splits ':' s ∨ s.toList.head? = some ':' ∧ defaultName = "" := by
  rw [field_ofField]
  by_cases h : Splits ':' s
  · simp [h]
  · by_cases starts : s.toList.head? = some ':'
    · simp [h, starts]
    · -- a colon was put in front that was not there
      have longer : defaultName ++ ":" ++ s ≠ s := by
        intro e
        have := congrArg String.length e
        rw [String.length_append, String.length_append] at this
        have one : ":".length = 1 := rfl
        omega
      simp [h, starts, longer]

end HostSignature

/-- An accessor always has a name. -/
lemma AccessorName.ne_empty (property : String) :
    getter property ≠ "" ∧ setter property ≠ "" ∧ carrier property ≠ "" := by
  refine ⟨?_, ?_, ?_⟩
  · rw [getter]
    split
    · rename_i h
      rintro rfl
      cases h
    · simp
  · rw [setter]
    split <;> simp
  · rw [carrier]
    simp

/-! ## Members -/

/-- The function as it is read after it was written. -/
def FunctionDecl.reread (f : FunctionDecl) : FunctionDecl :=
  { f with signature := f.signature.bind fun s => (HostSignature.ofMethod s).method f.name }

/-- The property as it is read after it was written. -/
def PropertyDecl.reread (p : PropertyDecl) : PropertyDecl :=
  { p with
    fieldSignature := p.fieldSignature.bind fun s => (HostSignature.ofField s).field p.name
    getterSignature := p.getterSignature.bind fun s =>
      (HostSignature.ofMethod s).method (AccessorName.getter p.name)
    setterSignature := p.setterSignature.bind fun s =>
      (HostSignature.ofMethod s).method (AccessorName.setter p.name)
    carrierSignature := p.carrierSignature.bind fun s =>
      (HostSignature.ofMethod s).method (AccessorName.carrier p.name) }

/-- A part stays as it is when its value does, if it has one. -/
lemma bind_eq_self_iff {α : Type} {part : Option α} {f : α → Option α} :
    part.bind f = part ↔ ∀ a, part = some a → f a = some a := by
  cases part with
  | none => simp
  | some a => simp

/-- When a function is the same after it was written and read. -/
theorem FunctionDecl.reread_eq_iff {f : FunctionDecl} :
    f.reread = f ↔ ∀ s, f.signature = some s → Splits '(' s ∨ f.name = "" := by
  have parts : f.reread = f ↔
      (f.signature.bind fun s => (HostSignature.ofMethod s).method f.name) = f.signature := by
    obtain ⟨flags, name, signature, parameters⟩ := f
    simp [reread]
  rw [parts, bind_eq_self_iff]
  simp only [HostSignature.method_ofMethod_eq_iff]

/-- When a property is the same after it was written and read. -/
theorem PropertyDecl.reread_eq_iff {p : PropertyDecl} : p.reread = p ↔
    (∀ s, p.fieldSignature = some s →
      Splits ':' s ∨ s.toList.head? = some ':' ∧ p.name = "") ∧
    (∀ s, p.getterSignature = some s → Splits '(' s) ∧
    (∀ s, p.setterSignature = some s → Splits '(' s) ∧
    ∀ s, p.carrierSignature = some s → Splits '(' s := by
  have parts : p.reread = p ↔
      (p.fieldSignature.bind fun s => (HostSignature.ofField s).field p.name) = p.fieldSignature ∧
      (p.getterSignature.bind fun s =>
        (HostSignature.ofMethod s).method (AccessorName.getter p.name)) = p.getterSignature ∧
      (p.setterSignature.bind fun s =>
        (HostSignature.ofMethod s).method (AccessorName.setter p.name)) = p.setterSignature ∧
      (p.carrierSignature.bind fun s =>
        (HostSignature.ofMethod s).method (AccessorName.carrier p.name)) = p.carrierSignature := by
    obtain ⟨flags, name, gf, sf, field, getter, setter, carrier⟩ := p
    simp [reread]
  obtain ⟨hg, hs, hc⟩ := AccessorName.ne_empty p.name
  rw [parts, bind_eq_self_iff, bind_eq_self_iff, bind_eq_self_iff, bind_eq_self_iff]
  simp only [HostSignature.method_ofMethod_eq_iff, HostSignature.field_ofField_eq_iff, hg, hs, hc,
    or_false]

end ClassMetadata
