import ClassMetadata.Encoding.Header
import ClassMetadata.Proofs.Decoding.Nesting
import ClassMetadata.Proofs.Encoding.Members
import ClassMetadata.Proofs.Packing.RoundTrip

/-!
# Classes written and read

What decoding makes of a class that was encoded.

* `rewrites` are the edits that the message of a class amounts to, and `decode_encode_eq` says that
  decoding builds from them, in either scheme and whatever else the header says.
* `fault?` is the reason why there may be nothing to decode: a constructor or function that has the name
  of the others. `encoded_decodes_iff` says that there is no other.
-/

namespace ClassMetadata

namespace Draft

mutual

/-- Every text in a draft takes at least one byte. -/
lemma length_texts_le (table : List String) (d : Draft) :
    d.texts.length ≤ (d.write table).bytes.length := by
  cases d with
  | word field value =>
    rw [texts]
    exact Nat.zero_le _
  | text field name =>
    have key := List.length_pos_iff.2 (Varint.encode_ne_nil (Key.toNat ⟨field, .varint⟩))
    rw [texts, write, Write.bytes, Write.keyBytes, List.length_append, List.length_singleton]
    omega
  | message field body =>
    have nested := length_textsOf_le table body
    rw [texts, write, Write.bytes, Write.blockBytes, List.length_append]
    rw [bytes] at nested
    omega

/-- Drafts take at least one byte for each of their texts. -/
lemma length_textsOf_le (table : List String) (ds : List Draft) :
    (textsOf ds).length ≤ (bytes table ds).length := by
  cases ds with
  | nil =>
    rw [textsOf]
    exact Nat.zero_le _
  | cons d ds =>
    have head := length_texts_le table d
    have tail := length_textsOf_le table ds
    rw [bytes] at tail
    rw [textsOf, bytes, writeAll, Write.bytesOf, List.length_append, List.length_append]
    omega

end

end Draft

namespace ClassDecl

/-- What the message of a class amounts to. -/
def rewrites (c : ClassDecl) : List Edit :=
  [.flags c.flags, .name c.name] ++ (c.companion.map .companion).toList
    ++ c.constructors.map (fun f => .constructor f.reread)
    ++ c.functions.map (fun f => .function f.reread)
    ++ c.properties.map (fun p => .property p.reread)

/-- A class that fits into memory can be read back. -/
lemma sound_drafts {c : ClassDecl} (h : c.message.length < 2 ^ 64) :
    Draft.Sound c.stringTable c.drafts := by
  refine ⟨fun t ht => List.mem_eraseDups.2 ht, ?_, h⟩
  have texts := Draft.length_textsOf_le c.stringTable c.drafts
  have table := (sublist_eraseDups (Draft.textsOf c.drafts)).length_le
  change _ ≤ c.message.length at texts
  change c.stringTable.length ≤ _ at table
  omega

end ClassDecl

namespace Descent

variable {table : List String}

/-- The members of one kind go behind what a class has, unless one of them cannot be read. -/
lemma comes_members {α : Type} {n : UInt32} {draft : α → List Draft} {edit : α → ClassDecl.Edit}
    {reread : α → α} {read : List UInt8 → Except DecodeError α} {fault : α → Option DecodeError}
    (hn : n ≠ 0) (hschema : classField ⟨table⟩ ⟨n, .lengthDelimited⟩ =
      .ok (.message fun es m => return es ++ [edit (← read m)]))
    (hread : ∀ a, Draft.Sound table (draft a) →
      read (Draft.bytes table (draft a)) = okUnless (fault a) (reread a))
    (es : List ClassDecl.Edit) (members : List α) :
    Comes (classField ⟨table⟩) table es (members.map fun a => .message n (draft a))
      (okUnless (members.findSome? fault) (es ++ members.map fun a => edit (reread a))) := by
  let put (es : List ClassDecl.Edit) (a : α) : List ClassDecl.Edit := es ++ [edit a]
  induction members generalizing es with
  | nil =>
    rw [List.map_nil, List.map_nil, List.append_nil]
    exact .done (.nil es)
  | cons a members ih =>
    have hread := hread a
    rw [List.findSome?_cons]
    cases ha : fault a with
    | some e =>
      rw [ha] at hread
      exact .stopped (.nil es) (refuses_message put hschema hread)
    | none =>
      rw [ha] at hread
      have first : Absorbs (classField ⟨table⟩) table es (.message n (draft a))
          (es ++ [edit (reread a)]) := absorbs_message put hn hschema hread
      rw [List.map_cons, List.map_cons, List.append_cons]
      exact Comes.behind (.single first) (ih _)

end Descent

namespace ClassDecl

/-- Why a class cannot be read back, if it cannot: the fault of the first of its constructors and
functions that has the name of the others. -/
def fault? (c : ClassDecl) : Option DecodeError :=
  (c.constructors.findSome? Descent.faultAsConstructor).or
    (c.functions.findSome? Descent.faultAsFunction)

/-- There is no fault when constructors have their name and functions have not. -/
lemma fault?_eq_none_iff {c : ClassDecl} : c.fault? = none ↔
    (∀ f ∈ c.constructors, f.name = FunctionDecl.constructorName) ∧
      ∀ f ∈ c.functions, f.name ≠ FunctionDecl.constructorName := by
  simp only [fault?, Option.or_eq_none_iff, List.findSome?_eq_none_iff, Descent.faultAsConstructor,
    Descent.faultAsFunction, ite_eq_left_iff, ite_eq_right_iff, reduceCtorEq, imp_false, not_not]

/-- The fault of a class is that of a constructor; or else constructors have their name, and it is that
of a function. -/
lemma fault_of_fault? {c : ClassDecl} {e : DecodeError} (h : c.fault? = some e) :
    (e = .unexpectedField .constructor 2 .varint ∧
      ∃ f ∈ c.constructors, f.name ≠ FunctionDecl.constructorName) ∨
    (∀ f ∈ c.constructors, f.name = FunctionDecl.constructorName) ∧
      ∃ f ∈ c.functions, f.name = FunctionDecl.constructorName ∧
        e = if f.parameters.isEmpty then .missingName .function
          else .unexpectedField .function 2 .lengthDelimited := by
  rcases Option.or_eq_some_iff.1 h with misnamed | ⟨named, reserved⟩
  · obtain ⟨f, hf, hfault⟩ := List.exists_of_findSome?_eq_some misnamed
    rw [Descent.faultAsConstructor] at hfault
    split at hfault
    · cases hfault
    · rename_i other
      exact .inl ⟨(Option.some.inj hfault).symm, f, hf, other⟩
  · obtain ⟨f, hf, hfault⟩ := List.exists_of_findSome?_eq_some reserved
    rw [Descent.faultAsFunction] at hfault
    split at hfault
    · rename_i same
      refine .inr ⟨fun g hg => ?_, f, hf, same, (Option.some.inj hfault).symm⟩
      have faultless := List.findSome?_eq_none_iff.1 named g hg
      rw [Descent.faultAsConstructor] at faultless
      by_contra other
      rw [if_neg other] at faultless
      cases faultless
    · cases hfault

/-- Every field of a class message has a number. -/
lemma numbered_drafts (c : ClassDecl) : ∀ d ∈ c.drafts, d.number ≠ 0 := by
  intro d hd
  simp only [drafts, Draft.optional, List.mem_append, List.mem_cons, List.not_mem_nil, or_false,
    List.mem_map, Option.mem_toList, Option.map_eq_some_iff] at hd
  rcases hd with ((((rfl | rfl) | ⟨_, _, rfl⟩) | ⟨_, _, rfl⟩) | ⟨_, _, rfl⟩) | ⟨_, _, rfl⟩ <;>
    simp [Draft.number, Draft.flags]

end ClassDecl

namespace Descent

/-- The message of a class amounts to its members as they are reread, unless one of them has the name
of the others. -/
lemma readEdits_drafts {c : ClassDecl} (sound : Draft.Sound table c.drafts) :
    readEdits ⟨table⟩ (Draft.bytes table c.drafts) = okUnless c.fault? c.rewrites := by
  have flagged : Absorbs (classField ⟨table⟩) table [] (.flags c.flags) [.flags c.flags] :=
    absorbs_word (fun (es : List ClassDecl.Edit) bits => es ++ [.flags ⟨bits⟩]) (by decide) rfl
  have named : Absorbs (classField ⟨table⟩) table [.flags c.flags] (.text 3 c.name)
      [.flags c.flags, .name c.name] :=
    absorbs_text (fun (es : List ClassDecl.Edit) name => es ++ [.name name]) (by decide) rfl
  have accompanied (name : String) : Absorbs (classField ⟨table⟩) table
      [.flags c.flags, .name c.name] (.text 4 name)
      ([.flags c.flags, .name c.name] ++ [.companion name]) :=
    absorbs_text (fun (es : List ClassDecl.Edit) name => es ++ [.companion name]) (by decide) rfl
  have companion : Leads (classField ⟨table⟩) table [.flags c.flags, .name c.name]
      (Draft.optional c.companion (.text 4))
      ([.flags c.flags, .name c.name] ++ (c.companion.map .companion).toList) := by
    refine .optional (fun h => by rw [h]; rfl) fun name h => ?_
    rw [h, Option.map_some, Option.toList_some]
    exact accompanied name
  have members : Comes (classField ⟨table⟩) table [] c.drafts
      (okUnless (c.fault?.or (c.properties.findSome? fun _ => none)) c.rewrites) := by
    rw [ClassDecl.drafts, ClassDecl.rewrites, ClassDecl.fault?]
    exact .append (.append (.behind (.append (.cons flagged (.single named)) companion)
      (comes_members (by decide) rfl (fun f => readConstructor_eq) _ c.constructors))
      (comes_members (by decide) rfl (fun f => readFunction_eq) _ c.functions))
      (comes_members (by decide) rfl (fun p => readProperty_drafts) _ c.properties)
  have faultless : c.properties.findSome? (fun _ => (none : Option DecodeError)) = none :=
    List.findSome?_eq_none_iff.2 fun _ _ => rfl
  rw [faultless, Option.or_none] at members
  exact members.readMessage c.numbered_drafts sound

end Descent

namespace ClassDecl

/-- The message of a class that fits into memory is read as its members are reread, or not at all. -/
lemma decodeMessage_message {c : ClassDecl} (hsize : c.message.length < 2 ^ 64) :
    decodeMessage ⟨c.stringTable⟩ c.message =
      Descent.okUnless c.fault? (build .default "" c.rewrites) := by
  have hedits := Descent.readEdits_drafts (sound_drafts hsize)
  have named : c.rewrites.any Descent.namesClass = true :=
    List.any_eq_true.2 ⟨.name c.name, by simp [rewrites], rfl⟩
  rw [Descent.decodeMessage_eq, Descent.readClass]
  change Descent.readEdits ⟨c.stringTable⟩ c.message = _ at hedits
  rw [hedits]
  cases c.fault? with
  | some e => rfl
  | none => simp [Descent.okUnless, named, bind, Except.bind, pure, Except.pure]

/-- A class with a function that bears the name of constructors is not read back. -/
lemma not_decodes {c : ClassDecl} {f : FunctionDecl} (hf : f ∈ c.functions)
    (reserved : f.name = FunctionDecl.constructorName) (hsize : c.message.length < 2 ^ 64)
    (d : ClassDecl) : decodeMessage ⟨c.stringTable⟩ c.message ≠ .ok d := by
  rw [decodeMessage_message hsize]
  cases hc : c.fault? with
  | some e => nofun
  | none => exact absurd reserved ((fault?_eq_none_iff.1 hc).2 f hf)

end ClassDecl

/-! ## Headers -/

/-- A header that was made from a class is refused only for its version. -/
lemma ClassDecl.refusal_encode (c : ClassDecl) {options : EncodeOptions}
    (h : ¬ options.version < .minimumSupported) :
    (c.encode options).refusal .default = none := by
  rw [Header.refusal]
  show (if options.version < .minimumSupported then _ else _) = _
  rw [if_neg h]
  rfl

/-- A class that is written in a version that is supported is read from its message. -/
lemma ClassDecl.decode_encode (c : ClassDecl) {options : EncodeOptions}
    (h : ¬ options.version < .minimumSupported) :
    (c.encode options).decode .default = decodeMessage ⟨c.stringTable⟩ c.message := by
  rw [Header.decode, c.refusal_encode h]
  show Packing.decode (Packing.encode options.scheme c.message) >>= _ = _
  rw [Packing.decode_encode]
  rfl

/-- An encoded class is decoded to what its members build as they are reread, unless one of them has
the name of the others. -/
lemma ClassDecl.decode_encode_eq_okUnless {c : ClassDecl} {options : EncodeOptions}
    (hversion : ¬ options.version < .minimumSupported) (hsize : c.message.length < 2 ^ 64) :
    (c.encode options).decode .default =
      Descent.okUnless c.fault? (build .default "" c.rewrites) := by
  rw [c.decode_encode hversion, decodeMessage_message hsize]

/-- An encoded class is decoded to what its members build as they are reread. -/
theorem ClassDecl.decode_encode_eq {c : ClassDecl} {options : EncodeOptions}
    (constructors : ∀ f ∈ c.constructors, f.name = FunctionDecl.constructorName)
    (functions : ∀ f ∈ c.functions, f.name ≠ FunctionDecl.constructorName)
    (hversion : ¬ options.version < .minimumSupported) (hsize : c.message.length < 2 ^ 64) :
    (c.encode options).decode .default = .ok (build .default "" c.rewrites) := by
  rw [decode_encode_eq_okUnless hversion hsize, fault?_eq_none_iff.2 ⟨constructors, functions⟩]
  rfl

/-- An encoded class is decoded when its constructors have their name and no function has it, and only
then, whatever else its names and signatures are. A constructor with another name is refused at that
name; otherwise a function with the name of constructors is refused at its first parameter, or in the
end for want of a name. Nothing else is ever reported. A message that fits into memory is shorter than
a word of 64 bits can count. -/
theorem ClassDecl.encoded_decodes_iff {c : ClassDecl} {options : EncodeOptions}
    (hversion : ¬ options.version < .minimumSupported) (hsize : c.message.length < 2 ^ 64) :
    ((∃ d, (c.encode options).decode .default = .ok d) ↔
      (∀ f ∈ c.constructors, f.name = FunctionDecl.constructorName) ∧
        ∀ f ∈ c.functions, f.name ≠ FunctionDecl.constructorName) ∧
    ∀ e, (c.encode options).decode .default = .error e →
      (e = .unexpectedField .constructor 2 .varint ∧
        ∃ f ∈ c.constructors, f.name ≠ FunctionDecl.constructorName) ∨
      (∀ f ∈ c.constructors, f.name = FunctionDecl.constructorName) ∧
        ∃ f ∈ c.functions, f.name = FunctionDecl.constructorName ∧
          e = if f.parameters.isEmpty then .missingName .function
            else .unexpectedField .function 2 .lengthDelimited := by
  rw [decode_encode_eq_okUnless hversion hsize, ← fault?_eq_none_iff]
  refine ⟨?_, fun e he => ?_⟩
  · cases c.fault? with
    | some e => exact ⟨nofun, nofun⟩
    | none => exact ⟨fun _ => rfl, fun _ => ⟨_, rfl⟩⟩
  · cases hc : c.fault? with
    | none =>
      rw [hc] at he
      cases he
    | some fault =>
      rw [hc] at he
      cases he
      exact fault_of_fault? hc

/-- A function that bears the name of constructors and has a parameter. -/
def reservedFunction : ClassDecl :=
  .build .default "A" [.function ⟨.default, "<init>", none, [⟨.zero, "x"⟩]⟩]

/-- Its parameter stands where the name of a function would be. -/
theorem ClassDecl.encoded_decodes_iff_reserved :
    ¬ EncodeOptions.default.version < .minimumSupported ∧
      reservedFunction.message.length < 2 ^ 64 ∧
      (reservedFunction.encode .default).decode .default =
        .error (.unexpectedField .function 2 .lengthDelimited) := by
  refine ⟨by decide, by cbv, ?_⟩
  obtain ⟨decodes, fails⟩ :=
    @encoded_decodes_iff reservedFunction .default (by decide) (by cbv)
  cases h : (reservedFunction.encode .default).decode .default with
  | ok d =>
    obtain ⟨-, functions⟩ := decodes.1 ⟨d, h⟩
    exact absurd rfl (functions _ List.mem_cons_self)
  | error e =>
    rcases fails e h with ⟨-, f, hf, -⟩ | ⟨-, f, hf, -, rfl⟩
    · cases hf
    · rw [List.mem_singleton.1 hf]
      rfl

end ClassMetadata
