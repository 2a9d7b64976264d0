import Mathlib.Data.Prod.Lex
import ClassMetadata.Decoding.Header
import ClassMetadata.Proofs.Decoding.Streaming

/-!
# Headers that are refused

A header is refused for what it says of its metadata, before the metadata are looked at. Once it is
not refused, nothing but the packed data and the string table counts.

* `Version.lt_iff_components`: versions are compared by major, minor and patch number in this order.
* `Settings.Refuses` lists the reasons to refuse a header, and `refusal_eq_some_iff` says that the
  first that applies is given.
* `Harmless` says of a computation that it does not refuse anything. Reading packed data is harmless
  (`decodeData_harmless`), so the error alone tells whether the header was refused.
* `decode_gated` puts these together.
-/

namespace ClassMetadata

/-! ## The order of versions -/

namespace Version

/-- The components of a version, the most important first. -/
def components (v : Version) : ℕ ×ₗ ℕ ×ₗ ℕ :=
  toLex (v.major.toNat, toLex (v.minor.toNat, v.patch.toNat))

/-- Of two versions that differ, the first component in which they do decides. -/
theorem lt_iff_components {v w : Version} : v < w ↔ v.components < w.components := by
  have lt (m n : UInt32) : compare m n = .lt ↔ m.toNat < n.toNat :=
    Std.compare_eq_lt.trans UInt32.lt_iff_toNat_lt
  have eq (m n : UInt32) : compare m n = .eq ↔ m.toNat = n.toNat :=
    Std.LawfulEqCmp.compare_eq_iff_eq.trans UInt32.toNat_inj.symm
  show (compare v.major w.major).then
    ((compare v.minor w.minor).then (compare v.patch w.patch)) = .lt ↔ _
  rw [Ordering.then_eq_lt, Ordering.then_eq_lt, lt, lt, lt, eq, eq]
  rw [components, components, Prod.Lex.toLex_lt_toLex, Prod.Lex.toLex_lt_toLex]

end Version

/-! ## Reasons to refuse a header -/

/-- A version that is neither too old nor too new. -/
def Settings.Spans (settings : Settings) (version : Version) : Prop :=
  ¬ version < settings.minVersion ∧ ∀ maximum ∈ settings.maxVersion, ¬ maximum < version

/-- Settings refuse a header. A reason counts only where none of those before it applies. -/
inductive Settings.Refuses (settings : Settings) (header : Header) : DecodeError → Prop where
  /-- The version is too old. -/
  | older (old : header.version < settings.minVersion) :
    Refuses settings header (.unsupportedVersion header.version settings.minVersion)
  /-- There is a newest version, and the version is newer. -/
  | newer {maximum : Version} (young : ¬ header.version < settings.minVersion)
    (limited : settings.maxVersion = some maximum) (new : maximum < header.version) :
    Refuses settings header (.incompatibleVersion header.version maximum)
  /-- The metadata describe something else than a class. -/
  | kind (range : settings.Spans header.version) (other : header.kind ≠ .classFile) :
    Refuses settings header (.unsupportedKind header.kind.raw)
  /-- Pre-release compilers are not trusted, and in the extra number their bit is set, the second
  from below. -/
  | preRelease {extra : Int32} (range : settings.Spans header.version)
    (same : header.kind = .classFile) (strict : settings.allowPreRelease = false)
    (given : header.extraInt = some extra) (bit : extra.toInt / 2 % 2 = 1) :
    Refuses settings header .preRelease

/-- The second bit of a signed number, also of a negative one. -/
lemma getLsbD_one_iff {n : Int32} : n.toBitVec.getLsbD 1 = true ↔ n.toInt / 2 % 2 = 1 := by
  have signed : n.toInt = n.toBitVec.toInt := rfl
  have bound := n.toBitVec.isLt
  rw [BitVec.getLsbD, Nat.testBit_eq_decide_div_mod_eq, decide_eq_true_iff, signed,
    BitVec.toInt_eq_toNat_cond]
  split <;> omega

/-- Without an extra number a header has no trait. -/
lemma Header.has_preRelease_iff {header : Header} : header.has .preRelease = true ↔
    ∃ extra, header.extraInt = some extra ∧ extra.toInt / 2 % 2 = 1 := by
  rw [Header.has]
  cases header.extraInt with
  | none => exact ⟨nofun, nofun⟩
  | some extra =>
    refine getLsbD_one_iff.trans ⟨fun h => ⟨extra, rfl, h⟩, ?_⟩
    rintro ⟨_, ⟨⟩, h⟩
    exact h

/-- The check of a header gives the first reason that applies. -/
theorem refusal_eq_some_iff {header : Header} {settings : Settings} {e : DecodeError} :
    header.refusal settings = some e ↔ settings.Refuses header e := by
  refine ⟨fun h => ?_, fun h => ?_⟩
  · unfold Header.refusal at h
    split at h
    · rename_i old
      cases h
      exact .older old
    rename_i young
    split at h
    · rename_i maximum limit
      cases h
      rw [Option.filter_eq_some_iff, decide_eq_true_iff] at limit
      exact .newer young limit.1 limit.2
    · rename_i limit
      have range : settings.Spans header.version := by
        refine ⟨young, ?_⟩
        intro maximum limited new
        exact Option.filter_eq_none_iff.1 limit maximum limited (decide_eq_true new)
      split at h
      · rename_i other
        cases h
        exact .kind range other
      rename_i same
      split at h
      · rename_i untrusted
        cases h
        obtain ⟨extra, given, bit⟩ := Header.has_preRelease_iff.1 untrusted.2
        exact .preRelease range (not_not.1 same) untrusted.1 given bit
      · cases h
  · have unlimited (range : settings.Spans header.version) :
        settings.maxVersion.filter (· < header.version) = none := by
      rw [Option.filter_eq_none_iff]
      intro maximum limited new
      exact range.2 maximum limited (of_decide_eq_true new)
    rw [Header.refusal]
    cases h with
    | older old => rw [if_pos old]
    | newer young limited new =>
      have limit : settings.maxVersion.filter (· < header.version) = some _ :=
        Option.filter_eq_some_iff.2 ⟨limited, decide_eq_true new⟩
      rw [if_neg young, limit]
    | kind range other =>
      rw [if_neg range.1, unlimited range]
      exact if_pos other
    | preRelease range same strict given bit =>
      rw [if_neg range.1, unlimited range]
      have untrusted := Header.has_preRelease_iff.2 ⟨_, given, bit⟩
      exact (if_neg (not_not.2 same)).trans (if_pos ⟨strict, untrusted⟩)

/-! ## Reading refuses nothing -/

/-- The error says that a header was refused. -/
def DecodeError.IsRefusal : DecodeError → Prop
  | unsupportedVersion _ _ | incompatibleVersion _ _ | unsupportedKind _ | preRelease => True
  | malformedHeader _ _ | malformedData _ _ _ _ | wire _ | invalidStringIndex _ _ | missingName _
  | unexpectedField _ _ _ => False

/-- What settings refuse a header with is a refusal. -/
lemma Settings.Refuses.isRefusal {settings : Settings} {header : Header} {e : DecodeError}
    (h : settings.Refuses header e) : e.IsRefusal := by
  cases h <;> trivial

/-- What fails here, fails for another reason than a refused header. -/
def Harmless {α : Type} (x : Except DecodeError α) : Prop := ∀ e, x = .error e → ¬ e.IsRefusal

namespace Harmless

variable {σ α β : Type}

/-- A value is harmless. -/
lemma ok (a : α) : Harmless (.ok a) := nofun

/-- An error that is no refusal is harmless. -/
lemma error {e : DecodeError} (h : ¬ e.IsRefusal) : Harmless (.error e : Except DecodeError α) := by
  intro e' h'
  cases h'
  exact h

/-- Harmless steps that follow each other are harmless. -/
lemma bind {x : Except DecodeError α} {f : α → Except DecodeError β} (hx : Harmless x)
    (hf : ∀ a, x = .ok a → Harmless (f a)) : Harmless (x >>= f) := by
  cases x with
  | error e => exact error (hx e rfl)
  | ok a => exact hf a rfl

/-- A fold over harmless steps is harmless. -/
lemma foldlM {step : σ → α → Except DecodeError σ} {l : List α}
    (h : ∀ s, ∀ a ∈ l, Harmless (step s a)) (s : σ) : Harmless (l.foldlM step s) := by
  induction l generalizing s with
  | nil => exact ok s
  | cons a l ih =>
    rw [List.foldlM_cons]
    apply bind (h s a List.mem_cons_self)
    intro s' _
    exact ih (fun s b hb => h s b (List.mem_cons_of_mem a hb)) s'

/-- Harmless steps for each member are harmless together. -/
lemma mapM {f : α → Except DecodeError β} (h : ∀ a, Harmless (f a)) (l : List α) :
    Harmless (l.mapM f) := by
  induction l with
  | nil => exact ok []
  | cons a l ih =>
    rw [List.mapM_cons]
    apply bind (h a)
    intro b _
    apply bind ih
    intro bs _
    exact ok _

end Harmless

variable {table : StringTable}

/-- A name that is missing from the table is no refusal. -/
lemma get_harmless (index : UInt64) : Harmless (table.get index) := by
  rw [StringTable.get]
  split
  · exact .ok _
  · exact .error id

/-- A field of a host signature is no reason for a refusal. -/
lemma addField_harmless (s : HostSignature) (field : Field) :
    Harmless (s.addField table field) := by
  unfold HostSignature.addField
  split
  · exact .error id
  · exact .error id
  · split
    · exact .bind (get_harmless _) fun _ _ => .ok _
    · exact .bind (get_harmless _) fun _ _ => .ok _
    · exact .ok _
  · exact .ok _

/-- A host signature is no reason for a refusal. -/
lemma readSignature_harmless (message : List UInt8) : Harmless (HostSignature.read table message) :=
  .foldlM (fun s field _ => addField_harmless s field) _

/-- A host binding is no reason for a refusal. -/
lemma readBinding_harmless (message : List UInt8) :
    Harmless (PropertyBinding.read table message) := by
  apply Harmless.foldlM
  intro b field _
  unfold PropertyBinding.addField
  split
  · exact .error id
  · exact .error id
  · split
    · exact .bind (readSignature_harmless _) fun _ _ => .ok _
    · exact .bind (readSignature_harmless _) fun _ _ => .ok _
    · exact .bind (readSignature_harmless _) fun _ _ => .ok _
    · exact .bind (readSignature_harmless _) fun _ _ => .ok _
    · exact .ok _
  · exact .ok _

/-! ### The assembler -/

/-- A detail of a constructor or function is no reason for a refusal. -/
lemma tellFunction_harmless (f : PendingFunction) (detail : Detail) :
    Harmless (f.tell table detail) := by
  cases detail with
  | name index => exact .bind (get_harmless index) fun _ _ => .ok _
  | extension tag message =>
    rw [PendingFunction.tell]
    split
    · exact .bind (readSignature_harmless message) fun _ _ => .ok _
    · exact .ok _
  | _ => exact .ok _

/-- A detail of a member is no reason for a refusal. -/
lemma tellMember_harmless (m : PendingMember) (detail : Detail) :
    Harmless (m.tell table detail) := by
  cases m with
  | constructor f => exact .bind (tellFunction_harmless f detail) fun _ _ => .ok _
  | function f => exact .bind (tellFunction_harmless f detail) fun _ _ => .ok _
  | property p =>
    refine .bind ?_ fun _ _ => .ok _
    cases detail with
    | name index => exact .bind (get_harmless index) fun _ _ => .ok _
    | extension tag message =>
      rw [PendingProperty.tell]
      split
      · exact .bind (readBinding_harmless message) fun _ _ => .ok _
      · exact .ok _
    | _ => exact .ok _

/-- A detail is no reason for a refusal. -/
lemma tell_harmless (a : Assembler) (detail : Detail) : Harmless (a.tell table detail) := by
  unfold Assembler.tell
  split
  · cases detail with
    | name index => exact .bind (get_harmless index) fun _ _ => .ok _
    | companion index => exact .bind (get_harmless index) fun _ _ => .ok _
    | _ => exact .ok _
  · exact .bind (tellMember_harmless _ detail) fun _ _ => .ok _
  · refine .bind ?_ fun _ _ => .ok _
    cases detail with
    | name index => exact .bind (get_harmless index) fun _ _ => .ok _
    | _ => exact .ok _
  · exact .ok _
  · exact .ok _

/-- A function that ends is no reason for a refusal. -/
lemma finishFunction_harmless (f : PendingFunction) (kind : NodeKind) :
    Harmless (f.finish kind) := by
  unfold PendingFunction.finish
  split
  · exact .ok _
  · exact .error id

/-- A member that ends is no reason for a refusal. -/
lemma finishMember_harmless (m : PendingMember) : Harmless m.finish := by
  cases m with
  | constructor f => exact .bind (finishFunction_harmless f _) fun _ _ => .ok _
  | function f => exact .bind (finishFunction_harmless f _) fun _ _ => .ok _
  | property p =>
    refine .bind ?_ fun _ _ => .ok _
    unfold PendingProperty.finish
    split
    · exact .ok _
    · exact .error id

/-- A declaration that ends is no reason for a refusal. -/
lemma leave_harmless (a : Assembler) : Harmless a.leave := by
  unfold Assembler.leave
  split
  · exact .ok _
  · exact .bind (finishMember_harmless _) fun _ _ => .ok _
  · refine .bind ?_ fun _ _ => .ok _
    unfold PendingParameter.finish
    split
    · exact .ok _
    · exact .error id
  · exact .ok _
  · exact .ok _

/-- A token is no reason for a refusal. -/
lemma accept_harmless (a : Assembler) (token : Token) : Harmless (a.accept table token) := by
  cases token with
  | enter kind => exact .ok _
  | exit kind => exact leave_harmless a
  | detail detail => exact tell_harmless a detail

/-! ### The tokens -/

/-- A key in the wrong wire type is no reason for a refusal. -/
lemma checkKey_harmless (node : NodeKind) (key : Key) : Harmless (node.checkKey key) := by
  rw [NodeKind.checkKey]
  split
  · split
    · exact .ok _
    · exact .error id
  · exact .ok _

/-- A number that does not fit into 32 bits is no reason for a refusal. -/
lemma narrow_harmless (value : UInt64) (offset : Nat) :
    Harmless (NodeKind.narrow value offset) := by
  rw [NodeKind.narrow]
  split
  · exact .ok _
  · exact .error id

/-- A field is no reason for a refusal. -/
lemma readField_harmless (node : NodeKind) (field : Field) : Harmless (node.readField field) := by
  cases field with
  | unreadable e => exact .error id
  | broken key e => exact .bind (checkKey_harmless node key) fun _ _ => .error id
  | whole key offset payload =>
    refine .bind (checkKey_harmless node key) fun _ _ => ?_
    unfold NodeKind.interpret
    split
    · refine .bind ?_ fun _ _ => .ok _
      unfold NodeKind.detail?
      split
      · exact .bind (narrow_harmless _ _) fun _ _ => .ok _
      · exact .ok _
      · exact .ok _
      · exact .bind (narrow_harmless _ _) fun _ _ => .ok _
      · exact .bind (narrow_harmless _ _) fun _ _ => .ok _
      · exact .ok _
    · exact .ok _
    · split
      · exact .ok _
      · exact .ok _
    · exact .ok _

/-- An entry is no reason for a refusal. -/
lemma nextEntry_harmless (node : NodeKind) (fields : List Field) :
    Harmless (node.nextEntry fields) := by
  induction fields with
  | nil => exact .ok _
  | cons field fields ih =>
    refine .bind (readField_harmless node field) fun said _ => ?_
    cases said with
    | none => exact ih
    | some entry => exact .ok _

/-- What a token reader gives is no reason for a refusal. -/
lemma next_harmless {reader reader' : TokenReader} {outcome : Except DecodeError Token}
    (h : reader.next = some (outcome, reader')) : Harmless outcome := by
  match reader with
  | .fresh message =>
    cases h
    exact .ok _
  | .within [] => cases h
  | .within (frame :: outer) =>
    rw [TokenReader.next] at h
    split at h <;> cases h
    · rename_i e failed
      exact .error (nextEntry_harmless frame.kind frame.fields e failed)
    · exact .ok _
    · exact .ok _
    · exact .ok _

/-- Whatever a reader gives is harmless, also the error at the end. -/
lemma tokens_harmless (reader : TokenReader) : ∀ outcome ∈ reader.tokens, Harmless outcome := by
  induction h : reader.weight using Nat.strongRecOn generalizing reader with
  | ind n ih =>
    cases hn : reader.next with
    | none =>
      rw [TokenReader.tokens_of_next_none hn]
      exact nofun
    | some given =>
      obtain ⟨outcome, reader'⟩ := given
      rw [TokenReader.tokens_of_next hn]
      refine List.forall_mem_cons.2 ⟨next_harmless hn, ?_⟩
      exact ih _ (h ▸ TokenReader.weight_next_lt hn) reader' rfl

/-- A character beyond its limit is no reason for a refusal. -/
lemma within_harmless (limit : Nat) (c : Packing.Located) : Harmless (c.within limit) := by
  rw [Packing.Located.within]
  split
  · exact .ok _
  · exact .error id

/-- Unpacking and reading never refuse a header. -/
theorem decodeData_harmless (data strings : List String) : Harmless (decodeData data strings) := by
  refine .bind (.bind (.mapM (within_harmless _) _) fun _ _ => .ok _) fun message _ => ?_
  refine .bind (.foldlM ?_ _) fun a _ => ?_
  · intro a token given
    exact .bind (tokens_harmless _ token given) fun token _ => accept_harmless a token
  · rw [Assembler.finish]
    split
    · exact .ok _
    · exact .error id

/-! ## The gate -/

namespace Header

/-- Versions are compared by their components. A header that settings refuse is not decoded, for the
first reason that applies, whatever data and strings it has; and the errors that say so are given in
no other case. Headers that are not refused are decoded alike when they have the same data and
strings, whatever else they say and under whatever settings. -/
theorem decode_gated :
    (∀ v w : Version, v < w ↔ v.components < w.components) ∧
    (∀ (header : Header) (settings : Settings) (e : DecodeError), settings.Refuses header e →
      ∀ data strings, decode { header with data := data, strings := strings } settings = .error e) ∧
    (∀ (header : Header) (settings : Settings) (e : DecodeError),
      header.decode settings = .error e → e.IsRefusal → settings.Refuses header e) ∧
    (∀ (header header' : Header) (settings settings' : Settings),
      (∀ e, ¬ settings.Refuses header e) → (∀ e, ¬ settings'.Refuses header' e) →
      header.data = header'.data → header.strings = header'.strings →
      header.decode settings = header'.decode settings') := by
  refine ⟨fun v w => Version.lt_iff_components, ?_, ?_, ?_⟩
  · intro header settings e refused data strings
    -- the check does not look at data and strings
    have same : refusal { header with data := data, strings := strings } settings =
      header.refusal settings := rfl
    rw [decode, same, refusal_eq_some_iff.2 refused]
  · intro header settings e failed isRefusal
    rw [decode] at failed
    split at failed
    · rename_i reason
      cases failed
      exact refusal_eq_some_iff.1 reason
    · exact absurd isRefusal (decodeData_harmless _ _ e failed)
  · intro header header' settings settings' passes passes' data strings
    have accepted {header : Header} {settings : Settings} (h : ∀ e, ¬ settings.Refuses header e) :
        header.decode settings = decodeData header.data header.strings := by
      have none : header.refusal settings = none := by
        rw [Option.eq_none_iff_forall_ne_some]
        exact fun e reason => h e (refusal_eq_some_iff.1 reason)
      rw [decode, none]
    rw [accepted passes, accepted passes', data, strings]

/-- A header of something else than a class, in a new version and with every bit of its extra number
set. -/
def facade (data strings : List String) : Header :=
  ⟨.fileFacade, ⟨2, 0, 0⟩, data, strings, "", none, some (-1)⟩

/-- A header of a class in a still newer version, with the same extra number. -/
def futureClass (data strings : List String) : Header :=
  ⟨.classFile, ⟨7, 0, 4294967295⟩, data, strings, "xs", some "pn", some (-1)⟩

/-- A plain header of a class. -/
def plainClass (data strings : List String) : Header :=
  ⟨.classFile, .current, data, strings, "", none, none⟩

/-- Settings that refuse the facade for three reasons give the first of them. Settings that trust
everyone decode the class of the future as the default settings decode the plain one. -/
theorem decode_gated_facade :
    (facade ["\x00\x18\x00"] ["A"]).decode ⟨⟨1, 1, 0⟩, some ⟨1, 9, 4294967295⟩, false⟩ =
        .error (.incompatibleVersion ⟨2, 0, 0⟩ ⟨1, 9, 4294967295⟩) ∧
      (futureClass ["\x00\x18\x00"] ["A"]).decode ⟨⟨7, 0, 0⟩, none, true⟩ =
        (plainClass ["\x00\x18\x00"] ["A"]).decode .default := by
  obtain ⟨-, refused, -, alike⟩ := decode_gated
  refine ⟨?_, ?_⟩
  · exact refused (facade [] []) _ _ (.newer (by decide) rfl (by decide)) ["\x00\x18\x00"] ["A"]
  · apply alike
    · intro e h
      cases refusal_eq_some_iff.2 h
    · intro e h
      cases refusal_eq_some_iff.2 h
    · rfl
    · rfl

end Header

end ClassMetadata
