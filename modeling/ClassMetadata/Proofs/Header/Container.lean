import Mathlib.Algebra.Group.Nat.Defs
import ClassMetadata.Header.Basic
import ClassMetadata.Proofs.Decoding.Schema

/-!
# Headers and their containers

Which headers a container gives back, which containers hold a header, and what is reported of the
others.

* `HeaderKey.fault?` says for one part what is wrong with the value under its key, and
  `failure?_read` that reading a header fails with the first such fault in the order of
  `HeaderKey.all`.
* `Header.IsStorable` holds of the headers whose numbers survive in a container, and `Restores` says
  that a container has every part that was read from another.
* `read_eq_ok_iff`: a container holds a header exactly if the header is storable and its own
  container restores the given one. `read_inverts_container` draws the consequences.
-/

namespace ClassMetadata

/-! ## Kinds and their numbers -/

namespace MetadataKind

/-- A kind that is unknown for want of a name: its number is not that of another kind. -/
def IsProper (kind : MetadataKind) : Prop :=
  ∀ raw, kind = .unknown raw → ¬ (1 ≤ raw.toInt ∧ raw.toInt ≤ 5)

/-- A number is read as the proper kind whose number it is. -/
lemma ofRaw_eq_iff {n : Int32} {kind : MetadataKind} :
    ofRaw n = kind ↔ n = kind.raw ∧ kind.IsProper := by
  have named {m : Int32} (h : n.toInt = m.toInt) : n = m := Int32.toInt_inj.1 h
  refine ⟨fun h => ?_, fun ⟨hn, proper⟩ => ?_⟩
  · subst h
    unfold ofRaw
    split
    case h_6 not_one not_two not_three not_four not_five =>
      refine ⟨rfl, ?_⟩
      rintro _ ⟨⟩ range
      obtain h | h | h | h | h : n.toInt = 1 ∨ n.toInt = 2 ∨ n.toInt = 3 ∨ n.toInt = 4 ∨
        n.toInt = 5 := by omega
      exacts [not_one h, not_two h, not_three h, not_four h, not_five h]
    all_goals exact ⟨named ‹_›, nofun⟩
  · subst hn
    cases kind with
    | unknown raw =>
      have other := proper raw rfl
      show ofRaw raw = _
      unfold ofRaw
      split
      case h_6 => rfl
      all_goals omega
    | _ => rfl

end MetadataKind

/-! ## Faults of a part -/

/-- What is wrong with the components of a version. -/
def versionFault? (components : List Int32) : Option HeaderFault :=
  if components.length < 3 then some (.shortVersion components.length)
  else ((components.take 3).find? (·.toInt < 0)).map .negativeComponent

namespace HeaderKey

/-- The parts of a header, in the order in which faults are looked for. -/
def all : List HeaderKey :=
  [.kind, .version, .data, .strings, .extraString, .packageName, .extraInt]

/-- The part must not be absent. -/
def isRequired : HeaderKey → Bool
  | packageName | extraInt => false
  | _ => true

/-- The shape of the value of a part. -/
def shape : HeaderKey → Shape
  | kind | extraInt => .int
  | version => .ints
  | data | strings => .strings
  | extraString | packageName => .string

/-- What is wrong with what is found under the key of a part. -/
def fault? (key : HeaderKey) : Option ContainerValue → Option HeaderFault
  | none => if key.isRequired then some .missing else none
  | some (.ints components) =>
    if key.shape = .ints then versionFault? components else some (.wrongShape key.shape .ints)
  | some other => if key.shape = other.shape then none else some (.wrongShape key.shape other.shape)

/-- The report of what is wrong with a part in a container. -/
def report? (s : Container) (key : HeaderKey) : Option DecodeError :=
  (key.fault? (s key.text)).map (.malformedHeader key)

end HeaderKey

namespace Header

open HeaderKey (report?)

variable {s t : Container} {h : Header}

/-- The error that a reading ends with. -/
def failure? {α : Type} : Except DecodeError α → Option DecodeError
  | .ok _ => none
  | .error e => some e

/-- A result has a failure when it is an error. -/
lemma failure?_eq_some_iff {α : Type} {x : Except DecodeError α} {e : DecodeError} :
    failure? x = some e ↔ x = .error e := by
  cases x with
  | ok a => exact ⟨nofun, nofun⟩
  | error e' => exact ⟨fun h => congrArg _ (Option.some.inj h), fun h => by cases h; rfl⟩

/-- One reading after another fails where the first does, and else where the second does. -/
lemma failure?_bind {α β : Type} {x : Except DecodeError α} {f : α → Except DecodeError β}
    {o : Option DecodeError} (h : ∀ a, failure? (f a) = o) :
    failure? (x >>= f) = (failure? x).or o := by
  cases x with
  | ok a => exact h a
  | error e => rfl

/-- What is returned does not fail. -/
lemma failure?_pure {α : Type} {a : α} : failure? (pure a) = none := rfl

/-- A required number fails as reported. -/
lemma failure?_readInt {key : HeaderKey} (hshape : key.shape = .int) (hkey : key.isRequired) :
    failure? (readInt s key) = report? s key := by
  unfold readInt required report? HeaderKey.fault?
  rw [hshape, hkey]
  rcases s key.text with - | (_ | _ | _ | _) <;> rfl

/-- A required text fails as reported. -/
lemma failure?_readString {key : HeaderKey} (hshape : key.shape = .string) (hkey : key.isRequired) :
    failure? (readString s key) = report? s key := by
  unfold readString required report? HeaderKey.fault?
  rw [hshape, hkey]
  rcases s key.text with - | (_ | _ | _ | _) <;> rfl

/-- A required list of texts fails as reported. -/
lemma failure?_readStrings {key : HeaderKey} (hshape : key.shape = .strings)
    (hkey : key.isRequired) : failure? (readStrings s key) = report? s key := by
  unfold readStrings required report? HeaderKey.fault?
  rw [hshape, hkey]
  rcases s key.text with - | (_ | _ | _ | _) <;> rfl

/-- An optional text fails as reported. -/
lemma failure?_readString? {key : HeaderKey} (hshape : key.shape = .string)
    (hkey : key.isRequired = false) : failure? (readString? s key) = report? s key := by
  unfold readString? report? HeaderKey.fault?
  rw [hshape, hkey]
  rcases s key.text with - | (_ | _ | _ | _) <;> rfl

/-- An optional number fails as reported. -/
lemma failure?_readInt? {key : HeaderKey} (hshape : key.shape = .int)
    (hkey : key.isRequired = false) : failure? (readInt? s key) = report? s key := by
  unfold readInt? report? HeaderKey.fault?
  rw [hshape, hkey]
  rcases s key.text with - | (_ | _ | _ | _) <;> rfl

/-- A component of a version fails when it is negative. -/
lemma failure?_readComponent (n : Int32) :
    failure? (readComponent n) =
      if n.toInt < 0 then some (.malformedHeader .version (.negativeComponent n)) else none := by
  unfold readComponent
  split <;> rfl

/-- Of three components, the first that is negative is reported. -/
lemma failure?_components (major minor patch : Int32) (rest : List Int32) :
    failure? (do
      return (⟨← readComponent major, ← readComponent minor, ← readComponent patch⟩ : Version)) =
    (versionFault? (major :: minor :: patch :: rest)).map (.malformedHeader .version) := by
  have enough : ¬ (major :: minor :: patch :: rest).length < 3 := Nat.not_lt.2 (Nat.le_add_left 3 _)
  refine (failure?_bind fun _ => failure?_bind fun _ =>
    failure?_bind fun _ => failure?_pure).trans ?_
  rw [failure?_readComponent, failure?_readComponent, failure?_readComponent, versionFault?,
    if_neg enough]
  show _ = (([major, minor, patch].find? (·.toInt < 0)).map _).map _
  by_cases hmajor : major.toInt < 0
  · simp [hmajor]
  · by_cases hminor : minor.toInt < 0
    · simp [hmajor, hminor]
    · by_cases hpatch : patch.toInt < 0 <;> simp [hmajor, hminor, hpatch]

/-- The version fails as reported. -/
lemma failure?_readVersion : failure? (readVersion s) = report? s .version := by
  unfold readVersion required report? HeaderKey.fault?
  rcases s HeaderKey.version.text with - | (_ | components | _ | _)
  · rfl
  · rfl
  · match components with
    | [] | [_] | [_, _] => rfl
    | major :: minor :: patch :: rest => exact failure?_components major minor patch rest
  · rfl
  · rfl

/-- Reading a header fails with what is wrong with the first part that has a fault. -/
lemma failure?_read : failure? (read s) = HeaderKey.all.findSome? (report? s) := by
  have cons (key : HeaderKey) (keys : List HeaderKey) :
      (key :: keys).findSome? (report? s) = (report? s key).or (keys.findSome? (report? s)) := by
    rw [List.findSome?_cons]
    cases report? s key <;> rfl
  unfold read
  refine (failure?_bind fun _ => failure?_bind fun _ => failure?_bind fun _ =>
    failure?_bind fun _ => failure?_bind fun _ => failure?_bind fun _ =>
    failure?_bind fun _ => failure?_pure).trans ?_
  rw [failure?_readInt rfl rfl, failure?_readVersion, failure?_readStrings rfl rfl,
    failure?_readStrings rfl rfl, failure?_readString rfl rfl, failure?_readString? rfl rfl,
    failure?_readInt? rfl rfl, HeaderKey.all, cons, cons, cons, cons, cons, cons, cons]
  rfl

/-! ## Parts that are read -/

/-- A required key has a value when the container has it. -/
lemma required_eq_ok_iff {key : HeaderKey} {value : ContainerValue} :
    required s key = .ok value ↔ s key.text = some value := by
  unfold required
  cases s key.text with
  | none => exact ⟨nofun, nofun⟩
  | some found => rw [Except.ok.injEq, Option.some.injEq]

/-- A reading that makes something of a single value makes it of what stands under the key. -/
lemma required_bind_eq_ok_iff {α : Type} {key : HeaderKey} {value : ContainerValue} {a : α}
    {take : ContainerValue → Except DecodeError α} (h : ∀ found, take found = .ok a ↔ found = value) :
    required s key >>= take = .ok a ↔ s key.text = some value := by
  refine ⟨fun hread => ?_, fun hvalue => ?_⟩
  · obtain ⟨found, hfound, htake⟩ := ok_of_bind hread
    rw [← (h found).1 htake]
    exact required_eq_ok_iff.1 hfound
  · rw [required_eq_ok_iff.2 hvalue]
    exact (h value).2 rfl

/-- A required number is read when the container has it. -/
lemma readInt_eq_ok_iff {key : HeaderKey} {n : Int32} :
    readInt s key = .ok n ↔ s key.text = some (.int n) := by
  apply required_bind_eq_ok_iff
  intro found
  cases found <;> simp [wrongShape, pure, Except.pure]

/-- A required text is read when the container has it. -/
lemma readString_eq_ok_iff {key : HeaderKey} {text : String} :
    readString s key = .ok text ↔ s key.text = some (.string text) := by
  apply required_bind_eq_ok_iff
  intro found
  cases found <;> simp [wrongShape, pure, Except.pure]

/-- A required list of texts is read when the container has it. -/
lemma readStrings_eq_ok_iff {key : HeaderKey} {texts : List String} :
    readStrings s key = .ok texts ↔ s key.text = some (.strings texts) := by
  apply required_bind_eq_ok_iff
  intro found
  cases found <;> simp [wrongShape, pure, Except.pure]

/-- An optional text is read when the container has it or has nothing there. -/
lemma readString?_eq_ok_iff {key : HeaderKey} {text? : Option String} :
    readString? s key = .ok text? ↔ s key.text = text?.map .string := by
  unfold readString?
  rcases s key.text with - | (_ | _ | text | _) <;> cases text? <;> simp [wrongShape]

/-- An optional number is read when the container has it or has nothing there. -/
lemma readInt?_eq_ok_iff {key : HeaderKey} {n? : Option Int32} :
    readInt? s key = .ok n? ↔ s key.text = n?.map .int := by
  unfold readInt?
  rcases s key.text with - | (n | _ | _ | _) <;> cases n? <;> simp [wrongShape]

/-- A component is read where it is the signed number of a word below the sign bit. -/
lemma readComponent_eq_ok_iff {n : Int32} {u : UInt32} :
    readComponent n = .ok u ↔ n = u.toInt32 ∧ u.toNat ≤ 2 ^ 31 - 1 := by
  have sign : n.toInt < 0 ↔ ¬ n.toUInt32.toNat ≤ 2 ^ 31 - 1 := by
    refine Iff.trans (BitVec.toInt_neg_iff : n.toBitVec.toInt < 0 ↔ _) ?_
    show _ ↔ ¬ n.toBitVec.toNat ≤ _
    omega
  unfold readComponent
  refine ⟨fun h => ?_, fun ⟨hn, hu⟩ => ?_⟩
  · split at h
    · cases h
    · rename_i natural
      cases h
      exact ⟨(Int32.toInt32_toUInt32 n).symm, not_not.1 fun large => natural (sign.2 large)⟩
  · subst hn
    rw [UInt32.toUInt32_toInt32] at sign ⊢
    rw [if_neg fun negative => sign.1 negative hu]

/-- A header whose numbers survive in a container, which has signed numbers of 32 bits and no other
mark of a kind than its number. -/
structure IsStorable (h : Header) : Prop where
  major_le : h.version.major.toNat ≤ 2 ^ 31 - 1
  minor_le : h.version.minor.toNat ≤ 2 ^ 31 - 1
  patch_le : h.version.patch.toNat ≤ 2 ^ 31 - 1
  proper : h.kind.IsProper

/-- A container has every part of another, the version without what follows three components. -/
structure Restores (s t : Container) : Prop where
  same : ∀ key : HeaderKey, key ≠ .version → t key.text = s key.text
  version : ∃ major minor patch more,
    s HeaderKey.version.text = some (.ints (major :: minor :: patch :: more)) ∧
    t HeaderKey.version.text = some (.ints [major, minor, patch])

/-- The value of a part of a header. -/
def value? (h : Header) : HeaderKey → Option ContainerValue
  | .kind => some (.int h.kind.raw)
  | .version => some (.ints h.version.toArray)
  | .data => some (.strings h.data)
  | .strings => some (.strings h.strings)
  | .extraString => some (.string h.extraString)
  | .packageName => h.packageName.map .string
  | .extraInt => h.extraInt.map .int

/-- The container of a header has the values of the header. -/
lemma container_text (h : Header) (key : HeaderKey) : h.container key.text = h.value? key := by
  obtain ⟨kind, version, data, strings, extraString, packageName, extraInt⟩ := h
  cases packageName <;> cases extraInt <;> cases key <;> rfl

/-- A container restores itself. -/
lemma Restores.refl (h : Header) : Restores h.container h.container :=
  ⟨fun _ _ => rfl, h.version.major.toInt32, h.version.minor.toInt32, h.version.patch.toInt32, [],
    h.container_text .version, h.container_text .version⟩

/-- The version is read when the container has its three components and perhaps more, and they fit
into a number there. -/
lemma readVersion_eq_ok_iff {v : Version} :
    readVersion s = .ok v ↔ (∃ more, s HeaderKey.version.text = some (.ints (v.toArray ++ more))) ∧
      v.major.toNat ≤ 2 ^ 31 - 1 ∧ v.minor.toNat ≤ 2 ^ 31 - 1 ∧ v.patch.toNat ≤ 2 ^ 31 - 1 := by
  refine ⟨fun h => ?_, fun ⟨⟨more, hvalue⟩, hmajor, hminor, hpatch⟩ => ?_⟩
  · obtain ⟨value, hvalue, h⟩ := ok_of_bind h
    rw [required_eq_ok_iff] at hvalue
    match value with
    | .int _ | .string _ | .strings _ | .ints [] | .ints [_] | .ints [_, _] => cases h
    | .ints (major :: minor :: patch :: more) =>
      obtain ⟨u, readMajor, h⟩ := ok_of_bind h
      obtain ⟨v, readMinor, h⟩ := ok_of_bind h
      obtain ⟨w, readPatch, h⟩ := ok_of_bind h
      cases h
      obtain ⟨rfl, hmajor⟩ := readComponent_eq_ok_iff.1 readMajor
      obtain ⟨rfl, hminor⟩ := readComponent_eq_ok_iff.1 readMinor
      obtain ⟨rfl, hpatch⟩ := readComponent_eq_ok_iff.1 readPatch
      exact ⟨⟨more, hvalue⟩, hmajor, hminor, hpatch⟩
  · unfold readVersion
    rw [required_eq_ok_iff.2 hvalue]
    show (do return (⟨← readComponent v.major.toInt32, ← readComponent v.minor.toInt32,
      ← readComponent v.patch.toInt32⟩ : Version)) = _
    rw [readComponent_eq_ok_iff.2 ⟨rfl, hmajor⟩, readComponent_eq_ok_iff.2 ⟨rfl, hminor⟩,
      readComponent_eq_ok_iff.2 ⟨rfl, hpatch⟩]
    rfl

/-- A container holds exactly the storable headers whose own container restores it. -/
theorem read_eq_ok_iff : read s = .ok h ↔ h.IsStorable ∧ Restores s h.container := by
  refine ⟨fun hread => ?_, fun ⟨storable, restores⟩ => ?_⟩
  · obtain ⟨kind, hkind, hread⟩ := ok_of_bind hread
    obtain ⟨version, hversion, hread⟩ := ok_of_bind hread
    obtain ⟨data, hdata, hread⟩ := ok_of_bind hread
    obtain ⟨strings, hstrings, hread⟩ := ok_of_bind hread
    obtain ⟨extraString, hextraString, hread⟩ := ok_of_bind hread
    obtain ⟨packageName, hpackageName, hread⟩ := ok_of_bind hread
    obtain ⟨extraInt, hextraInt, hread⟩ := ok_of_bind hread
    cases hread
    obtain ⟨raw, proper⟩ := MetadataKind.ofRaw_eq_iff.1 (rfl : MetadataKind.ofRaw kind = _)
    obtain ⟨⟨more, hmore⟩, hmajor, hminor, hpatch⟩ := readVersion_eq_ok_iff.1 hversion
    refine ⟨⟨hmajor, hminor, hpatch, proper⟩, fun key hkey => ?_, _, _, _, more, hmore,
      Header.container_text _ .version⟩
    rw [container_text]
    cases key with
    | kind =>
      rw [readInt_eq_ok_iff.1 hkind, value?]
      exact congrArg (fun n => some (ContainerValue.int n)) raw.symm
    | version => exact absurd rfl hkey
    | data => exact (readStrings_eq_ok_iff.1 hdata).symm
    | strings => exact (readStrings_eq_ok_iff.1 hstrings).symm
    | extraString => exact (readString_eq_ok_iff.1 hextraString).symm
    | packageName => exact (readString?_eq_ok_iff.1 hpackageName).symm
    | extraInt => exact (readInt?_eq_ok_iff.1 hextraInt).symm
  · obtain ⟨same, major, minor, patch, more, hversion, components⟩ := restores
    rw [container_text] at components
    cases components
    have found (key : HeaderKey) (hkey : key ≠ .version) : s key.text = h.value? key :=
      (same key hkey).symm.trans (h.container_text key)
    unfold read
    rw [readInt_eq_ok_iff.2 (found .kind nofun),
      readVersion_eq_ok_iff.2
        ⟨⟨more, hversion⟩, storable.major_le, storable.minor_le, storable.patch_le⟩,
      readStrings_eq_ok_iff.2 (found .data nofun), readStrings_eq_ok_iff.2 (found .strings nofun),
      readString_eq_ok_iff.2 (found .extraString nofun),
      readString?_eq_ok_iff.2 (found .packageName nofun),
      readInt?_eq_ok_iff.2 (found .extraInt nofun)]
    show Except.ok (⟨.ofRaw h.kind.raw, _, _, _, _, _, _⟩ : Header) = _
    rw [MetadataKind.ofRaw_eq_iff.2 ⟨rfl, storable.proper⟩]

/-- What is read depends on the parts alone. -/
lemma read_congr (agree : ∀ key ∈ HeaderKey.all, s key.text = t key.text) : read s = read t := by
  have agree (key : HeaderKey) : s key.text = t key.text := agree key (by cases key <;> decide)
  cases hread : read t with
  | ok h =>
    obtain ⟨storable, same, version⟩ := read_eq_ok_iff.1 hread
    refine read_eq_ok_iff.2 ⟨storable, fun key hkey => ?_, ?_⟩
    · rw [agree key]
      exact same key hkey
    · rw [agree .version]
      exact version
  | error e =>
    rw [← failure?_eq_some_iff, failure?_read] at hread ⊢
    rw [← hread]
    exact congrArg (fun f => HeaderKey.all.findSome? f)
      (funext fun key => by rw [report?, report?, agree key])

/-- The container of a header gives back the header exactly if that is storable. What is read from
a container has a container that restores the given one and gives back the same header. Reading
fails exactly if a part has a fault, with the report of the first of these parts, and it looks at
nothing but the parts. -/
theorem read_inverts_container :
    HeaderKey.all.map HeaderKey.text = ["k", "mv", "d1", "d2", "xs", "pn", "xi"] ∧
    (∀ h : Header, read h.container = .ok h ↔ h.IsStorable) ∧
    (∀ s h, read s = .ok h → Restores s h.container ∧ read h.container = .ok h) ∧
    (∀ s e, read s = .error e ↔ HeaderKey.all.findSome? (report? s) = some e) ∧
    ∀ s t : Container, (∀ key ∈ HeaderKey.all, s key.text = t key.text) → read s = read t := by
  have own (h : Header) : read h.container = .ok h ↔ h.IsStorable :=
    read_eq_ok_iff.trans (and_iff_left (Restores.refl h))
  refine ⟨rfl, own, fun s h hread => ?_, fun s e => ?_, fun s t => read_congr⟩
  · obtain ⟨storable, restores⟩ := read_eq_ok_iff.1 hread
    exact ⟨restores, (own h).2 storable⟩
  · rw [← failure?_read]
    exact failure?_eq_some_iff.symm

/-- A version with a fourth component is read without it. -/
theorem read_inverts_container_longVersion :
    let s : Container := .ofEntries [("k", .int 1), ("mv", .ints [1, 8, 0, 7]), ("d1", .strings []),
      ("d2", .strings ["app/Point"]), ("xs", .string ""), ("xi", .int 48)]
    let h : Header := ⟨.classFile, ⟨1, 8, 0⟩, [], ["app/Point"], "", none, some 48⟩
    read s = .ok h ∧ Restores s h.container ∧ read h.container = .ok h := by
  intro s h
  have hread : read s = .ok h := by decide
  exact ⟨hread, read_inverts_container.2.2.1 s h hread⟩

end Header

end ClassMetadata
