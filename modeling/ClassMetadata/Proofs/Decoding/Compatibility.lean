import Mathlib
import ClassMetadata.Proofs.Decoding.Kinds

/-!
# Fields that mean nothing

Whoever writes a message may put fields into it that its reader does not know, at every boundary of
fields and in nested messages as well. They make no difference: with them the message is accepted
exactly when it is accepted without, and it gives the same class.

* `Extends` relates a message to the same message with such fields in it. Where they stand in a
  nested message, the length in front of that is the new one.
* `Extends.reads_iff` goes through both messages field by field.
* `extends_decodes_alike` is about whole classes.
-/

namespace ClassMetadata.Descent

/-- The second message is the first one with more fields in it that mean nothing to the kind of
message in which they stand. -/
inductive Extends : MessageKind → List UInt8 → List UInt8 → Prop where
  | nil (kind : MessageKind) : Extends kind [] []
  /-- A field that stands in both. -/
  | keep {kind : MessageKind} {bytes m m' : List UInt8} {key : Key} {payload : Payload} :
    Spells bytes key payload →
    Extends kind m m' →
    Extends kind (bytes ++ m) (bytes ++ m')
  /-- A field that holds a nested message with more fields in it. -/
  | nest {kind child : MessageKind} {bytes bytes' body body' m m' : List UInt8} {key : Key} :
    kind.nested? key.field.toNat = some child →
    Spells bytes key (.block body) →
    Spells bytes' key (.block body') →
    Extends child body body' →
    Extends kind m m' →
    Extends kind (bytes ++ m) (bytes' ++ m')
  /-- A field that means nothing and stands in the second message only. -/
  | insert {kind : MessageKind} {bytes m m' : List UInt8} {key : Key} {payload : Payload} :
    kind.Ignores key →
    Spells bytes key payload →
    Extends kind m m' →
    Extends kind m (bytes ++ m')

/-- A message and its extension are read alike. -/
theorem Extends.reads_iff {table : StringTable} {kind : MessageKind} {m m' : List UInt8}
    (h : Extends kind m m') (s s' : kind.State) :
    Reads (kind.schema table) s m s' ↔ Reads (kind.schema table) s m' s' := by
  induction h with
  | nil kind => exact Iff.rfl
  | @keep kind bytes m m' key payload spelled _ ih =>
    have placeless := schema_placeless table kind
    rw [Reads.append_iff placeless spelled, Reads.append_iff placeless spelled]
    exact exists_congr fun s₁ => and_congr_right fun _ => ih s₁ s'
  | @nest kind child bytes bytes' body body' m m' key hchild spelled spelled' _ _ ihbody ih =>
    have placeless := schema_placeless table kind
    obtain ⟨use, heffect⟩ := effect_nested table hchild spelled.type_eq.symm
    have same : reading table child body = reading table child body' := by
      apply Option.ext
      intro t
      rw [reading_eq_some, reading_eq_some]
      exact ihbody child.start t
    rw [Reads.append_iff placeless spelled, Reads.append_iff placeless spelled']
    refine exists_congr fun s₁ => and_congr ?_ (ih s₁ s')
    rw [heffect, heffect, same]
  | @insert kind bytes m m' key payload ignored spelled _ ih =>
    have placeless := schema_placeless table kind
    rw [Reads.append_iff placeless spelled, effect_of_ignores ignored spelled.type_eq, ih]
    exact ⟨fun h => ⟨s, rfl, h⟩, fun ⟨_, e, h⟩ => Option.some.inj e ▸ h⟩

/-- A class message and its extension are accepted alike and give the same class, whether fields are
put in or taken out. -/
theorem extends_decodes_alike {m m' : List UInt8} (h : Extends (.node .classNode) m m')
    (table : StringTable) (c : ClassDecl) :
    decodeMessage table m = .ok c ↔ decodeMessage table m' = .ok c := by
  rw [decodeMessage_eq_ok_iff, decodeMessage_eq_ok_iff]
  exact exists_congr fun edits => and_congr_left fun _ => h.reads_iff [] edits

/-- A class `A` with a function `f` of one parameter and a property `p` with a backing field. -/
def plainMessage : List UInt8 :=
  [0x18, 0,
    0x4a, 11, 0x10, 1, 0x32, 2, 0x10, 3, 0xa2, 0x06, 2, 0x10, 2,
    0x52, 9, 0x10, 4, 0xa2, 0x06, 4, 0x0a, 2, 0x10, 5]

/-- The same class with fields that mean nothing: four bytes in the class, a number under 100 in the
parameter and in the function, a name in the wrong layout in the signature, another extension in the
function, and a number in the host binding of the property. -/
def extendedMessage : List UInt8 :=
  [0x18, 0,
    0xad, 0x01, 0xde, 0xad, 0xbe, 0xef,
    0x4a, 24, 0x10, 1, 0x32, 5, 0x10, 3, 0xa0, 0x06, 7, 0xa2, 0x06, 5, 0x0a, 1, 0xff, 0x10, 2,
      0xaa, 0x06, 1, 0x2a, 0xa0, 0x06, 5,
    0x52, 11, 0x10, 4, 0xa2, 0x06, 6, 0x0a, 2, 0x10, 5, 0x08, 1]

/-- The second is an extension of the first, and both give the same class. -/
theorem extends_decodes_alike_everywhere :
    Extends (.node .classNode) plainMessage extendedMessage ∧
      ∃ c, decodeMessage ⟨["A", "f", "()V", "x", "p", "I"]⟩ plainMessage = .ok c ∧
        decodeMessage ⟨["A", "f", "()V", "x", "p", "I"]⟩ extendedMessage = .ok c := by
  have parameter : Extends (.node .parameter) [0x10, 3] [0x10, 3, 0xa0, 0x06, 7] :=
    @Extends.keep _ [0x10, 3] _ _ ⟨2, .varint⟩ (.varint 3) ⟨_, _, rfl, rfl, rfl⟩ <|
    @Extends.insert _ [0xa0, 0x06, 7] _ _ ⟨100, .varint⟩ (.varint 7) (by decide)
      ⟨_, _, rfl, rfl, rfl⟩ (.nil _)
  have signature : Extends .hostSignature [0x10, 2] [0x0a, 1, 0xff, 0x10, 2] :=
    @Extends.insert _ [0x0a, 1, 0xff] _ _ ⟨1, .lengthDelimited⟩ (.block [0xff]) (by decide)
      ⟨_, _, rfl, rfl, rfl⟩ <|
    @Extends.keep _ [0x10, 2] _ _ ⟨2, .varint⟩ (.varint 2) ⟨_, _, rfl, rfl, rfl⟩ (.nil _)
  have function : Extends (.node .function)
      [0x10, 1, 0x32, 2, 0x10, 3, 0xa2, 0x06, 2, 0x10, 2]
      [0x10, 1, 0x32, 5, 0x10, 3, 0xa0, 0x06, 7, 0xa2, 0x06, 5, 0x0a, 1, 0xff, 0x10, 2,
        0xaa, 0x06, 1, 0x2a, 0xa0, 0x06, 5] :=
    @Extends.keep _ [0x10, 1] _ _ ⟨2, .varint⟩ (.varint 1) ⟨_, _, rfl, rfl, rfl⟩ <|
    @Extends.nest _ _ [0x32, 2, 0x10, 3] [0x32, 5, 0x10, 3, 0xa0, 0x06, 7] _ _ _ _
      ⟨6, .lengthDelimited⟩ rfl ⟨_, _, rfl, rfl, rfl⟩ ⟨_, _, rfl, rfl, rfl⟩ parameter <|
    @Extends.nest _ _ [0xa2, 0x06, 2, 0x10, 2] [0xa2, 0x06, 5, 0x0a, 1, 0xff, 0x10, 2] _ _ _ _
      ⟨100, .lengthDelimited⟩ rfl ⟨_, _, rfl, rfl, rfl⟩ ⟨_, _, rfl, rfl, rfl⟩ signature <|
    @Extends.insert _ [0xaa, 0x06, 1, 0x2a] _ _ ⟨101, .lengthDelimited⟩ (.block [0x2a]) (by decide)
      ⟨_, _, rfl, rfl, rfl⟩ <|
    @Extends.insert _ [0xa0, 0x06, 5] _ _ ⟨100, .varint⟩ (.varint 5) (by decide)
      ⟨_, _, rfl, rfl, rfl⟩ (.nil _)
  have binding : Extends .propertyBinding [0x0a, 2, 0x10, 5] [0x0a, 2, 0x10, 5, 0x08, 1] :=
    @Extends.keep _ [0x0a, 2, 0x10, 5] _ _ ⟨1, .lengthDelimited⟩ (.block [0x10, 5])
      ⟨_, _, rfl, rfl, rfl⟩ <|
    @Extends.insert _ [0x08, 1] _ _ ⟨1, .varint⟩ (.varint 1) (by decide)
      ⟨_, _, rfl, rfl, rfl⟩ (.nil _)
  have property : Extends (.node .property) [0x10, 4, 0xa2, 0x06, 4, 0x0a, 2, 0x10, 5]
      [0x10, 4, 0xa2, 0x06, 6, 0x0a, 2, 0x10, 5, 0x08, 1] :=
    @Extends.keep _ [0x10, 4] _ _ ⟨2, .varint⟩ (.varint 4) ⟨_, _, rfl, rfl, rfl⟩ <|
    @Extends.nest _ _ [0xa2, 0x06, 4, 0x0a, 2, 0x10, 5] [0xa2, 0x06, 6, 0x0a, 2, 0x10, 5, 0x08, 1]
      _ _ _ _ ⟨100, .lengthDelimited⟩ rfl ⟨_, _, rfl, rfl, rfl⟩ ⟨_, _, rfl, rfl, rfl⟩ binding
      (.nil _)
  have extended : Extends (.node .classNode) plainMessage extendedMessage :=
    @Extends.keep _ [0x18, 0] _ _ ⟨3, .varint⟩ (.varint 0) ⟨_, _, rfl, rfl, rfl⟩ <|
    @Extends.insert _ [0xad, 0x01, 0xde, 0xad, 0xbe, 0xef] _ _ ⟨21, .fixed32⟩
      (.fixed32 [0xde, 0xad, 0xbe, 0xef]) (by decide) ⟨_, _, rfl, rfl, rfl⟩ <|
    @Extends.nest _ _ (plainMessage.drop 2 |>.take 13) (extendedMessage.drop 8 |>.take 26) _ _ _ _
      ⟨9, .lengthDelimited⟩ rfl ⟨_, _, rfl, rfl, rfl⟩ ⟨_, _, rfl, rfl, rfl⟩ function <|
    @Extends.nest _ _ (plainMessage.drop 15) (extendedMessage.drop 34) _ _ _ _
      ⟨10, .lengthDelimited⟩ rfl ⟨_, _, rfl, rfl, rfl⟩ ⟨_, _, rfl, rfl, rfl⟩ property (.nil _)
  have decoded : ∃ c, decodeMessage ⟨["A", "f", "()V", "x", "p", "I"]⟩ plainMessage = .ok c :=
    ⟨.build .default "" [.name "A", .function ⟨.default, "f", some "f()V", [⟨.zero, "x"⟩]⟩,
      .property ⟨.defaultProperty, "p", none, none, some "p:I", none, none, none⟩], by cbv⟩
  obtain ⟨c, hc⟩ := decoded
  exact ⟨extended, c, hc, (extends_decodes_alike extended _ c).1 hc⟩

end ClassMetadata.Descent
