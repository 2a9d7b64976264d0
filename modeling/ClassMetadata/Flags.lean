import ClassMetadata.Text.Numeral

/-!
# Declaration flags

A declaration carries one 32-bit word of traits. A `Flag` names one trait; its `BitField` says which
bits of the word it owns and what they hold when the trait is present. Fields of different flags may
overlap, since a word is read differently for a class, a function, a property or a parameter.

* `Flags.test` asks whether a flag's bits hold its value.
* `Flags.set` writes a flag's value over its bits and leaves all other bits alone
  (`BitField.getLsbD_write`).
-/

namespace ClassMetadata

/-- A run of `width` bits that starts at bit `offset`, and the value it holds. -/
structure BitField where
  offset : Nat
  width : Nat
  value : BitVec width

namespace BitField

/-- The field of a single bit that is set. -/
def bit (offset : Nat) : BitField := ⟨offset, 1, 1⟩

/-- The three bits of the visibility. -/
def visibility (value : BitVec 3) : BitField := ⟨1, 3, value⟩

/-- The two bits of the modality. -/
def modality (value : BitVec 2) : BitField := ⟨4, 2, value⟩

/-- The three bits that tell the kinds of class apart. -/
def classKind (value : BitVec 3) : BitField := ⟨6, 3, value⟩

/-- The two bits that tell how a function or property came to be a member. -/
def memberKind (value : BitVec 2) : BitField := ⟨6, 2, value⟩

/-- The field covers bit `i` of a word. -/
def Covers (f : BitField) (i : Nat) : Prop := f.offset ≤ i ∧ i < f.offset + f.width

/-- Whether a flag covers a bit can be computed. -/
instance (f : BitField) (i : Nat) : Decidable (f.Covers i) :=
  inferInstanceAs (Decidable (_ ∧ _))

/-- The word holds the field's value in the field's bits. -/
def holds (f : BitField) (word : BitVec 32) : Bool :=
  word.extractLsb' f.offset f.width == f.value

/-- The word whose bits are set exactly where the field lies. -/
def mask (f : BitField) : BitVec 32 :=
  (BitVec.allOnes f.width).setWidth 32 <<< f.offset

/-- The word with the field's bits cleared and its value put there. -/
def write (f : BitField) (word : BitVec 32) : BitVec 32 :=
  word &&& ~~~f.mask ||| f.value.setWidth 32 <<< f.offset

/-- After a write, a covered bit comes from the field's value and any other from the word. -/
theorem getLsbD_write (f : BitField) (word : BitVec 32) {i : Nat} (hi : i < 32) :
    (f.write word).getLsbD i =
      if f.Covers i then f.value.getLsbD (i - f.offset) else word.getLsbD i := by
  by_cases hlow : i < f.offset
  · simp [write, mask, Covers, hi, hlow, Nat.not_le.2 hlow]
  · by_cases hhigh : i < f.offset + f.width
    · have hw : i - f.offset < f.width := by omega
      simp [write, mask, Covers, hi, hlow, hhigh, hw, Nat.le_of_not_lt hlow]
    · have hw : ¬ i - f.offset < f.width := by omega
      have hv : f.value.getLsbD (i - f.offset) = false :=
        BitVec.getLsbD_of_ge _ _ (Nat.le_of_not_lt hw)
      simp [write, mask, Covers, hi, hlow, hhigh, hw, hv]

end BitField

/-- A trait of a declaration. -/
inductive Flag where
  | hasAnnotations
  | isInternal | isPrivate | isProtected | isPublic | isPrivateToThis | isLocal
  | isFinal | isOpen | isAbstract | isSealed
  | isClass | isInterface | isEnumClass | isEnumEntry | isAnnotationClass | isObject
  | isCompanionObject
  | isInner | isData | isValue | isFunInterface
  | isSecondary
  | isDeclaration | isFakeOverride | isDelegation | isSynthesized
  | isOperator | isInfix | isInline | isSuspend
  | isVar | hasGetter | hasSetter | isConst | isLateinit | isDelegated
  | declaresDefaultValue | isCrossinline | isNoinline
  deriving DecidableEq, Repr

namespace Flag

/-- Every flag: what any declaration may have, then classes, constructors, members, functions,
properties and parameters. -/
def all : List Flag :=
  [hasAnnotations,
   isInternal, isPrivate, isProtected, isPublic, isPrivateToThis, isLocal,
   isFinal, isOpen, isAbstract, isSealed,
   isClass, isInterface, isEnumClass, isEnumEntry, isAnnotationClass, isObject, isCompanionObject,
   isInner, isData, isValue, isFunInterface,
   isSecondary,
   isDeclaration, isFakeOverride, isDelegation, isSynthesized,
   isOperator, isInfix, isInline, isSuspend,
   isVar, hasGetter, hasSetter, isConst, isLateinit, isDelegated,
   declaresDefaultValue, isCrossinline, isNoinline]

/-- The list of all flags leaves none out. -/
theorem mem_all (flag : Flag) : flag ∈ all := by
  cases flag <;> decide

/-- Where a flag lives in the word. -/
def field : Flag → BitField
  | hasAnnotations => .bit 0
  | isInternal => .visibility 0
  | isPrivate => .visibility 1
  | isProtected => .visibility 2
  | isPublic => .visibility 3
  | isPrivateToThis => .visibility 4
  | isLocal => .visibility 5
  | isFinal => .modality 0
  | isOpen => .modality 1
  | isAbstract => .modality 2
  | isSealed => .modality 3
  | isClass => .classKind 0
  | isInterface => .classKind 1
  | isEnumClass => .classKind 2
  | isEnumEntry => .classKind 3
  | isAnnotationClass => .classKind 4
  | isObject => .classKind 5
  | isCompanionObject => .classKind 6
  | isInner => .bit 9
  | isData => .bit 10
  | isValue => .bit 13
  | isFunInterface => .bit 14
  | isSecondary => .bit 4
  | isDeclaration => .memberKind 0
  | isFakeOverride => .memberKind 1
  | isDelegation => .memberKind 2
  | isSynthesized => .memberKind 3
  | isOperator => .bit 8
  | isInfix => .bit 9
  | isInline => .bit 10
  | isSuspend => .bit 13
  | isVar => .bit 8
  | hasGetter => .bit 9
  | hasSetter => .bit 10
  | isConst => .bit 11
  | isLateinit => .bit 12
  | isDelegated => .bit 15
  | declaresDefaultValue => .bit 1
  | isCrossinline => .bit 2
  | isNoinline => .bit 3

/-- The name under which reports list a flag. -/
def name : Flag → String
  | hasAnnotations => "HasAnnotations"
  | isInternal => "IsInternal"
  | isPrivate => "IsPrivate"
  | isProtected => "IsProtected"
  | isPublic => "IsPublic"
  | isPrivateToThis => "IsPrivateToThis"
  | isLocal => "IsLocal"
  | isFinal => "IsFinal"
  | isOpen => "IsOpen"
  | isAbstract => "IsAbstract"
  | isSealed => "IsSealed"
  | isClass => "IsClass"
  | isInterface => "IsInterface"
  | isEnumClass => "IsEnumClass"
  | isEnumEntry => "IsEnumEntry"
  | isAnnotationClass => "IsAnnotationClass"
  | isObject => "IsObject"
  | isCompanionObject => "IsCompanionObject"
  | isInner => "IsInner"
  | isData => "IsData"
  | isValue => "IsValue"
  | isFunInterface => "IsFunInterface"
  | isSecondary => "IsSecondary"
  | isDeclaration => "IsDeclaration"
  | isFakeOverride => "IsFakeOverride"
  | isDelegation => "IsDelegation"
  | isSynthesized => "IsSynthesized"
  | isOperator => "IsOperator"
  | isInfix => "IsInfix"
  | isInline => "IsInline"
  | isSuspend => "IsSuspend"
  | isVar => "IsVar"
  | hasGetter => "HasGetter"
  | hasSetter => "HasSetter"
  | isConst => "IsConst"
  | isLateinit => "IsLateinit"
  | isDelegated => "IsDelegated"
  | declaresDefaultValue => "DeclaresDefaultValue"
  | isCrossinline => "IsCrossinline"
  | isNoinline => "IsNoinline"

/-- The flag of a given name. -/
def ofName? (text : String) : Option Flag :=
  all.find? (·.name == text)

/-- The bits of every flag lie inside the word. -/
theorem field_le_width (flag : Flag) : flag.field.offset + flag.field.width ≤ 32 := by
  cases flag <;> decide

end Flag

/-- A word of traits. -/
structure Flags where
  bits : UInt32
  deriving DecidableEq, Repr

namespace Flags

/-- The empty word. -/
def zero : Flags := ⟨0⟩

/-- What a class, constructor or function has when nothing is said: public and final. -/
def default : Flags := ⟨6⟩

/-- What a property has when nothing is said: public and final, with a getter. -/
def defaultProperty : Flags := ⟨518⟩

/-- The word has the trait. -/
def test (flags : Flags) (flag : Flag) : Bool :=
  flag.field.holds flags.bits.toBitVec

/-- The word with the trait put in, over whatever shared its bits. -/
def set (flags : Flags) (flag : Flag) : Flags :=
  ⟨⟨flag.field.write flags.bits.toBitVec⟩⟩

/-- The word with traits put in one after the other. -/
def setAll (flags : Flags) (traits : List Flag) : Flags :=
  traits.foldl set flags

/-- The word with these traits, put in order into the empty word. -/
def ofList (traits : List Flag) : Flags :=
  zero.setAll traits

/-- The word as diagnostics show it, in hexadecimal. -/
def describe (flags : Flags) : String :=
  "Flags(0x" ++ String.ofList (Text.hexadecimal flags.bits.toNat) ++ ")"

/-- The traits that a word has, in the order of `Flag.all`. -/
def toList (flags : Flags) : List Flag :=
  Flag.all.filter flags.test

end Flags

end ClassMetadata
