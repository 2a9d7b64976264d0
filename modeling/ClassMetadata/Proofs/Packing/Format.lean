import Mathlib.Data.List.Nodup
import ClassMetadata.Proofs.Packing.RoundTrip

/-!
# What packed strings stand for

Unpacking told by the strings alone: from their first character, the characters behind its mark, and
where a character stands that is out of bounds.

* `Marks` tells the scheme and the length of the mark, and `Scheme.Spells` which bytes characters
  stand for. For septets this is bit by bit: `Bits.getElem?_ofNat` and `getElem?_flatMap` give the
  bits of a stream, and `bits_bytesOfBits` those of the bytes made of it.
* `IsFirstExcess` is the first character in reading order that exceeds the limit; `locate` lists the
  characters in that order (`pairwise_locate`).
* `decode_follows_format` puts this together.
-/

namespace ClassMetadata.Packing

variable {α β : Type}

/-! ## Streams of bits -/

/-- The bits of a number stand at their places. -/
lemma Bits.getElem?_ofNat (width n i : Nat) :
    (Bits.ofNat width n)[i]? = if i < width then some (n.testBit i) else none := by
  induction width generalizing n i with
  | zero => rfl
  | succ width ih =>
    cases i with
    | zero => simp [Bits.ofNat, Nat.testBit_zero, Bool.beq_eq_decide_eq]
    | succ i => simp [Bits.ofNat, ih, Nat.testBit_succ]

/-- Where every member makes as many, a place in what they make tells the member and a place in what
that one makes. -/
lemma getElem?_flatMap {f : α → List β} {width : Nat} (hwidth : 0 < width)
    (h : ∀ a, (f a).length = width) (l : List α) (k : Nat) :
    (l.flatMap f)[k]? = l[k / width]?.bind fun a => (f a)[k % width]? := by
  induction l generalizing k with
  | nil => simp
  | cons a l ih =>
    rw [List.flatMap_cons]
    by_cases first : k < width
    · rw [List.getElem?_append_left (by rw [h]; exact first), Nat.div_eq_of_lt first,
        Nat.mod_eq_of_lt first]
      rfl
    · obtain ⟨k, rfl⟩ := Nat.exists_eq_add_of_le (Nat.le_of_not_lt first)
      rw [List.getElem?_append_right (by rw [h]; omega), h, Nat.add_sub_cancel_left, ih,
        Nat.add_div_left k hwidth, Nat.add_mod_left, List.getElem?_cons_succ]

/-- Eight bits are the bits of the byte that they fill. -/
lemma bitsOfByte_ofNat {bits : List Bool} (h : bits.length = 8) :
    bitsOfByte (UInt8.ofNat (Bits.toNat bits)) = bits := by
  have small : Bits.toNat bits < 2 ^ 8 := Bits.toNat_lt_of_le (Nat.le_of_eq h)
  rw [bitsOfByte, UInt8.toNat_ofNat', Nat.mod_eq_of_lt small, ← h, Bits.ofNat_toNat]

/-- The bytes that bits fill have these bits, up to the last whole byte. -/
lemma bits_bytesOfBits (bits : List Bool) :
    (bytesOfBits bits).flatMap bitsOfByte = bits.take (8 * (bits.length / 8)) := by
  induction bits using @pieces_induction Bool 8 (by decide) with
  | nil => simp [bytesOfBits]
  | step bits hbits ih =>
    rw [bytesOfBits] at ih ⊢
    rw [pieces_cons (by decide) hbits]
    by_cases full : 8 ≤ bits.length
    · have whole : (bits.take 8).length = 8 := by
        rw [List.length_take]
        omega
      have count : 8 * (bits.length / 8) = 8 + 8 * ((bits.length - 8) / 8) := by omega
      rw [List.filter_cons_of_pos (by rw [whole]; rfl), List.map_cons, List.flatMap_cons, ih,
        bitsOfByte_ofNat whole, List.length_drop, count, List.take_add]
    · -- fewer than eight bits are left, and they fill no byte
      have short : (bits.take 8).length ≠ 8 := by
        rw [List.length_take]
        omega
      have rest : bits.drop 8 = [] := List.drop_eq_nil_of_le (by omega)
      have none : bits.length / 8 = 0 := by omega
      rw [List.filter_cons_of_neg (by rw [beq_iff_eq]; exact short), rest, pieces_nil, none]
      simp

/-- Eight bits make a byte. -/
lemma length_bytesOfBits (bits : List Bool) : (bytesOfBits bits).length = bits.length / 8 := by
  have lengths := congrArg List.length (bits_bytesOfBits bits)
  rw [length_flatMap length_bitsOfByte, List.length_take] at lengths
  omega

/-! ## Schemes -/

/-- A character stands at this place of this string. -/
def CharAt (strings : List String) (index offset : Nat) (c : Char) : Prop :=
  ∃ string, strings[index]? = some string ∧ string.toList[offset]? = some c

/-- The scheme of packed strings and the length of the mark, by how the first string begins. -/
inductive Marks (strings : List String) : Scheme → Nat → Prop where
  | bytewise (first : CharAt strings 0 0 '\x00') : Marks strings .bytewise 1
  | septets (first : CharAt strings 0 0 '\uffff') : Marks strings .septets 1
  | unmarked (first : ∀ c, CharAt strings 0 0 c → c ≠ '\x00' ∧ c ≠ '\uffff') :
    Marks strings .septets 0

/-- The bytes that the characters behind the mark stand for. Bytewise they are the numbers of the
characters. The bits of septets come from the characters in turn, seven from each, out of its number
less one; and there are as many bytes as these bits fill. -/
def Scheme.Spells : Scheme → List Char → List UInt8 → Prop
  | bytewise, chars, bytes => bytes.map UInt8.toNat = chars.map Char.toNat
  | septets, chars, bytes => bytes.length = 7 * chars.length / 8 ∧
    ∀ k < 8 * bytes.length, ∃ byte c, bytes[k / 8]? = some byte ∧ chars[k / 7]? = some c ∧
      byte.toNat.testBit (k % 8) = ((c.toNat + 127) % 128).testBit (k % 7)

/-- The first character is the one at the first place of the first string. -/
lemma charAt_first_iff {strings : List String} {c : Char} :
    CharAt strings 0 0 c ↔ strings.head?.bind (·.toList.head?) = some c := by
  rw [Option.bind_eq_some_iff]
  simp only [CharAt, List.head?_eq_getElem?]

/-- How the first string begins tells the scheme and the length of the mark. -/
lemma marks_scheme (strings : List String) :
    Marks strings (scheme strings).1 (scheme strings).2 := by
  have first {c : Char} :
      CharAt strings 0 0 c ↔ strings.head?.bind (·.toList.head?) = some c := charAt_first_iff
  rw [scheme]
  cases h : strings.head?.bind (·.toList.head?) with
  | none =>
    refine .unmarked fun c hc => ?_
    rw [first, h] at hc
    cases hc
  | some c =>
    dsimp only
    by_cases bytewise : c = bytewiseMark
    · rw [if_pos bytewise]
      exact .bytewise (first.2 (by rw [h, bytewise]; rfl))
    · rw [if_neg bytewise]
      by_cases septets : c = septetMark
      · rw [if_pos septets]
        exact .septets (first.2 (by rw [h, septets]; rfl))
      · rw [if_neg septets]
        refine .unmarked fun c' hc' => ?_
        rw [first, h] at hc'
        cases hc'
        exact ⟨bytewise, septets⟩

/-- Characters are turned into the bytes that they stand for. -/
lemma spells_bytes (s : Scheme) {chars : List Char} (h : ∀ c ∈ chars, c.toNat ≤ s.limit) :
    s.Spells chars (s.bytes chars) := by
  cases s with
  | bytewise =>
    show (chars.map fun c => UInt8.ofNat c.toNat).map UInt8.toNat = chars.map Char.toNat
    rw [List.map_map]
    refine List.map_congr_left fun c hc => ?_
    have small : c.toNat ≤ 255 := h c hc
    show (UInt8.ofNat c.toNat).toNat = c.toNat
    rw [UInt8.toNat_ofNat']
    omega
  | septets =>
    have units : ∀ unit ∈ chars.map septet, unit < 2 ^ 7 :=
      List.forall_mem_map.2 fun c _ => Nat.mod_lt _ (by decide)
    rw [Scheme.bytes, bytesOfSeptets_eq units]
    let stream := (chars.map septet).flatMap (Bits.ofNat 7)
    have length : stream.length = 7 * chars.length := by
      rw [length_flatMap (Bits.length_ofNat 7), List.length_map]
    have count : (bytesOfBits stream).length = 7 * chars.length / 8 := by
      rw [length_bytesOfBits, length]
    refine ⟨count, fun k hk => ?_⟩
    replace hk : k < 8 * (bytesOfBits stream).length := hk
    have hbyte : k / 8 < (bytesOfBits stream).length := by omega
    have hchar : k / 7 < chars.length := by omega
    have bit := congrArg (·[k]?) (bits_bytesOfBits stream)
    rw [getElem?_flatMap (by decide) length_bitsOfByte, List.getElem?_take_of_lt (by omega),
      getElem?_flatMap (by decide) (Bits.length_ofNat 7), List.getElem?_map,
      List.getElem?_eq_getElem hbyte, List.getElem?_eq_getElem hchar, Option.map_some,
      Option.bind_some, Option.bind_some, bitsOfByte, Bits.getElem?_ofNat, Bits.getElem?_ofNat,
      if_pos (Nat.mod_lt k (by decide)), if_pos (Nat.mod_lt k (by decide))] at bit
    exact ⟨_, _, List.getElem?_eq_getElem hbyte, List.getElem?_eq_getElem hchar,
      Option.some.inj bit⟩

/-! ## Reading order -/

/-- A character behind the mark, which is at the start of the first string, exceeds the limit. -/
structure Exceeds (strings : List String) (mark limit index offset : Nat) (c : Char) : Prop where
  charAt : CharAt strings index offset c
  behind : mark ≤ index + offset
  exceeds : limit < c.toNat

/-- The first character in reading order that exceeds the limit. -/
def IsFirstExcess (strings : List String) (mark limit index offset : Nat) (c : Char) : Prop :=
  Exceeds strings mark limit index offset c ∧ ∀ index' offset' c',
    Exceeds strings mark limit index' offset' c' →
      index < index' ∨ index = index' ∧ offset ≤ offset'

/-- The one character is read before the other. -/
def Located.Before (a b : Located) : Prop :=
  a.index < b.index ∨ a.index = b.index ∧ a.offset < b.offset

/-- A character is located where it stands. -/
lemma mem_locate_iff {strings : List String} {l : Located} :
    l ∈ locate strings ↔ CharAt strings l.index l.offset l.char := by
  simp only [locate, List.mem_flatMap, List.mem_map, Prod.exists, List.mem_zipIdx_iff_getElem?]
  constructor
  · rintro ⟨string, index, hindex, c, offset, hoffset, rfl⟩
    exact ⟨string, hindex, hoffset⟩
  · rintro ⟨string, hindex, hoffset⟩
    exact ⟨string, _, hindex, _, _, hoffset, rfl⟩

/-- Numbered members are in the order of their numbers. -/
lemma pairwise_zipIdx (l : List α) : l.zipIdx.Pairwise fun a b => a.2 < b.2 := by
  rw [← List.pairwise_map, List.zipIdx_map_snd]
  exact List.pairwise_lt_range' 1

/-- The characters are listed in reading order. -/
lemma pairwise_locate (strings : List String) : (locate strings).Pairwise Located.Before := by
  rw [locate, List.pairwise_flatMap]
  refine ⟨fun e _ => ?_, (pairwise_zipIdx strings).imp fun {a b} before => ?_⟩
  · rw [List.pairwise_map]
    exact (pairwise_zipIdx e.1.toList).imp fun before => .inr ⟨rfl, before⟩
  · intro l hl l' hl'
    obtain ⟨_, -, rfl⟩ := List.mem_map.1 hl
    obtain ⟨_, -, rfl⟩ := List.mem_map.1 hl'
    exact .inl before

namespace Located

/-- The character exceeds the limit. -/
def exceeds (limit : Nat) (l : Located) : Bool := limit < l.char.toNat

/-- Of two characters at most one is before the other. -/
lemma Before.asymm {a b : Located} (h : a.Before b) : ¬ b.Before a := by
  unfold Before at h ⊢
  omega

/-- Of characters in reading order, the first with a property is the one that none of the others with
it is read before. -/
lemma find?_eq_some_iff {ls : List Located} (order : ls.Pairwise Before) {p : Located → Bool}
    {l : Located} : ls.find? p = some l ↔ (l ∈ ls ∧ p l) ∧ ∀ l' ∈ ls, p l' → ¬ l'.Before l := by
  rw [List.find?_eq_some_iff_append]
  refine ⟨?_, fun ⟨⟨mem, hp⟩, first⟩ => ⟨hp, ?_⟩⟩
  · rintro ⟨hp, before, after, rfl, none⟩
    refine ⟨⟨List.mem_append_right _ List.mem_cons_self, hp⟩, fun l' hl' hp' => ?_⟩
    rcases List.mem_append.1 hl' with front | back
    · have := none l' front
      rw [hp'] at this
      cases this
    · rcases List.mem_cons.1 back with rfl | behind
      · exact fun h => h.asymm h
      · obtain ⟨-, order, -⟩ := List.pairwise_append.1 order
        exact ((List.pairwise_cons.1 order).1 l' behind).asymm
  · obtain ⟨before, after, rfl⟩ := List.append_of_mem mem
    refine ⟨before, after, rfl, fun l' hl' => ?_⟩
    rw [Bool.not_eq_true', ← Bool.not_eq_true]
    exact fun hp' => first l' (List.mem_append_left _ hl') hp'
      ((List.pairwise_append.1 order).2.2 l' hl' l List.mem_cons_self)

end Located

section

variable {strings : List String} {s : Scheme} {mark : Nat}

/-- Where there is a first character of the first string, it is listed first. -/
lemma locate_eq_cons {c : Char} (h : CharAt strings 0 0 c) :
    ∃ ls, locate strings = ⟨0, 0, c⟩ :: ls ∧ ∀ l ∈ ls, 1 ≤ l.index + l.offset := by
  have mem : ⟨0, 0, c⟩ ∈ locate strings := mem_locate_iff.2 h
  have order := pairwise_locate strings
  cases hls : locate strings with
  | nil =>
    rw [hls] at mem
    cases mem
  | cons l ls =>
    rw [hls] at mem order
    obtain ⟨before, -⟩ := List.pairwise_cons.1 order
    rcases List.mem_cons.1 mem with rfl | behind
    · refine ⟨ls, rfl, fun l hl => ?_⟩
      rcases before l hl with later | ⟨-, later⟩
      · exact Nat.le_trans later (Nat.le_add_right _ _)
      · exact Nat.le_trans later (Nat.le_add_left _ _)
    · -- nothing is read before the first place
      rcases before _ behind with later | ⟨-, later⟩
      · exact absurd later (Nat.not_lt_zero _)
      · exact absurd later (Nat.not_lt_zero _)

/-- The characters behind the mark are those that do not stand at its place. -/
lemma mem_drop_locate_iff (h : Marks strings s mark) {l : Located} :
    l ∈ (locate strings).drop mark ↔
      CharAt strings l.index l.offset l.char ∧ mark ≤ l.index + l.offset := by
  have marked {c : Char} (first : CharAt strings 0 0 c) : l ∈ (locate strings).drop 1 ↔
      CharAt strings l.index l.offset l.char ∧ 1 ≤ l.index + l.offset := by
    obtain ⟨ls, hls, later⟩ := locate_eq_cons first
    rw [← mem_locate_iff, hls, List.drop_one, List.tail_cons]
    refine ⟨fun hl => ⟨List.mem_cons_of_mem _ hl, later l hl⟩, fun ⟨hl, behind⟩ => ?_⟩
    rcases List.mem_cons.1 hl with rfl | hl
    · cases behind
    · exact hl
  cases h with
  | bytewise first => exact marked first
  | septets first => exact marked first
  | unmarked first =>
    rw [List.drop_zero, mem_locate_iff]
    exact ⟨fun h => ⟨h, Nat.zero_le _⟩, And.left⟩

/-- The first excess is what is found first among the located characters. -/
lemma isFirstExcess_iff (h : Marks strings s mark) {limit index offset : Nat} {c : Char} :
    IsFirstExcess strings mark limit index offset c ↔
      ((locate strings).drop mark).find? (Located.exceeds limit) = some ⟨index, offset, c⟩ := by
  have order := (pairwise_locate strings).sublist (List.drop_sublist mark (locate strings))
  have exceeds_iff {l : Located} : l ∈ (locate strings).drop mark ∧ l.exceeds limit ↔
      Exceeds strings mark limit l.index l.offset l.char := by
    rw [mem_drop_locate_iff h, Located.exceeds, decide_eq_true_eq]
    exact ⟨fun ⟨⟨charAt, behind⟩, exceeds⟩ => ⟨charAt, behind, exceeds⟩,
      fun ⟨charAt, behind, exceeds⟩ => ⟨⟨charAt, behind⟩, exceeds⟩⟩
  rw [Located.find?_eq_some_iff order, exceeds_iff]
  refine and_congr_right fun _ => ⟨fun first l hl exceeds before => ?_, fun first i j c' other => ?_⟩
  · have place := first _ _ _ (exceeds_iff.1 ⟨hl, exceeds⟩)
    simp only [Located.Before] at before
    omega
  · obtain ⟨hl, exceeds⟩ := exceeds_iff (l := ⟨i, j, c'⟩).2 other
    have place := first _ hl exceeds
    simp only [Located.Before] at place
    omega

end

/-! ## Unpacking -/

/-- Characters are accepted up to the first that exceeds the limit. -/
lemma mapM_within_eq (limit : Nat) (ls : List Located) : ls.mapM (Located.within limit) =
    match ls.find? (Located.exceeds limit) with
    | none => .ok (ls.map Located.char)
    | some l => .error (.malformedData l.index l.offset l.char limit) := by
  induction ls with
  | nil => rfl
  | cons l ls ih =>
    rw [List.mapM_cons, List.find?_cons, Located.within, Located.exceeds]
    by_cases within : l.char.toNat ≤ limit
    · have keeps : ¬ limit < l.char.toNat := by omega
      rw [if_pos within, ih, decide_eq_false keeps]
      cases ls.find? (Located.exceeds limit) <;> rfl
    · have exceeds : limit < l.char.toNat := by omega
      rw [if_neg within, decide_eq_true exceeds]
      rfl

/-- Unpacking is to look for the first excess, and without one to take the bytes of the characters.
-/
lemma decode_eq (strings : List String) : decode strings =
    match ((locate strings).drop (scheme strings).2).find?
      (Located.exceeds (scheme strings).1.limit) with
    | none => .ok ((scheme strings).1.bytes ((String.join strings).toList.drop (scheme strings).2))
    | some l => .error (.malformedData l.index l.offset l.char (scheme strings).1.limit) := by
  rw [String.toList_join, ← chars_locate, ← List.map_drop]
  show (do
    let chars ← ((locate strings).drop (scheme strings).2).mapM
      (Located.within (scheme strings).1.limit)
    return (scheme strings).1.bytes chars) = _
  rw [mapM_within_eq]
  cases ((locate strings).drop (scheme strings).2).find?
    (Located.exceeds (scheme strings).1.limit) <;> rfl

/-- None of the characters behind the mark is found to exceed a limit if all keep to it. -/
lemma find?_exceeds_eq_none_iff {strings : List String} {mark limit : Nat} :
    ((locate strings).drop mark).find? (Located.exceeds limit) = none ↔
      ∀ c ∈ (String.join strings).toList.drop mark, c.toNat ≤ limit := by
  rw [String.toList_join, ← chars_locate, ← List.map_drop, List.forall_mem_map, List.find?_eq_none]
  simp only [Located.exceeds, decide_eq_true_eq, Nat.not_lt]

/-- Whether strings are unpacked, and into what, is told by the scheme and by all characters. -/
lemma toOption_decode (strings : List String) : (decode strings).toOption =
    if ∀ c ∈ (String.join strings).toList.drop (scheme strings).2,
      c.toNat ≤ (scheme strings).1.limit then
      some ((scheme strings).1.bytes ((String.join strings).toList.drop (scheme strings).2))
    else none := by
  rw [decode_eq]
  split
  · rename_i within
    rw [if_pos (find?_exceeds_eq_none_iff.1 within)]
    rfl
  · rename_i exceeds
    rw [if_neg]
    · rfl
    · rw [← find?_exceeds_eq_none_iff, exceeds]
      exact Option.some_ne_none _

/-- Where the first string is not empty, the scheme and the mark are told by the first of all
characters. -/
lemma scheme_eq {strings strings' : List String} (h : ∃ c, CharAt strings 0 0 c)
    (h' : ∃ c, CharAt strings' 0 0 c) (same : String.join strings = String.join strings') :
    scheme strings = scheme strings' := by
  have first {strings : List String} {c : Char} (h : CharAt strings 0 0 c) :
      (String.join strings).toList.head? = some c := by
    obtain ⟨ls, hls, -⟩ := locate_eq_cons h
    rw [String.toList_join, ← chars_locate, hls]
    rfl
  obtain ⟨c, hc⟩ := h
  obtain ⟨c', hc'⟩ := h'
  have : some c = some c' := by rw [← first hc, ← first hc', same]
  cases this
  rw [scheme, scheme, charAt_first_iff.1 hc, charAt_first_iff.1 hc']

/-- Unpacking by its format. The first character of the first string tells the scheme and whether
there is a mark. If the characters behind the mark keep to the limit, they spell the bytes; otherwise
the first in reading order that does not is reported with its string and its place, where the mark
counts. If the first string is not empty, it does not matter how the text is split into strings. -/
theorem decode_follows_format (strings : List String) :
    (∃ s mark, Marks strings s mark ∧
      ((∀ c ∈ (String.join strings).toList.drop mark, c.toNat ≤ s.limit) →
        ∃ bytes, decode strings = .ok bytes ∧
          s.Spells ((String.join strings).toList.drop mark) bytes) ∧
      ∀ e, decode strings = .error e ↔ ∃ index offset c,
        IsFirstExcess strings mark s.limit index offset c ∧
          e = .malformedData index offset c s.limit) ∧
    ∀ strings', (∃ c, CharAt strings 0 0 c) → (∃ c, CharAt strings' 0 0 c) →
      String.join strings = String.join strings' →
        (decode strings).toOption = (decode strings').toOption := by
  have marks := marks_scheme strings
  have decoded := decode_eq strings
  refine ⟨⟨_, _, marks, fun within => ?_, fun e => ?_⟩, fun strings' h h' same => ?_⟩
  · rw [find?_exceeds_eq_none_iff.2 within] at decoded
    exact ⟨_, decoded, spells_bytes _ within⟩
  · simp only [isFirstExcess_iff marks]
    rw [decoded]
    cases ((locate strings).drop (scheme strings).2).find?
        (Located.exceeds (scheme strings).1.limit) with
    | none => exact ⟨nofun, fun ⟨_, _, _, found, _⟩ => nomatch found⟩
    | some l =>
      refine ⟨?_, fun ⟨index, offset, c, found, fault⟩ => ?_⟩
      · rintro ⟨⟩
        exact ⟨l.index, l.offset, l.char, rfl, rfl⟩
      · cases found
        exact congrArg Except.error fault.symm
  · rw [toOption_decode, toOption_decode, scheme_eq h h' same, same]

/-- Text of septets behind their mark, split in two ways. -/
theorem decode_follows_format_split :
    let strings := ["\uffff\x00", "", "\x04\x01"]
    let strings' := ["\uffff", "\x00\x04\x01"]
    CharAt strings 0 0 '\uffff' ∧ CharAt strings' 0 0 '\uffff' ∧
      (∀ c ∈ (String.join strings).toList.drop 1, c.toNat ≤ Scheme.septets.limit) ∧
      String.join strings = String.join strings' ∧
      (∃ bytes, decode strings = .ok bytes ∧
        Scheme.septets.Spells ((String.join strings).toList.drop 1) bytes) ∧
      (decode strings).toOption = (decode strings').toOption := by
  intro strings strings'
  have first : CharAt strings 0 0 '\uffff' := ⟨_, rfl, rfl⟩
  have first' : CharAt strings' 0 0 '\uffff' := ⟨_, rfl, rfl⟩
  have chars : (String.join strings).toList = ['\uffff', '\x00', '\x04', '\x01'] := by
    rw [String.toList_join]
    rfl
  have within : ∀ c ∈ (String.join strings).toList.drop 1, c.toNat ≤ Scheme.septets.limit := by
    rw [chars]
    simp [Scheme.limit]
  have same : String.join strings = String.join strings' := by
    rw [← String.toList_inj, chars, String.toList_join]
    rfl
  obtain ⟨⟨s, mark, marks, unpacked, -⟩, anyhow⟩ := decode_follows_format strings
  refine ⟨first, first', within, same, ?_, anyhow strings' ⟨_, first⟩ ⟨_, first'⟩ same⟩
  have only {c : Char} (h : CharAt strings 0 0 c) : c = '\uffff' :=
    Option.some.inj ((charAt_first_iff.1 h).symm.trans (charAt_first_iff.1 first))
  cases marks with
  | bytewise h => exact absurd (only h) (by decide)
  | septets => exact unpacked within
  | unmarked h => exact absurd rfl (h _ first).2

end ClassMetadata.Packing
