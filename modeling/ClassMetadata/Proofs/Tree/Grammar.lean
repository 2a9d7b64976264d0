import Mathlib.Tactic.Common
import ClassMetadata.Proofs.Decoding.Streaming

/-!
# The grammar of token sequences

A class as a sequence of tokens: each declaration begins, has its details and the declarations that
stand directly in it, and ends.

* `Content` is the grammar, with one production for each thing that a declaration can hold, and
  `IsClass` is its start.
* `openAfter` lists the declarations that tokens leave open. `Closes` is the grammar from such a
  place on, and `closes_cons_iff` takes one token off a sequence that it allows.
* `IsClass.allowed`, `IsClass.nest` and `IsClass.length_openAfter` read off the grammar where a token
  can stand, how declarations nest, and how many are open.
-/

namespace ClassMetadata

open Descent (nested)

/-- A detail can be told of a kind of declaration. -/
def Detail.Suits : Detail → NodeKind → Prop
  | flags _, _ => True
  | name _, kind => kind ∈ [.classNode, .function, .property, .parameter]
  | companion _, kind => kind = .classNode
  | getterFlags _, kind | setterFlags _, kind => kind = .property
  | extension tag _, kind => kind ∈ [.constructor, .function, .property] ∧ 100 ≤ tag.toNat

/-- The tokens between the beginning and the end of a declaration. -/
inductive Content : NodeKind → List Token → Prop where
  | nil {kind : NodeKind} : Content kind []
  | detail {kind : NodeKind} {detail : Detail} {rest : List Token} :
    detail.Suits kind →
    Content kind rest →
    Content kind (.detail detail :: rest)
  | child {kind child : NodeKind} {inner rest : List Token} :
    child ∈ nested kind →
    Content child inner →
    Content kind rest →
    Content kind (.enter child :: (inner ++ .exit child :: rest))

/-- The tokens of a class. -/
def IsClass (word : List Token) : Prop :=
  ∃ content, Content .classNode content ∧
    word = .enter .classNode :: (content ++ [.exit .classNode])

/-! ## Open declarations -/

namespace Token

/-- The open declarations after a token, innermost first. -/
def apply (kinds : List NodeKind) : Token → List NodeKind
  | enter kind => kind :: kinds
  | exit _ => kinds.tail
  | detail _ => kinds

/-- A token can stand in open declarations: it tells something of the innermost one, opens another
one directly in it, or ends it. -/
def Allowed : List NodeKind → Token → Prop
  | [], _ => False
  | kind :: _, enter child => child ∈ nested kind
  | kind :: _, exit ended => ended = kind
  | kind :: _, detail d => d.Suits kind

/-- The token begins a declaration. -/
def isEnter : Token → Bool
  | enter _ => true
  | _ => false

/-- The token ends a declaration. -/
def isExit : Token → Bool
  | exit _ => true
  | _ => false

end Token

/-- The declarations that are open behind tokens, innermost first. -/
def openAfter (tokens : List Token) : List NodeKind := tokens.foldl Token.apply []

/-- Tokens bring open declarations to their ends. -/
inductive Closes : List NodeKind → List Token → Prop where
  | nil : Closes [] []
  | ends {kind : NodeKind} {kinds : List NodeKind} {inner rest : List Token} :
    Content kind inner →
    Closes kinds rest →
    Closes (kind :: kinds) (inner ++ .exit kind :: rest)

section

variable {kind : NodeKind} {kinds : List NodeKind} {token : Token} {before rest word : List Token}

/-- What ends open declarations begins with a token that can stand in them, and then ends those that
are open after it. -/
theorem closes_cons_iff :
    Closes kinds (token :: rest) ↔ token.Allowed kinds ∧ Closes (token.apply kinds) rest := by
  refine ⟨fun h => ?_, fun ⟨allowed, h⟩ => ?_⟩
  · generalize hword : token :: rest = word at h
    cases h with
    | nil => cases hword
    | ends content tail =>
      cases content with
      | nil =>
        cases hword
        exact ⟨rfl, tail⟩
      | detail suits content =>
        cases hword
        exact ⟨suits, .ends content tail⟩
      | child direct inner content =>
        cases hword
        refine ⟨direct, ?_⟩
        have := Closes.ends inner (.ends content tail)
        rwa [← List.cons_append, ← List.append_assoc] at this
  · cases kinds with
    | nil => exact allowed.elim
    | cons kind kinds =>
      cases token with
      | exit ended =>
        cases allowed
        exact .ends .nil h
      | detail d =>
        cases h with
        | ends content tail => exact .ends (.detail allowed content) tail
      | enter child =>
        -- the child ends first, and its parent is ended by what is behind that
        cases h with
        | ends inner h =>
          cases h with
          | ends content tail =>
            have := Closes.ends (.child allowed inner content) tail
            rwa [List.cons_append, List.append_assoc] at this

/-- A class does not begin within anything. -/
lemma not_allowed_class : ¬ (Token.enter .classNode).Allowed kinds := by
  cases kinds with
  | nil => exact id
  | cons kind kinds => cases kind <;> simp [Token.Allowed, nested]

/-- Open declarations can be ended at once. -/
lemma exists_closes (kinds : List NodeKind) : ∃ rest, Closes kinds rest := by
  induction kinds with
  | nil => exact ⟨[], .nil⟩
  | cons kind kinds ih =>
    obtain ⟨rest, h⟩ := ih
    exact ⟨.exit kind :: rest, .ends .nil h⟩

/-- What ends open declarations goes on from each of its places. -/
lemma Closes.behind (h : Closes kinds (before ++ rest)) :
    Closes (before.foldl Token.apply kinds) rest := by
  induction before generalizing kinds with
  | nil => exact h
  | cons token before ih => exact ih (closes_cons_iff.1 h).2

/-- Every token opens or ends as many declarations as it should. -/
lemma Closes.length_behind (h : Closes kinds (before ++ rest)) :
    (before.foldl Token.apply kinds).length + before.countP Token.isExit =
      kinds.length + before.countP Token.isEnter := by
  induction before generalizing kinds with
  | nil => rfl
  | cons token before ih =>
    obtain ⟨allowed, tail⟩ := closes_cons_iff.1 h
    have later := ih tail
    cases kinds with
    | nil => exact allowed.elim
    | cons kind kinds =>
      rw [List.countP_cons, List.countP_cons]
      cases token <;> simp [Token.apply, Token.isEnter, Token.isExit] at later ⊢ <;> omega

/-! ## Nesting -/

/-- How far down a kind of declaration stands. -/
def NodeKind.level : NodeKind → Nat
  | classNode => 1
  | constructor | function | property => 2
  | parameter => 3

/-- Declarations can be open together. -/
inductive Nest : List NodeKind → Prop where
  | nil : Nest []
  | root : Nest [.classNode]
  | inner {kind outer : NodeKind} {kinds : List NodeKind} :
    kind ∈ nested outer →
    Nest (outer :: kinds) →
    Nest (kind :: outer :: kinds)

/-- What is nested in a declaration is one level below it. -/
lemma level_of_nested {outer : NodeKind} (h : kind ∈ nested outer) :
    kind.level = outer.level + 1 := by
  cases outer <;> simp [nested] at h <;> rcases h with rfl | rfl | rfl <;> rfl

/-- As many declarations are open as the level of the innermost tells. -/
lemma Nest.length_eq (h : Nest (kind :: kinds)) : (kind :: kinds).length = kind.level := by
  generalize hkinds : kind :: kinds = all at h
  induction h generalizing kind kinds with
  | nil => cases hkinds
  | root =>
    cases hkinds
    rfl
  | inner direct _ ih =>
    cases hkinds
    rw [List.length_cons, ih rfl, level_of_nested direct]

/-- No more than three declarations are ever open. -/
lemma Nest.length_le (h : Nest kinds) : kinds.length ≤ 3 := by
  cases kinds with
  | nil => exact Nat.zero_le 3
  | cons kind kinds =>
    rw [h.length_eq]
    cases kind <;> decide

/-- A token that is allowed leaves declarations open that are nested in each other. -/
lemma Nest.apply (h : Nest kinds) (allowed : token.Allowed kinds) : Nest (token.apply kinds) := by
  cases kinds with
  | nil => exact allowed.elim
  | cons kind kinds =>
    cases token with
    | enter child => exact .inner allowed h
    | exit ended =>
      cases h with
      | root => exact .nil
      | inner _ h => exact h
    | detail d => exact h

/-- Behind any tokens of a class the declarations open are nested in each other. -/
lemma Nest.behind (h : Nest kinds) (closes : Closes kinds (before ++ rest)) :
    Nest (before.foldl Token.apply kinds) := by
  induction before generalizing kinds with
  | nil => exact h
  | cons token before ih =>
    obtain ⟨allowed, tail⟩ := closes_cons_iff.1 closes
    exact ih (h.apply allowed) tail

/-! ## Classes -/

namespace IsClass

/-- The tokens of a class begin it and then close it. -/
lemma cons_iff : IsClass (token :: rest) ↔ token = .enter .classNode ∧ Closes [.classNode] rest := by
  refine ⟨fun ⟨content, h, heq⟩ => ?_, fun ⟨htoken, h⟩ => ?_⟩
  · cases heq
    exact ⟨rfl, .ends h .nil⟩
  · cases h with
    | ends content tail =>
      cases tail
      exact ⟨_, content, by rw [htoken]⟩

/-- A token behind others can stand in what they leave open. -/
lemma allowed (h : IsClass (before ++ token :: rest)) (hne : before ≠ []) :
    token.Allowed (openAfter before) := by
  cases before with
  | nil => exact absurd rfl hne
  | cons first before =>
    obtain ⟨rfl, closes⟩ := cons_iff.1 h
    exact (closes_cons_iff.1 closes.behind).1

/-- Tokens at the beginning leave declarations open that can be open together. -/
lemma nest (h : IsClass (before ++ rest)) : Nest (openAfter before) := by
  cases before with
  | nil => exact .nil
  | cons first before =>
    obtain ⟨rfl, closes⟩ := cons_iff.1 h
    exact Nest.root.behind closes

/-- Tokens at the beginning leave as many declarations open as begin more than end. -/
lemma length_openAfter (h : IsClass (before ++ rest)) :
    (openAfter before).length + before.countP Token.isExit = before.countP Token.isEnter := by
  cases before with
  | nil => rfl
  | cons first before =>
    obtain ⟨rfl, closes⟩ := cons_iff.1 h
    have := closes.length_behind
    rw [List.countP_cons, List.countP_cons]
    simp [openAfter, Token.apply, Token.isEnter, Token.isExit] at this ⊢
    omega

end IsClass

end

end ClassMetadata
