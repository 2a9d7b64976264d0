import Mathlib.Tactic.Common
import ClassMetadata.Wire.Field

/-!
# The list of fields, one field at a time

The list of the fields ahead of a cursor begins with what a key and a payload make of the next bytes.
These equations are all that is needed of `Cursor.fields`.
-/

namespace ClassMetadata.Cursor

/-- A key takes bytes, so there are some. -/
lemma hasMore_of_key {c c' : Cursor} {key : Key} (h : Reader.key c = .ok key c') :
    c.hasMore = true := by
  have advanced := Reader.key_advances _ _ _ h
  cases hc : c.ahead with
  | nil =>
    rw [hc, List.length_nil] at advanced
    omega
  | cons b bs => simp [hasMore, hc]

/-- At the end there are no more fields. -/
lemma fields_of_not_hasMore {c : Cursor} (h : ¬ c.hasMore = true) : c.fields = [] := by
  rw [fields, if_neg h]

/-- Bytes that are no key end the list. -/
lemma fields_of_key_error {c c' : Cursor} {e : WireError} (more : c.hasMore = true)
    (hkey : Reader.key c = .error e c') : c.fields = [.unreadable e] := by
  rw [fields, if_pos more]
  split
  · rename_i h
    rw [hkey] at h
    cases h
    rfl
  · rename_i h
    rw [hkey] at h
    cases h

/-- A payload that cannot be read ends the list. -/
lemma fields_of_payload_error {c c₁ c₂ : Cursor} {key : Key} {e : WireError}
    (hkey : Reader.key c = .ok key c₁) (hpayload : Reader.payload key.type c₁ = .error e c₂) :
    c.fields = [.broken key e] := by
  rw [fields, if_pos (hasMore_of_key hkey)]
  split
  · rename_i h
    rw [hkey] at h
    cases h
  · rename_i h
    rw [hkey] at h
    cases h
    split
    · rename_i h
      rw [hpayload] at h
      cases h
      rfl
    · rename_i h
      rw [hpayload] at h
      cases h

/-- A key and its payload are the first field; the others follow. -/
lemma fields_of_payload {c c₁ c₂ : Cursor} {key : Key} {payload : Payload}
    (hkey : Reader.key c = .ok key c₁) (hpayload : Reader.payload key.type c₁ = .ok payload c₂) :
    c.fields = .whole key c₁.position payload :: c₂.fields := by
  rw [fields, if_pos (hasMore_of_key hkey)]
  split
  · rename_i h
    rw [hkey] at h
    cases h
  · rename_i h
    rw [hkey] at h
    cases h
    split
    · rename_i h
      rw [hpayload] at h
      cases h
    · rename_i h
      rw [hpayload] at h
      cases h
      rfl

end ClassMetadata.Cursor
