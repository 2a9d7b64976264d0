import ClassMetadata.Wire.Write

/-!
# Drafts of a message

A `Draft` is a field of a message in which names still are texts. The string table of a message
comes from its draft: every text in it once, in the order of first use. When the table is known, the
texts become their places in it.

* `Draft.texts` lists the texts in the order in which they are written.
* `Draft.write` is the field with every text replaced by its place in a table.
-/

namespace ClassMetadata

/-- A field of a message that is not yet tied to a string table. -/
inductive Draft where
  /-- A field with a word. -/
  | word (field : UInt32) (value : UInt32)
  /-- A field with a text. -/
  | text (field : UInt32) (name : String)
  /-- A field with a message. -/
  | message (field : UInt32) (body : List Draft)

namespace Draft

mutual

/-- The texts in a draft, in order. -/
def texts : Draft → List String
  | word _ _ => []
  | text _ name => [name]
  | message _ body => textsOf body

/-- The texts in drafts, in order. -/
def textsOf : List Draft → List String
  | [] => []
  | d :: ds => d.texts ++ textsOf ds

end

/-- The place of a text in a table that has it. -/
def place (table : List String) (name : String) : UInt64 :=
  UInt64.ofNat (table.idxOf name)

mutual

/-- The field over a string table. -/
def write (table : List String) : Draft → Write
  | word field value => .uint field value.toUInt64
  | text field name => .uint field (place table name)
  | message field body => .message field (writeAll table body)

/-- The fields over a string table. -/
def writeAll (table : List String) : List Draft → List Write
  | [] => []
  | d :: ds => d.write table :: writeAll table ds

end

/-- The string table of drafts: each of their texts once, in the order of first use. -/
def tableOf (drafts : List Draft) : List String := (textsOf drafts).eraseDups

end Draft

end ClassMetadata
