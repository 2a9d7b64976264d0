import ClassMetadata.Decoding.Assembler
import ClassMetadata.Header.Basic
import ClassMetadata.Packing.Basic
import ClassMetadata.Settings.Basic
import ClassMetadata.Tree.TokenReader

/-!
# From a header to a class

`Header.decode` looks at the header first and may refuse it for its version, kind or origin, in this
order. What remains depends on the packed data and the string table alone: the data are unpacked
into the message of the class (`decodeData`), and its tokens put the class together
(`decodeMessage`).
-/

namespace ClassMetadata

/-- The class in a class message. -/
def decodeMessage (table : StringTable) (message : List UInt8) : Except DecodeError ClassDecl := do
  let tokens := (TokenReader.fresh message).tokens
  let assembler ← tokens.foldlM (fun a token => do a.accept table (← token)) Assembler.start
  assembler.finish

/-- The class in packed data over a string table. -/
def decodeData (data strings : List String) : Except DecodeError ClassDecl := do
  decodeMessage ⟨strings⟩ (← Packing.decode data)

namespace Header

/-- The reason to refuse a header under the settings, if there is one. -/
def refusal (header : Header) (settings : Settings) : Option DecodeError :=
  if header.version < settings.minVersion then
    some (.unsupportedVersion header.version settings.minVersion)
  else
    match settings.maxVersion.filter (· < header.version) with
    | some maximum => some (.incompatibleVersion header.version maximum)
    | none =>
      if header.kind ≠ .classFile then some (.unsupportedKind header.kind.raw)
      else if settings.allowPreRelease = false ∧ header.has .preRelease then some .preRelease
      else none

/-- The class that a header describes. -/
def decode (header : Header) (settings : Settings) : Except DecodeError ClassDecl :=
  match header.refusal settings with
  | some e => .error e
  | none => decodeData header.data header.strings

end Header

end ClassMetadata
