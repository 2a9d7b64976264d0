import ClassMetadata.Correlation.Error
import ClassMetadata.Correlation.Host
import ClassMetadata.Correlation.MethodIndex
import ClassMetadata.Correlation.Query
import ClassMetadata.Correlation.Session
import ClassMetadata.Correlation.TypeMetadata
import ClassMetadata.Declaration.Basic
import ClassMetadata.Declaration.Class
import ClassMetadata.Declaration.SignatureTable
import ClassMetadata.Decoding.AccessorName
import ClassMetadata.Decoding.Assembler
import ClassMetadata.Decoding.Error
import ClassMetadata.Decoding.Header
import ClassMetadata.Decoding.HostBinding
import ClassMetadata.Decoding.StringTable
import ClassMetadata.Encoding.Class
import ClassMetadata.Encoding.Draft
import ClassMetadata.Encoding.Header
import ClassMetadata.Flags
import ClassMetadata.Header.Basic
import ClassMetadata.Header.Container
import ClassMetadata.Header.Key
import ClassMetadata.Packing.Basic
import ClassMetadata.Packing.Bits
import ClassMetadata.Packing.Pieces
import ClassMetadata.Proofs.Declaration.Agreement
import ClassMetadata.Proofs.Declaration.Building
import ClassMetadata.Proofs.Declaration.SignatureTable
import ClassMetadata.Proofs.Decoding.Descent
import ClassMetadata.Proofs.Decoding.Nesting
import ClassMetadata.Proofs.Decoding.Schema
import ClassMetadata.Proofs.Decoding.Streaming
import ClassMetadata.Proofs.Encoding.Drafts
import ClassMetadata.Proofs.Encoding.Members
import ClassMetadata.Proofs.Encoding.Message
import ClassMetadata.Proofs.Encoding.Rewriting
import ClassMetadata.Proofs.Encoding.Signatures
import ClassMetadata.Proofs.Packing.Regrouping
import ClassMetadata.Proofs.Packing.RoundTrip
import ClassMetadata.Proofs.Packing.Strings
import ClassMetadata.Proofs.Wire.Fields
import ClassMetadata.Proofs.Wire.RoundTrip
import ClassMetadata.Proofs.Wire.Scan
import ClassMetadata.Settings.Basic
import ClassMetadata.Settings.Document
import ClassMetadata.Settings.Reading
import ClassMetadata.Text.Blank
import ClassMetadata.Text.LetterCase
import ClassMetadata.Text.LetterCase.Table
import ClassMetadata.Text.Numeral
import ClassMetadata.Text.Separator
import ClassMetadata.Tree.Entry
import ClassMetadata.Tree.Node
import ClassMetadata.Tree.Token
import ClassMetadata.Tree.TokenReader
import ClassMetadata.Version
import ClassMetadata.Wire.Basic
import ClassMetadata.Wire.Call
import ClassMetadata.Wire.Cursor
import ClassMetadata.Wire.Field
import ClassMetadata.Wire.Progress
import ClassMetadata.Wire.Varint
import ClassMetadata.Wire.Write
import ClassMetadata.Proofs.Decoding.Reading
import ClassMetadata.Proofs.Decoding.Kinds
import ClassMetadata.Proofs.Decoding.Compatibility
import ClassMetadata.Proofs.Declaration.Exchange
import ClassMetadata.Proofs.Declaration.Joining
import ClassMetadata.Proofs.Decoding.Concatenation
import ClassMetadata.Proofs.Decoding.Naming
import ClassMetadata.Proofs.Decoding.Order
import ClassMetadata.Proofs.Decoding.Truncation
import ClassMetadata.Proofs.Tree.Grammar
import ClassMetadata.Proofs.Tree.Stream
import ClassMetadata.Proofs.Correlation.Answers
import ClassMetadata.Proofs.Correlation.Entries
import ClassMetadata.Proofs.Correlation.Sessions
import ClassMetadata.Proofs.Correlation.Separation
import ClassMetadata.Proofs.Correlation.Enumeration
import ClassMetadata.Proofs.Decoding.Provenance
import ClassMetadata.Proofs.Decoding.Refusal
import ClassMetadata.Proofs.Header.Container
import ClassMetadata.Proofs.Correlation.Properties
import ClassMetadata.Proofs.Correlation.Ambiguity
import ClassMetadata.Proofs.Packing.Format
import ClassMetadata.Proofs.Wire.Groups
import ClassMetadata.Proofs.Wire.Memory
import ClassMetadata.Proofs.Wire.Calls
import ClassMetadata.Proofs.Wire.Whole
import ClassMetadata.Proofs.Flags.Composition
import ClassMetadata.Proofs.Text.Grammar
import ClassMetadata.Proofs.Version.Grammar
import ClassMetadata.Proofs.Decoding.Rounds
import ClassMetadata.Proofs.Tree.Walk
import ClassMetadata.Proofs.Encoding.References
import ClassMetadata.Proofs.Decoding.Pending
import ClassMetadata.Proofs.Decoding.Mirror
