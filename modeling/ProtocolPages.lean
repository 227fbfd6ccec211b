import ProtocolPages.Command.Run
import ProtocolPages.Failure
import ProtocolPages.Glossary
import ProtocolPages.Json.Reader
import ProtocolPages.Log
import ProtocolPages.Main
import ProtocolPages.Number.Shortest
import ProtocolPages.Page.Document
import ProtocolPages.Page.Stub
import ProtocolPages.Proofs.Division
import ProtocolPages.Proofs.NodeErrors
import ProtocolPages.Proofs.NodeShapes
import ProtocolPages.Proofs.Numbering
import ProtocolPages.Proofs.Segmentation
import ProtocolPages.Proofs.Walk
import ProtocolPages.Protocol.Extraction
import ProtocolPages.Reference
import ProtocolPages.Schema.Node
import ProtocolPages.Session
import ProtocolPages.Settings
import ProtocolPages.Storage.Disk
import ProtocolPages.Text.CharClass
import ProtocolPages.Text.Encoding
import ProtocolPages.Text.Entity
import ProtocolPages.Text.Lowercase
import ProtocolPages.Text.Quoted
import ProtocolPages.Toml.Reader
import ProtocolPages.TypeExpr
import ProtocolPages.TypeExpr.Generic
import ProtocolPages.Value.Literal
import ProtocolPages.Proofs.Acceptance
import ProtocolPages.Proofs.Textual
import ProtocolPages.Proofs.FileNames
import ProtocolPages.Proofs.DiskWrites
import ProtocolPages.Proofs.Lockstep
import ProtocolPages.Proofs.DiskReads
import ProtocolPages.Proofs.Composition
import ProtocolPages.Proofs.JsonReading
import ProtocolPages.Proofs.Interleaving
import ProtocolPages.Proofs.Contexts
import ProtocolPages.Proofs.Shadowing
import ProtocolPages.Proofs.Spelling
import ProtocolPages.Proofs.ShownText
import ProtocolPages.Proofs.CrossReferences
import ProtocolPages.Proofs.LineStructure
import ProtocolPages.Proofs.Visits
import ProtocolPages.Proofs.Replacements
import ProtocolPages.Proofs.Confinement
import ProtocolPages.Proofs.ExitCodes
import ProtocolPages.Proofs.Brackets
import ProtocolPages.Proofs.TypeReading
import ProtocolPages.Proofs.ListSpellings
import ProtocolPages.Proofs.CharacterReferences
import ProtocolPages.Proofs.FirstUndirected
import ProtocolPages.Proofs.SectionReading
import ProtocolPages.Proofs.RecordSections
import ProtocolPages.Proofs.BracketBalance
import ProtocolPages.Proofs.StablePartition
import ProtocolPages.Proofs.RepeatedNames
import ProtocolPages.Proofs.SettingsReach
import ProtocolPages.Proofs.Accumulation
import ProtocolPages.Proofs.ReadingDepth
import ProtocolPages.Proofs.EntryOverlay
import ProtocolPages.Proofs.FieldNames
