import CardIndex.Binary64.Basic
import CardIndex.Binary64.Shortest
import CardIndex.Card.Basic
import CardIndex.Card.Codec
import CardIndex.Catalog.Backend
import CardIndex.Catalog.Item
import CardIndex.Catalog.Publishing
import CardIndex.Catalog.Store
import CardIndex.Catalog.Table
import CardIndex.Cell
import CardIndex.CommandLine.Arguments
import CardIndex.CommandLine.Catalog
import CardIndex.CommandLine.Report
import CardIndex.CommandLine.Validation
import CardIndex.Cost
import CardIndex.Dataset.Basic
import CardIndex.Dataset.Codec
import CardIndex.Dataset.Files
import CardIndex.Dataset.Findings
import CardIndex.Decimal
import CardIndex.Disk.Basic
import CardIndex.Disk.FileSystem
import CardIndex.Disk.Path
import CardIndex.Distinct
import CardIndex.Dump
import CardIndex.Duration
import CardIndex.Effect.Activation
import CardIndex.Effect.Clauses
import CardIndex.Effect.Keywords
import CardIndex.Enrichment
import CardIndex.Entries
import CardIndex.Failure
import CardIndex.Images
import CardIndex.Json.Fields
import CardIndex.Json.Lexer
import CardIndex.Json.Numeral
import CardIndex.Json.Parser
import CardIndex.Json.Printer
import CardIndex.Json.Tree
import CardIndex.Json.Value
import CardIndex.Main
import CardIndex.Settings.Basic
import CardIndex.Settings.Dotenv
import CardIndex.Settings.File
import CardIndex.Sha256
import CardIndex.Text.Alphanumeric
import CardIndex.Text.Blank
import CardIndex.Text.Digit
import CardIndex.Text.HexDigit
import CardIndex.Text.Word
import CardIndex.Text.WordChar
import CardIndex.Timestamp.Basic
import CardIndex.Timestamp.Text
import CardIndex.Toml.Document
import CardIndex.Toml.Parser
import CardIndex.Toml.Scalar
import CardIndex.Toml.Text
import CardIndex.World
import CardIndex.Proofs.Attempt
import CardIndex.Proofs.Card.Codec
import CardIndex.Proofs.Catalog.Chunks
import CardIndex.Proofs.Catalog.Codec
import CardIndex.Proofs.Catalog.Delivery
import CardIndex.Proofs.Catalog.FileStore
import CardIndex.Proofs.Catalog.Overwriting
import CardIndex.Proofs.Catalog.Publication
import CardIndex.Proofs.Catalog.Shelf
import CardIndex.Proofs.Catalog.Uptake
import CardIndex.Proofs.CommandLine.Loading
import CardIndex.Proofs.CommandLine.Run
import CardIndex.Proofs.CommandLine.Session
import CardIndex.Proofs.Dataset.Codec
import CardIndex.Proofs.Dataset.Files
import CardIndex.Proofs.Disk.FileSystem
import CardIndex.Proofs.Distinct
import CardIndex.Proofs.Duration
import CardIndex.Proofs.Effect.Clauses
import CardIndex.Proofs.Effect.Coherence
import CardIndex.Proofs.Enrichment
import CardIndex.Proofs.Entries
import CardIndex.Proofs.Json.Bounds
import CardIndex.Proofs.Json.Fields
import CardIndex.Proofs.Json.Lexer
import CardIndex.Proofs.Json.Numeral
import CardIndex.Proofs.Json.Parser
import CardIndex.Proofs.Json.Printer
import CardIndex.Proofs.Text.Words
import CardIndex.Proofs.Timestamp
import CardIndex.Proofs.Catalog.Calls
import CardIndex.Proofs.Catalog.Dialogue
import CardIndex.Proofs.Catalog.Retries
import CardIndex.Proofs.Catalog.Interruption
import CardIndex.Proofs.Disk.Directory
import CardIndex.Proofs.Catalog.Refinement
import CardIndex.Proofs.Cell
import CardIndex.Proofs.Card.Restatement
import CardIndex.Proofs.Json.Editing
import CardIndex.Proofs.Json.Injectivity
import CardIndex.Proofs.Binary64.Exactness
import CardIndex.Proofs.Card.ContentHash
import CardIndex.Proofs.Catalog.Atomicity
import CardIndex.Proofs.Catalog.Histories
import CardIndex.Proofs.Catalog.Soundness
import CardIndex.Proofs.Text.Pattern
import CardIndex.Proofs.Text.Splitting
import CardIndex.Proofs.Effect.Profile
import CardIndex.Proofs.Lookup
import CardIndex.Proofs.Dump.Row
import CardIndex.Proofs.Dump.Layout
import CardIndex.Proofs.Disk.Brittle
import CardIndex.Proofs.Dataset.Artifacts
import CardIndex.Proofs.Disk.Alteration
import CardIndex.Proofs.Disk.Tree
import CardIndex.Proofs.Images.Tour
import CardIndex.Proofs.Images.Settling
import CardIndex.Proofs.Images.Confinement
import CardIndex.Proofs.Disk.Making
import CardIndex.Proofs.Images.Illustration
import CardIndex.Proofs.Disk.Correspondence
import CardIndex.Proofs.Catalog.Retiming
import CardIndex.Proofs.Dataset.Retiming
import CardIndex.Proofs.CommandLine.Reloading
import CardIndex.Proofs.CommandLine.Composition
import CardIndex.Proofs.Effect.Sentences
import CardIndex.Proofs.Effect.Slices
import CardIndex.Proofs.Effect.Phrases
import CardIndex.Proofs.Cost
import CardIndex.Proofs.NumberCell
import CardIndex.Proofs.Card.Numbering
import CardIndex.Proofs.Dataset.Findings
import CardIndex.Proofs.ListCell
import CardIndex.Proofs.Json.NumberText
import CardIndex.Proofs.Json.Grammar
import CardIndex.Proofs.Json.Tokens
import CardIndex.Proofs.Json.Recognition
import CardIndex.Proofs.Json.Denotation
import CardIndex.Proofs.Dump.Reading
import CardIndex.Proofs.Catalog.Backoff
import CardIndex.Proofs.Images.Pacing
import CardIndex.Proofs.Settings.Layers
import CardIndex.Proofs.Settings.Variables
import CardIndex.Proofs.CommandLine.Flags
import CardIndex.Proofs.CommandLine.Precedence
