import ProofCarrying.Action
import ProofCarrying.Config.File
import ProofCarrying.Config.Json
import ProofCarrying.Config.Keys
import ProofCarrying.Config.Yaml.Cursor
import ProofCarrying.Config.Yaml.Document
import ProofCarrying.Config.Yaml.Merge
import ProofCarrying.Config.Yaml.Node
import ProofCarrying.Config.Yaml.Schema
import ProofCarrying.Config.Yaml.Text
import ProofCarrying.Config.Yaml.Token
import ProofCarrying.ConstraintSystem
import ProofCarrying.Datum
import ProofCarrying.Fault
import ProofCarrying.Layout
import ProofCarrying.Message
import ProofCarrying.Number.Binary64
import ProofCarrying.Number.Reading
import ProofCarrying.Number.Shortest
import ProofCarrying.Operand
import ProofCarrying.Predicate.Basic
import ProofCarrying.Predicate.Config
import ProofCarrying.Predicate.Files
import ProofCarrying.Predicate.Records
import ProofCarrying.Predicate.Report
import ProofCarrying.Predicate.ShapeConfig
import ProofCarrying.Proofs.Coefficients
import ProofCarrying.Proofs.DotProduct
import ProofCarrying.Proofs.Numerals
import ProofCarrying.Proofs.QueryLengths
import ProofCarrying.Proofs.RecordReading
import ProofCarrying.Proofs.RoundTrip
import ProofCarrying.Proofs.SlotContents
import ProofCarrying.Proofs.TallyRows
import ProofCarrying.Proofs.TallyBuilding
import ProofCarrying.Proofs.TallyTree
import ProofCarrying.Proofs.TallyVerdict
import ProofCarrying.Random.Congruential
import ProofCarrying.Random.Generator
import ProofCarrying.Random.Instance
import ProofCarrying.RankOne.Combination
import ProofCarrying.RankOne.Records
import ProofCarrying.RankOne.System
import ProofCarrying.Record.Basic
import ProofCarrying.Record.Source
import ProofCarrying.Record.Tape
import ProofCarrying.Residue
import ProofCarrying.ScalarField
import ProofCarrying.Storage
import ProofCarrying.Tally
import ProofCarrying.Text.Blank
import ProofCarrying.Text.Cased
import ProofCarrying.Text.CodePoint
import ProofCarrying.Text.Digit
import ProofCarrying.Text.Lowercase
import ProofCarrying.Text.Numeral
import ProofCarrying.Text.Printable
import ProofCarrying.Text.Quoted
import ProofCarrying.Text.Utf8
import ProofCarrying.Trace
import ProofCarrying.Proofs.Lines
import ProofCarrying.Proofs.Parsing
import ProofCarrying.Proofs.SystemGrammar
import ProofCarrying.Proofs.Indistinguishable
import ProofCarrying.Proofs.RowVerdicts
import ProofCarrying.Proofs.Draws
import ProofCarrying.Proofs.DrawnSystems
import ProofCarrying.Proofs.WellFormedness
import ProofCarrying.Proofs.RandomInstances
import ProofCarrying.Proofs.NearUniform
import ProofCarrying.Proofs.Framing
import ProofCarrying.Proofs.PredicateGrammar
import ProofCarrying.Proofs.Encoding
import ProofCarrying.Proofs.LineEnds
import ProofCarrying.Proofs.StoredPredicates
import ProofCarrying.Proofs.Severed
import ProofCarrying.Proofs.Truncation
import ProofCarrying.Proofs.NormalForm
import ProofCarrying.Proofs.SlotOffsets
import ProofCarrying.Proofs.ConfigKeys
import ProofCarrying.Proofs.ConfigChecks
import ProofCarrying.Proofs.ConfigRoundTrip
import ProofCarrying.Proofs.Congruences
import ProofCarrying.Proofs.Operations
import ProofCarrying.Proofs.PlainOperands
import ProofCarrying.Proofs.Inverses
import ProofCarrying.Proofs.LongPrimes
import ProofCarrying.Proofs.ElementText
import ProofCarrying.Proofs.CoefficientTotals
import ProofCarrying.Proofs.SortedCoefficients
import ProofCarrying.Proofs.Rearrangements
