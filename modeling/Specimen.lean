import Specimen.Binary64.Basic
import Specimen.Binary64.Decimal
import Specimen.Binary64.Rounding
import Specimen.Binary64.Scaling
import Specimen.Date.Basic
import Specimen.Date.Text
import Specimen.FieldPath
import Specimen.Generation.Error
import Specimen.Generation.Generator
import Specimen.Generation.Populate
import Specimen.Generation.Primitive
import Specimen.Generation.Typed
import Specimen.Json.Basic
import Specimen.Json.Numeral
import Specimen.Json.Printer
import Specimen.Json.Reader
import Specimen.Json.Typed
import Specimen.Options.Basic
import Specimen.Options.Reader
import Specimen.Override.Basic
import Specimen.Override.Json
import Specimen.Override.Toml
import Specimen.Proofs.Binary64.Exact
import Specimen.Proofs.Binary64.Integers
import Specimen.Proofs.Binary64.Magnitude
import Specimen.Proofs.Binary64.Midpoint
import Specimen.Proofs.Binary64.Nearest
import Specimen.Proofs.Binary64.Position
import Specimen.Proofs.Binary64.Text
import Specimen.Proofs.Date.Recognition
import Specimen.Proofs.Date.Text
import Specimen.Proofs.FieldPath
import Specimen.Proofs.Generation.Admission
import Specimen.Proofs.Generation.Decimals
import Specimen.Proofs.Generation.Exhaustion
import Specimen.Proofs.Generation.Integers
import Specimen.Proofs.Generation.Obedience
import Specimen.Proofs.Generation.Ranges
import Specimen.Proofs.Generation.Runs
import Specimen.Proofs.Generation.Simulation
import Specimen.Proofs.Generation.Window
import Specimen.Proofs.Override.Json
import Specimen.Proofs.Population.Absence
import Specimen.Proofs.Population.Batches
import Specimen.Proofs.Population.Conformance
import Specimen.Proofs.Population.Failure
import Specimen.Proofs.Population.Locality
import Specimen.Proofs.Population.Prefixes
import Specimen.Proofs.Population.Pruning
import Specimen.Proofs.Population.Relocation
import Specimen.Proofs.Population.RoundTrip
import Specimen.Proofs.Population.Skeleton
import Specimen.Proofs.Population.Skipping
import Specimen.Proofs.Population.Strictness
import Specimen.Proofs.Population.Success
import Specimen.Proofs.Population.Walk
import Specimen.Proofs.Positions
import Specimen.Proofs.Random.Support
import Specimen.Proofs.Random.Uniform
import Specimen.Proofs.Record
import Specimen.Proofs.Spec.Canonical
import Specimen.Proofs.Spec.Grammar
import Specimen.Proofs.Spec.IntegerPair
import Specimen.Proofs.Spec.Literal
import Specimen.Proofs.Spec.Scanning
import Specimen.Proofs.Spec.Sentence
import Specimen.Proofs.Spec.Spacing
import Specimen.Proofs.Text.ByteOrder
import Specimen.Proofs.Text.Characters
import Specimen.Proofs.Validation.Alarms
import Specimen.Proofs.Validation.Elements
import Specimen.Proofs.Validation.Foresight
import Specimen.Proofs.Validation.Independence
import Specimen.Proofs.Validation.Levels
import Specimen.Proofs.Validation.Strictness
import Specimen.Proofs.Value.Faithful
import Specimen.Proofs.Value.Stability
import Specimen.Random.ChaCha
import Specimen.Random.Script
import Specimen.Random.Source
import Specimen.Record
import Specimen.Schema
import Specimen.Spec.Error
import Specimen.Spec.Literal
import Specimen.Spec.Parser
import Specimen.Spec.Rule
import Specimen.Spec.Token
import Specimen.Text.Blank
import Specimen.Text.Numeral
import Specimen.Toml.Basic
import Specimen.Toml.Reader
import Specimen.Toml.Scalar
import Specimen.Toml.Table
import Specimen.Validation.Finding
import Specimen.Validation.Report
import Specimen.Value.Basic
import Specimen.Value.Category
import Specimen.Value.Json
