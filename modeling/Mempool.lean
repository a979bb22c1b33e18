import Mempool.Admission.Fault
import Mempool.Admission.Refusal
import Mempool.Bytes.Hex
import Mempool.Bytes.LittleEndian
import Mempool.Decimal.Floating
import Mempool.Decimal.Integer
import Mempool.Json.Basic
import Mempool.Json.Ignored
import Mempool.Json.Numeral
import Mempool.Json.Scalar
import Mempool.Json.Schema
import Mempool.Json.StringLiteral
import Mempool.Key
import Mempool.Limits.Basic
import Mempool.Limits.Json
import Mempool.Metrics.Counters
import Mempool.Metrics.Observed
import Mempool.Pool
import Mempool.Proofs.Admission.Classification
import Mempool.Proofs.Admission.Messages
import Mempool.Proofs.Admission.Texts
import Mempool.Proofs.Bytes.FixedWidth
import Mempool.Proofs.Decimal.Denotation
import Mempool.Proofs.Decimal.Digits
import Mempool.Proofs.Json.ByteLists
import Mempool.Proofs.Json.Cuts
import Mempool.Proofs.Json.Integers
import Mempool.Proofs.Json.ListCuts
import Mempool.Proofs.Json.Lists
import Mempool.Proofs.Json.Literals
import Mempool.Proofs.Json.NumberCuts
import Mempool.Proofs.Json.Objects
import Mempool.Proofs.Json.RecordCuts
import Mempool.Proofs.Json.Records
import Mempool.Proofs.Json.RoundTrip
import Mempool.Proofs.Json.Skipping
import Mempool.Proofs.Json.Spacing
import Mempool.Proofs.Json.Strings
import Mempool.Proofs.Json.Truncation
import Mempool.Proofs.Key.Collision
import Mempool.Proofs.Key.Order
import Mempool.Proofs.Limits.Capacity
import Mempool.Proofs.Limits.FirstProblem
import Mempool.Proofs.Limits.Members
import Mempool.Proofs.Limits.OpenValue
import Mempool.Proofs.Limits.Overlay
import Mempool.Proofs.Metrics.Account
import Mempool.Proofs.Metrics.Exposition
import Mempool.Proofs.Metrics.Session
import Mempool.Proofs.Pool.Batch
import Mempool.Proofs.Pool.Budget
import Mempool.Proofs.Pool.Growth
import Mempool.Proofs.Pool.Log
import Mempool.Proofs.Pool.Refinement
import Mempool.Proofs.Pool.Representation
import Mempool.Proofs.Pool.Thinning
import Mempool.Proofs.Wire.Codec
import Mempool.Proofs.Wire.Conversion
import Mempool.Proofs.Wire.Delivery
import Mempool.Proofs.Wire.NormalForm
import Mempool.Sha256
import Mempool.Text.Debug
import Mempool.Text.Unprintable
import Mempool.Wire.Json
import Mempool.Wire.Message
import Mempool.Wire.Reception
