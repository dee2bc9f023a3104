/-
# InferenceForge.Pipeline.Estimator — the complexity of a ticket

`classify` puts a ticket into one of three buckets by its number of words; each
bucket has a priority in the queue and a largest batch.
-/
import InferenceForge.Python.Text

namespace InferenceForge.Pipeline

open InferenceForge.Python

set_option autoImplicit false

inductive Complexity
  | simple
  | medium
  | complex
  deriving DecidableEq, Repr

/-- `COMPLEXITY_PRIORITY`: lower is served first. -/
def complexityPriority : Complexity → ℕ
  | .complex => 0
  | .medium => 1
  | .simple => 2

/-- `BATCH_SIZE`. -/
def batchSize : Complexity → ℕ
  | .simple => 20
  | .medium => 10
  | .complex => 5

def classify (ticket : String) : Complexity :=
  let wordCount := (split ticket.toList).length
  if wordCount < 15 then .simple
  else if wordCount ≤ 60 then .medium
  else .complex

structure ComplexityBreakdown where
  simple : ℕ
  medium : ℕ
  complex : ℕ

def breakdown (tickets : List String) : ComplexityBreakdown where
  simple := tickets.countP fun t => classify t = .simple
  medium := tickets.countP fun t => classify t = .medium
  complex := tickets.countP fun t => classify t = .complex

end InferenceForge.Pipeline
