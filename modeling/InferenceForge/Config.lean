/-
# InferenceForge.Config — the settings

The fields of `Settings` that the modelled code reads, with the bounds their
`Field` declarations put on them. `max_retries` has an upper bound, too (5), which
nothing depends on; it is left out.
-/
import Mathlib.Data.Rat.Defs
import Mathlib.Algebra.Order.Ring.Rat

namespace InferenceForge

set_option autoImplicit false

structure Settings where
  sarvamMinIntervalMs : ℕ := 0
  sarvamMockMode : Bool := false
  sarvamMockLatencyMs : ℕ := 0
  cbEnabled : Bool := true
  maxRetries : ℕ := 3
  maxRetries_pos : 1 ≤ maxRetries := by decide
  retryBackoffBase : ℚ := 1
  jobTtlSeconds : ℤ := 3600
  maxTicketsPerRequest : ℕ := 500
  maxTicketChars : ℕ := 2000
  costPer1kTokens : ℚ := 2 / 10000

/-- The settings of an empty environment. -/
abbrev Settings.defaults : Settings := {}

end InferenceForge
