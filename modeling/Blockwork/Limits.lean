import Blockwork.Document.Block

/-!
# Engine limits

The caps that every run is subject to.  A file with limits only needs the ones it changes.
-/

namespace Blockwork

/-- Caps on what a run may do. -/
structure Limits where
  /-- Iterations of a loop that sets no cap of its own. -/
  maxIterations : Nat := 1000
  /-- Calls inside one another. -/
  maxCallDepth : Nat := 64
  /-- Magnitude of the result of a calculation. -/
  magnitude : Float := 1e15
  /-- Characters of the text a text operation works on. -/
  textInput : Nat := 10000
  /-- Characters of the other operands of a text operation. -/
  textArgument : Nat := 1000
  /-- Characters of the result of a text operation. -/
  textOutput : Nat := 50000
  /-- Log entries kept for a run. -/
  logEntries : Nat := 512
  /-- Seed of the random source. -/
  seed : Option Nat := none
deriving Inhabited

namespace Limits

/-- The greatest number of thirty-two bits. -/
def maxWord32 : Nat := Nat.pow 2 32 - 1

/-- The field names, in order. -/
def fieldNames : List String :=
  ["max_iterations", "max_call_depth", "magnitude_limit", "text_input_limit",
   "text_argument_limit", "text_output_limit", "max_log_entries", "rng_seed"]

open BlockDocument (fieldOr) in
/-- Reads limits; what is left out has its default. -/
def read? (n : Json.Node) : Option Limits := do
  let (_, fields) ← n.fields? fieldNames Json.Node.maxDepth
  let base : Limits := {}
  let word := Json.Node.natural? Json.maxWord
  pure {
    maxIterations :=
      ← fieldOr fields "max_iterations" base.maxIterations (Json.Node.natural? maxWord32)
    maxCallDepth :=
      ← fieldOr fields "max_call_depth" base.maxCallDepth (Json.Node.natural? maxWord32)
    magnitude := ← fieldOr fields "magnitude_limit" base.magnitude Json.Node.float?
    textInput := ← fieldOr fields "text_input_limit" base.textInput word
    textArgument := ← fieldOr fields "text_argument_limit" base.textArgument word
    textOutput := ← fieldOr fields "text_output_limit" base.textOutput word
    logEntries := ← fieldOr fields "max_log_entries" base.logEntries word
    seed := ← fieldOr fields "rng_seed" none (Json.Node.nullable? word) }

/-- Reads limits from JSON text. -/
def ofText? (text : String) : Option Limits := (Json.Node.ofText? text).bind read?

end Limits

end Blockwork
