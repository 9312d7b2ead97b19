import OrderFlow.Text.Digits

/-! Everything that can go wrong, as causes, and the one place that words them. -/
namespace OrderFlow

/-- Why an operation failed. -/
inductive Cause where
  /-- No data directory near `start`, looking at most `levels` directories up. -/
  | dataDirectoryNotFound (start : String) (levels : Nat)
  | symbolNotFound (path : String)
  | invalidTimestamps (least greatest : Int)
  | noTrades (symbol : String)
  | noCandles (symbol : String)
  | notEnoughRows (required available : Nat)
  | unknownColumn (name : String)
  | shapeMismatch (expected actual : Nat)
  | notTrained (path : String)
  | lookbackMismatch (trained requested : Nat)
  | unknownModelKind (text : String)
  /-- Rows of the wrong width, or no rows, were handed to a recurrent model. -/
  | tensorWidth (expected actual : Nat)
  | emptySequence
  /-- A recurrent model without inputs or without memory cells was asked for. -/
  | emptyLayer
  /-- Tensors that could not be written. -/
  | tensorFile (path : String)
  /-- A forest could not be grown, asked or written. -/
  | forest (words : String)
  | corrupt (path : String)
  | emptyTrainingSet
  /-- A decimal, a count or a time beyond what its form holds, or more of something than memory
  holds. -/
  | overflow
  /-- A forest that refers to a node, a child or a column that is not there. -/
  | incompleteForest
  /-- A variable whose value holds a zero character. -/
  | unusableVariable (name : String)
  /-- Any other cause, known only by its wording. -/
  | other (message : String)
  deriving DecidableEq, Repr

open Text in
/-- The wording of a cause. -/
def Cause.message : Cause → String
  | .dataDirectoryNotFound start levels =>
    "No 'data' directory found within " ++ natText levels ++ " levels above " ++ start
  | .symbolNotFound path => "Symbol directory not found: " ++ path
  | .invalidTimestamps least greatest =>
    "Invalid timestamps: min=" ++ intText least ++ ", max=" ++ intText greatest
  | .noTrades symbol => "No trades found for " ++ symbol
  | .noCandles symbol => "No candles generated for " ++ symbol
  | .notEnoughRows required available =>
    "Not enough rows: need " ++ natText required ++ ", have " ++ natText available
  | .unknownColumn name => "Unknown feature column: " ++ name
  | .shapeMismatch expected actual =>
    "Scaler expects " ++ natText expected ++ " columns, got " ++ natText actual
  | .notTrained path => "Model not found at " ++ path ++ ". Train first."
  | .lookbackMismatch trained requested =>
    "Model was trained with lookback " ++ natText trained ++ ", requested " ++ natText requested
  | .unknownModelKind text =>
    "Unknown model kind: '" ++ text ++ "'. Must be 'lstm' or 'forest'"
  | .tensorWidth expected actual =>
    "Tensor operation failed: expected " ++ natText expected ++ " columns, got " ++ natText actual
  | .emptySequence => "Tensor operation failed: empty input sequence"
  | .emptyLayer => "Tensor operation failed: Non-finite range in uniform distribution"
  | .tensorFile path => "Tensor operation failed: cannot write " ++ path
  | .forest words => "Forest model failed: " ++ words
  | .corrupt path => "Model file " ++ path ++ " is unreadable"
  | .emptyTrainingSet => "Empty training set"
  | .overflow => "Arithmetic overflowed"
  | .unusableVariable name => "Variable cannot be set: " ++ name
  | .incompleteForest => "Forest is incomplete"
  | .other message => message

/-- A cause with what was being attempted, outermost first. -/
structure Failure where
  attempts : List String
  cause : Cause
  deriving DecidableEq, Repr

namespace Failure

def ofCause (c : Cause) : Failure := ⟨[], c⟩

/-- The outermost wording alone. -/
def message (f : Failure) : String := f.attempts.headD f.cause.message

/-- Every wording, outermost first. -/
def chain (f : Failure) : String := ": ".intercalate (f.attempts ++ [f.cause.message])

end Failure

/-- The outcome of an operation that may fail. -/
abbrev Outcome := Except Failure

instance : Coe Cause Failure := ⟨Failure.ofCause⟩

/-- Says what was being attempted when a step failed. -/
def attempting {α : Type} (what : String) (r : Outcome α) : Outcome α :=
  r.mapError fun f => { f with attempts := what :: f.attempts }

def fail {α : Type} (c : Cause) : Outcome α := .error (Failure.ofCause c)

end OrderFlow
