import OrderFlow.Failure
import OrderFlow.Text.Case
import OrderFlow.Word

/-! Candle intervals. Every interval divides a day, so starts counted from the epoch also fall on
midnight. -/
namespace OrderFlow

inductive Timeframe where
  | oneMinute
  | fiveMinutes
  | fifteenMinutes
  | oneHour
  | fourHours
  | oneDay
  deriving DecidableEq, Repr, Inhabited

namespace Timeframe

def minutes : Timeframe → Nat
  | oneMinute => 1
  | fiveMinutes => 5
  | fifteenMinutes => 15
  | oneHour => 60
  | fourHours => 240
  | oneDay => 1440

def millis (tf : Timeframe) : Int := tf.minutes * 60000

theorem millis_pos (tf : Timeframe) : 0 < tf.millis := by cases tf <;> decide

def label : Timeframe → String
  | oneMinute => "1m"
  | fiveMinutes => "5m"
  | fifteenMinutes => "15m"
  | oneHour => "1h"
  | fourHours => "4h"
  | oneDay => "1d"

/-- The start of the period that holds a time, toward the past also before the epoch. -/
def periodStart (tf : Timeframe) (time : Int) : Int := time / tf.millis * tf.millis

/-- The start of the period that holds a time, if it is itself a time. -/
def periodStart? (tf : Timeframe) (time : Int) : Option Int := signed? (tf.periodStart time)

/-- How many periods lie between two starts, both ends counted; none if they are reversed. -/
def periodsBetween (tf : Timeframe) (first last : Int) : Nat :=
  if last < first then 0 else ((last - first) / tf.millis).toNat + 1

/-- How many periods lie between two starts, if the time between them is a time itself. -/
def periodsBetween? (tf : Timeframe) (first last : Int) : Option Nat :=
  if last < first || isSigned (last - first) then some (tf.periodsBetween first last) else none

/-- The interval that a text names, in any case. -/
def ofText? (s : String) : Option Timeframe :=
  match Text.lower s with
  | "1m" | "1min" | "onemin" => some oneMinute
  | "5m" | "5min" | "fivemin" => some fiveMinutes
  | "15m" | "15min" | "fifteenmin" => some fifteenMinutes
  | "1h" | "1hour" | "onehour" => some oneHour
  | "4h" | "4hour" | "fourhour" => some fourHours
  | "1d" | "1day" | "oneday" => some oneDay
  | _ => none

/-- What is said of a text that names no interval. -/
def unknown (s : String) : Cause :=
  .other ("Invalid timeframe: '" ++ s ++ "'. Valid options: 1m, 5m, 15m, 1h, 4h, 1d")

def parse (s : String) : Outcome Timeframe :=
  match ofText? s with
  | some tf => .ok tf
  | none => fail (unknown s)

@[simp] theorem ofText?_label (tf : Timeframe) : ofText? tf.label = some tf := by
  cases tf <;> decide +kernel

end Timeframe
end OrderFlow
