import OrderFlow.Decimal.Arithmetic
import OrderFlow.Failure

/-! Executed trades and the unit of their times. -/
namespace OrderFlow

structure Trade where
  id : Option Int
  /-- As recorded, in seconds or milliseconds. -/
  time : Int
  price : Decimal
  quantity : Decimal
  quoteQuantity : Decimal
  /-- The buyer's order was waiting in the book, so the seller was the aggressor. -/
  buyerIsMaker : Bool
  deriving DecidableEq

namespace Trade

/-- A trade whose quote quantity is price times quantity, if that is a decimal. -/
def of? (time : Int) (price quantity : Decimal) (buyerIsMaker : Bool) : Option Trade :=
  (price.mul quantity).map fun quote => ⟨none, time, price, quantity, quote, buyerIsMaker⟩

/-- The buyer was the aggressor. -/
def isTakerBuy (t : Trade) : Bool := !t.buyerIsMaker

/-- A trade that can have happened: a positive price, no negative quantity, a positive time. -/
def isValid (t : Trade) : Bool :=
  t.price.isPositive && !t.quantity.isNegative && !t.quoteQuantity.isNegative &&
    decide (0 < t.time)

end Trade

inductive TimeUnit where
  | seconds
  | millis
  deriving DecidableEq, Repr

namespace TimeUnit

def toMillis : TimeUnit → Int → Int
  | seconds, raw => raw * 1000
  | millis, raw => raw

/-- The least of some times, zero when there are none. -/
def least (times : List Int) : Int := times.min?.getD 0

/-- The greatest of some times, zero when there are none. -/
def greatest (times : List Int) : Int := times.max?.getD 0

/-- The greatest time tells the unit: past `10^12` it is milliseconds, past `10^9` seconds. -/
def detect (times : List Int) : Except Cause TimeUnit :=
  if 1000000000000 < greatest times then .ok millis
  else if 1000000000 < greatest times then .ok seconds
  else .error (.invalidTimestamps (least times) (greatest times))

end TimeUnit
end OrderFlow
