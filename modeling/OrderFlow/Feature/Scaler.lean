import OrderFlow.Feature.Column

/-! Standardisation of columns: less the mean, divided by the population's standard deviation. -/
namespace OrderFlow

structure Scaler where
  columns : List String
  mean : List Float
  scale : List Float

namespace Scaler
open Column (Row)

/-- The mean, brought up to date value by value. -/
def runningMean (values : List Float) : Float :=
  (values.foldl (fun (mean, count) x =>
    let count := count + 1.0
    (mean + (x - mean) / count, count)) ((0.0 : Float), (0.0 : Float))).1

/-- The population variance, from the squared distance of each value to the sum before it. -/
def runningVariance : List Float → Float
  | [] => Binary.nan
  | x :: rest =>
    let (_, count, variance) := rest.foldl (fun (sum, count, variance) x =>
      let count := count + 1.0
      let sum := sum + x
      let d := count * x - sum
      (sum, count, variance + d * d / (count * (count - 1.0)))) (x, (1.0 : Float), (0.0 : Float))
    variance / count

/-- The deviation to divide by: one where the column is constant or has none. -/
def deviation (values : List Float) : Float :=
  let d := (runningVariance values).sqrt
  if Binary.isFinite d && 0.0 < d then d else 1.0

def columnMean (values : List Float) : Float := if values.isEmpty then 0.0 else runningMean values

def columnScale (values : List Float) : Float := if values.isEmpty then 1.0 else deviation values

/-- One column of rows that all have it. -/
def column (rows : List Row) (i : Nat) : List Float := rows.filterMap (·[i]?)

/-- The scaler of some rows; the first row of another width is reported. -/
def fit (rows : List Row) (columns : List String) : Except Cause Scaler :=
  match rows.find? (·.length != columns.length) with
  | some bad => .error (.shapeMismatch columns.length bad.length)
  | none =>
    let each (f : List Float → Float) := (List.range columns.length).map fun i => f (column rows i)
    .ok ⟨columns, each columnMean, each columnScale⟩

def width (s : Scaler) : Nat := s.mean.length

def check (s : Scaler) (row : Row) : Except Cause Unit :=
  if row.length = s.width then .ok () else .error (.shapeMismatch s.width row.length)

def combine (f : Float → Float → Float → Float) (s : Scaler) (row : Row) : Row :=
  List.zipWith (fun x (m, d) => f x m d) row (s.mean.zip s.scale)

/-- A row in units of deviations from the mean. -/
def transformRow (s : Scaler) (row : Row) : Except Cause Row := do
  s.check row
  return s.combine (fun x m d => (x - m) / d) row

/-- The row that a scaled row stands for. -/
def inverseRow (s : Scaler) (row : Row) : Except Cause Row := do
  s.check row
  return s.combine (fun z m d => z * d + m) row

def transform (s : Scaler) (rows : List Row) : Except Cause (List Row) := rows.mapM s.transformRow

end Scaler
end OrderFlow
