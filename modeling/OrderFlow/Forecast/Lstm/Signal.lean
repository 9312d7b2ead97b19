/-! Signals and grids of them, in single precision. Sums go from the first entry to the last. -/
namespace OrderFlow.Lstm

/-- Numbers side by side. -/
abbrev Signal := List Float32

/-- Rows of one width. -/
abbrev Grid := List Signal

namespace Signal

def zero (n : Nat) : Signal := List.replicate n 0

def add (a b : Signal) : Signal := List.zipWith (· + ·) a b

def sub (a b : Signal) : Signal := List.zipWith (· - ·) a b

def mul (a b : Signal) : Signal := List.zipWith (· * ·) a b

def sum (a : Signal) : Float32 := a.foldl (· + ·) 0

def dot (a b : Signal) : Float32 := sum (mul a b)

def scale (k : Float32) (a : Signal) : Signal := a.map (k * ·)

end Signal

namespace Grid

def apply (m : Grid) (x : Signal) : Signal := m.map (·.dot x)

/-- The grid turned over, which has `columns` columns, applied to a signal. -/
def applyTransposed (columns : Nat) (m : Grid) (y : Signal) : Signal :=
  (m.zip y).foldl (fun acc (row, k) => acc.add (Signal.scale k row)) (Signal.zero columns)

/-- Every entry of one signal times every entry of another. -/
def outer (a b : Signal) : Grid := a.map fun k => Signal.scale k b

end Grid

/-- `1 / (1 + e^-x)`. -/
def sigmoid (x : Float32) : Float32 := 1 / (1 + (-x).exp)

end OrderFlow.Lstm
