/-! How well a model does after a pass over its training samples. -/
namespace OrderFlow

structure EpochStats where
  epoch : Nat
  trainLoss : Float
  /-- Mean squared error over the validation samples, if there are any. -/
  valLoss : Option Float
  /-- Mean absolute error over the validation samples, if there are any. -/
  valError : Option Float

end OrderFlow
