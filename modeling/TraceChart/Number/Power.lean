/-!
Powers of two and of ten, by which binary and decimal numbers are scaled.
-/

namespace TraceChart

def twoTo (exponent : Nat) : Nat :=
  Nat.pow 2 exponent

def tenTo (exponent : Nat) : Nat :=
  Nat.pow 10 exponent

end TraceChart
