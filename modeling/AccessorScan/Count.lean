/-!
# `AccessorScan.Count` — counts of 64 bits

Lines, sums and settings are natural numbers below 2^64.

## Contents
- `countLimit`, `count?`.
- `wrappedSum`: addition that starts again from zero at the limit.
-/

namespace AccessorScan

/-- One more than the largest count. -/
def countLimit : Nat := Nat.pow 2 64

/-- The number, if it is a count. -/
def count? (n : Nat) : Option Nat := if n < countLimit then some n else none

/-- The sum of two counts, as a count. -/
def wrappedSum (a b : Nat) : Nat := (a + b) % countLimit

end AccessorScan
