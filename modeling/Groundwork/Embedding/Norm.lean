import Groundwork.Decimal.Exact

/-!
Vectors of doubles and their length: the double nearest to the square root of the sum of the squares of
their entries. Sizes are counted in steps of `2 ^ (-1074)`, of which every finite double is a multiple.
-/

namespace Groundwork

abbrev Vector64 := List Float

namespace Embedding

open Decimal

def stepsOf (x : Float) : Nat :=
  match Exact.ofFloat x with
  | .finite _ mantissa exponent => mantissa <<< (exponent + 1074).toNat
  | _ => 0

/-- The sum of the squares of the entries. -/
def squares : Vector64 → Nat
  | [] => 0
  | x :: xs => stepsOf x * stepsOf x + squares xs

def infinityPlace : Nat := 0x7ff0000000000000

/-- The doubles that are not negative in their order, from zero on to infinity. -/
def doubleAt (place : Nat) : Float := .ofBits (.ofNat (min place infinityPlace))

/-- The place of the double nearest to the square root of `n`; halfway between two of them, of the even
one. -/
def rootPlace (n : Nat) : Nat :=
  let root := n.sqrt
  let shift := root.log2 - 52
  let low := root >>> shift
  let place := (shift <<< 52) + low
  let twiceMiddle := (2 * low + 1) <<< shift
  let square := twiceMiddle * twiceMiddle
  if 4 * n < square ∨ (4 * n = square ∧ low % 2 = 0) then place else place + 1

def length (xs : Vector64) : Float :=
  if xs.any (·.isInf) then 1.0 / 0.0
  else if xs.any (·.isNaN) then 0.0 / 0.0
  else doubleAt (rootPlace (squares xs))

/-- The vector of length one in the same direction. One without a length stays as it is. -/
def normalize (xs : Vector64) : Vector64 :=
  let size := length xs
  if 0.0 < size then xs.map (· / size) else xs

end Embedding

end Groundwork
