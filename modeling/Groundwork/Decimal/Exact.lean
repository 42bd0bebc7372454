/-!
The exact value of a double and rounding of exact values. A finite double is a sign and an integer
times a power of two; every decimal text of it is computed from that value and not from an
approximation.
-/

namespace Groundwork.Decimal

/-- What a double stands for. The value of `finite negative m e` is `m * 2 ^ e` with that sign. -/
inductive Exact where
  | finite (negative : Bool) (mantissa : Nat) (exponent : Int)
  | infinite (negative : Bool)
  | notANumber

namespace Exact

def ofFloat (x : Float) : Exact :=
  let bits := x.toBits.toNat
  let negative := bits / Nat.pow 2 63 == 1
  let exponent : Nat := bits / Nat.pow 2 52 % Nat.pow 2 11
  let fraction : Nat := bits % Nat.pow 2 52
  if exponent == 2047 then if fraction == 0 then infinite negative else notANumber
  else if exponent == 0 then finite negative fraction (-1074)
  else finite negative (Nat.pow 2 52 + fraction) ((exponent : Int) - 1075)

def toRat : Exact → Rat
  | finite negative mantissa exponent =>
    let size := (mantissa : Rat) * (2 : Rat) ^ exponent
    if negative then -size else size
  | _ => 0

end Exact

def roundHalfEven (r : Rat) : Int :=
  let low := r.floor
  let rest := r - low
  if rest < 1 / 2 then low
  else if 1 / 2 < rest then low + 1
  else if low % 2 = 0 then low else low + 1

/-- The whole number nearest to `n` that is a double, of which the mantissa has 53 binary digits; halfway
between two of them, the one with the even mantissa. -/
def nearestWhole (n : Nat) : Nat :=
  let unit := Nat.pow 2 (n.log2 + 1 - 53)
  let low := n / unit
  let rest := 2 * (n % unit)
  unit * (if rest < unit ∨ (rest = unit ∧ low % 2 = 0) then low else low + 1)

def toFloat (negative : Bool) (mantissa : Nat) (exponent : Int) : Float :=
  let length := (Nat.toDigits 10 mantissa).length
  let size :=
    if mantissa == 0 || exponent + length < -400 then 0.0
    else if exponent + length > 400 then 1.0 / 0.0
    else if 0 ≤ exponent then Float.ofScientific mantissa false exponent.toNat
    else Float.ofScientific mantissa true (-exponent).toNat
  if negative then -size else size

def roundTo (places : Nat) (x : Float) : Float :=
  match Exact.ofFloat x with
  | .finite negative mantissa exponent =>
    let size := (mantissa : Rat) * (2 : Rat) ^ exponent
    toFloat negative (roundHalfEven (size * 10 ^ places)).toNat (-places)
  | _ => x

end Groundwork.Decimal
