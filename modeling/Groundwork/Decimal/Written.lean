import Groundwork.Decimal.Exact

/-!
Decimal texts of doubles: with a fixed number of places, and with the fewest digits that read back. Both
round the exact value, a tie to the even digit.
-/

namespace Groundwork.Decimal

def padLeft (width : Nat) (c : Char) (cs : List Char) : List Char :=
  List.replicate (width - cs.length) c ++ cs

def pointed (places n : Nat) : List Char :=
  let digits := padLeft (places + 1) '0' (Nat.toDigits 10 n)
  let whole := digits.take (digits.length - places)
  if places = 0 then whole else whole ++ '.' :: digits.drop (digits.length - places)

def signed (negative : Bool) (text : List Char) : String :=
  String.ofList (if negative then '-' :: text else text)

def infinite (negative : Bool) : String := signed negative "inf".toList

def fixed (places : Nat) (x : Float) : String :=
  match Exact.ofFloat x with
  | .notANumber => "nan"
  | .infinite negative => infinite negative
  | .finite negative mantissa exponent =>
    let size := (mantissa : Rat) * (2 : Rat) ^ exponent
    signed negative (pointed places (roundHalfEven (size * 10 ^ places)).toNat)

def leadingExponent (size : Rat) : Int :=
  let rec search : Nat → Int → Int
    | 0, e => e
    | fuel + 1, e => if (10 : Rat) ^ e ≤ size then e else search fuel (e - 1)
  search 640 310

def exponentText (e : Int) : List Char :=
  (if e < 0 then '-' else '+') :: padLeft 2 '0' (Nat.toDigits 10 e.natAbs)

/-- The reals that round to `mantissa * 2 ^ exponent`: the bounds, and whether they belong to it. -/
structure Rounding where
  low : Rat
  high : Rat
  closed : Bool

namespace Rounding

def around (mantissa : Nat) (exponent : Int) : Rounding :=
  let quarter := (2 : Rat) ^ (exponent - 2)
  let below : Nat := if mantissa = Nat.pow 2 52 && exponent != -1074 then 1 else 2
  { low := (4 * mantissa - below : Rat) * quarter
    high := (4 * mantissa + 2 : Rat) * quarter
    closed := mantissa % 2 = 0 }

def holds (r : Rounding) (x : Rat) : Bool :=
  if r.closed then r.low ≤ x && x ≤ r.high else r.low < x && x < r.high

end Rounding

/-- Digits `d` and an exponent `e` for the value `d * 10 ^ e`. -/
structure Shortest where
  digits : Nat
  exponent : Int

/-- The decimal of fewest digits that rounds to the given double; of two, the nearer one. -/
def shortest (mantissa : Nat) (exponent : Int) : Shortest :=
  let size := (mantissa : Rat) * (2 : Rat) ^ exponent
  let interval := Rounding.around mantissa exponent
  let lead := leadingExponent size
  let rec search : Nat → Int → Shortest
    | 0, e => ⟨(roundHalfEven (size * (10 : Rat) ^ (-e))).toNat, e⟩
    | fuel + 1, e =>
      let unit := (10 : Rat) ^ e
      let under := (size / unit).floor
      let above := under + 1
      let hitsUnder := interval.holds (under * unit)
      let hitsOver := interval.holds (above * unit)
      if hitsUnder && hitsOver then ⟨(roundHalfEven (size / unit)).toNat, e⟩
      else if hitsUnder then ⟨under.toNat, e⟩
      else if hitsOver then ⟨above.toNat, e⟩
      else search fuel (e - 1)
  search 17 lead

def dropTrailingZeros (digits : List Char) : List Char :=
  (digits.reverse.dropWhile (· == '0')).reverse

/-- The text of a double that reads back as it: a point is always shown in positional form, which
is used from `0.0001` up to below `10 ^ 16`; beyond, the exponent has a sign and two digits. -/
def written (x : Float) : String :=
  match Exact.ofFloat x with
  | .notANumber => "nan"
  | .infinite negative => infinite negative
  | .finite negative mantissa exponent =>
    if mantissa = 0 then signed negative "0.0".toList
    else
      let s := shortest mantissa exponent
      let all := Nat.toDigits 10 s.digits
      let point : Int := s.exponent + all.length
      let digits := dropTrailingZeros all
      let body :=
        if -4 < point ∧ point ≤ 16 then
          if point ≤ 0 then '0' :: '.' :: (List.replicate (-point).toNat '0' ++ digits)
          else
            let whole := digits.take point.toNat
            let whole := whole ++ List.replicate (point.toNat - whole.length) '0'
            let rest := digits.drop point.toNat
            whole ++ '.' :: (if rest.isEmpty then ['0'] else rest)
        else
          let rest := digits.drop 1
          digits.take 1 ++ (if rest.isEmpty then [] else '.' :: rest) ++
            'e' :: exponentText (point - 1)
      signed negative body

end Groundwork.Decimal
