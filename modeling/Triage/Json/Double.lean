import Triage.Json.Literal

/-!
# Binary floating point numbers of 64 bits, exactly

A `Double` is a finite number `± mantissa * 2 ^ exponent` whose mantissa has at most 53 bits and
whose exponent lies between -1074 and 971.

* `Double.ofRatio n d`   the double nearest to `n / d`, an exact half going to the even mantissa;
                         `none` above the largest double;
* `Double.times`, `Double.quotient`   product and quotient, rounded in the same way;
* `Double.scaled s k`    `s * 10 ^ k` with one rounding for `s`, one for the power of ten and one
                         for each multiplication or division by a power at most `10 ^ 308`;
* `Double.literal`       the numeral with the fewest digits that read back, and of those the
                         nearest;
* `Literal.double?`      the value of a numeral: as many leading digits as fit in 64 bits, scaled;
                         later digits before the point count by their places only, later digits
                         after it not at all.
-/

namespace Triage.Json

structure Double where
  negative : Bool
  mantissa : Nat
  exponent : Int
deriving DecidableEq, Repr

/-- the quotient rounded to the nearest whole number, a half to the even one -/
def roundDiv (n d : Nat) : Nat :=
  let q := n / d
  let r := n % d
  if d < 2 * r ∨ (2 * r = d ∧ q % 2 = 1) then q + 1 else q

/-- a power of two -/
def twoTo (k : Nat) : Nat := Nat.pow 2 k

/-- a power of ten -/
def tenTo (k : Nat) : Nat := Nat.pow 10 k

namespace Double

def zero : Double := ⟨false, 0, 0⟩

/-- `n / d` divided by `2 ^ e`, as a fraction of whole numbers -/
def shifted (n d : Nat) (e : Int) : Nat × Nat :=
  if 0 ≤ e then (n, d * twoTo e.toNat) else (n * twoTo (-e).toNat, d)

/-- the exponent that leaves a quotient of 53 bits, but never below the smallest one -/
def exponentFor (n d : Nat) : Int :=
  let t : Int := (Nat.log2 n : Int) - Nat.log2 d
  let (a, b) := shifted n d t
  max ((if a < b then t - 1 else t) - 52) (-1074)

def ofRatio (n d : Nat) : Option Double :=
  if n = 0 then some zero
  else
    let e := exponentFor n d
    let (a, b) := shifted n d e
    let q := roundDiv a b
    let (m, e) := if q = twoTo 53 then (twoTo 52, e + 1) else (q, e)
    if 971 < e then none else some ⟨false, m, e⟩

/-- the magnitude as a fraction of whole numbers -/
def ratio (x : Double) : Nat × Nat := shifted x.mantissa 1 (-x.exponent)

def times (x y : Double) : Option Double :=
  ofRatio (x.ratio.1 * y.ratio.1) (x.ratio.2 * y.ratio.2)

def quotient (x y : Double) : Option Double :=
  ofRatio (x.ratio.1 * y.ratio.2) (x.ratio.2 * y.ratio.1)

/-- the double nearest to a power of ten -/
def ofTens (k : Nat) : Option Double := ofRatio (tenTo k) 1

def dividedByTens (x : Double) (k : Nat) : Option Double :=
  if x.mantissa = 0 then some x
  else if k ≤ 308 then do x.quotient (← ofTens k)
  else do dividedByTens (← x.quotient (← ofTens 308)) (k - 308)
termination_by k
decreasing_by omega

def scaled (significand : Nat) (k : Int) : Option Double := do
  let x ← ofRatio significand 1
  if k < 0 then x.dividedByTens (-k).toNat
  else if x.mantissa = 0 then some x
  else if 308 < k then none
  else x.times (← ofTens k.toNat)

def negate (x : Double) : Double := { x with negative := !x.negative }

/-- the exponent of the leading decimal digit of `n / d` -/
def leadingPlace (n d : Nat) : Int :=
  if d ≤ n then ((Text.digits (n / d)).length : Int) - 1
  else -((Text.digits ((d - 1) / n)).length : Int)

/-- `m * 10 ^ k` rounds to `x` -/
def readsBack (x : Double) (m : Nat) (k : Int) : Bool :=
  let y := if 0 ≤ k then ofRatio (m * tenTo k.toNat) 1 else ofRatio m (tenTo (-k).toNat)
  y == some { x with negative := false }

/-- the two multiples of `10 ^ k` around `n / d`, the nearer first -/
def neighbours (n d : Nat) (k : Int) : List Nat :=
  let (a, b) := if 0 ≤ k then (n, d * tenTo k.toNat) else (n * tenTo (-k).toNat, d)
  let q := a / b
  if roundDiv a b = q then [q, q + 1] else [q + 1, q]

/-- the digits and the place of the last one, with no more than `count` further digits to try -/
def shortestFrom (x : Double) (place : Int) : Nat → Nat × Int
  | 0 => ((neighbours x.ratio.1 x.ratio.2 place).headD 0, place)
  | count + 1 =>
    match (neighbours x.ratio.1 x.ratio.2 place).find? (x.readsBack · place) with
    | some m => (m, place)
    | none => shortestFrom x (place - 1) count

def shortest (x : Double) : Nat × Int :=
  shortestFrom x (leadingPlace x.ratio.1 x.ratio.2) 16

/-- without the zeros at the end -/
def significant (ds : List Char) : List Char := (ds.reverse.dropWhile (· == '0')).reverse

/-- Positional from `1e-5` up to below `1e16`, always with a digit after the point; beyond, one
digit before the point and an exponent. -/
def literal (x : Double) : Literal :=
  if x.mantissa = 0 then ⟨x.negative, ['0'], ['0'], none⟩
  else
    let (m, place) := x.shortest
    let all := Text.digits m
    let top := place + all.length - 1
    let ds := significant all
    if 0 ≤ top ∧ top < 16 then
      let whole := top.toNat + 1
      ⟨x.negative, ds.take whole ++ List.replicate (whole - ds.length) '0',
        if ds.length ≤ whole then ['0'] else ds.drop whole, none⟩
    else if -5 ≤ top ∧ top < 0 then
      ⟨x.negative, ['0'], List.replicate (-top - 1).toNat '0' ++ ds, none⟩
    else ⟨x.negative, ds.take 1, ds.drop 1, some (top < 0, Text.digits top.natAbs)⟩

end Double

namespace Literal

/-- the digits that fit behind `acc` in 64 bits, and those that do not -/
def significand (acc : Nat) : List Char → Nat × List Char
  | [] => (acc, [])
  | d :: ds =>
    let next := acc * 10 + (d.toNat - 48)
    if next ≤ Text.maxWord64 then significand next ds else (acc, d :: ds)

/-- none above the largest double -/
def double? (n : Literal) : Option Double := do
  let (s, beyond) := significand 0 n.whole
  let (s, dropped) := significand s n.fraction
  let power : Int := match n.exponent with
    | none => 0
    | some (minus, ds) => if minus then -Nat.ofDigitChars 10 ds 0 else Nat.ofDigitChars 10 ds 0
  let x ← Double.scaled s (power + beyond.length - (n.fraction.length - dropped.length : Nat))
  some (if n.negative then x.negate else x)

end Literal

end Triage.Json
