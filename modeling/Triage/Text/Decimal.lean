/-!
# Decimal numerals

* `digits n`          the decimal digits of `n` (`natural?_digits`: they read back);
* `padded w n`        the digits filled up with zeros to width `w`;
* `natural? cs`       reads a non-empty run of digits;
* `unsigned? lim s`   reads a number at most `lim`, with an optional plus sign.
-/

namespace Triage.Text

def digits (n : Nat) : List Char := Nat.toDigits 10 n

def padded (width n : Nat) : List Char :=
  List.replicate (width - (digits n).length) '0' ++ digits n

/-- a sign, for a negative number only, and the digits -/
def integerText (n : Int) : String :=
  String.ofList (if n < 0 then '-' :: digits n.natAbs else digits n.natAbs)

def natural? (cs : List Char) : Option Nat :=
  if cs ≠ [] ∧ cs.all Char.isDigit then some (Nat.ofDigitChars 10 cs 0) else none

theorem natural?_nil : natural? [] = none := rfl

theorem digits_ne_nil (n : Nat) : digits n ≠ [] := Nat.toDigits_ne_nil

theorem all_isDigit_digits (n : Nat) : (digits n).all Char.isDigit = true := by
  rw [List.all_eq_true]
  intro c hc
  exact Nat.isDigit_of_mem_toDigits (by decide) (by decide) hc

theorem natural?_digits (n : Nat) : natural? (digits n) = some n := by
  rw [natural?, if_pos ⟨digits_ne_nil n, all_isDigit_digits n⟩, digits,
    Nat.ofDigitChars_ten_toDigits]

def unsigned? (limit : Nat) (cs : List Char) : Option Nat :=
  let body := match cs with
    | '+' :: rest => rest
    | _ => cs
  (natural? body).filter (· ≤ limit)

/-- the largest number of 32 bits -/
def maxWord32 : Nat := 4294967295

/-- the largest number of 64 bits -/
def maxWord64 : Nat := 18446744073709551615

end Triage.Text
