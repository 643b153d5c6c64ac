/-!
# Hexadecimal digits

* `hexValue? c`                the value of a digit in either case (`hexValue?_lowerHex`,
                               `hexValue?_upperHex`);
* `lowerHex n`, `upperHex n`   the digit of a value below 16.
-/

namespace Triage.Text

def hexValue? (c : Char) : Option Nat :=
  let n := c.toNat
  if 48 ≤ n ∧ n ≤ 57 then some (n - 48)
  else if 97 ≤ n ∧ n ≤ 102 then some (n - 87)
  else if 65 ≤ n ∧ n ≤ 70 then some (n - 55)
  else none

def lowerHex (n : Nat) : Char := Char.ofNat (if n < 10 then 48 + n else 87 + n)

def upperHex (n : Nat) : Char := Char.ofNat (if n < 10 then 48 + n else 55 + n)

theorem hexValue?_lowerHex : ∀ n < 16, hexValue? (lowerHex n) = some n := by decide

theorem hexValue?_upperHex : ∀ n < 16, hexValue? (upperHex n) = some n := by decide

end Triage.Text
