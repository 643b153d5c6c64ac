import Triage.Text.Cut
import Triage.Text.Hex
import Triage.Text.Utf8

/-!
# Form encoding of texts

The encoding of `application/x-www-form-urlencoded`, byte by byte of the UTF-8 form.

* `Form.encode`   keeps letters, digits and `*-._`, writes a space as `+` and every other byte as
                  `%` and two digits (`encode_append`);
* `Form.decode`   undoes both; a `%` without two hexadecimal digits stands for itself, and bytes
                  that are not UTF-8 become U+FFFD;
* `Form.pairs`    the names and values of a text of the form `a=b&c=d`.
-/

namespace Triage.Form

open Text

/-- written as it is -/
def isPlain (n : Nat) : Bool :=
  (48 ≤ n && n ≤ 57) || (65 ≤ n && n ≤ 90) || (97 ≤ n && n ≤ 122) ||
    n == 42 || n == 45 || n == 46 || n == 95

def encodeByte (b : UInt8) : List Char :=
  let n := b.toNat
  if isPlain n then [Char.ofNat n]
  else if n = 32 then ['+']
  else ['%', upperHex (n / 16), upperHex (n % 16)]

def encode (cs : List Char) : List Char := (Utf8.encode cs).flatMap encodeByte

theorem encode_nil : encode [] = [] := rfl
theorem encode_append (a b : List Char) : encode (a ++ b) = encode a ++ encode b := by
  simp [encode, Utf8.encode_append, List.flatMap_append]

def bytes : List Char → List UInt8
  | [] => []
  | '%' :: a :: b :: rest =>
    match hexValue? a, hexValue? b with
    | some hi, some lo => UInt8.ofNat (hi * 16 + lo) :: bytes rest
    | _, _ => 37 :: bytes (a :: b :: rest)
  | '+' :: rest => 32 :: bytes rest
  | c :: rest => String.utf8EncodeChar c ++ bytes rest

def decode (cs : List Char) : List Char := Utf8.decodeLossy (bytes cs)

/-- a piece without `=` is a name with an empty value -/
def pair (piece : List Char) : List Char × List Char :=
  match cut? ['='] piece with
  | some (name, value) => (decode name, decode value)
  | none => (decode piece, [])

/-- empty pieces do not count -/
def pairs (cs : List Char) : List (List Char × List Char) :=
  ((cs.splitOn '&').filter (· ≠ [])).map pair

end Triage.Form
