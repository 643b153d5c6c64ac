/-!
# White space and trimming

* `isBlank`     the 25 characters with the Unicode property White_Space;
* `trimStart`   drops them from the front of a text, `trimChars` from both ends;
* `trim`        the same on strings.

A zero-width space and a byte order mark are not blank.
-/

namespace Triage.Text

def isBlank (c : Char) : Bool :=
  let n := c.toNat
  (9 ≤ n && n ≤ 13) || n == 0x20 || n == 0x85 || n == 0xA0 || n == 0x1680 ||
    (0x2000 ≤ n && n ≤ 0x200A) || n == 0x2028 || n == 0x2029 || n == 0x202F ||
    n == 0x205F || n == 0x3000

theorem isBlank_of_isWhitespace {c : Char} (h : c.isWhitespace = true) : isBlank c = true := by
  simp only [Char.isWhitespace, Bool.or_eq_true, decide_eq_true_eq] at h
  rcases h with ((rfl | rfl) | rfl) | rfl <;> decide

def trimStart (cs : List Char) : List Char := cs.dropWhile isBlank

def trimEnd (cs : List Char) : List Char := (trimStart cs.reverse).reverse

def trimChars (cs : List Char) : List Char := trimEnd (trimStart cs)

/-- without the blank characters at both ends -/
def trim (s : String) : String := String.ofList (trimChars s.toList)

/-- the text has nothing but blank characters -/
def isBlankText (s : String) : Bool := s.toList.all isBlank

theorem trimStart_nil : trimStart [] = [] := rfl

theorem trimStart_cons (c : Char) (cs : List Char) :
    trimStart (c :: cs) = if isBlank c then trimStart cs else c :: cs := by
  cases h : isBlank c <;> simp [trimStart, h]

theorem trimChars_nil : trimChars [] = [] := rfl

end Triage.Text
