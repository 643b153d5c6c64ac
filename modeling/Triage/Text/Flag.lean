import Triage.Text.Blank

/-!
# Yes and no

`flag? s` reads a word for true or false, without regard to case and to blanks at the ends.  No
character outside ASCII has one of the letters of these words as its lower case.
-/

namespace Triage.Text

def trueWords : List String := ["1", "true", "t", "yes", "y", "on"]

def falseWords : List String := ["0", "false", "f", "no", "n", "off"]

def flag? (s : String) : Option Bool :=
  let word := String.ofList ((trimChars s.toList).map Char.toLower)
  if trueWords.contains word then some true
  else if falseWords.contains word then some false
  else none

end Triage.Text
