import Triage.Table
import Triage.Text.Blank
import Triage.Text.Cut

/-!
# Files of variables

One assignment `NAME=value` per line; blank lines and lines that start with `#` do not count, and
neither do lines without `=` or without a name.

* `Dotenv.assignment? line`   the name and the value of a line: a leading `export ` and one pair of
                              quotes around the value are dropped;
* `Dotenv.parse`              all assignments, the last one of a name at its first place.
-/

namespace Triage.Dotenv

open Text

def exportWord : List Char := "export ".toList

/-- without the quotes, if the text stands between two of them -/
def unquoted? (quote : Char) (cs : List Char) : Option (List Char) :=
  (after? [quote] cs).bind (before? [quote])

def unquote (cs : List Char) : List Char :=
  ((unquoted? '"' cs).or (unquoted? '\'' cs)).getD cs

def assignment? (line : List Char) : Option (String × String) := do
  let line := trimChars line
  if line = [] ∨ line.head? = some '#' then none
  else do
    let (name, value) ← cut? ['='] ((after? exportWord line).getD line)
    let name := trimChars name
    if name = [] then none
    else some (String.ofList name, String.ofList (unquote (trimChars value)))

def parse (contents : String) : List (String × String) :=
  ((lines contents.toList).filterMap assignment?).foldl (fun t (k, v) => Table.put k v t) []

end Triage.Dotenv
