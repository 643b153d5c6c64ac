/-!
# Splitting a command line into words

`Shell.split` follows the quoting rules of a POSIX shell: words end at a space, a tab or a line
feed; single quotes keep everything, double quotes all but `\` before one of `$`, `` ` ``, `"`, `\`
and the line feed; outside quotes `\` keeps the next character, and drops a line feed; `#` where a
word could start begins a comment.

* `Shell.Mode`   where the scanner stands;
* `Shell.scan`   the words from there on, `none` if a quote stays open or a `\` ends the text;
* `scan_gap`     a separator ends the word before it.
-/

namespace Triage.Shell

/-- Within a word the characters so far are kept in reverse. -/
inductive Mode where
  | gap
  | comment
  | word (rev : List Char)
  /-- after a `\` outside quotes -/
  | escaped (rev : List Char)
  | single (rev : List Char)
  | double (rev : List Char)
  /-- after a `\` in double quotes -/
  | doubleEscaped (rev : List Char)
deriving DecidableEq, Repr

/-- ends a word -/
def isGap (c : Char) : Bool := c == ' ' || c == '\t' || c == '\n'

/-- loses its meaning behind a `\` in double quotes -/
def isSpecial (c : Char) : Bool := c == '$' || c == '\x60' || c == '"' || c == '\\'

/-- the mode after a character of a word -/
def inWord (rev : List Char) (c : Char) : Mode :=
  if c = '"' then .double rev
  else if c = '\'' then .single rev
  else if c = '\\' then .escaped rev
  else .word (c :: rev)

/-- the mode after a character, and the word that it ends, if any -/
def step : Mode → Char → Option (List Char) × Mode
  | .gap, c =>
    if isGap c then (none, .gap) else if c = '#' then (none, .comment) else (none, inWord [] c)
  | .comment, c => (none, if c = '\n' then .gap else .comment)
  | .word rev, c => if isGap c then (some rev.reverse, .gap) else (none, inWord rev c)
  | .escaped rev, c => (none, .word (if c = '\n' then rev else c :: rev))
  | .single rev, c => (none, if c = '\'' then .word rev else .single (c :: rev))
  | .double rev, c =>
    (none, if c = '"' then .word rev else if c = '\\' then .doubleEscaped rev
      else .double (c :: rev))
  | .doubleEscaped rev, c =>
    (none, if isSpecial c then .double (c :: rev) else if c = '\n' then .double rev
      else .double (c :: '\\' :: rev))

/-- the last word at the end of the text, if the text may end here -/
def finish : Mode → Option (List (List Char))
  | .gap | .comment => some []
  | .word rev => some [rev.reverse]
  | .escaped _ | .single _ | .double _ | .doubleEscaped _ => none

def scan : Mode → List Char → Option (List (List Char))
  | m, [] => finish m
  | m, c :: cs =>
    match step m c with
    | (none, m) => scan m cs
    | (some w, m) => (scan m cs).map (w :: ·)

theorem scan_nil (m : Mode) : scan m [] = finish m := by cases m <;> rfl

theorem scan_gap (rev : List Char) (c : Char) (cs : List Char) (h : isGap c = true) :
    scan (.word rev) (c :: cs) = (scan .gap cs).map (rev.reverse :: ·) := by
  simp [scan, step, h]

def split (command : String) : Option (List String) :=
  (scan .gap command.toList).map fun ws => ws.map String.ofList

end Triage.Shell
