import Triage.Files
import Triage.Text.Decimal

/-!
# Why a compilation database cannot be processed

`BuildFault.message` is the sentence shown to a user, `BuildFault.category` the word that callers
sort errors by.
-/

namespace Triage

/-- why a response file has no arguments -/
inductive ResponseFault where
  | unreadable (e : FileError)
  | unbalancedQuotes
deriving DecidableEq, Repr

def ResponseFault.message : ResponseFault → String
  | .unreadable e => e.message
  | .unbalancedQuotes => "unbalanced quotes"

inductive BuildFault where
  | noCommand (index : Nat)
  | emptyArguments (index : Nat)
  | unsplittable (index : Nat) (command : String)
  | responseFile (path : String) (fault : ResponseFault)
  | responseDepth (path : String) (limit : Nat)
deriving DecidableEq, Repr

namespace BuildFault

def entryText (index : Nat) (reason : String) : String :=
  "Entry " ++ Text.integerText index ++ ": " ++ reason

def message : BuildFault → String
  | .noCommand index => entryText index "neither 'arguments' nor 'command' is set"
  | .emptyArguments index => entryText index "empty argument list"
  | .unsplittable index command => entryText index ("cannot split command: " ++ command)
  | .responseFile path fault => "Response file " ++ path ++ ": " ++ fault.message
  | .responseDepth path limit =>
    "Response files nested deeper than " ++ Text.integerText limit ++ " levels at " ++ path

def category : BuildFault → String
  | .noCommand _ | .emptyArguments _ | .unsplittable _ _ => "INVALID_ENTRY"
  | .responseFile _ _ | .responseDepth _ _ => "RESPONSE_FILE"

end BuildFault

end Triage
