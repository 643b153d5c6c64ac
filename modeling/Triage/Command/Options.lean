import Triage.Text.Cut

/-!
# Options on a command line

* `Arg.ofString`     what one argument looks like: `--`, `--name`, `--name=value`, `-x`, `-xvalue`,
                     `-x=value`, or a plain value;
* `readOptions`      the options of a command with their values; an option takes the argument after
                     it unless it carries a value itself, and a value of its own may not look like
                     an option; plain values and unknown names are refused;
* `Options.value?`   the value of an option that may be given once at most.
-/

namespace Triage.Command

inductive Arg where
  | escape
  | long (name : String) (value : Option String)
  | short (name : Char) (value : Option String)
  | plain (value : String)
deriving DecidableEq, Repr

namespace Arg

def ofChars : List Char → Arg
  | ['-', '-'] => .escape
  | '-' :: '-' :: cs =>
    match Text.cut? ['='] cs with
    | some (name, value) => .long (String.ofList name) (some (String.ofList value))
    | none => .long (String.ofList cs) none
  | ['-', c] => .short c none
  | '-' :: c :: '=' :: cs => .short c (some (String.ofList cs))
  | '-' :: c :: cs => .short c (some (String.ofList cs))
  | cs => .plain (String.ofList cs)

def ofString (s : String) : Arg := ofChars s.toList

/-- could stand for the value of an option -/
def isPlain : Arg → Bool
  | .plain _ => true
  | _ => false

end Arg

/-- an option that takes a value -/
structure OptionName where
  long : String
  short : Option Char := none
deriving DecidableEq, Repr

abbrev Options := List (String × String)

/-- the long name of an option argument, and the value it carries -/
def named? (names : List OptionName) : Arg → Option (String × Option String)
  | .long name value => if names.any (·.long == name) then some (name, value) else none
  | .short c value => (names.find? (·.short == some c)).map fun n => (n.long, value)
  | _ => none

def readOptions (names : List OptionName) : List String → Option Options
  | [] => some []
  | [a] =>
    if Arg.ofString a = .escape then some []
    else
      match named? names (.ofString a) with
      | some (name, some value) => some [(name, value)]
      | _ => none
  | a :: b :: rest =>
    match named? names (.ofString a) with
    | some (name, some value) => (readOptions names (b :: rest)).map ((name, value) :: ·)
    | some (name, none) =>
      if (Arg.ofString b).isPlain then (readOptions names rest).map ((name, b) :: ·) else none
    | none => none

namespace Options

def given (os : Options) (name : String) : List String := (os.filter (·.1 == name)).map (·.2)

/-- no option is given twice -/
def once (os : Options) : Bool := os.all fun o => os.given o.1 == [o.2]

def value? (os : Options) (name : String) : Option String := (os.given name).head?

end Options

end Triage.Command
