import Triage.Text.Decimal

/-!
# Texts and numbers that are not the value they should be

`BadValue` says which kind of value was expected and what stood there instead; `BadValue.message`
is the sentence shown to a user and `BadValue.category` the word that a caller sorts errors by.
-/

namespace Triage

inductive BadValue where
  | label (kind raw : String)
  | code (kind : String) (code : Int)
  | timestamp (text : String)
  | range (text : String)
deriving DecidableEq, Repr

namespace BadValue

def message : BadValue → String
  | .label kind raw => "Unknown " ++ kind ++ " label: " ++ raw
  | .code kind n => "Unknown " ++ kind ++ " code: " ++ Text.integerText n
  | .timestamp raw => "Invalid timestamp: " ++ raw
  | .range raw => "Invalid range: " ++ raw

def category : BadValue → String
  | .label _ _ | .code _ _ => "UNKNOWN_ENUM_VALUE"
  | .timestamp _ | .range _ => "INVALID_ARGUMENT"

end BadValue

end Triage
