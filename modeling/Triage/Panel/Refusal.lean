import Triage.Gateway

/-!
# Why a request to a panel is refused

`Refusal.message` is the sentence shown to a user, `Refusal.category` the word that callers
sort errors by.
-/

namespace Triage

inductive Refusal where
  | unknownFacet (id : String)
  | duplicateKey (key owner : String)
  | unknownGroup (name : String)
  | searchUnsupported (id : String)
  | staleFetch (id : String) (ticket : Nat)
  | gateway (e : GatewayError)
deriving DecidableEq, Repr

namespace Refusal

def message : Refusal → String
  | .unknownFacet id => "Unknown filter facet: " ++ id
  | .duplicateKey key owner =>
    "History key '" ++ key ++ "' is already owned by facet '" ++ owner ++ "'"
  | .unknownGroup name => "Unknown filter group: " ++ name
  | .searchUnsupported id => "Facet '" ++ id ++ "' does not support search"
  | .staleFetch id ticket =>
    "Stale fetch for facet '" ++ id ++ "': ticket " ++ Text.integerText ticket ++ " superseded"
  | .gateway e => e.message

def category : Refusal → String
  | .unknownFacet _ | .unknownGroup _ => "NOT_FOUND"
  | .duplicateKey _ _ => "DUPLICATE_KEY"
  | .searchUnsupported _ => "INVALID_ARGUMENT"
  | .staleFetch _ _ => "STALE_FETCH"
  | .gateway e => e.category

end Refusal

end Triage
