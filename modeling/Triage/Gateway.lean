import Triage.Report.Counts

/-!
# The service that answers questions about reports

* `GatewayError`    why a call failed, with its message, its category and whether to try again;
* `Gateway`         a store, a failure that every call meets while it is set, and the number of
                    calls so far;
* `Ask α`           a computation that calls the service; the first failure ends it, and calls made
                    before stay counted;
* `Gateway.ask f`   one call (`run_ask_of_none`, `run_ask_of_some`); a sequence of calls stops at
                    the first failure (`run_bind`).
-/

namespace Triage

inductive GatewayError where
  | unavailable (text : String)
  | timeout (text : String)
  | rejected (text : String)
  | malformed (text : String)
deriving DecidableEq, Repr

namespace GatewayError

def message : GatewayError → String
  | .unavailable text => "Gateway unavailable: " ++ text
  | .timeout text => "Gateway timeout: " ++ text
  | .rejected text => "Query rejected: " ++ text
  | .malformed text => "Malformed response: " ++ text

def category : GatewayError → String
  | .unavailable _ => "GATEWAY_UNAVAILABLE"
  | .timeout _ => "TIMEOUT"
  | .rejected _ => "QUERY_REJECTED"
  | .malformed _ => "MALFORMED_RESPONSE"

def isRetryable : GatewayError → Bool
  | .unavailable _ | .timeout _ => true
  | .rejected _ | .malformed _ => false

end GatewayError

structure Gateway where
  store : Store := {}
  failure : Option GatewayError := none
  calls : Nat := 0
deriving DecidableEq, Repr

abbrev Ask (α : Type) := ExceptT GatewayError (StateM Gateway) α

namespace Gateway

def counted (g : Gateway) : Gateway := { g with calls := g.calls + 1 }

def ask {α : Type} (f : Store → α) : Ask α := fun g =>
  match g.failure with
  | none => (.ok (f g.store), g.counted)
  | some e => (.error e, g.counted)

theorem run_ask_of_none {α : Type} (f : Store → α) {g : Gateway} (h : g.failure = none) :
    (ask f).run.run g = (.ok (f g.store), g.counted) := by
  simp [ask, ExceptT.run, StateT.run, h]

theorem run_ask_of_some {α : Type} (f : Store → α) {g : Gateway} {e : GatewayError}
    (h : g.failure = some e) : (ask f).run.run g = (.error e, g.counted) := by
  simp [ask, ExceptT.run, StateT.run, h]

theorem run_pure {α : Type} (a : α) (g : Gateway) : (pure a : Ask α).run.run g = (.ok a, g) := rfl

theorem run_bind {α β : Type} (m : Ask α) (f : α → Ask β) (g : Gateway) :
    (m >>= f).run.run g = match m.run.run g with
      | (.ok a, g) => (f a).run.run g
      | (.error e, g) => (.error e, g) := by
  simp only [ExceptT.run, StateT.run, bind, ExceptT.bind, ExceptT.mk, StateT.bind,
    ExceptT.bindCont]
  cases m g with
  | mk answer g => cases answer <;> rfl

end Gateway

end Triage
