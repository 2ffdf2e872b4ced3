import Progeny.Handle

/-! How often a change was signalled on each endpoint. This count is all there is of a notifier: who
waits for a change remembers the count and looks again once it has grown, so that no signal is
missed. -/

namespace Progeny

/-- The number of signals on each endpoint that had any. -/
structure SignalCounts where
  counts : List (Endpoint × Nat) := []
  deriving DecidableEq

namespace SignalCounts

/-- One more for an endpoint in a list of counts. -/
def increment (endpoint : Endpoint) : List (Endpoint × Nat) → List (Endpoint × Nat)
  | [] => [(endpoint, 1)]
  | (other, count) :: rest =>
    if other = endpoint then (other, count + 1) :: rest
    else (other, count) :: increment endpoint rest

/-- The number of signals on an endpoint so far. -/
def count (signals : SignalCounts) (endpoint : Endpoint) : Nat :=
  (signals.counts.lookup endpoint).getD 0

/-- Counts further signals. -/
def addAll (signals : SignalCounts) (endpoints : List Endpoint) : SignalCounts :=
  ⟨endpoints.foldl (fun counts endpoint => increment endpoint counts) signals.counts⟩

end SignalCounts

end Progeny
