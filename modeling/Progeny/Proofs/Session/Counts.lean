import Progeny.Session.Signals

/-! The count of an endpoint grows by the number of its signals. -/

namespace Progeny.SignalCounts

/-- One more signal is one more for its endpoint and nothing for all others. -/
theorem lookup_increment (endpoint other : Endpoint) (counts : List (Endpoint × Nat)) :
    ((increment endpoint counts).lookup other).getD 0 =
      (counts.lookup other).getD 0 + if other = endpoint then 1 else 0 := by
  -- The first entry for an endpoint is raised, and where there is none one is added.
  induction counts with
  | nil =>
    by_cases same : other = endpoint
    · simp [increment, same]
    · simp [increment, List.lookup_cons, same, beq_false_of_ne same]
  | cons head rest ih =>
    obtain ⟨held, count⟩ := head
    unfold increment
    by_cases here : held = endpoint
    · by_cases same : other = endpoint
      · subst here same
        simp
      · simp [here, List.lookup_cons, same, beq_false_of_ne same]
    · by_cases same : other = held
      · subst same
        simp [here]
      · simpa [here, List.lookup_cons, beq_false_of_ne same] using ih

/-- Signals may be counted in two parts. -/
theorem addAll_append (signals : SignalCounts) (endpoints more : List Endpoint) :
    signals.addAll (endpoints ++ more) = (signals.addAll endpoints).addAll more := by
  simp [addAll]

/-- Further signals are counted by endpoint. -/
theorem count_addAll (signals : SignalCounts) (endpoints : List Endpoint) (endpoint : Endpoint) :
    (signals.addAll endpoints).count endpoint =
      signals.count endpoint + endpoints.count endpoint := by
  -- Each signal of the list raises the count of its own endpoint.
  obtain ⟨counts⟩ := signals
  simp only [addAll, count]
  induction endpoints generalizing counts with
  | nil => simp
  | cons head rest ih =>
    rw [List.foldl_cons, ih, lookup_increment, List.count_cons]
    by_cases same : endpoint = head
    · simp [same]
      omega
    · simp [same, Ne.symm same]

end Progeny.SignalCounts
