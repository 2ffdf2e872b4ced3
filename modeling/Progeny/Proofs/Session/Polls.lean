import Progeny.Proofs.Session.Effects
import Progeny.Proofs.Session.Rounds
import Progeny.Proofs.Session.Stuck

/-! What a poll does: effects of calls by one instance, until that instance ends or is stuck. -/

namespace Progeny

variable {π β σ : Type} {behaviour : Behaviour π β σ}

/-- Instances wait in calls only. -/
def Behaviour.IsSequential (behaviour : Behaviour π β σ) : Prop :=
  ∀ state shared notice, (behaviour.next state shared notice).1 ≠ .park

namespace Session

variable {session : Session π β σ} {result : Turn β × Session π β σ}

/-- All that the actions of an instance do to the tables are effects of its calls. -/
theorem Acts.effects {id : InstanceId} {state : β} {notice : Notice}
    (acts : Acts behaviour id state notice session result) :
    Tables.Effects id session.tables result.2.tables := by
  -- Waking, looking, and stepping on leave the tables alone.
  induction acts with
  | exit | fault | park => exact .refl
  | inspect _ _ ih | step _ _ ih => exact ih
  | wake _ _ ih =>
    unfold Session.wake at ih
    split at ih <;> exact ih
  | @block _ _ _ session _ request _ _ _ performed =>
    have effects := session.tables.effects_perform id request
    rwa [performed] at effects
  | @finish _ _ _ session _ request _ _ _ _ performed _ ih =>
    have effects := session.tables.effects_perform id request
    rw [performed] at effects
    exact effects.trans ih

/-- Whoever was made ready before the actions of an instance still is after them. -/
theorem Acts.woken {id other : InstanceId} {state : β} {notice : Notice}
    (acts : Acts behaviour id state notice session result) (woken : other ∈ session.woken) :
    other ∈ result.2.woken := by
  -- Whoever is made ready stays so for the whole turn.
  induction acts with
  | exit | fault | park | block => exact woken
  | inspect _ _ ih | step _ _ ih | finish _ _ _ ih => exact ih woken
  | wake _ _ ih => exact ih (mem_woken_wake.mpr (.inl woken))

/-- An instance that ends its turn in a call is stuck in it. -/
theorem Acts.stuck {id : InstanceId} {state last : β} {notice : Notice} {blocked : Blocked}
    {after : Session π β σ}
    (acts : Acts behaviour id state notice session (.suspended last (some blocked), after)) :
    after.tables.Stuck id blocked.call blocked.wait := by
  -- The last request of the turn is the one that blocks.
  generalize same : (Turn.suspended last (some blocked), after) = result at acts
  induction acts with
  | exit | fault | park => simp at same
  | inspect _ _ ih | step _ _ ih | wake _ _ ih | finish _ _ _ ih => exact ih same
  | block _ performed =>
    simp only [Prod.mk.injEq, Turn.suspended.injEq, Option.some.injEq] at same
    obtain ⟨⟨-, rfl⟩, rfl⟩ := same
    exact Tables.stuck_of_perform performed

/-- An instance that waits in calls only ends its turn in a call. -/
theorem Acts.in_call {id : InstanceId} {state last : β} {notice : Notice}
    {waits : Option Blocked} {after : Session π β σ} (sequential : behaviour.IsSequential)
    (acts : Acts behaviour id state notice session (.suspended last waits, after)) :
    waits ≠ none := by
  -- Only parking would end a turn outside a call, and such a behaviour never parks.
  generalize same : (Turn.suspended last waits, after) = result at acts
  induction acts with
  | exit | fault => simp at same
  | inspect _ _ ih | step _ _ ih | wake _ _ ih | finish _ _ _ ih => exact ih same
  | block =>
    simp only [Prod.mk.injEq, Turn.suspended.injEq] at same
    simp [same.1.2]
  | @park state next notice session _ chosen =>
    exact absurd (congrArg Prod.fst chosen) (sequential state session.shared notice)

/-- A poll of an instance whose wait is not over changes nothing. -/
theorem proceeds_of_waiting {task : Task β} {blocked : Blocked}
    {result : Turn β × Session π β σ} (waits : task.blocked = some blocked)
    (still : session.tables.isOver blocked.wait = false) :
    Proceeds behaviour task session result ↔
      result = (.suspended task.state (some blocked), session) := by
  have retried : session.tables.retry task.id blocked = (.blocked blocked, session.tables) := by
    simp [Tables.retry, still]
  constructor
  · intro goes
    cases goes with
    | free idle => simp [idle] at waits
    | answered held answered =>
      obtain rfl := Option.some.inj (held.symm.trans waits)
      simp [retried] at answered
    | stays held stayed =>
      obtain rfl := Option.some.inj (held.symm.trans waits)
      obtain ⟨same, rfl⟩ := Prod.mk.inj (retried.symm.trans stayed)
      rw [Progress.blocked.inj same]
  · rintro rfl
    exact .stays waits retried

/-- A poll of an instance whose call is answered goes on with the answer. -/
theorem proceeds_of_answer {task : Task β} {blocked : Blocked} {reply : Reply}
    {tables : Tables π} {result : Turn β × Session π β σ} (waits : task.blocked = some blocked)
    (retried : session.tables.retry task.id blocked = (.finished reply, tables)) :
    Proceeds behaviour task session result ↔
      Acts behaviour task.id task.state (.reply reply) { session with tables := tables }
        result := by
  constructor
  · intro goes
    cases goes with
    | free idle => simp [idle] at waits
    | answered held answered acts =>
      obtain rfl := Option.some.inj (held.symm.trans waits)
      obtain ⟨same, rfl⟩ := Prod.mk.inj (retried.symm.trans answered)
      obtain rfl := Progress.finished.inj same
      exact acts
    | stays held stayed =>
      obtain rfl := Option.some.inj (held.symm.trans waits)
      simp [retried] at stayed
  · exact .answered waits retried

namespace Proceeds

variable {task : Task β} (goes : Proceeds behaviour task session result)
include goes

/-- All that a poll does to the tables before its end are effects of calls. -/
theorem effects : Tables.Effects task.id session.tables result.2.tables := by
  -- The retry acts first, and the turn that follows it continues from there.
  cases goes with
  | free _ acts => exact acts.effects
  | @answered blocked _ _ _ _ retried acts =>
    have effects := session.tables.effects_retry task.id blocked
    rw [retried] at effects
    exact effects.trans acts.effects
  | @stays blocked _ _ _ retried =>
    have effects := session.tables.effects_retry task.id blocked
    rwa [retried] at effects

/-- Whoever was made ready before a poll of another still is after it. -/
theorem woken {other : InstanceId} (woken : other ∈ session.woken) : other ∈ result.2.woken := by
  cases goes with
  | free _ acts => exact acts.woken woken
  | answered _ _ acts => exact acts.woken woken
  | stays => exact woken

omit goes in
/-- An instance that ends its poll in a call is stuck in it, unless it has waited all the time. -/
theorem stuck {last : β} {blocked : Blocked} {after : Session π β σ}
    (goes : Proceeds behaviour task session (.suspended last (some blocked), after)) :
    after.tables.Stuck task.id blocked.call blocked.wait ∨
      task.blocked = some blocked ∧ after.tables = session.tables := by
  -- A call that waits on either waited already or was started once more.
  generalize same : (Turn.suspended last (some blocked), after) = result at goes
  cases goes with
  | free _ acts =>
    subst same
    exact .inl acts.stuck
  | answered _ _ acts =>
    subst same
    exact .inl acts.stuck
  | stays waits retried =>
    simp only [Prod.mk.injEq, Turn.suspended.injEq, Option.some.injEq] at same
    obtain ⟨⟨-, rfl⟩, rfl⟩ := same
    unfold Tables.retry at retried
    split at retried
    · exact .inl (Tables.stuck_of_resume retried)
    · obtain ⟨same, rfl⟩ := Prod.mk.inj retried
      obtain rfl := Progress.blocked.inj same
      exact .inr ⟨waits, rfl⟩

omit goes in
/-- An instance that waits in calls only ends its poll in a call. -/
theorem in_call {last : β} {waits : Option Blocked} {after : Session π β σ}
    (sequential : behaviour.IsSequential)
    (goes : Proceeds behaviour task session (.suspended last waits, after)) : waits ≠ none := by
  -- A call that goes on waiting is still a call.
  generalize same : (Turn.suspended last waits, after) = result at goes
  cases goes with
  | free _ acts =>
    subst same
    exact acts.in_call sequential
  | answered _ _ acts =>
    subst same
    exact acts.in_call sequential
  | stays =>
    simp only [Prod.mk.injEq, Turn.suspended.injEq] at same
    simp [same.1.2]

end Proceeds

end Session

end Progeny
