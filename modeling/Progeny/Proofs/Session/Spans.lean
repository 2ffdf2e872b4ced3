import Mathlib.Data.List.Induction
import Mathlib.Logic.Function.Basic
import Progeny.Proofs.Session.History

/-! Calls as a whole: a call begins, others do whatever they like while it waits, and it is tried
again until it is answered. Where instances make one call after another, every attempt at a call
belongs to such a span. -/

namespace Progeny

/-- The call that goes on waiting, if a call has not come to its end. -/
def Progress.blocked? : Progress → Option Blocked
  | .finished _ => none
  | .blocked waiting => some waiting

namespace Session

variable {π : Type}

namespace Deed

/-- The instance that makes a call, goes on with one, or ends by a deed. -/
def actor? : Deed π → Option InstanceId
  | .calls caller _ _ | .resumes caller _ _ => some caller
  | .ends id _ => some id
  | _ => none

/-- The call in which each instance waits after a deed. -/
def underWay (before : InstanceId → Option Blocked) : Deed π → InstanceId → Option Blocked
  | .calls caller _ progress | .resumes caller _ progress =>
    Function.update before caller progress.blocked?
  | .finishes _ => fun _ => none
  | _ => before

/-- Whether a deed is in turn: whoever is polled makes a new call only if its last one was answered,
goes on only with the call in which it waits, and does not end in the middle of one. -/
def InTurn (polled : Option InstanceId) (waits : InstanceId → Option Blocked) : Deed π → Prop
  | .calls caller _ _ => polled = some caller ∧ waits caller = none
  | .resumes caller pending _ =>
    polled = some caller ∧ (waits caller).map Blocked.call = some pending
  | .ends id _ => waits id = none
  | _ => True

end Deed

/-- The call in which each instance waits after some deeds. -/
def underWay (deeds : List (Deed π)) : InstanceId → Option Blocked :=
  deeds.foldl Deed.underWay fun _ => none

/-- Instances make one call after another, each in polls of its own. -/
def Sequential (deeds : List (Deed π)) : Prop :=
  ∀ earlier deed later, deeds = earlier ++ deed :: later →
    deed.InTurn (polling earlier) (underWay earlier)

/-- A call from its beginning to some attempt at it, with how far that attempt came. As long as the
call waits, others may do anything. -/
inductive CallSpan (id : InstanceId) (request : Request) : List (Deed π) → Progress → Prop where
  | begins (progress : Progress) : CallSpan id request [.calls id request progress] progress
  | others {deeds : List (Deed π)} {blocked : Blocked} {deed : Deed π}
      (span : CallSpan id request deeds (.blocked blocked)) (other : deed.actor? ≠ some id) :
    CallSpan id request (deeds ++ [deed]) (.blocked blocked)
  | again {deeds : List (Deed π)} {blocked : Blocked}
      (span : CallSpan id request deeds (.blocked blocked)) (progress : Progress) :
    CallSpan id request (deeds ++ [.resumes id blocked.call progress]) progress

variable {deeds : List (Deed π)} {deed : Deed π} {id : InstanceId}

@[simp] theorem underWay_nil : underWay ([] : List (Deed π)) = fun _ => none :=
  rfl

@[simp] theorem underWay_concat (deeds : List (Deed π)) (deed : Deed π) :
    underWay (deeds ++ [deed]) = deed.underWay (underWay deeds) := by
  simp [underWay]

/-- To start instances leaves every call where it is. -/
@[simp] theorem underWay_starts (deeds : List (Deed π)) (launches : List (Launch π)) :
    underWay (deeds ++ launches.map .starts) = underWay deeds := by
  induction launches generalizing deeds with
  | nil => simp
  | cons launch rest ih =>
    have moved : deeds ++ (launch :: rest).map Deed.starts =
        (deeds ++ [.starts launch]) ++ rest.map Deed.starts := by
      simp
    rw [moved, ih, underWay_concat]
    rfl

/-- Where nothing happened, everything was in turn. -/
theorem sequential_nil : Sequential ([] : List (Deed π)) := by
  intro earlier deed later same
  simp at same

/-- What came first was in turn if everything was. -/
theorem Sequential.before {more : List (Deed π)} (sequential : Sequential (deeds ++ more)) :
    Sequential deeds := by
  intro earlier own later same
  exact sequential earlier own (later ++ more) (by simp [same])

/-- Deeds are in turn one by one. -/
theorem sequential_concat : Sequential (deeds ++ [deed]) ↔
    Sequential deeds ∧ deed.InTurn (polling deeds) (underWay deeds) := by
  -- Each deed in question is the last one, or one of those before it.
  constructor
  · intro sequential
    exact ⟨sequential.before, sequential deeds deed [] rfl⟩
  · rintro ⟨sequential, last⟩ earlier own later same
    rcases List.eq_nil_or_concat later with rfl | ⟨shorter, final, rfl⟩
    · obtain ⟨rfl, alike⟩ := List.append_inj' same rfl
      obtain rfl := List.singleton_inj.mp alike
      exact last
    · have regrouped : deeds ++ [deed] = (earlier ++ own :: shorter) ++ [final] := by
        rw [same]
        simp
      exact sequential earlier own shorter (List.append_inj' regrouped rfl).1

/-- To start instances is always in turn. -/
theorem sequential_starts (sequential : Sequential deeds) (launches : List (Launch π)) :
    Sequential (deeds ++ launches.map .starts) := by
  induction launches generalizing deeds with
  | nil => simpa using sequential
  | cons launch rest ih =>
    have moved : deeds ++ (launch :: rest).map Deed.starts =
        (deeds ++ [.starts launch]) ++ rest.map Deed.starts := by
      simp
    rw [moved]
    exact ih (sequential_concat.mpr ⟨sequential, trivial⟩)

/-- Whoever waits does so in a call that it began and that was not answered since. -/
theorem Sequential.span (sequential : Sequential deeds) {blocked : Blocked}
    (waits : underWay deeds id = some blocked) :
    ∃ earlier during request, deeds = earlier ++ during ∧
      CallSpan id request during (.blocked blocked) := by
  -- The last deed begins the call, tries it again, or is done by others while it waits.
  induction deeds using List.reverseRecOn generalizing blocked with
  | nil => simp at waits
  | append_singleton deeds deed ih =>
    obtain ⟨past, inTurn⟩ := sequential_concat.mp sequential
    rw [underWay_concat] at waits
    have waiting (same : underWay deeds id = some blocked) (other : deed.actor? ≠ some id) :
        ∃ earlier during request, deeds ++ [deed] = earlier ++ during ∧
          CallSpan id request during (.blocked blocked) := by
      obtain ⟨earlier, during, request, rfl, span⟩ := ih past same
      exact ⟨earlier, during ++ [deed], request, by simp, span.others other⟩
    cases deed with
    | calls caller request progress =>
      by_cases own : id = caller
      · subst own
        simp only [Deed.underWay, Function.update_self] at waits
        cases progress with
        | finished reply => simp [Progress.blocked?] at waits
        | blocked still =>
          obtain rfl := Option.some.inj waits
          exact ⟨deeds, _, request, rfl, .begins _⟩
      · simp only [Deed.underWay, Function.update_of_ne own] at waits
        exact waiting waits (by simpa [Deed.actor?] using Ne.symm own)
    | resumes caller pending progress =>
      by_cases own : id = caller
      · subst own
        obtain ⟨before, held, rfl⟩ := Option.map_eq_some_iff.mp inTurn.2
        obtain ⟨earlier, during, request, rfl, span⟩ := ih past held
        simp only [Deed.underWay, Function.update_self] at waits
        cases progress with
        | finished reply => simp [Progress.blocked?] at waits
        | blocked still =>
          obtain rfl := Option.some.inj waits
          exact ⟨earlier, _, request, List.append_assoc .., span.again _⟩
      · simp only [Deed.underWay, Function.update_of_ne own] at waits
        exact waiting waits (by simpa [Deed.actor?] using Ne.symm own)
    | ends other result =>
      refine waiting waits ?_
      rintro same
      obtain rfl := Option.some.inj same
      simp only [Deed.InTurn] at inTurn
      simp [Deed.underWay, inTurn] at waits
    | finishes code => simp [Deed.underWay] at waits
    | boots | starts | polls | stirs | rests => exact waiting waits (by simp [Deed.actor?])

/-- Every attempt at a call belongs to the span of that call. -/
theorem Sequential.span_of_attempt {request : Request} {pending : Pending} {progress : Progress}
    (sequential : Sequential (deeds ++ [deed]))
    (attempt : deed = .calls id request progress ∨ deed = .resumes id pending progress) :
    ∃ earlier during request, deeds ++ [deed] = earlier ++ during ∧
      CallSpan id request during progress := by
  obtain ⟨before, inTurn⟩ := sequential_concat.mp sequential
  rcases attempt with rfl | rfl
  · exact ⟨deeds, _, request, rfl, .begins progress⟩
  · obtain ⟨last, held, rfl⟩ := Option.map_eq_some_iff.mp inTurn.2
    obtain ⟨earlier, during, request, rfl, span⟩ := before.span held
    exact ⟨earlier, _, request, List.append_assoc .., span.again progress⟩

end Session

end Progeny
