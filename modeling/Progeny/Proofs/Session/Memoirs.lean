import Progeny.Proofs.Session.Answers
import Progeny.Proofs.Session.Orderly
import Progeny.Proofs.Session.Views

/-! Instances that keep diaries. To keep one changes nothing in a session, and what the diaries say
is what has happened: whom an instance has created, what it was told, and how it has ended. -/

namespace Progeny

variable {π β σ : Type}

/-- What an instance asked for and what it was told, call by call. -/
abbrev Dialogue := List (Request × Reply)

/-- An instance with the diary that it keeps. -/
structure Diary (β : Type) where
  invocation : Invocation
  dialogue : Dialogue := []
  /-- The call that has not ended. -/
  asked : Option Request := none
  state : β

/-- The diary of an instance that has ended. -/
structure Memoir where
  invocation : Invocation
  dialogue : Dialogue
  /-- Its exit code, or the message of its fault. -/
  result : Except String Int8

namespace Action

/-- The call that an instance makes. -/
def request? : Action → Option Request
  | .call request => some request
  | _ => none

/-- How an instance ends. -/
def result? : Action → Option (Except String Int8)
  | .exit code => some (.ok code)
  | .fault message => some (.error message)
  | _ => none

end Action

namespace Diary

/-- The end of a call is written down. -/
def hear (diary : Diary β) : Notice → Diary β
  | .reply reply =>
    match diary.asked with
    | some request => { diary with dialogue := diary.dialogue ++ [(request, reply)], asked := none }
    | none => diary
  | _ => diary

/-- What is left of a diary if its instance ends. -/
def memoir? (diary : Diary β) (action : Action) : Option Memoir :=
  action.result?.map (⟨diary.invocation, diary.dialogue, ·⟩)

/-- An instance is told how its call has ended, and nothing of the kind if it made none. -/
def Expects (diary : Diary β) : Notice → Prop
  | .reply _ => diary.asked ≠ none
  | _ => diary.asked = none

end Diary

/-- The same programs with diaries. Whoever ends leaves its diary to be read. -/
def Behaviour.recorded (behaviour : Behaviour π β σ) :
    Behaviour π (Diary β) (σ × List Memoir) where
  start program invocation :=
    { invocation := invocation, state := behaviour.start program invocation }
  next diary shared notice :=
    let (action, state, own) := behaviour.next diary.state shared.1 notice
    let heard := diary.hear notice
    (action, { heard with state := state, asked := action.request? },
      (own, shared.2 ++ (heard.memoir? action).toList))

/-- Whoever keeps a diary acts as before. -/
theorem Behaviour.recorded_seenAs (behaviour : Behaviour π β σ) :
    behaviour.recorded.SeenAs behaviour Diary.state Prod.fst :=
  ⟨fun _ _ => rfl, fun _ _ _ => rfl⟩

@[simp] theorem Diary.invocation_hear (diary : Diary β) (notice : Notice) :
    (diary.hear notice).invocation = diary.invocation := by
  unfold hear
  split
  · split <;> rfl
  · rfl

/-- Whoever is told nothing writes nothing down. -/
theorem Diary.hear_of_idle {diary : Diary β} (idle : diary.asked = none) (notice : Notice) :
    diary.hear notice = diary := by
  unfold hear
  split
  · rw [idle]
  · rfl

/-- What was written down stays. -/
theorem Diary.mem_hear {diary : Diary β} {exchange : Request × Reply}
    (written : exchange ∈ diary.dialogue) (notice : Notice) :
    exchange ∈ (diary.hear notice).dialogue := by
  unfold hear
  split
  · split
    · exact List.mem_append_left _ written
    · exact written
  · exact written

/-- What becomes of a diary when its instance acts. -/
structure Diary.Goes (behaviour : Behaviour π β σ) (diary : Diary β) (shared : σ × List Memoir)
    (notice : Notice) (action : Action) (next : Diary β) (later : σ × List Memoir) : Prop where
  chosen : behaviour.next diary.state shared.1 notice = (action, next.state, later.1)
  invocation : next.invocation = diary.invocation
  dialogue : next.dialogue = (diary.hear notice).dialogue
  asked : next.asked = action.request?
  memoirs : later.2 = shared.2 ++ ((diary.hear notice).memoir? action).toList

theorem Behaviour.recorded_goes {behaviour : Behaviour π β σ} {diary next : Diary β}
    {shared later : σ × List Memoir} {notice : Notice} {action : Action}
    (chosen : behaviour.recorded.next diary shared notice = (action, next, later)) :
    diary.Goes behaviour shared notice action next later := by
  obtain ⟨rfl, rest⟩ := Prod.mk.inj chosen
  obtain ⟨rfl, rfl⟩ := Prod.mk.inj rest
  exact ⟨rfl, diary.invocation_hear notice, rfl, rfl, rfl⟩

/-- A diary as programs of some behaviour keep it. -/
inductive Diary.Kept (behaviour : Behaviour π β σ) (load : Descriptor → Except CallError π) :
    Diary β → Prop where
  | begins {descriptor : Descriptor} {program : π} (loaded : load descriptor = .ok program)
      (invocation : Invocation) : Kept behaviour load (behaviour.recorded.start program invocation)
  | further {diary : Diary β} {notice : Notice} (kept : Kept behaviour load diary)
      (expects : diary.Expects notice) (shared : σ × List Memoir) :
    Kept behaviour load (behaviour.recorded.next diary shared notice).2.1

/-- A memoir as programs of some behaviour leave it. -/
def Memoir.Kept (behaviour : Behaviour π β σ) (load : Descriptor → Except CallError π)
    (memoir : Memoir) : Prop :=
  ∃ (diary : Diary β) (notice : Notice) (shared : σ × List Memoir), diary.Kept behaviour load ∧
    diary.Expects notice ∧
      (diary.hear notice).memoir? (behaviour.next diary.state shared.1 notice).1 = some memoir

namespace Dialogue

/-- The children that an instance has created, in order. -/
def spawned (dialogue : Dialogue) : List InstanceId :=
  dialogue.filterMap fun (request, reply) => Tables.created? request (.finished reply)

/-- What an instance was told is true by the records. -/
structure Vouched (table : InstanceTable) (id : InstanceId) (dialogue : Dialogue) : Prop where
  answered : ∀ exchange ∈ dialogue, exchange.1.Answered table exchange.2
  spawned : dialogue.spawned = table.childrenOf id

/-- What others do does not make it wrong. -/
theorem Vouched.spared {table after : InstanceTable} {id caller : InstanceId}
    {dialogue : Dialogue} (vouched : Vouched table id dialogue)
    (spared : table.Spared caller after) (differ : id ≠ caller) : Vouched after id dialogue :=
  ⟨fun exchange there => (vouched.answered exchange there).later spared.exitCode,
    vouched.spawned.trans (spared.children differ).symm⟩

/-- An answer that is true may be added. -/
theorem Vouched.told {before after : InstanceTable} {id : InstanceId} {dialogue : Dialogue}
    {request : Request} {reply : Reply} (vouched : Vouched before id dialogue)
    (kept : ∀ {id code}, before.exitCode id = some code → after.exitCode id = some code)
    (answered : request.Answered after reply)
    (children : after.childrenOf id =
      before.childrenOf id ++ (Tables.created? request (.finished reply)).toList) :
    Vouched after id (dialogue ++ [(request, reply)]) := by
  -- The new answer is true by now, and if it names a child, that is the last one.
  refine ⟨fun exchange there => ?_, ?_⟩
  · rcases List.mem_append.mp there with older | last
    · exact (vouched.answered exchange older).later kept
    · rw [List.mem_singleton.mp last]
      exact answered
  · rw [children, ← vouched.spawned, Dialogue.spawned, Dialogue.spawned, List.filterMap_append]
    cases created : Tables.created? request (.finished reply) <;> simp [created]

end Dialogue

end Progeny
