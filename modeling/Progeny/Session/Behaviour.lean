import Progeny.Session.Call

/-! How the programs of instances act: one action after another, each chosen from what the last
one led to. -/

namespace Progeny

/-- What an instance is told when it is to choose its next action. -/
inductive Notice where
  /-- It begins, or goes on after an action that tells nothing. -/
  | go
  /-- Its call ended. -/
  | reply (reply : Reply)
  /-- The state of pipes and instances that it asked to see. -/
  | view (pipes : PipeRegistry) (instances : InstanceTable)

/-- What an instance does next. -/
inductive Action where
  /-- It ends with an exit code. -/
  | exit (code : Int8)
  /-- It ends abnormally. -/
  | fault (message : String)
  /-- It makes a call and waits for its end. -/
  | call (request : Request)
  /-- It looks at the tables. -/
  | inspect
  /-- It makes an instance ready, which may be itself. -/
  | wake (target : InstanceId)
  /-- It goes on without any effect. -/
  | step
  /-- It gives up control until it is made ready. -/
  | park

/-- What an instance is given when it is started. -/
structure Invocation where
  id : InstanceId
  /-- Endpoints handed over by the parent, in the order given. -/
  inherited : List Endpoint
  argv : List Bytes

/-- Programs of type `π` with instances in states of type `β`, which may share a state of type
`σ`. -/
structure Behaviour (π β σ : Type) where
  /-- The state of a new instance. -/
  start : π → Invocation → β
  /-- The next action of an instance, with its new state and the new shared state. -/
  next : β → σ → Notice → Action × β × σ

/-- Programs of two kinds side by side. -/
def Behaviour.or {π₁ π₂ β₁ β₂ σ : Type} (first : Behaviour π₁ β₁ σ)
    (second : Behaviour π₂ β₂ σ) : Behaviour (π₁ ⊕ π₂) (β₁ ⊕ β₂) σ where
  start program invocation :=
    match program with
    | .inl program => .inl (first.start program invocation)
    | .inr program => .inr (second.start program invocation)
  next state shared notice :=
    match state with
    | .inl state =>
      let (action, state, shared) := first.next state shared notice
      (action, .inl state, shared)
    | .inr state =>
      let (action, state, shared) := second.next state shared notice
      (action, .inr state, shared)

end Progeny
