import Progeny.Script.State

/-! Running scripts: each statement acts at once or in a call, and leaves a trace that the host of
the session can read. -/

namespace Progeny

namespace Script

/-- An action with the states after it. -/
abbrev Move := Action × ScriptState × Board

/-- Begins a statement that has been taken off its frame. -/
def beginStatement (state : ScriptState) (board : Board) : Statement → Move
  | .call call use =>
    match state.request call with
    | .ok request => (.call request, { state with phase := .calling call use }, board)
    | .error message => (.fault message, state, board)
  | .info => (.inspect, { state with phase := .inspecting }, board)
  | .note text => (.step, state, board.log (state.entry "note" (.ok text)))
  -- Being ready first, the instance is polled again after it has parked.
  | .yield => (.wake state.invocation.id, { state with phase := .yielding }, board)
  | .hang => (.park, { state with phase := .hanging }, board)
  | .publish =>
    (.step, state, { board with published := state.invocation.id :: board.published })
  | .awaitRelease => (.step, { state with phase := .awaiting }, board)
  | .ret code => (.exit (Int8.ofInt (code.getD state.last)), state, board)
  | .fault message => (.fault message, state, board)
  | .repeat 0 _ => (.step, state, board)
  | .repeat (count + 1) body => (.step, state.push body (.times count body), board)
  | .loop body => (.step, state.push body (.untilZero body), board)
  | .ifLast value thenBody elseBody =>
    (.step, state.push (if value = some state.last then thenBody else elseBody) .never, board)
  | .unknown => (.fault "driver: bad statement", state, board)

/-- Goes on with the next statement, or with what follows a frame that has run. Without any frame
left the instance ends well. -/
def advance (state : ScriptState) (board : Board) : Move :=
  match state.frames with
  | [] => (.exit 0, state, board)
  | ⟨statement :: rest, again⟩ :: outer =>
    beginStatement { state with frames := ⟨rest, again⟩ :: outer } board statement
  | ⟨[], .never⟩ :: outer => (.step, { state with frames := outer }, board)
  | ⟨[], .times 0 _⟩ :: outer => (.step, { state with frames := outer }, board)
  | ⟨[], .times (count + 1) body⟩ :: outer =>
    (.step, { state with frames := ⟨body, .times count body⟩ :: outer }, board)
  | ⟨[], .untilZero body⟩ :: outer =>
    if state.last = 0 then (.step, { state with frames := outer }, board)
    else (.step, { state with frames := ⟨body, .untilZero body⟩ :: outer }, board)

/-- Takes in the end of a call. -/
def endCall (state : ScriptState) (board : Board) (call : ScriptCall) (use : ResultUse)
    (reply : Reply) : Move :=
  match reply with
  | .ok value =>
    let board := board.log (state.entry call.keyword (.ok value.toJson))
    (.step, { state.store use value with last := value.toInt, phase := .free }, board)
  | .error error =>
    let board := board.log (state.entry call.keyword (.error error))
    let state := { state with last := error.code, phase := .free }
    if use.quits then (.fault error.faultMessage, state, board) else (.step, state, board)

/-- Notes who the instance is and what the tables hold. -/
def endInspection (state : ScriptState) (board : Board) (pipes : PipeRegistry)
    (instances : InstanceTable) : Move :=
  let invocation := state.invocation
  let overview := Json.object [
    ("id", invocation.id.toJson),
    ("inherited", .ofList Endpoint.toJson invocation.inherited),
    ("argv", .ofList (fun bytes => .text (String.ofList (Hex.encode bytes))) invocation.argv),
    ("running", .ofNat instances.runningCount),
    ("open", .ofNat pipes.openEndpoints),
    ("children", .ofList InstanceId.toJson (instances.childrenOf invocation.id))]
  (.step, { state with phase := .free }, board.log (state.entry "info" (.ok overview)))

/-- Ends as the host has decided, or waits for its decision. -/
def endOrWait (state : ScriptState) (board : Board) : Move :=
  let id := state.invocation.id
  match board.releases.lookup id with
  | some result =>
    let board := { board with releases := board.releases.filter (·.1 ≠ id) }
    match result with
    | .ok code => (.exit code, state, board)
    | .error message => (.fault message, state, board)
  | none => (.park, state, { board with waiting := id :: board.waiting })

/-- The next move of an instance that runs a script. -/
def next (state : ScriptState) (board : Board) (notice : Notice) : Move :=
  match state.phase, notice with
  | .calling call use, .reply reply => endCall state board call use reply
  | .inspecting, .view pipes instances => endInspection state board pipes instances
  | .yielding, _ => (.park, { state with phase := .free }, board)
  | .hanging, _ => (.park, state, board)
  | .awaiting, _ => endOrWait state board
  | _, _ => advance state board

/-- How instances that run scripts act. -/
def behaviour : Behaviour (List Statement) ScriptState Board where
  start := ScriptState.start
  next := next

end Script

end Progeny
