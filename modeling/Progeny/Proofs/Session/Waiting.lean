import Progeny.Proofs.Session.Orderly

/-! No wake-up is lost: an instance that is not ready is stuck in a call. So a deadlock is reported
only where every running instance is stuck, and wherever all of them are. -/

namespace Progeny

variable {π : Type}

namespace Tables

/-- A call that waits, and that is stuck unless what it waits for has happened. -/
inductive Suspended (tables : Tables π) (id : InstanceId) : Blocked → Prop where
  | joins {target : InstanceId} {record : InstanceRecord} (other : target ≠ id)
      (found : tables.instances.find? target = some record) :
    Suspended tables id ⟨.join target, .exitOf target⟩
  | reads {call : Pending} {endpoint : Endpoint} {pipe : Pipe} {seen : Nat}
      (reading : call.reads = some endpoint) (holds : tables.pipes.Holds id endpoint pipe)
      (past : seen ≤ tables.signals.count endpoint)
      (quiet : tables.signals.count endpoint = seen → (pipe.on endpoint.side).inbound = [] ∧
        (pipe.on endpoint.side.peer).isOpen = true) :
    Suspended tables id ⟨call, .signalOn endpoint seen⟩
  | writes {call : Pending} {endpoint source : Endpoint} {pipe : Pipe} {seen : Nat}
      (writing : call.writes = some endpoint) (holds : tables.pipes.Holds id endpoint pipe)
      (across : (pipe.on endpoint.side.peer).endpoint = source)
      (past : seen ≤ tables.signals.count source)
      (quiet : tables.signals.count source = seen →
        (pipe.on endpoint.side.peer).isOpen = true ∧
          tables.pipes.capacity.toNat ≤ (pipe.on endpoint.side.peer).inbound.length) :
    Suspended tables id ⟨call, .signalOn source seen⟩

variable {tables after : Tables π} {id : InstanceId}

/-- An instance that is stuck waits from then on. -/
theorem Stuck.suspended {call : Pending} {wait : Wait} (sound : tables.Sound)
    (stuck : tables.Stuck id call wait) : tables.Suspended id ⟨call, wait⟩ := by
  -- A wait that has just begun has missed nothing.
  cases stuck with
  | joins other found running => exact .joins other found
  | reads reading held empty expected =>
    obtain ⟨holds, rfl⟩ := sound.numbered.held_iff.mp held
    rw [sound.numbered.endpoint_of_found holds.found]
    exact .reads reading holds (Nat.le_refl _) fun _ => ⟨empty, expected⟩
  | writes writing held expected full =>
    obtain ⟨holds, rfl⟩ := sound.numbered.held_iff.mp held
    exact .writes writing holds rfl (Nat.le_refl _) fun _ => ⟨expected, full⟩

namespace Suspended

variable {blocked : Blocked} (suspended : tables.Suspended id blocked)
include suspended

/-- An instance waits in a call that is stuck as long as its wait is not over. -/
theorem stuck (sound : tables.Sound) (waiting : tables.isOver blocked.wait = false) :
    tables.Stuck id blocked.call blocked.wait := by
  -- The count has not moved, so what was seen when the wait began still holds.
  cases suspended with
  | joins other found =>
    refine .joins other found ?_
    simp only [isOver, Option.isSome_eq_false_iff, Option.isNone_iff_eq_none] at waiting
    exact InstanceTable.exitCode_eq_none.mp waiting _ found
  | @reads call endpoint pipe seen reading holds past quiet =>
    have still : tables.signals.count endpoint = seen := by simpa [isOver] using waiting
    obtain ⟨empty, expected⟩ := quiet still
    have own := sound.numbered.endpoint_of_found holds.found
    have stuck := Stuck.reads reading (sound.numbered.held_iff.mpr ⟨holds, rfl⟩) empty expected
    rwa [own, still] at stuck
  | @writes call endpoint source pipe seen writing holds across past quiet =>
    have still : tables.signals.count source = seen := by simpa [isOver] using waiting
    obtain ⟨expected, full⟩ := quiet still
    have stuck := Stuck.writes writing (sound.numbered.held_iff.mpr ⟨holds, rfl⟩) expected full
    rwa [across, still] at stuck

/-- Nothing that another instance does makes a call that waits miss its signal. -/
theorem undisturbed {caller : InstanceId} (sound : tables.Sound) (other : id ≠ caller)
    (undisturbed : Undisturbed caller tables after) : after.Suspended id blocked := by
  obtain ⟨signals, announced, counts⟩ := undisturbed.announced
  -- An end of the instance is still its own, and without a signal nothing about it has changed.
  have kept {endpoint : Endpoint} {pipe : Pipe} (holds : tables.pipes.Holds id endpoint pipe) :
      ∃ changed, after.pipes.Holds id endpoint changed ∧ pipe.Keeps changed signals := by
    obtain ⟨changed, there, keeps⟩ := announced.kept holds.found
    obtain ⟨same, still, owner, isOpen⟩ :=
      undisturbed.spared.kept endpoint.side holds.found (holds.owned ▸ other)
    obtain rfl := Option.some.inj (there.symm.trans still)
    exact ⟨changed, ⟨there, owner.trans holds.owned, isOpen.trans holds.opened⟩, keeps⟩
  cases suspended with
  | joins differ found =>
    obtain ⟨later, there, -⟩ := undisturbed.records found
    exact .joins differ there
  | @reads call endpoint pipe seen reading holds past quiet =>
    obtain ⟨changed, still, keeps⟩ := kept holds
    have count := counts endpoint
    refine .reads reading still (by omega) fun unchanged => ?_
    have silent : (pipe.on endpoint.side).endpoint ∉ signals := by
      rw [sound.numbered.endpoint_of_found holds.found, ← List.count_eq_zero]
      omega
    obtain ⟨inbound, -, isOpen⟩ := keeps.quiet endpoint.side silent
    obtain ⟨empty, expected⟩ := quiet (by omega)
    exact ⟨inbound.trans empty, isOpen.trans expected⟩
  | @writes call endpoint source pipe seen writing holds across past quiet =>
    obtain ⟨changed, still, keeps⟩ := kept holds
    have count := counts source
    refine .writes writing still ((keeps.endpoint _).trans across) (by omega) fun unchanged => ?_
    have silent : (pipe.on endpoint.side.peer).endpoint ∉ signals := by
      rw [across, ← List.count_eq_zero]
      omega
    obtain ⟨inbound, isOpen, -⟩ := keeps.quiet endpoint.side.peer silent
    obtain ⟨expected, full⟩ := quiet (by omega)
    rw [announced.capacity, inbound, isOpen]
    exact ⟨expected, full⟩

/-- What was waited for has happened, whatever a running instance does. -/
theorem isOver {caller : InstanceId} (sound : tables.Sound)
    (running : caller ∈ tables.instances.running) (undisturbed : Undisturbed caller tables after)
    (happened : tables.isOver blocked.wait = true) : after.isOver blocked.wait = true := by
  obtain ⟨signals, -, counts⟩ := undisturbed.announced
  -- Counts only grow, and exit codes stay.
  cases suspended with
  | joins =>
    obtain ⟨code, exited⟩ := Option.isSome_iff_exists.mp happened
    exact Option.isSome_iff_exists.mpr ⟨code, undisturbed.exitCode sound running exited⟩
  | reads _ _ past | writes _ _ _ past =>
    simp only [Tables.isOver, counts, decide_eq_true_eq] at happened ⊢
    omega

/-- A call waits on whatever changes beside the pipes, the records and the signals. -/
theorem of_same (pipes : after.pipes = tables.pipes)
    (instances : after.instances = tables.instances) (signals : after.signals = tables.signals) :
    after.Suspended id blocked := by
  -- Nothing a suspended call depends on has changed.
  cases suspended with
  | joins other found => exact .joins other (instances ▸ found)
  | reads reading holds past quiet =>
    exact .reads reading (pipes ▸ holds) (signals ▸ past) (signals ▸ quiet)
  | writes writing holds across past quiet =>
    exact .writes writing (pipes ▸ holds) across (signals ▸ past) (by rwa [signals, pipes])

end Suspended

end Tables

namespace Session

variable {β σ : Type} {behaviour : Behaviour π β σ} {session : Session π β σ}

/-- Whoever waits in a call is stuck in it unless what it waits for has happened. -/
def Waiting (session : Session π β σ) : Prop :=
  ∀ task ∈ session.tasks, ∀ blocked, task.blocked = some blocked →
    session.tables.Suspended task.id blocked

namespace Waiting

/-- Nobody waits where nobody was started. -/
theorem of_nil (none : session.tasks = []) : session.Waiting := by
  simp [Waiting, none]

variable (waiting : session.Waiting)
include waiting

/-- Instances that were just started wait for nothing. -/
theorem launch : (session.launch behaviour).Waiting := by
  intro task started blocked waits
  rw [launch_tasks, List.mem_append, List.mem_map] at started
  rcases started with older | ⟨launch, created, rfl⟩
  · exact (waiting task older blocked waits).of_same (by simp) (by simp) (by simp)
  · simp [begun] at waits

/-- After a poll its instance is stuck or has ended, and all others wait as before. -/
theorem polls (orderly : session.Orderly) (ongoing : session.finished = none) {task : Task β}
    (started : task ∈ session.tasks) {after : Session π β σ}
    (polled : Polls behaviour task session after) : after.Waiting := by
  have undisturbed := orderly.undisturbed ongoing started polled
  obtain ⟨turn, middle, goes, rfl⟩ := polled.proceeds
  obtain ⟨sound, -⟩ := goes.effects.sound orderly.sound
  have frame := goes.frame
  dsimp only at sound frame
  intro other kept blocked waits
  rcases mem_tasks_settle kept with ⟨there, differ⟩ | ⟨last, still, rfl, rfl⟩
  · rw [frame] at there
    exact (waiting other there blocked waits).undisturbed orderly.sound differ undisturbed
  · -- A wait of the instance itself has just begun, or nothing has happened since it did.
    dsimp only at waits
    subst waits
    rcases goes.stuck with stuck | ⟨before, same⟩
    · exact stuck.suspended sound
    · exact (waiting task started blocked before).of_same
        (by rw [Session.settle, same]; rfl)
        (by rw [Session.settle, same]; rfl) (by rw [Session.settle, same]; rfl)

end Waiting

/-- In every session that can be reached, whoever waits in a call is stuck in it, unless what it
waits for has happened. -/
theorem Reached.waiting (reached : Reached behaviour session) : session.Waiting := by
  induction reached with
  | opens => exact .of_nil rfl
  | boots reached descriptor argv ih =>
    rcases reached.orderly.boot_eq_or descriptor argv with same | none
    · rw [same]
      exact ih
    · exact .of_nil none
  | @further session _ _ _ _ reached ongoing booted next ih =>
    have launched : (session.launch behaviour).Orderly := reached.orderly.launch ongoing
    cases next with
    | passes => exact ih.launch
    | polls _ _ _ found polled =>
      exact ih.launch.polls launched (launch_finished.trans ongoing) (task?_eq_some found).1 polled
  | ends reached ongoing booted last ih =>
    cases last with
    | inconsistent => exact ih
    | exits => exact .of_nil rfl
    | pauses | stalls => exact ih.launch

/-- Every started instance is ready, or it waits in a call. -/
structure Attentive (session : Session π β σ) : Prop where
  ready : ∀ task ∈ session.tasks, task.blocked = none → task.id ∈ session.woken
  waits : session.Waiting

/-- Nobody waits where nobody was started. -/
theorem attentive_of_nil (none : session.tasks = []) : session.Attentive :=
  ⟨by simp [none], .of_nil none⟩

namespace Attentive

variable (attentive : session.Attentive)
include attentive

/-- Instances that were just started are ready. -/
theorem launch : (session.launch behaviour).Attentive where
  -- Whoever is new has been made ready.
  ready := by
    intro task started free
    rw [launch_tasks, List.mem_append, List.mem_map] at started
    rw [mem_woken_launch]
    rcases started with older | ⟨launch, created, rfl⟩
    · exact .inl (attentive.ready task older free)
    · exact .inr (List.mem_map_of_mem created)
  waits := attentive.waits.launch

/-- To pass over an instance that has ended changes nothing for the others. -/
theorem unwake {id : InstanceId} (gone : session.task? id = none) :
    (session.unwake id).Attentive where
  -- The one no longer made ready has no task.
  ready := by
    intro task started free
    have differ : task.id ≠ id := by
      rintro rfl
      exact task?_eq_none.mp gone (List.mem_map_of_mem started)
    exact List.mem_filter.mpr ⟨attentive.ready task started free, by simpa using differ⟩
  waits := attentive.waits

/-- After a poll its instance waits in a call or has ended, and all others are ready as before. -/
theorem polls (orderly : session.Orderly) (ongoing : session.finished = none)
    (sequential : behaviour.IsSequential) {task : Task β} (started : task ∈ session.tasks)
    {after : Session π β σ} (polled : Polls behaviour task session after) :
    after.Attentive where
  ready := by
    obtain ⟨turn, middle, goes, rfl⟩ := polled.proceeds
    have frame := goes.frame
    dsimp only at frame
    intro other kept free
    rcases mem_tasks_settle kept with ⟨there, differ⟩ | ⟨last, still, rfl, rfl⟩
    · rw [frame] at there
      have before : other.id ∈ (session.counted task.id).woken :=
        List.mem_filter.mpr ⟨attentive.ready other there free, by simpa using differ⟩
      have woken := goes.woken before
      cases turn <;> exact woken
    · exact absurd free (goes.in_call sequential)
  waits := attentive.waits.polls orderly ongoing started polled

end Attentive

/-- In every session of sequential instances all that were started are ready or wait in calls. -/
theorem Reached.attentive (sequential : behaviour.IsSequential)
    (reached : Reached behaviour session) : session.Attentive := by
  induction reached with
  | opens => exact attentive_of_nil rfl
  | boots reached descriptor argv ih =>
    rcases reached.orderly.boot_eq_or descriptor argv with same | none
    · rw [same]
      exact ih
    · exact attentive_of_nil none
  | @further session _ _ _ _ reached ongoing booted next ih =>
    have launched : (session.launch behaviour).Orderly := reached.orderly.launch ongoing
    cases next with
    | passes _ _ _ gone => exact ih.launch.unwake gone
    | polls _ _ _ found polled =>
      exact ih.launch.polls launched (launch_finished.trans ongoing) sequential
        (task?_eq_some found).1 polled
  | ends reached ongoing booted last ih =>
    cases last with
    | inconsistent => exact ih
    | exits => exact attentive_of_nil rfl
    | pauses | stalls => exact ih.launch

end Session

end Progeny
