import Progeny.Proofs.Session.Turns

/-! Which instances are ready, and which of them is next. -/

namespace Progeny.Session

variable {π β σ : Type} {session : Session π β σ}

/-- The least of some identities is one of them. -/
theorem mem_of_least? {ids : List InstanceId} {id : InstanceId} (least : least? ids = some id) :
    id ∈ ids := by
  -- The least of a list is its head, or the least of the rest.
  induction ids generalizing id with
  | nil => simp [least?] at least
  | cons head rest ih =>
    obtain rfl := Option.some.inj least
    cases found : least? rest with
    | none => simp [lesser]
    | some other =>
      have member := ih found
      unfold lesser
      dsimp only
      split
      · simp
      · simp [member]

/-- There is a least of some identities unless there are none. -/
theorem least?_eq_none {ids : List InstanceId} : least? ids = none ↔ ids = [] := by
  cases ids <;> simp [least?]

/-- None of the identities is less than the least of them. -/
theorem least?_le {ids : List InstanceId} {id other : InstanceId} (least : least? ids = some id)
    (member : other ∈ ids) : id.word ≤ other.word := by
  -- The lesser of two is below both, and so the head and the rest stay above it.
  induction ids generalizing id with
  | nil => simp at member
  | cons head rest ih =>
    obtain rfl := Option.some.inj least
    rw [UInt64.le_iff_toNat_le]
    cases found : least? rest with
    | none =>
      obtain rfl := least?_eq_none.mp found
      obtain rfl := List.mem_singleton.mp member
      exact Nat.le_refl _
    | some smallest =>
      have below (later : other ∈ rest) : smallest.word.toNat ≤ other.word.toNat :=
        UInt64.le_iff_toNat_le.mp (ih found later)
      simp only [lesser, UInt64.le_iff_toNat_le]
      rcases List.mem_cons.mp member with rfl | later
      · split <;> omega
      · have := below later
        split <;> omega

/-- The next instance is ready. -/
theorem mem_ready_of_nextReady {id : InstanceId} (next : session.nextReady = some id) :
    id ∈ session.ready := by
  -- The next one lies past the last polled one, or else the search starts over.
  unfold nextReady at next
  split at next
  · exact mem_of_least? next
  · rename_i last _
    cases found : least? (session.ready.filter fun id => last.word < id.word) with
    | none =>
      rw [found] at next
      exact mem_of_least? next
    | some other =>
      rw [found] at next
      obtain rfl := Option.some.inj next
      exact (List.mem_filter.mp (mem_of_least? found)).1

/-- Some instance is next unless none is ready. -/
theorem nextReady_eq_none : session.nextReady = none ↔ session.ready = [] := by
  -- Starting over finds whatever is ready.
  unfold nextReady
  split
  · exact least?_eq_none
  · rename_i last _
    cases found : least? (session.ready.filter fun id => last.word < id.word) with
    | none => exact least?_eq_none
    | some other =>
      have member := (List.mem_filter.mp (mem_of_least? found)).1
      simp only [Option.orElse_eq_orElse, Option.orElse_some, reduceCtorEq, false_iff]
      exact List.ne_nil_of_mem member

/-- An instance is ready if it was made ready, or if what its call waits for has happened. -/
theorem mem_ready {id : InstanceId} :
    id ∈ session.ready ↔ id ∈ session.woken ∨
      ∃ task ∈ session.tasks, task.id = id ∧ session.isReleased task = true := by
  -- Ready are those made ready and those whose wait is over.
  simp only [ready, List.mem_append, List.mem_map, List.mem_filter]
  constructor
  · rintro (woken | ⟨task, ⟨started, released⟩, rfl⟩)
    · exact .inl woken
    · exact .inr ⟨task, started, rfl, released⟩
  · rintro (woken | ⟨task, started, rfl, released⟩)
    · exact .inl woken
    · exact .inr ⟨task, ⟨started, released⟩, rfl⟩

/-- A task that is found for an instance is its own. -/
theorem task?_eq_some {id : InstanceId} {task : Task β} (found : session.task? id = some task) :
    task ∈ session.tasks ∧ task.id = id :=
  ⟨List.mem_of_find?_eq_some found, by simpa using List.find?_some found⟩

/-- No task is found exactly for instances that have none. -/
theorem task?_eq_none {id : InstanceId} :
    session.task? id = none ↔ id ∉ session.liveInstances := by
  simp [task?, liveInstances]

/-- An instance that has ended can only be next because it was made ready, and that is undone when
it is passed over. -/
theorem length_woken_unwake {id : InstanceId} (next : session.nextReady = some id)
    (gone : session.task? id = none) :
    (session.unwake id).woken.length < session.woken.length := by
  -- No task has this identity, so it can be ready only by having been made so.
  have woken : id ∈ session.woken := by
    rcases mem_ready.mp (mem_ready_of_nextReady next) with woken | ⟨task, started, rfl, -⟩
    · exact woken
    · exact absurd (List.mem_map_of_mem started) (task?_eq_none.mp gone)
  refine List.length_filter_lt_length_iff_exists.mpr ⟨id, woken, by simp⟩

/-- An instance that has ended is not ready any more once it was passed over, unlike all others. -/
theorem mem_ready_unwake {id other : InstanceId} (gone : session.task? id = none) :
    other ∈ (session.unwake id).ready ↔ other ∈ session.ready ∧ other ≠ id := by
  -- The identity without a task is not among those whose wait is over.
  have apart : ∀ task ∈ session.tasks, task.id ≠ id := by
    rintro task started rfl
    exact task?_eq_none.mp gone (List.mem_map_of_mem started)
  rw [mem_ready, mem_ready]
  constructor
  · rintro (woken | ⟨task, started, rfl, released⟩)
    · obtain ⟨woken, differ⟩ := List.mem_filter.mp woken
      exact ⟨.inl woken, by simpa using differ⟩
    · exact ⟨.inr ⟨task, started, rfl, released⟩, apart task started⟩
  · rintro ⟨woken | ⟨task, started, rfl, released⟩, differ⟩
    · exact .inl (List.mem_filter.mpr ⟨woken, by simpa using differ⟩)
    · exact .inr ⟨task, started, rfl, released⟩

/-- After a poll there are the tasks of the others, and that of its instance if it goes on. -/
theorem mem_tasks_settle {id : InstanceId} {turn : Turn β} {task : Task β}
    (kept : task ∈ (session.settle id turn).tasks) :
    task ∈ session.tasks ∧ task.id ≠ id ∨
      ∃ state blocked, turn = .suspended state blocked ∧ task = ⟨id, state, blocked⟩ := by
  cases turn with
  | ended result =>
    obtain ⟨there, differ⟩ := List.mem_filter.mp kept
    exact .inl ⟨there, by simpa using differ⟩
  | suspended state blocked =>
    obtain ⟨held, there, rfl⟩ := List.mem_map.mp kept
    by_cases same : held.id = id
    · exact .inr ⟨state, blocked, rfl, by rw [if_pos same]⟩
    · rw [if_neg same]
      exact .inl ⟨there, same⟩

/-- The end of a poll leaves the tasks of the others alone. -/
theorem mem_tasks_settle_of_ne {id : InstanceId} {task : Task β} (started : task ∈ session.tasks)
    (differ : task.id ≠ id) (turn : Turn β) : task ∈ (session.settle id turn).tasks := by
  cases turn with
  | ended result => exact List.mem_filter.mpr ⟨started, by simpa using differ⟩
  | suspended state blocked => exact List.mem_map.mpr ⟨task, started, if_neg differ⟩

/-- An instance that was polled and whose wait is not over is not ready any more, unlike all
others. -/
theorem mem_ready_settle {task : Task β} {still : Blocked}
    (waiting : session.tables.isOver still.wait = false) {id : InstanceId} :
    id ∈ ((session.counted task.id).settle task.id
        (.suspended task.state (some still))).ready ↔
      id ∈ session.ready ∧ id ≠ task.id := by
  -- Each task is this one with its new wait, or it is the task of another as before.
  have members (other : Task β) : other ∈ ((session.counted task.id).settle task.id
      (.suspended task.state (some still))).tasks ↔
        ∃ held ∈ session.tasks, (if held.id = task.id then ⟨task.id, task.state, some still⟩
          else held) = other := List.mem_map
  have woken : id ∈ ((session.counted task.id).settle task.id
      (.suspended task.state (some still))).woken ↔ id ∈ session.woken ∧ id ≠ task.id := by
    change id ∈ session.woken.filter (· ≠ task.id) ↔ _
    simp
  rw [mem_ready, mem_ready, woken]
  constructor
  · rintro (woken | ⟨other, member, rfl, released⟩)
    · exact ⟨.inl woken.1, woken.2⟩
    · obtain ⟨held, there, rfl⟩ := (members other).mp member
      by_cases same : held.id = task.id
      · rw [if_pos same] at released
        have unreleased : session.isReleased ⟨task.id, task.state, some still⟩ = false := waiting
        exact absurd (released.symm.trans unreleased) (by simp)
      · rw [if_neg same] at released ⊢
        exact ⟨.inr ⟨held, there, rfl, released⟩, same⟩
  · rintro ⟨woken | ⟨held, there, rfl, released⟩, differ⟩
    · exact .inl ⟨woken, differ⟩
    · exact .inr ⟨held, (members held).mpr ⟨held, there, if_neg differ⟩, rfl, released⟩

end Progeny.Session
