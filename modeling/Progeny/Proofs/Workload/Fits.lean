import Progeny.Proofs.Session.Budgets
import Progeny.Proofs.Workload.Cast
import Progeny.Workload.Run

/-! How the cast of a workload fits the tables of its session, and how both change when an instance
moves bytes of its own. -/

namespace Progeny

open Workload

/-- The budgets of a session allow for all that a workload asks for. -/
structure Ample (tree : SpawnTree) (sent : List Transmission) (tables : Tables Workload) :
    Prop where
  load : tables.load = (ofTransmissions tree sent).programs.resolve
  capacity : 0 < tables.pipes.capacity.toNat
  endpoints : 2 * sent.length ≤ tables.pipes.maxEndpoints.toNat
  instances : tree.size ≤ tables.instances.maxInstances.toNat
  depth : ∀ node < tree.size, tree.depth node ≤ tables.instances.maxDepth.toNat

/-- Budgets that are kept stay ample. -/
theorem Ample.kept {tree : SpawnTree} {sent : List Transmission} {tables after : Tables Workload}
    (ample : Ample tree sent tables) (budgets : tables.SameBudgets after) :
    Ample tree sent after where
  -- Only budgets are spoken of.
  load := budgets.load.trans ample.load
  capacity := budgets.pipes.1 ▸ ample.capacity
  endpoints := budgets.pipes.2 ▸ ample.endpoints
  instances := budgets.maxInstances ▸ ample.instances
  depth := budgets.maxDepth ▸ ample.depth

namespace Cast

/-- Every pipe serves its transmission. -/
structure PipesFit (tree : SpawnTree) (sent : List Transmission) (cast : Cast)
    (registry : PipeRegistry) : Prop where
  length : registry.pipes.length = cast.edges.length
  pipe : ∀ {position number : Nat} {transmission : Transmission} {pipe : Pipe},
    cast.edges[position]? = some number → sent[number]? = some transmission →
      registry.pipes[position]? = some pipe → cast.PipeFits tree number transmission pipe

/-- Every record is that of its node. -/
structure RecordsFit (tree : SpawnTree) (cast : Cast) (table : InstanceTable) : Prop where
  length : table.records.length = cast.nodes.length
  record : ∀ {position node : Nat} {record : InstanceRecord},
    cast.nodes[position]? = some node → table.records[position]? = some record →
      cast.RecordFits tree node record

/-- An instance that is yet to be started has all of its node before it. -/
def Starts (tree : SpawnTree) (sent : List Transmission) (cast : Cast) (launch : Launch Workload) :
    Prop :=
  ∃ node actor, Actor.start launch.program launch.argv = .ok actor ∧ actor.errand = none ∧
    actor.closing = none ∧ cast.Plays tree sent launch.id node .choice actor

/-- The tables are those of a session of a workload that has come as far as its cast. -/
structure Fits (tree : SpawnTree) (sent : List Transmission) (cast : Cast)
    (tables : Tables Workload) : Prop where
  sound : tables.Sound
  ample : Ample tree sent tables
  coherent : cast.Coherent tree sent
  pipes : cast.PipesFit tree sent tables.pipes
  records : cast.RecordsFit tree tables.instances
  starts : ∀ launch ∈ tables.launches, cast.Starts tree sent launch

/-- The cast with another rest for a leg. -/
def put (cast : Cast) (leg : Leg) (rest : Option Bytes) : Cast :=
  { cast with left := fun other => if other = leg then rest else cast.left other }

variable {tree : SpawnTree} {sent : List Transmission} {cast after : Cast} {node number : Nat}
  {side : Side} {transmission : Transmission}

@[simp] theorem left_put_self (cast : Cast) (leg : Leg) (rest : Option Bytes) :
    (cast.put leg rest).left leg = rest := if_pos rfl

theorem left_put_of_ne (cast : Cast) {leg other : Leg} (differ : other ≠ leg)
    (rest : Option Bytes) : (cast.put leg rest).left other = cast.left other := if_neg differ

/-- Both legs of a transmission are told apart by their sides. -/
@[simp] theorem left_put_peer (cast : Cast) (number : Nat) (side : Side) (rest : Option Bytes) :
    (cast.put (number, side) rest).left (number, side.peer) = cast.left (number, side.peer) :=
  left_put_of_ne cast (fun same => Side.peer_ne side (Prod.mk.inj same).2) rest

/-- To move bytes changes nothing about who holds the ends of a pipe. -/
theorem PipeFits.holder_put {pipe : Pipe} (fits : cast.PipeFits tree number transmission pipe)
    (leg : Leg) (rest : Option Bytes) (opened : (pipe.on side).isOpen = true) :
    ∃ node, (cast.put leg rest).nodes[(pipe.on side).owner.word.toNat]? = some node ∧
      (cast.put leg rest).Keeps tree transmission side node := by
  obtain ⟨node, placed, keeps⟩ := fits.holder side opened
  exact ⟨node, placed, keeps.of_nodes rfl⟩

/-- Who plays a node that is not over may move what it has to. -/
theorem Coherent.put (coherent : cast.Coherent tree sent)
    (found : sent[number]? = some transmission) (served : number ∈ cast.edges)
    (present : transmission.target side ∈ cast.nodes)
    (alive : transmission.target side ∉ cast.done) (rest : Option Bytes) :
    (cast.put (number, side) rest).Coherent tree sent where
  -- The leg is that of a node that is alive, so none of the others is touched.
  once := coherent.once
  inside := coherent.inside
  born := coherent.born
  wired := coherent.wired
  created := coherent.created
  needed := coherent.needed
  untouched := by
    intro other transmission' side' there untouched
    rw [left_put_of_ne]
    · exact coherent.untouched side' there untouched
    · rintro same
      obtain ⟨rfl, rfl⟩ := Prod.mk.inj same
      obtain rfl := Option.some.inj (found.symm.trans there)
      exact untouched.elim (fun unserved => unserved served) fun absent => absent present
  ended := by
    intro node ended
    obtain ⟨there, children, closed⟩ := coherent.ended node ended
    refine ⟨there, children, fun leg member => ?_⟩
    rw [left_put_of_ne]
    · exact closed leg member
    · rintro rfl
      obtain ⟨again, foundToo, target⟩ := mem_legsOf.mp member
      obtain rfl := Option.some.inj (found.symm.trans foundToo)
      exact alive (target ▸ ended)

/-- To move bytes of one's own spares everybody. -/
theorem Spares.put {leg : Leg} (own : leg ∈ legsOf sent node) (opened : cast.left leg ≠ none)
    (rest : Option Bytes) : Spares tree sent node cast (cast.put leg rest) where
  -- The leg is the node's own, and it was not closed.
  nodes := ⟨[], by simp [Cast.put], by simp⟩
  edges := ⟨[], by simp [Cast.put], by simp⟩
  done _ _ := Iff.rfl
  still _ := id
  left other foreign := by
    refine left_put_of_ne cast ?_ rest
    rintro rfl
    exact foreign own
  closed other gone := by
    rw [left_put_of_ne]
    · exact gone
    · rintro rfl
      exact opened gone

/-- A pipe may be replaced by one that fits what is left of one of its legs now. -/
theorem PipesFit.put {registry : PipeRegistry} (fits : cast.PipesFit tree sent registry)
    (coherent : cast.Coherent tree sent) {position : Nat} {pipe changed : Pipe}
    (served : cast.edges[position]? = some number) (found : sent[number]? = some transmission)
    (there : registry.pipes[position]? = some pipe) {rest : Option Bytes}
    (fit : (cast.put (number, side) rest).PipeFits tree number transmission changed) :
    (cast.put (number, side) rest).PipesFit tree sent (registry.setPipe position changed) where
  -- The other pipes serve other transmissions.
  length := by simpa [PipeRegistry.setPipe, Cast.put] using fits.length
  pipe := by
    intro other numberToo transmissionToo pipeToo servedToo foundToo thereToo
    rw [PipeRegistry.setPipe_found there] at thereToo
    split at thereToo
    · rename_i same
      subst same
      obtain rfl := Option.some.inj (served.symm.trans servedToo)
      obtain rfl := Option.some.inj (found.symm.trans foundToo)
      obtain rfl := Option.some.inj thereToo
      exact fit
    · rename_i differ
      -- Another pipe serves another transmission, of which nothing was moved.
      have numbers : numberToo ≠ number := by
        rintro rfl
        obtain ⟨inside, same⟩ := List.getElem?_eq_some_iff.mp served
        obtain ⟨insideToo, sameToo⟩ := List.getElem?_eq_some_iff.mp servedToo
        exact differ ((coherent.wired.getElem_inj_iff).mp (sameToo.trans same.symm))
      have kept (across : Side) : (cast.put (number, side) rest).left (numberToo, across) =
          cast.left (numberToo, across) :=
        left_put_of_ne cast (fun same => numbers (Prod.mk.inj same).1) rest
      have before := fits.pipe servedToo foundToo thereToo
      exact ⟨fun across => by rw [kept]; exact before.isOpen across,
        fun across opened => before.holder_put _ rest opened,
        fun rest' => by rw [kept, kept]; exact before.stream rest',
        by rw [kept, kept]; exact before.dry⟩

/-- Records do not tell what was moved. -/
theorem RecordsFit.put {table : InstanceTable} (fits : cast.RecordsFit tree table) (leg : Leg)
    (rest : Option Bytes) : (cast.put leg rest).RecordsFit tree table where
  length := fits.length
  record placed there :=
    ⟨(fits.record placed there).depth, (fits.record placed there).running,
      (fits.record placed there).exited⟩

/-- An instance goes on with the rest of its bytes, or it chooses again once the end is closed. -/
def Pursuit.onwards (leg : Leg) (endpoint : Endpoint) : Option Bytes → Pursuit
  | some rest => .move leg endpoint rest
  | none => .choice

/-- An instance that moved bytes has yet to do what remains then. -/
theorem Plays.put {id : InstanceId} {leg : Leg} {endpoint : Endpoint} {rest : Bytes} {actor : Actor}
    (suits : tree.Suits sent)
    (plays : cast.Plays tree sent id node (.move leg endpoint rest) actor)
    (later : Option Bytes) :
    (cast.put leg later).Plays tree sent id node (.onwards leg endpoint later) actor := by
  obtain ⟨past, future, legs, transfers, closed, fresh⟩ := plays.transfers
  obtain ⟨left, serves, side⟩ := plays.moves leg endpoint rest rfl
  have sorted := legsOf_sorted suits node
  rw [legs, List.pairwise_append] at sorted
  -- The leg is neither among those before nor among those after.
  have before : ∀ other ∈ past, (cast.put leg later).left other = none := by
    intro other member
    rw [left_put_of_ne]
    · exact closed other member
    · rintro rfl
      exact Nat.lt_irrefl _ (sorted.2.2 other member other (by simp [Pursuit.legs]))
  have ahead : ∀ other ∈ future,
      (cast.put leg later).left other = some (payload sent other.1) := by
    intro other member
    rw [left_put_of_ne]
    · exact fresh other member
    · rintro rfl
      exact Nat.lt_irrefl _ ((List.pairwise_append.mp sorted.2.1).2.2 other
        (by simp [Pursuit.legs]) other member)
  have alone (other : InstanceId) : Pursuit.onwards leg endpoint later ≠ .join other := by
    cases later <;> simp [Pursuit.onwards]
  refine ⟨plays.place, plays.alive, plays.code, ?_, plays.pipesOnce, plays.pipes, plays.spawnsOnce,
    plays.spawns, ?_, ?_, ?_, ?_⟩
  · intro number transmission side found served keeps opened
    refine plays.held found served (keeps.of_nodes rfl) fun gone => opened ?_
    rw [left_put_of_ne]
    · exact gone
    · rintro rfl
      simp [left] at gone
  · cases later with
    | some later => exact ⟨past, future, legs, transfers, before, ahead⟩
    | none =>
      refine ⟨past ++ [leg], future, ?_, transfers, fun other member => ?_, ahead⟩
      · rw [legs, List.append_assoc]
        rfl
      · rcases List.mem_append.mp member with earlier | last
        · exact before other earlier
        · rw [List.mem_singleton.mp last, left_put_self]
  · intro other endpointToo restToo same
    cases later with
    | none => simp [Pursuit.onwards] at same
    | some later =>
      obtain ⟨rfl, rfl, rfl⟩ := Pursuit.move.inj same
      exact ⟨left_put_self cast leg _, serves, side⟩
  · intro child under there
    refine (plays.children child under there).imp_right ?_
    rintro ⟨other, placed, listed⟩
    exact ⟨other, placed, .inl (listed.resolve_right (by simp))⟩
  · intro other listed
    exact plays.joined other (.inl (listed.resolve_right (alone other)))

end Cast

end Progeny
