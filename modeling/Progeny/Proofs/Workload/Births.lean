import Progeny.Proofs.Workload.Ending
import Progeny.Proofs.Workload.Wiring

/-! How instances of a workload spawn their children, each of which gets the ends that it is to use
or to hand on. -/

namespace Progeny.Cast

open Workload

variable {tree : SpawnTree} {sent : List Transmission} {cast : Cast} {node child : Nat}
  {tables : Tables Workload} {id : InstanceId} {actor : Actor}

/-- An instance that enters with the ends of which its node is in charge has all of the node before
it. -/
theorem exists_plays (suits : tree.Suits sent) (inside : node < tree.size)
    (place : cast.nodes[id.word.toNat]? = some node) (alive : node ∉ cast.done)
    {pairs : List (UInt64 × Endpoint)}
    (held : ∀ {number : Nat} {transmission : Transmission} {side : Side},
      sent[number]? = some transmission → number ∈ cast.edges →
        cast.Keeps tree transmission side node → ∃ endpoint,
          (Holdings.ofPairs pairs).find? (Transmission.pipeNumber number side) = some endpoint ∧
            cast.edges[endpoint.index]? = some number ∧ endpoint.side = side)
    (unwired : ∀ {number : Nat} {transmission : Transmission}, sent[number]? = some transmission →
      transmission.meeting tree = node → number ∉ cast.edges)
    (childless : ∀ child, tree.parent? child = some node → child ∉ cast.nodes)
    (fresh : ∀ leg ∈ legsOf sent node, cast.left leg = some (payload sent leg.1)) :
    ∃ actor, Actor.start (ofTransmissions tree sent)
        (Arguments.write (UInt64.ofNat node) pairs) = .ok actor ∧ actor.errand = none ∧
      actor.closing = none ∧ cast.Plays tree sent id node .choice actor := by
  -- The first state of the actor is computed, and each part of it is what the stage asks for.
  have started : Actor.start (ofTransmissions tree sent)
      (Arguments.write (UInt64.ofNat node) pairs) = .ok
        { held := Holdings.ofPairs pairs
          pipes := (ofTransmissions tree sent).pipes.filter
            fun plan => plan.creator = UInt64.ofNat node
          spawns := (ofTransmissions tree sent).spawns.filter
            fun plan => plan.parent = UInt64.ofNat node
          transfers := (ofTransmissions tree sent).writes.flatMap
            fun plan => plan.transfersOf (UInt64.ofNat node) } := by
    simp only [Actor.start, Arguments.read_write]
    rfl
  obtain ⟨pipesOnce, pipes⟩ := filter_pipes suits inside
  obtain ⟨spawnsOnce, spawns⟩ := filter_spawns suits inside
  refine ⟨_, started, rfl, rfl, place, alive, rfl, fun found served keeps _ =>
    held found served keeps, pipesOnce, fun plan => ?_, spawnsOnce, fun plan => ?_,
    ⟨[], legsOf sent node, rfl, flatMap_transfersOf suits inside, by simp, fresh⟩, by simp,
    fun child under there => absurd there (childless child under), by simp⟩
  · rw [pipes]
    exact ⟨fun ⟨number, transmission, found, meets, same⟩ =>
      ⟨number, transmission, found, meets, same, unwired found meets⟩,
      fun ⟨number, transmission, found, meets, same, _⟩ =>
        ⟨number, transmission, found, meets, same⟩⟩
  · rw [spawns]
    exact ⟨fun ⟨child, under, same⟩ => ⟨child, under, same, childless child under⟩,
      fun ⟨child, under, same, _⟩ => ⟨child, under, same⟩⟩

/-- The cast with an instance for another node. -/
def enter (cast : Cast) (child : Nat) : Cast :=
  { cast with nodes := cast.nodes ++ [child] }

/-- What is known when a node spawns a child: the child is new, and the endpoints are those of the
ends that the child is handed, in their order. -/
structure Gives (tree : SpawnTree) (sent : List Transmission) (cast : Cast) (node child : Nat)
    (endpointOf : UInt64 → Endpoint) : Prop where
  under : tree.parent? child = some node
  new : child ∉ cast.nodes
  created : ∀ {number : Nat} {transmission : Transmission}, sent[number]? = some transmission →
    transmission.meeting tree = node → number ∈ cast.edges
  serves : ∀ {number : Nat} {transmission : Transmission} {side : Side},
    sent[number]? = some transmission → transmission.Passes tree side child →
      cast.edges[(endpointOf (Transmission.pipeNumber number side)).index]? = some number ∧
        (endpointOf (Transmission.pipeNumber number side)).side = side

namespace Gives

variable {endpointOf : UInt64 → Endpoint} (gives : cast.Gives tree sent node child endpointOf)
  (suits : tree.Suits sent) (coherent : cast.Coherent tree sent)
include gives

omit gives in
/-- Nobody below a node that is not played is played. -/
theorem target_notMem (suits : tree.Suits sent) (coherent : cast.Coherent tree sent)
    (new : child ∉ cast.nodes) {number : Nat} {transmission : Transmission} {side : Side}
    (found : sent[number]? = some transmission) (passes : transmission.Passes tree side child) :
    transmission.target side ∉ cast.nodes := fun present =>
  new (coherent.ancestry suits.grown present (ancestry_of_passed suits found (.inr passes)))

/-- Children of the new node are not played. -/
theorem childless (coherent : cast.Coherent tree sent) (suits : tree.Suits sent) :
    ∀ grandchild, tree.parent? grandchild = some child → grandchild ∉ (cast.enter child).nodes := by
  -- A grandchild was spawned by the child, or it is the child itself, and neither can be.
  intro grandchild under member
  rcases List.mem_append.mp member with older | last
  · obtain ⟨position, placed⟩ := List.mem_iff_getElem?.mp older
    obtain ⟨earlier, -, there⟩ := coherent.born placed under
    exact gives.new (List.mem_of_getElem? there)
  · have less := suits.grown grandchild child under
    rw [List.mem_singleton.mp last] at less
    exact Nat.lt_irrefl _ less

include suits coherent

/-- Everything that the new node is handed comes from a pipe that was created. -/
theorem needed {number : Nat} {transmission : Transmission} {side : Side}
    (present : node ∈ cast.nodes) (found : sent[number]? = some transmission)
    (passes : transmission.Passes tree side child) : number ∈ cast.edges := by
  -- The parent has what it passes on, and it passes the child what passes there.
  obtain ⟨parent, under, passed⟩ := SpawnTree.parent_mem_pathBelow suits.grown
    (meeting_mem suits (List.mem_of_getElem? found) side) passes
  obtain rfl := Option.some.inj (gives.under.symm.trans under)
  rcases passed with rfl | passes
  · exact gives.created found rfl
  · exact coherent.needed found present passes

/-- The new node makes a coherent cast. -/
theorem coherent_enter (place : cast.nodes[id.word.toNat]? = some node) :
    (cast.enter child).Coherent tree sent where
  -- The child is the last of the nodes, and its parent stands before it.
  once := List.nodup_append.mpr ⟨coherent.once, by simp, fun one there other here same =>
    gives.new (List.mem_singleton.mp here ▸ same ▸ there)⟩
  inside := by
    intro other member
    rcases List.mem_append.mp member with older | last
    · exact coherent.inside other older
    · rw [List.mem_singleton.mp last]
      exact (SpawnTree.range_of_parent? gives.under).2
  born := by
    intro position other parent placed under
    simp only [enter, List.getElem?_append] at placed
    split at placed
    · obtain ⟨earlier, before, there⟩ := coherent.born placed under
      refine ⟨earlier, before, ?_⟩
      rw [enter, List.getElem?_append_left (List.getElem?_eq_some_iff.mp there).1]
      exact there
    · rename_i beyond
      have last := List.mem_of_getElem? placed
      rw [List.mem_singleton] at last
      subst last
      obtain rfl := Option.some.inj (gives.under.symm.trans under)
      have inside := (List.getElem?_eq_some_iff.mp place).1
      refine ⟨id.word.toNat, by omega, ?_⟩
      rw [enter, List.getElem?_append_left inside]
      exact place
  wired := coherent.wired
  created := by
    intro number served
    obtain ⟨transmission, found, present⟩ := coherent.created served
    exact ⟨transmission, found, List.mem_append_left _ present⟩
  needed := by
    intro number transmission side other found member passes
    rcases List.mem_append.mp member with older | last
    · exact coherent.needed found older passes
    · rw [List.mem_singleton.mp last] at passes
      exact gives.needed suits coherent (List.mem_of_getElem? place) found passes
  untouched side found untouched := by
    refine coherent.untouched side found (untouched.imp_right fun absent present => absent ?_)
    exact List.mem_append_left _ present
  ended := by
    intro other ended
    obtain ⟨present, children, closed⟩ := coherent.ended other ended
    exact ⟨List.mem_append_left _ present, children, closed⟩

omit suits coherent in
/-- A node that gets a child spares all others. -/
theorem spares : Spares tree sent node cast (cast.enter child) where
  -- What is new is one child of the node.
  nodes := ⟨[child], rfl, fun other member => List.mem_singleton.mp member ▸ gives.under⟩
  edges := ⟨[], by simp [enter], by simp⟩
  done _ _ := Iff.rfl
  still _ := id
  left _ _ := rfl
  closed _ := id

omit suits in
/-- An end is given away exactly if it passes the new node. -/
theorem mem_given {registry : PipeRegistry} (numbered : registry.Numbered) {position number : Nat}
    {pipe : Pipe} (there : registry.pipes[position]? = some pipe)
    (served : cast.edges[position]? = some number) {transmission : Transmission}
    (found : sent[number]? = some transmission) (side : Side) :
    (pipe.on side).endpoint ∈ (handed tree sent child).map endpointOf ↔
      transmission.Passes tree side child := by
  have ends := numbered.ends there
  constructor
  · intro member
    obtain ⟨_, handed, given⟩ := List.mem_map.mp member
    obtain ⟨other, transmission', across, foundToo, passes, rfl⟩ := mem_handed.mp handed
    obtain ⟨servesToo, sideToo⟩ := gives.serves foundToo passes
    rw [given, (ends side).1, served] at servesToo
    rw [given, (ends side).2] at sideToo
    obtain rfl := Option.some.inj servesToo
    obtain rfl := Option.some.inj (found.symm.trans foundToo)
    exact sideToo ▸ passes
  · intro passes
    obtain ⟨servesToo, sideToo⟩ := gives.serves found passes
    refine List.mem_map.mpr ⟨_, mem_handed.mpr ⟨number, transmission, side, found, passes, rfl⟩,
      Endpoint.eq_of_index_side ?_ (sideToo.trans (ends side).2.symm)⟩
    rw [(ends side).1]
    -- The transmission has one pipe, so the two positions are the same.
    obtain ⟨inside, here⟩ := List.getElem?_eq_some_iff.mp servesToo
    obtain ⟨insideToo, hereToo⟩ := List.getElem?_eq_some_iff.mp served
    exact coherent.wired.getElem_inj_iff.mp (here.trans hereToo.symm)

/-- After the gifts every pipe is held by those who have its ends now. -/
theorem pipesFit {registry : PipeRegistry} (numbered : registry.Numbered)
    (fits : cast.PipesFit tree sent registry) {heir : InstanceId}
    (next : heir.word.toNat = cast.nodes.length) :
    (cast.enter child).PipesFit tree sent
      (registry.transfer ((handed tree sent child).map endpointOf) heir) where
  length := by
    rw [PipeRegistry.length_transfer]
    exact fits.length
  pipe := by
    intro position number transmission changed served found there
    change cast.edges[position]? = some number at served
    have inside := (List.getElem?_eq_some_iff.mp there).1
    rw [PipeRegistry.length_transfer] at inside
    have before := List.getElem?_eq_getElem inside
    generalize registry.pipes[position] = pipe at before
    obtain ⟨again, thereToo, same⟩ :=
      numbered.transfer_found ((handed tree sent child).map endpointOf) heir before
    obtain rfl := Option.some.inj (there.symm.trans thereToo)
    have fit := fits.pipe served found before
    have listed (side : Side) := gives.mem_given coherent numbered before served found side
    refine ⟨fun side => by rw [same]; exact fit.isOpen side, fun side opened => ?_,
      fun rest left => by rw [same]; exact fit.stream rest left, fit.dry⟩
    rw [same] at opened ⊢
    dsimp only at opened ⊢
    by_cases passes : transmission.Passes tree side child
    · rw [if_pos ((listed side).mpr passes)]
      refine ⟨child, by simp [enter, next], by simp [enter], .inr passes,
        fun grandchild _ below => ?_⟩
      exact gives.childless coherent suits grandchild below
    · rw [if_neg (fun member => passes ((listed side).mp member))]
      obtain ⟨holder, placed, keeps⟩ := fit.holder side opened
      refine ⟨holder, ?_, List.mem_append_left _ keeps.present, keeps.passed,
        fun other passesToo below member => ?_⟩
      · rw [enter, List.getElem?_append_left (List.getElem?_eq_some_iff.mp placed).1]
        exact placed
      · rcases List.mem_append.mp member with older | last
        · exact keeps.last other passesToo below older
        · exact passes (List.mem_singleton.mp last ▸ passesToo)

omit suits coherent in
/-- The record of the new node is that of a child. -/
theorem recordsFit (coherent : cast.Coherent tree sent) {table : InstanceTable}
    (fits : cast.RecordsFit tree table) {depth : UInt32} (deeper : depth.toNat = tree.depth child) :
    (cast.enter child).RecordsFit tree (table.enlist (some id) depth) where
  -- Where the child is the last of the nodes, its record is the last of the records.
  length := by
    simp only [InstanceTable.enlist, enter, List.length_append, List.length_singleton, fits.length]
  record := by
    intro position other record placed there
    simp only [InstanceTable.enlist, enter, List.getElem?_append, fits.length] at placed there
    split at placed
    · rename_i older
      rw [if_pos older] at there
      exact (fits.record placed there).of_done rfl
    · rename_i beyond
      rw [if_neg beyond] at there
      have last := List.mem_of_getElem? placed
      have new := List.mem_of_getElem? there
      rw [List.mem_singleton] at last new
      subst last new
      refine ⟨deeper, fun _ => rfl, fun ended => ?_⟩
      exact absurd (coherent.ended _ ended).1 gives.new

omit coherent in
/-- The parent goes on with a child less to spawn and one more to join, and without what it gave
away. -/
theorem plays (plays : cast.Plays tree sent id node .choice actor) {rest : List SpawnPlan}
    (waiting : actor.spawns = spawnPlan tree sent node child :: rest) {heir : InstanceId}
    (next : heir.word.toNat = cast.nodes.length) (errand : Option Errand) :
    (cast.enter child).Plays tree sent id node .choice
      ({ actor with spawns := rest, errand := errand }.absorb
        (.spawn (spawnPlan tree sent node child)) (.instance heir)) := by
  have spares := gives.spares
  have once := plays.spawnsOnce
  rw [waiting, List.nodup_cons] at once
  have last : (cast.enter child).nodes[heir.word.toNat]? = some child := by simp [enter, next]
  refine ⟨spares.place plays.place, plays.alive, plays.code, ?_, plays.pipesOnce, plays.pipes,
    once.2, fun plan => ?_, plays.transfers, by simp, fun other under member => ?_,
    fun other listed => ?_⟩
  · intro number transmission side found served keeps opened
    -- What is still here was not handed to the child.
    have unhanded : Transmission.pipeNumber number side ∉ handed tree sent child := by
      intro member
      obtain ⟨other, transmission', across, foundToo, passes, same⟩ := mem_handed.mp member
      obtain ⟨rfl, rfl⟩ := (Transmission.pipeNumber_inj (number_lt suits found)
        (number_lt suits foundToo)).mp same
      obtain rfl := Option.some.inj (found.symm.trans foundToo)
      exact keeps.last child passes gives.under (by simp [enter])
    obtain ⟨endpoint, known, serves⟩ := plays.held found served
      ⟨List.mem_of_getElem? plays.place, keeps.passed, fun other passes under member =>
        keeps.last other passes under (List.mem_append_left _ member)⟩ opened
    exact ⟨endpoint, (Holdings.find?_foldl_erase actor.held unhanded).trans known, serves⟩
  · have before := plays.spawns plan
    rw [waiting, List.mem_cons] at before
    have small := suits.small
    constructor
    · intro member
      obtain ⟨other, under, rfl, absent⟩ := before.mp (.inr member)
      refine ⟨other, under, rfl, fun present => ?_⟩
      rcases List.mem_append.mp present with older | new
      · exact absent older
      · exact once.1 (List.mem_singleton.mp new ▸ member)
    · rintro ⟨other, under, rfl, absent⟩
      simp only [enter, List.mem_append, List.mem_singleton, not_or] at absent
      refine (before.mpr ⟨other, under, rfl, absent.1⟩).resolve_left fun same => absent.2 ?_
      have range := SpawnTree.range_of_parent? under
      have rangeToo := SpawnTree.range_of_parent? gives.under
      exact (ofNat_inj (by omega) (by omega)).mp (congrArg SpawnPlan.child same)
  · rcases List.mem_append.mp member with older | new
    · refine (plays.children other under older).imp_right fun ⟨instance', placed, listed⟩ => ?_
      refine ⟨instance', spares.place placed, .inl ?_⟩
      exact List.mem_append_left _ (listed.resolve_right (by simp))
    · rw [List.mem_singleton.mp new]
      exact .inr ⟨heir, last, .inl (by simp [Actor.absorb])⟩
  · replace listed : other ∈ actor.children ++ [heir] := listed.resolve_right (by simp)
    rcases List.mem_append.mp listed with older | new
    · obtain ⟨known, under, placed⟩ := plays.joined other (.inl older)
      exact ⟨known, under, spares.place placed⟩
    · rw [List.mem_singleton.mp new]
      exact ⟨child, gives.under, last⟩

/-- The child has all of its node before it, and it finds what it was given in its arguments. -/
theorem starts {heir : InstanceId} (next : heir.word.toNat = cast.nodes.length)
    (endpoints : List Endpoint) :
    (cast.enter child).Starts tree sent ⟨heir, ofTransmissions tree sent,
      Arguments.write (UInt64.ofNat child) ((handed tree sent child).zip
        ((handed tree sent child).map endpointOf)), endpoints⟩ := by
  -- The handles are paired with their endpoints in the arguments, and read back from there.
  have last : (cast.enter child).nodes[heir.word.toNat]? = some child := by simp [enter, next]
  have absent {number : Nat} {transmission : Transmission}
      (found : sent[number]? = some transmission) (meets : transmission.meeting tree = child) :
      number ∉ cast.edges := by
    intro served
    obtain ⟨again, foundToo, present⟩ := coherent.created served
    obtain rfl := Option.some.inj (found.symm.trans foundToo)
    exact gives.new (meets ▸ present)
  refine ⟨child, exists_plays suits (SpawnTree.range_of_parent? gives.under).2 last
    (fun ended => gives.new (coherent.ended child ended).1) ?_ absent
    (gives.childless coherent suits) ?_⟩
  · intro number transmission side found served keeps
    have passes := keeps.passed.resolve_left fun same => absent found same.symm served
    refine ⟨_, Holdings.find?_ofPairs ?_ ?_, gives.serves found passes⟩
    · rw [List.map_fst_zip (by simp)]
      exact nodup_handed suits child
    · rw [← List.map_prod_left_eq_zip]
      exact List.mem_map.mpr ⟨_, mem_handed.mpr ⟨number, transmission, side, found, passes, rfl⟩,
        rfl⟩
  · rintro ⟨number, side⟩ member
    obtain ⟨transmission, found, target⟩ := mem_legsOf.mp member
    exact coherent.untouched side found (.inr (target ▸ gives.new))

end Gives

/-- A node that has created its pipes has every end that a child of it is to be handed. -/
theorem Plays.handed (suits : tree.Suits sent) (coherent : cast.Coherent tree sent)
    (plays : cast.Plays tree sent id node .choice actor) (created : actor.pipes = [])
    (under : tree.parent? child = some node) (new : child ∉ cast.nodes) {number : Nat}
    {transmission : Transmission} {side : Side} (found : sent[number]? = some transmission)
    (passes : transmission.Passes tree side child) :
    cast.Keeps tree transmission side node ∧ cast.left (number, side) ≠ none ∧ ∃ endpoint,
      actor.held.find? (Transmission.pipeNumber number side) = some endpoint ∧
        cast.edges[endpoint.index]? = some number ∧ endpoint.side = side := by
  -- Whatever passes the child passes its parent, which has kept it for want of this child.
  have present := List.mem_of_getElem? plays.place
  have above := meeting_mem suits (List.mem_of_getElem? found) side
  obtain ⟨parent, same, passed⟩ := SpawnTree.parent_mem_pathBelow suits.grown above passes
  obtain rfl := Option.some.inj (under.symm.trans same)
  have keeps : cast.Keeps tree transmission side node := by
    refine ⟨present, passed, fun other passesToo underToo => ?_⟩
    rw [SpawnTree.eq_of_mem_pathBelow suits.grown above passesToo passes underToo under]
    exact new
  have served : number ∈ cast.edges := by
    rcases passed with rfl | passesToo
    · by_contra unserved
      have member := (plays.pipes _).mpr ⟨number, transmission, found, rfl, rfl, unserved⟩
      simp [created] at member
    · exact coherent.needed found present passesToo
  have whole := coherent.untouched side found
    (.inr (Gives.target_notMem suits coherent new found passes))
  exact ⟨keeps, by simp [whole], plays.held found served keeps (by simp [whole])⟩

/-- The endpoint of a pipe that is held. -/
def holding (actor : Actor) (pipe : UInt64) : Endpoint :=
  (actor.held.find? pipe).getD .first

/-- Pipes that are all held have their endpoints. -/
theorem mapM_endpointOf (actor : Actor) {pipes : List UInt64}
    (known : ∀ pipe ∈ pipes, ∃ endpoint, actor.held.find? pipe = some endpoint) :
    pipes.mapM actor.endpointOf = .ok (pipes.map (holding actor)) := by
  -- Handle by handle, the endpoint is the one the actor holds.
  induction pipes with
  | nil => rfl
  | cons pipe rest ih =>
    obtain ⟨endpoint, found⟩ := known pipe (by simp)
    rw [List.mapM_cons, ih fun other member => known other (by simp [member])]
    simp [Actor.endpointOf, holding, found, bind, Except.bind, pure, Except.pure]

/-- A node that has created its pipes gives its next child what it holds. -/
theorem Plays.gives (suits : tree.Suits sent) (coherent : cast.Coherent tree sent)
    (plays : cast.Plays tree sent id node .choice actor) (created : actor.pipes = [])
    (under : tree.parent? child = some node) (new : child ∉ cast.nodes) :
    cast.Gives tree sent node child (holding actor) := by
  -- A pipe still to be created would be among the plans of the actor, and none is left.
  refine ⟨under, new, fun found meets => ?_, fun found passes => ?_⟩
  · by_contra unserved
    have member := (plays.pipes _).mpr ⟨_, _, found, meets, rfl, unserved⟩
    simp [created] at member
  · obtain ⟨-, -, endpoint, known, serves⟩ :=
      plays.handed suits coherent created under new found passes
    simpa [holding, known] using serves

/-- What a child is to be handed can be given away. -/
theorem Fits.checkTransfer (suits : tree.Suits sent) (fits : cast.Fits tree sent tables)
    (plays : cast.Plays tree sent id node .choice actor) (created : actor.pipes = [])
    (under : tree.parent? child = some node) (new : child ∉ cast.nodes) :
    tables.pipes.checkTransfer id ((Workload.handed tree sent child).map (holding actor)) =
      .ok () := by
  have gives := plays.gives suits fits.coherent created under new
  rw [fits.sound.numbered.checkTransfer_iff]
  refine ⟨fun endpoint member => ?_, ?_, by simp⟩
  · obtain ⟨pipe, handed, rfl⟩ := List.mem_map.mp member
    obtain ⟨number, transmission, side, found, passes, rfl⟩ := mem_handed.mp handed
    obtain ⟨keeps, opened, endpoint, known, serves, same⟩ :=
      plays.handed suits fits.coherent created under new found passes
    obtain ⟨pipe, holds, -⟩ := fits.holds suits plays.place found keeps opened serves same
    exact ⟨pipe, by simpa [holding, known] using holds⟩
  · -- The endpoint tells the pipe, and so no two numbers have the same one.
    refine List.Nodup.map_on (fun one here other there same => ?_) (nodup_handed suits child)
    obtain ⟨number, transmission, side, found, passes, rfl⟩ := mem_handed.mp here
    obtain ⟨numberToo, transmission', across, foundToo, passesToo, rfl⟩ := mem_handed.mp there
    obtain ⟨serves, ownSide⟩ := gives.serves found passes
    obtain ⟨servesToo, acrossSide⟩ := gives.serves foundToo passesToo
    rw [same] at serves ownSide
    rw [Option.some.inj (serves.symm.trans servesToo), ← ownSide, acrossSide]

/-- Budgets and numbers allow for another child of a node. -/
theorem Fits.room (suits : tree.Suits sent) (fits : cast.Fits tree sent tables)
    (place : cast.nodes[id.word.toNat]? = some node) (under : tree.parent? child = some node)
    (few : cast.nodes.length < tree.size) :
    ∃ record, tables.instances.find? id = some record ∧
      tables.instances.running.length < tables.instances.maxInstances.toNat ∧
      record.depth + 1 ≤ tables.instances.maxDepth ∧ tables.instances.nextId + 1 ≠ 0 ∧
      (record.depth + 1).toNat = tree.depth child := by
  have inside := (List.getElem?_eq_some_iff.mp place).1
  have length := fits.records.length
  have there := List.getElem?_eq_getElem (length ▸ inside)
  generalize tables.instances.records[id.word.toNat] = record at there
  have own := (fits.records.record place there).depth
  -- The greatest depth fits a half word, and so no depth up to it overflows.
  have deeper := SpawnTree.depth_of_parent? suits.grown under
  have shallow := fits.ample.depth child (SpawnTree.range_of_parent? under).2
  have small := tables.instances.maxDepth.toNat_lt
  have depth : (record.depth + 1).toNat = tree.depth child := by
    rw [UInt32.toNat_add, own, deeper]
    exact Nat.mod_eq_of_lt (by simp only [UInt32.reduceToNat]; omega)
  refine ⟨record, (fits.sound.indexed.find?_eq id).trans there, ?_, ?_, ?_, depth⟩
  · have running : tables.instances.running.length ≤ tables.instances.records.length := by
      unfold InstanceTable.running
      rw [List.length_map]
      exact List.length_filter_le _ _
    have room := fits.ample.instances
    omega
  · rw [UInt32.le_iff_toNat_le, depth]
    exact shallow
  · have next := fits.sound.indexed.next
    have treeSmall := suits.small
    rw [Ne, ← UInt64.toNat_inj, UInt64.toNat_add]
    simp only [UInt64.reduceToNat, UInt64.toNat_zero]
    omega

/-- An instance of a workload spawns its next child. -/
theorem Fits.spawn (suits : tree.Suits sent) (fits : cast.Fits tree sent tables)
    (apart : ∀ launch ∈ tables.launches, launch.id ≠ id)
    (plays : cast.Plays tree sent id node .choice actor) (created : actor.pipes = [])
    {plan : SpawnPlan} {rest : List SpawnPlan} (waiting : actor.spawns = plan :: rest)
    (errand : Option Errand) :
    ∃ endpoints, plan.pipes.mapM actor.endpointOf = .ok endpoints ∧
      ∃ after later heir, tables.spawn id Actor.descriptor
          (Arguments.write plan.child (plan.pipes.zip endpoints)) endpoints = (.ok heir, later) ∧
        Advances tree sent id node cast after later ∧
        after.Plays tree sent id node .choice
          ({ actor with spawns := rest, errand := errand }.absorb (.spawn plan)
            (.instance heir)) := by
  -- The next plan is for a child that is due, so the checks pass and the child is the last of the
  -- nodes.
  obtain ⟨child, under, rfl, new⟩ :=
    (plays.spawns plan).mp (by rw [waiting]; exact List.mem_cons_self)
  have gives := plays.gives suits fits.coherent created under new
  have known : ∀ pipe ∈ Workload.handed tree sent child, ∃ endpoint,
      actor.held.find? pipe = some endpoint := by
    intro pipe member
    obtain ⟨number, transmission, side, found, passes, rfl⟩ := mem_handed.mp member
    obtain ⟨-, -, endpoint, known, -⟩ :=
      plays.handed suits fits.coherent created under new found passes
    exact ⟨endpoint, known⟩
  have coherent := gives.coherent_enter suits fits.coherent plays.place
  have few := length_le_of_lt coherent.once coherent.inside
  simp only [enter, List.length_append, List.length_singleton] at few
  obtain ⟨record, found, vacancy, shallow, named, depth⟩ := fits.room suits plays.place under few
  have loaded : tables.load Actor.descriptor = .ok (ofTransmissions tree sent) := by
    rw [fits.ample.load]
    rfl
  have checked := fits.checkTransfer suits plays created under new
  have inside := (List.getElem?_eq_some_iff.mp plays.place).1
  have next : tables.instances.nextId.toNat = cast.nodes.length :=
    fits.sound.indexed.next.trans fits.records.length
  have spawned := @Tables.spawn_ok _ _ _ fits.sound _ _ (Arguments.write (UInt64.ofNat child)
    ((Workload.handed tree sent child).zip ((Workload.handed tree sent child).map (holding actor))))
    _ _ loaded checked found vacancy shallow named
  have effects : Tables.Effects id tables _ := .single (.spawns Actor.descriptor
    (Arguments.write (UInt64.ofNat child) ((Workload.handed tree sent child).zip
      ((Workload.handed tree sent child).map (holding actor))))
    ((Workload.handed tree sent child).map (holding actor)))
  rw [spawned] at effects
  refine ⟨_, mapM_endpointOf actor known, cast.enter child, _, _, spawned, ⟨gives.spares, ?_, ?_⟩,
    gives.plays suits plays waiting next errand⟩
  · refine ⟨(effects.sound fits.sound).1, fits.ample.kept (effects.budgets fits.sound), coherent,
      gives.pipesFit suits fits.coherent fits.sound.numbered fits.pipes next,
      gives.recordsFit fits.coherent fits.records depth, fun launch member => ?_⟩
    rcases List.mem_append.mp member with older | last
    · exact fits.starts_spared apart plays.place gives.spares launch older
    · rw [List.mem_singleton.mp last]
      exact gives.starts suits fits.coherent next _
  · intro launch member
    rcases List.mem_append.mp member with older | last
    · exact apart launch older
    · rw [List.mem_singleton.mp last]
      rintro rfl
      exact Nat.lt_irrefl _ (next ▸ inside)

end Progeny.Cast
