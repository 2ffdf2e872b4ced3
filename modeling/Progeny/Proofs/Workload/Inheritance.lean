import Progeny.Proofs.Workload.Arguments
import Progeny.Proofs.Workload.Effort

/-! Parents and children agree on arguments: a child holds for every pipe that it is handed the
endpoint that its parent held, and whatever its arguments may be, it holds what they tell. -/

namespace Progeny

/-- A traversal that succeeds has succeeded item by item. -/
theorem forall₂_of_mapM {α β : Type} {find : α → Except String β} {items : List α}
    {results : List β} (found : items.mapM find = .ok results) :
    List.Forall₂ (fun item result => find item = .ok result) items results := by
  induction items generalizing results with
  | nil =>
    obtain rfl : results = [] := (Except.ok.inj found).symm
    exact .nil
  | cons item rest ih =>
    rw [List.mapM_cons] at found
    cases here : find item with
    | error message => simp [here, bind, Except.bind] at found
    | ok result =>
      cases later : rest.mapM find with
      | error message => simp [here, later, bind, Except.bind] at found
      | ok others =>
        obtain rfl : results = result :: others := by
          simpa [here, later, bind, Except.bind, pure, Except.pure] using found.symm
        exact .cons here (ih later)

namespace Actor

variable {actor : Actor} {pipes : List UInt64} {endpoints : List Endpoint}

/-- The endpoint found for a pipe is the one that is held. -/
theorem find?_of_endpointOf {pipe : UInt64} {endpoint : Endpoint}
    (found : actor.endpointOf pipe = .ok endpoint) : actor.held.find? pipe = some endpoint := by
  unfold endpointOf at found
  split at found
  · rename_i held here
    rw [here, Except.ok.inj found]
  · cases found

/-- The endpoints found for some pipes are those that are held, one by one. -/
theorem held_of_mapM (found : pipes.mapM actor.endpointOf = .ok endpoints) :
    pipes.length = endpoints.length ∧ ∀ {pipe endpoint}, (pipe, endpoint) ∈ pipes.zip endpoints →
      actor.held.find? pipe = some endpoint :=
  List.forall₂_iff_zip.mp ((forall₂_of_mapM found).imp fun _ _ => find?_of_endpointOf)

/-- From the endpoints found for some pipes an heir has, for exactly these, what is held. -/
theorem find?_ofPairs_zip (found : pipes.mapM actor.endpointOf = .ok endpoints) (pipe : UInt64) :
    (Holdings.ofPairs (pipes.zip endpoints)).find? pipe =
      if pipe ∈ pipes then actor.held.find? pipe else none := by
  obtain ⟨size, held⟩ := held_of_mapM found
  have named : (pipes.zip endpoints).map Prod.fst = pipes := List.map_fst_zip size.le
  by_cases handed : pipe ∈ pipes
  · obtain ⟨endpoint, last⟩ := exists_lastFor (named.symm ▸ handed)
    rw [if_pos handed, Holdings.find?_ofPairs_iff.mpr last, held last.mem]
  · rw [if_neg handed, Option.eq_none_iff_forall_ne_some]
    intro endpoint given
    -- A pipe that the heir has is one of those that it was handed.
    exact handed (List.of_mem_zip (Holdings.find?_ofPairs_iff.mp given).mem).1

/-- The endpoints found for some pipes are those that an heir has from them. -/
theorem forall₂_ofPairs_zip (found : pipes.mapM actor.endpointOf = .ok endpoints) :
    List.Forall₂ (fun pipe endpoint =>
      (Holdings.ofPairs (pipes.zip endpoints)).find? pipe = some endpoint) pipes endpoints := by
  obtain ⟨size, held⟩ := held_of_mapM found
  refine List.forall₂_iff_zip.mpr ⟨size, fun {pipe endpoint} member => ?_⟩
  rw [find?_ofPairs_zip found, if_pos (List.of_mem_zip member).1, held member]

end Actor

namespace Arguments

/-- Parent and child agree on arguments. What is written for an index and any pairs is read as that
index and, for each pipe, the endpoint of its last pair. Whenever an instance spawns another, its
arguments are read as the index of the child and, for exactly the pipes of the plan, the endpoints
that the parent holds, which are those that it hands over. Any arguments at all are either read as
what they tell, without a zero in place of an endpoint, or refused, since they tell nothing or name
such a zero. -/
theorem parent_child_agree :
    (∀ index pairs, ∃ held, read (write index pairs) = .ok (index, held) ∧
      ∀ pipe endpoint, held.find? pipe = some endpoint ↔ LastFor pairs pipe endpoint) ∧
    (∀ (actor next : Actor) program argv endpoints,
      actor.choose = .ok (.call (.spawn program argv endpoints), next) →
      ∃ plan later held, actor.spawns = plan :: later ∧ read argv = .ok (plan.child, held) ∧
        (∀ pipe, held.find? pipe = if pipe ∈ plan.pipes then actor.held.find? pipe else none) ∧
        List.Forall₂ (fun pipe endpoint => held.find? pipe = some endpoint) plan.pipes endpoints) ∧
    ∀ arguments,
      (∃ index held pairs, read arguments = .ok (index, held) ∧ Tells arguments index pairs ∧
        (∀ pair ∈ pairs, pair.2 ≠ 0) ∧
        ∀ pipe word, (held.find? pipe).map Endpoint.word = some word ↔ LastFor pairs pipe word) ∨
      ∃ message, read arguments = .error message ∧
        ∀ index pairs, Tells arguments index pairs →
          (∃ pair ∈ pairs, pair.2 = 0) ∧ message = zeroMessage := by
  refine ⟨fun index pairs => ?_, fun actor next program argv endpoints chosen => ?_,
    fun arguments => ?_⟩
  · exact ⟨_, read_write index pairs, fun _ _ => Holdings.find?_ofPairs_iff⟩
  · cases Actor.chooses_of_choose chosen with
    | @spawns plan later _ _ _ waiting found =>
      exact ⟨plan, later, _, waiting, read_write _ _, Actor.find?_ofPairs_zip found,
        Actor.forall₂_ofPairs_zip found⟩
  · cases understood : read arguments with
    | ok result =>
      obtain ⟨index, held⟩ := result
      obtain ⟨pairs, told, rfl⟩ := read_eq_ok_iff.mp understood
      exact .inl ⟨index, _, words pairs, rfl, told, words_ne_zero pairs,
        fun pipe word => find?_ofPairs_words⟩
    | error message =>
      refine .inr ⟨message, rfl, fun index pairs told => ?_⟩
      by_cases zero : ∃ pair ∈ pairs, pair.2 = 0
      · have refused := read_zero told zero
        exact ⟨zero, Except.error.inj (understood.symm.trans refused)⟩
      · -- Without a zero the arguments would have been read.
        obtain ⟨endpoints, rfl⟩ := exists_words fun pair member blank => zero ⟨pair, member, blank⟩
        have read := read_eq_ok_iff.mpr ⟨endpoints, told, rfl⟩
        rw [understood] at read
        cases read

/-- An instance that is about to hand its two pipes on. -/
def giver : Actor where
  held := ⟨[(3, ⟨7, by decide⟩), (2, ⟨5, by decide⟩)]⟩
  pipes := []
  spawns := [⟨0, 1, [2, 3]⟩]
  transfers := []

/-- A child of the giver reads its index and the endpoints of both pipes. -/
theorem parent_child_agree_of_giver : ∃ argv endpoints next held,
    giver.choose = .ok (.call (.spawn Actor.descriptor argv endpoints), next) ∧
      read argv = .ok (1, held) ∧ (held.find? 2).map Endpoint.word = some 5 ∧
      (held.find? 3).map Endpoint.word = some 7 ∧ endpoints.map Endpoint.word = [5, 7] := by
  have chosen : giver.choose = .ok (.call (.spawn Actor.descriptor
      (write 1 ([2, 3].zip [⟨5, by decide⟩, ⟨7, by decide⟩])) [⟨5, by decide⟩, ⟨7, by decide⟩]),
      { giver with spawns := [], errand := some (.spawn ⟨0, 1, [2, 3]⟩) }) := rfl
  obtain ⟨plan, later, held, spawned, understood, inherited, -⟩ :=
    parent_child_agree.2.1 _ _ _ _ _ chosen
  cases spawned
  exact ⟨_, _, _, held, chosen, understood, by rw [inherited]; rfl, by rw [inherited]; rfl, rfl⟩

end Arguments

end Progeny
