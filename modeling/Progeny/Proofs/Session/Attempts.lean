import Progeny.Proofs.Pipe.Calls
import Progeny.Session.Call

/-! What attempts to read and to write come to for an instance that holds the endpoint. -/

namespace Progeny.Tables

variable {π : Type} {tables : Tables π} {caller : InstanceId} {endpoint : Endpoint} {pipe : Pipe}

/-- What an attempt to write some bytes to an end whose peer is open can come to. -/
inductive WriteOutcome (tables : Tables π) (endpoint : Endpoint) (pipe : Pipe) (data : Bytes) :
    Attempt Nat × Tables π → Prop where
  | waits (wait : Wait)
      (full : tables.pipes.capacity.toNat ≤ (pipe.on endpoint.side.peer).inbound.length) :
    WriteOutcome tables endpoint pipe data (.wait wait, tables)
  | puts {count : Nat} (positive : 0 < count) (signals : List Endpoint) :
    WriteOutcome tables endpoint pipe data
      (.moved count, tables.settle ⟨count, tables.pipes.setPipe endpoint.index
        (pipe.modify endpoint.side.peer fun held =>
          { held with inbound := held.inbound ++ data.take count }), signals⟩)

/-- What an attempt to read at least one byte can come to. -/
inductive ReadOutcome (tables : Tables π) (endpoint : Endpoint) (pipe : Pipe) (limit : Nat) :
    Attempt Bytes × Tables π → Prop where
  | waits (wait : Wait) (empty : (pipe.on endpoint.side).inbound = [])
      (expected : (pipe.on endpoint.side.peer).isOpen = true) :
    ReadOutcome tables endpoint pipe limit (.wait wait, tables)
  | ends (empty : (pipe.on endpoint.side).inbound = [])
      (gone : (pipe.on endpoint.side.peer).isOpen = false) :
    ReadOutcome tables endpoint pipe limit (.moved [], tables)
  | takes (filled : (pipe.on endpoint.side).inbound ≠ []) (signals : List Endpoint) :
    ReadOutcome tables endpoint pipe limit
      (.moved ((pipe.on endpoint.side).inbound.take limit), tables.settle
        ⟨(pipe.on endpoint.side).inbound.take limit, tables.pipes.setPipe endpoint.index
          (pipe.modify endpoint.side fun held =>
            { held with inbound := held.inbound.drop limit }), signals⟩)

/-- Who holds the endpoint of an open peer waits or puts in some bytes. -/
theorem writeOutcome (numbered : tables.pipes.Numbered)
    (holds : tables.pipes.Holds caller endpoint pipe)
    (expected : (pipe.on endpoint.side.peer).isOpen = true) {data : Bytes} (offered : data ≠ []) :
    WriteOutcome tables endpoint pipe data (tables.tryWrite caller endpoint data) := by
  have held := numbered.held_iff.mpr ⟨holds, rfl⟩
  have own {other : Pipe} (too : tables.pipes.Holds caller endpoint other) : other = pipe :=
    Option.some.inj (too.found.symm.trans holds.found)
  have outcome := numbered.write_case caller endpoint data
  simp only [tryWrite, PipeRegistry.writerWaitsOn, held, Except.map]
  generalize tables.pipes.write caller endpoint data = served at outcome
  cases outcome with
  | refused unheld => exact absurd holds (unheld pipe)
  | broken too gone =>
    obtain rfl := own too
    simp [expected] at gone
  | nothing _ _ none => exact absurd none offered
  | waits too _ _ full =>
    obtain rfl := own too
    exact .waits _ full
  | @puts other too _ _ room =>
    obtain rfl := own too
    have length := List.length_pos_iff.mpr offered
    -- Beyond the end of the data there is nothing more to take.
    have taken (room : Nat) : data.take room = data.take (min room data.length) := by
      rw [List.take_eq_take_iff]
      omega
    rw [taken]
    exact .puts (by omega) _

/-- Who holds an endpoint waits, finds the end of the stream, or takes some bytes. -/
theorem readOutcome (numbered : tables.pipes.Numbered)
    (holds : tables.pipes.Holds caller endpoint pipe) {limit : Nat} (asked : limit ≠ 0) :
    ReadOutcome tables endpoint pipe limit (tables.tryRead caller endpoint limit) := by
  -- The cases are those of the read, seen by one who holds the end and asks for bytes.
  have held := numbered.held_iff.mpr ⟨holds, rfl⟩
  have own {other : Pipe} (too : tables.pipes.Holds caller endpoint other) : other = pipe :=
    Option.some.inj (too.found.symm.trans holds.found)
  have outcome := numbered.read_case caller endpoint limit
  simp only [tryRead, PipeRegistry.readerWaitsOn, held, Except.map]
  generalize tables.pipes.read caller endpoint limit = served at outcome
  cases outcome with
  | refused unheld => exact absurd holds (unheld pipe)
  | waits too _ empty expected =>
    obtain rfl := own too
    exact .waits _ empty expected
  | ends too reason =>
    obtain rfl := own too
    obtain ⟨empty, gone⟩ := reason.resolve_left asked
    exact .ends empty gone
  | takes too _ filled =>
    obtain rfl := own too
    exact .takes filled _

end Progeny.Tables
