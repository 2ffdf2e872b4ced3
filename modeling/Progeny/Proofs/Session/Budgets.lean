import Progeny.Proofs.Session.Undisturbed

/-! Nothing that instances do changes the budgets of a session or the programs that it can start. -/

namespace Progeny.Tables

variable {π : Type} {caller : InstanceId} {tables after : Tables π}

/-- Two states of the tables have the same budgets and the same programs. -/
structure SameBudgets (before after : Tables π) : Prop where
  load : after.load = before.load
  pipes : before.pipes.SameBudgets after.pipes
  maxInstances : after.instances.maxInstances = before.instances.maxInstances
  maxDepth : after.instances.maxDepth = before.instances.maxDepth

/-- An effect of a call leaves the budgets. -/
theorem Effect.budgets (sound : tables.Sound) (effect : Effect caller tables after) :
    tables.SameBudgets after := by
  -- Every operation on pipes keeps their budgets, and a launch adds a record but no room.
  cases effect with
  | reads endpoint limit =>
    exact ⟨rfl, (sound.numbered.read_case caller endpoint limit).budgets, rfl, rfl⟩
  | writes endpoint data =>
    exact ⟨rfl, (sound.numbered.write_case caller endpoint data).budgets, rfl, rfl⟩
  | creates =>
    have budgets := (sound.numbered.create_case caller).budgets
    unfold createPipe
    dsimp only
    split <;> exact ⟨rfl, budgets, rfl, rfl⟩
  | closes endpoint =>
    have budgets := (sound.numbered.close_case caller endpoint).budgets
    unfold closeEndpoint
    dsimp only
    split <;> exact ⟨rfl, budgets, rfl, rfl⟩
  | spawns descriptor argv endpoints =>
    rcases spawn_case sound descriptor argv endpoints with
      ⟨error, same⟩ | ⟨program, record, -, -, -, -, -, -, same⟩
    · rw [same]
      exact ⟨rfl, ⟨rfl, rfl⟩, rfl, rfl⟩
    · rw [same]
      exact ⟨rfl, PipeRegistry.sameBudgets_transfer _ endpoints _, rfl, rfl⟩
  | joins => exact ⟨rfl, ⟨rfl, rfl⟩, rfl, rfl⟩

/-- Effects of calls leave the budgets. -/
theorem Effects.budgets (sound : tables.Sound) (effects : Effects caller tables after) :
    tables.SameBudgets after := by
  -- Each effect starts from sound tables, since the effects before it kept them sound.
  induction effects with
  | refl => exact ⟨rfl, ⟨rfl, rfl⟩, rfl, rfl⟩
  | tail earlier last ih =>
    have step := last.budgets (Effects.sound sound earlier).1
    exact ⟨step.load.trans ih.load,
      ⟨step.pipes.1.trans ih.pipes.1, step.pipes.2.trans ih.pipes.2⟩,
      step.maxInstances.trans ih.maxInstances, step.maxDepth.trans ih.maxDepth⟩

end Progeny.Tables
