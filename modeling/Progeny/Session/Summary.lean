import Progeny.Session.Basic

/-! The state of a session in one line. -/

namespace Progeny

/-- The text of an optional value in a summary. -/
def summaryOption {α : Type} (write : α → String) : Option α → String
  | none => "None"
  | some value => "Some(" ++ write value ++ ")"

/-- The text of an outcome in a summary. -/
def RunOutcome.summary : RunOutcome → String
  | .exited code steps =>
    "Exited \x7b exit_code: " ++ Decimal.signedText code.toInt ++ ", consumed_steps: " ++
      Decimal.text steps ++ " \x7d"
  | .paused steps => "Paused \x7b consumed_steps: " ++ Decimal.text steps ++ " \x7d"

/-- A summary of a session in one line. -/
def Session.summary {π β σ : Type} (session : Session π β σ) : String :=
  let root := summaryOption
    (fun (id : InstanceId) => "InstanceId(" ++ Decimal.text id.word.toNat ++ ")") session.root
  "Scheduler \x7b root: " ++ root ++ ", live: " ++ Decimal.text session.tasks.length ++
    ", consumed_steps: " ++ Decimal.text session.consumedSteps ++ ", finished: " ++
    summaryOption RunOutcome.summary session.finished ++ ", .. \x7d"

end Progeny
