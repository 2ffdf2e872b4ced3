import Progeny.Proofs.Session.Memoirs
import Progeny.Proofs.Workload.Effort

/-! What the diary of an instance of a workload says about its exit code: it has made all its reads
and joined all its children, and the code is what has come of them. -/

namespace Progeny

namespace Dialogue

/-- The bytes that an instance has read, call by call. -/
def received (dialogue : Dialogue) : List Bytes :=
  dialogue.filterMap fun
    | (.readExact .., .ok (.bytes bytes)) => some bytes
    | _ => none

/-- Whose exit an instance has waited for, with the exit codes that it was told. -/
def joined (dialogue : Dialogue) : List (InstanceId × Int8) :=
  dialogue.filterMap fun
    | (.join target, .ok (.code code)) => some (target, code)
    | _ => none

@[simp] theorem received_append (dialogue more : Dialogue) :
    received (dialogue ++ more) = dialogue.received ++ received more :=
  List.filterMap_append

@[simp] theorem joined_append (dialogue more : Dialogue) :
    joined (dialogue ++ more) = dialogue.joined ++ joined more :=
  List.filterMap_append

@[simp] theorem spawned_append (dialogue more : Dialogue) :
    spawned (dialogue ++ more) = dialogue.spawned ++ spawned more :=
  List.filterMap_append

end Dialogue

/-- The bytes that an instance is to read, write by write. -/
def Workload.inbox (workload : Workload) (index : UInt64) : List Bytes :=
  (workload.writes.filter (·.reader = index)).map WritePlan.data

/-- The bytes that a transfer is to read. -/
def Transfer.expected? : Transfer → Option Bytes
  | .send .. => none
  | .receive _ expected => some expected

/-- What an instance is to read is what the writes that are for it have. -/
theorem Workload.expected_transfersOf (workload : Workload) (index : UInt64) :
    (workload.writes.flatMap (·.transfersOf index)).filterMap Transfer.expected? =
      workload.inbox index := by
  unfold inbox
  induction workload.writes with
  | nil => rfl
  | cons plan rest ih =>
    rw [List.flatMap_cons, List.filterMap_append, ih, List.filter_cons]
    by_cases writes : plan.writer = index <;> by_cases reads : plan.reader = index <;>
      simp [WritePlan.transfersOf, writes, reads, Transfer.expected?, List.filterMap_cons]

namespace Actor

/-- The exit code of an instance, by whether it has read what was written, and by the exit codes of
its children. -/
def verdict (faithful : Bool) (codes : List Int8) : Int8 :=
  if faithful then (codes.find? (· ≠ 0)).getD 0 else mismatchCode

/-- What an instance remembers between its calls, or within one that reads some bytes or waits for
the exit of some child. -/
structure Recalls (expected : List Bytes) (dialogue : Dialogue) (reading : List Bytes)
    (joining : List InstanceId) (actor : Actor) : Prop where
  reads : ∃ past, expected = past ++ (reading ++ actor.transfers.filterMap Transfer.expected?) ∧
    past.length = dialogue.received.length ∧
    actor.code = verdict (dialogue.received = past) (dialogue.joined.map Prod.snd)
  late : dialogue.joined ≠ [] ∨ joining ≠ [] → reading = [] ∧ actor.transfers = []
  children : dialogue.spawned = dialogue.joined.map Prod.fst ++ (joining ++ actor.children)

/-- What the call for an errand is, and what it reads or waits for. -/
inductive Pursues : Errand → Request → List Bytes → List InstanceId → Prop where
  | create (plan : PipePlan) : Pursues (.create plan) .pipe [] []
  | spawn (plan : SpawnPlan) (argv : List Bytes) (endpoints : List Endpoint) :
    Pursues (.spawn plan) (.spawn descriptor argv endpoints) [] []
  | send (endpoint : Endpoint) (data : Bytes) :
    Pursues (.send endpoint) (.writeAll endpoint data) [] []
  | receive (endpoint : Endpoint) (expected : Bytes) :
    Pursues (.receive endpoint expected) (.readExact endpoint expected.length) [expected] []
  | close (endpoint : Endpoint) : Pursues .close (.close endpoint) [] []
  | join (child : InstanceId) : Pursues .join (.join child) [] [child]

variable {expected : List Bytes} {dialogue : Dialogue} {actor : Actor}

/-- Whatever an instance chooses to do, it remembers what it does it for; and if it ends, nothing is
left to be done. -/
theorem Recalls.chooses {action : Action} {next : Actor}
    (recalls : Recalls expected dialogue [] [] actor) (chosen : Chooses actor action next) :
    (∃ request errand reading joining, action = .call request ∧ next.errand = some errand ∧
      Pursues errand request reading joining ∧ Recalls expected dialogue reading joining next) ∨
    action = .exit (verdict (dialogue.received = expected) (dialogue.joined.map Prod.snd)) ∧
      next = actor ∧ dialogue.received.length = expected.length ∧
      dialogue.spawned = dialogue.joined.map Prod.fst := by
  obtain ⟨past, expects, many, code⟩ := recalls.reads
  -- As long as there is something to move, nobody was joined.
  have early {transfer : Transfer} {transfers : List Transfer}
      (waiting : actor.transfers = transfer :: transfers) : dialogue.joined = [] := by
    by_contra some
    have moved := (recalls.late (.inl some)).2
    simp [waiting] at moved
  cases chosen with
  | closes | creates | spawns =>
    refine .inl ⟨_, _, [], [], rfl, rfl, by constructor, ?_⟩
    exact ⟨recalls.reads, recalls.late, recalls.children⟩
  | sends free created spawned waiting held =>
    refine .inl ⟨_, _, [], [], rfl, rfl, .send _ _, ⟨past, ?_, many, code⟩, fun joins => ?_,
      recalls.children⟩
    · simpa [waiting, Transfer.expected?, List.filterMap_cons] using expects
    · simp [early waiting] at joins
  | @receives pipe bytes transfers endpoint free created spawned waiting held =>
    refine .inl ⟨_, _, [bytes], [], rfl, rfl, .receive _ _, ⟨past, ?_, many, code⟩, fun joins => ?_,
      recalls.children⟩
    · simpa [waiting, Transfer.expected?, List.filterMap_cons] using expects
    · simp [early waiting] at joins
  | @joins child children free created spawned moved waiting =>
    refine .inl ⟨_, _, [], [child], rfl, rfl, .join _, recalls.reads, fun _ => ⟨rfl, moved⟩, ?_⟩
    simpa [waiting] using recalls.children
  | exits free created spawned moved joined =>
    obtain rfl : expected = past := by simpa [moved] using expects
    exact .inr ⟨by rw [code], rfl, many.symm, by simpa [joined] using recalls.children⟩

/-- The exit code of one more child counts if it is the first other than zero. -/
theorem verdict_concat (faithful : Bool) (codes : List Int8) (code : Int8) :
    verdict faithful (codes ++ [code]) =
      if code ≠ 0 ∧ verdict faithful codes = 0 then code else verdict faithful codes := by
  -- A mismatch, or an earlier code other than zero, already decides.
  unfold verdict
  cases faithful with
  | false => simp [mismatchCode]
  | true =>
    simp only [if_true, List.find?_append]
    cases found : codes.find? (· ≠ 0) with
    | some first =>
      have differs : first ≠ 0 := by simpa using List.find?_some found
      simp [differs]
    | none => by_cases zero : code = 0 <;> simp [zero]

/-- A call that moves nothing into an instance leaves it with what it remembers. -/
theorem Recalls.silent {exchange : Request × Reply} {next : Actor}
    (recalls : Recalls expected dialogue [] [] actor)
    (unread : Dialogue.received [exchange] = []) (alone : Dialogue.joined [exchange] = [])
    (childless : Dialogue.spawned [exchange] = []) (transfers : next.transfers = actor.transfers)
    (code : next.code = actor.code) (children : next.children = actor.children) :
    Recalls expected (dialogue ++ [exchange]) [] [] next := by
  obtain ⟨past, expects, many, verdict⟩ := recalls.reads
  refine ⟨⟨past, ?_, ?_, ?_⟩, ?_, ?_⟩
  · rw [transfers]
    exact expects
  · rw [Dialogue.received_append, unread, List.append_nil]
    exact many
  · rw [code, Dialogue.received_append, unread, Dialogue.joined_append, alone, List.append_nil,
      List.append_nil]
    exact verdict
  · rw [transfers, Dialogue.joined_append, alone, List.append_nil]
    exact recalls.late
  · rw [children, Dialogue.spawned_append, childless, Dialogue.joined_append, alone,
      List.append_nil, List.append_nil]
    exact recalls.children

/-- An instance remembers a child that it has created. -/
theorem Recalls.founds (recalls : Recalls expected dialogue [] [] actor) (plan : SpawnPlan)
    (argv : List Bytes) (endpoints : List Endpoint) (child : InstanceId) :
    Recalls expected (dialogue ++ [(.spawn descriptor argv endpoints, .ok (.instance child))]) [] []
      (actor.absorb (.spawn plan) (.instance child)) := by
  obtain ⟨past, expects, many, code⟩ := recalls.reads
  refine ⟨⟨past, expects, ?_, ?_⟩, ?_, ?_⟩
  · rw [Dialogue.received_append]
    exact many.trans (congrArg List.length (List.append_nil _).symm)
  · rw [Dialogue.received_append, Dialogue.joined_append]
    show actor.code = verdict (_ ++ [] = past) (List.map Prod.snd (_ ++ []))
    simpa using code
  · rw [Dialogue.joined_append]
    show _ ++ [] ≠ [] ∨ _ → _ ∧ actor.transfers = []
    simpa using recalls.late
  · rw [Dialogue.spawned_append, Dialogue.joined_append, recalls.children]
    show _ ++ [child] = List.map Prod.fst (_ ++ []) ++ ([] ++ (actor.children ++ [child]))
    simp

/-- An instance remembers whether the bytes that it has read are those that were written. -/
theorem Recalls.receives {bytes : Bytes} (recalls : Recalls expected dialogue [bytes] [] actor)
    (endpoint : Endpoint) (count : Nat) (received : Bytes) :
    Recalls expected (dialogue ++ [(.readExact endpoint count, .ok (.bytes received))]) [] []
      (actor.absorb (.receive endpoint bytes) (.bytes received)) := by
  obtain ⟨past, expects, many, code⟩ := recalls.reads
  -- Nobody was joined before this read.
  have early : dialogue.joined = [] := by
    by_contra some
    simpa using (recalls.late (.inl some)).1
  have same : dialogue.received ++ [received] = past ++ [bytes] ↔
      dialogue.received = past ∧ received = bytes := by
    constructor
    · intro whole
      obtain ⟨before, last⟩ := List.append_inj' whole rfl
      exact ⟨before, List.singleton_inj.mp last⟩
    · rintro ⟨before, rfl⟩
      rw [before]
  refine ⟨⟨past ++ [bytes], ?_, ?_, ?_⟩, ?_, ?_⟩
  · rw [expects]
    simp [absorb]
  · rw [Dialogue.received_append]
    show _ = (dialogue.received ++ [received]).length
    simp [many]
  · rw [Dialogue.received_append, Dialogue.joined_append, early]
    show (if received = bytes then actor.code else mismatchCode) =
      verdict (dialogue.received ++ [received] = past ++ [bytes]) []
    rw [code, early]
    by_cases before : dialogue.received = past <;> by_cases last : received = bytes <;>
      simp [same, before, last, verdict]
  · rw [Dialogue.joined_append, early]
    intro joins
    simp [Dialogue.joined] at joins
  · rw [Dialogue.spawned_append, Dialogue.joined_append, recalls.children]
    show _ ++ [] = List.map Prod.fst (_ ++ []) ++ _
    simp [absorb]

/-- An instance remembers the exit code of a child that it has waited for. -/
theorem Recalls.awaits {child : InstanceId}
    (recalls : Recalls expected dialogue [] [child] actor) (result : Int8) :
    Recalls expected (dialogue ++ [(.join child, .ok (.code result))]) [] []
      (actor.absorb .join (.code result)) := by
  obtain ⟨past, expects, many, code⟩ := recalls.reads
  have moved := (recalls.late (.inr (by simp))).2
  refine ⟨⟨past, expects, ?_, ?_⟩, fun _ => ⟨rfl, moved⟩, ?_⟩
  · rw [Dialogue.received_append]
    exact many.trans (congrArg List.length (List.append_nil _).symm)
  · rw [Dialogue.received_append, Dialogue.joined_append, List.map_append]
    show (if result ≠ 0 ∧ actor.code = 0 then result else actor.code) =
      verdict (_ ++ [] = past) (_ ++ [result])
    rw [verdict_concat, List.append_nil, ← code]
  · rw [Dialogue.spawned_append, Dialogue.joined_append, recalls.children]
    show _ ++ [] = List.map Prod.fst (_ ++ [(child, result)]) ++ ([] ++ actor.children)
    simp

/-- What an instance is told becomes part of what it remembers. -/
theorem Recalls.absorbs {table : InstanceTable} {errand : Errand} {request : Request}
    {reading : List Bytes} {joining : List InstanceId} {value : Value}
    (recalls : Recalls expected dialogue reading joining actor)
    (pursues : Pursues errand request reading joining)
    (answered : request.Answered table (.ok value)) :
    Recalls expected (dialogue ++ [(request, .ok value)]) [] [] (actor.absorb errand value) := by
  cases pursues with
  | create | send | close =>
    cases answered with
    | _ => exact recalls.silent rfl rfl rfl rfl rfl rfl
  | spawn plan argv endpoints =>
    cases answered with
    | spawn _ _ _ child => exact recalls.founds plan argv endpoints child
  | receive endpoint bytes =>
    cases answered with
    | readExact _ _ received => exact recalls.receives endpoint bytes.length received
  | join child =>
    cases answered with
    | @join _ result exited => exact recalls.awaits result

end Actor

namespace Workload

open Actor

variable {σ : Type} {workload : Workload} {load : Descriptor → Except CallError Workload}

/-- An instance that has not failed remembers what its diary says. -/
def Remembers (workload : Workload) (diary : Diary (Except String Actor)) : Prop :=
  ∀ actor, diary.state = .ok actor → ∃ index held reading joining,
    Arguments.read diary.invocation.argv = .ok (index, held) ∧
      Recalls (workload.inbox index) diary.dialogue reading joining actor ∧
      match diary.asked with
      | none => reading = [] ∧ joining = []
      | some request => ∃ errand, actor.errand = some errand ∧
          Pursues errand request reading joining

/-- What a memoir says about the exit code of its instance. -/
structure Testifies (workload : Workload) (memoir : Memoir) (code : Int8) : Prop where
  whole : ∃ index held, Arguments.read memoir.invocation.argv = .ok (index, held) ∧
    memoir.dialogue.received.length = (workload.inbox index).length ∧
    code = verdict (memoir.dialogue.received = workload.inbox index)
      (memoir.dialogue.joined.map Prod.snd)
  joins : memoir.dialogue.spawned = memoir.dialogue.joined.map Prod.fst

/-- Once an instance has heard how its call has ended, it fails or chooses by what it remembers. -/
theorem Remembers.hears {table : InstanceTable} {diary : Diary (Except String Actor)}
    (remembers : workload.Remembers diary) {actor : Actor} (alive : diary.state = .ok actor)
    {notice : Notice} (expects : diary.Expects notice)
    (answered : ∀ exchange ∈ (diary.hear notice).dialogue,
      exchange.1.Answered table exchange.2) :
    (∃ message, actor.next notice = .error message) ∨ ∃ choosing index held,
      actor.next notice = choosing.choose ∧
      Arguments.read diary.invocation.argv = .ok (index, held) ∧
      Recalls (workload.inbox index) (diary.hear notice).dialogue [] [] choosing := by
  obtain ⟨index, held, reading, joining, named, recalls, waits⟩ := remembers actor alive
  cases asked : diary.asked with
  | none =>
    rw [asked] at waits
    obtain ⟨rfl, rfl⟩ := waits
    rw [Diary.hear_of_idle asked]
    cases notice with
    | reply reply => exact absurd asked expects
    | go | view =>
      refine .inr ⟨actor, index, held, ?_, named, recalls⟩
      unfold Actor.next
      cases actor.errand <;> rfl
  | some request =>
    rw [asked] at waits
    obtain ⟨errand, own, pursues⟩ := waits
    cases notice with
    | go | view => simp [Diary.Expects, asked] at expects
    | reply reply =>
      cases reply with
      | error error => exact .inl ⟨error.faultMessage, by simp [Actor.next, own]⟩
      | ok value =>
        simp only [Diary.hear, asked] at answered ⊢
        refine .inr ⟨actor.absorb errand value, index, held, by simp [Actor.next, own], named, ?_⟩
        exact recalls.absorbs pursues (answered (request, .ok value) (by simp))

/-- An instance of a workload fails, or it acts as its part tells. -/
theorem behaviour_case {state next : Except String Actor} {shared later : σ} {notice : Notice}
    {action : Action} (chosen : (behaviour σ).next state shared notice = (action, next, later)) :
    (∃ message, action = .fault message ∧ next = .error message) ∨
      ∃ before after, state = .ok before ∧ before.next notice = .ok (action, after) ∧
        next = .ok after := by
  -- What fails is a fault, from then on as well.
  simp only [behaviour] at chosen
  split at chosen
  · rename_i action after stepped
    obtain ⟨rfl, rfl, rfl⟩ : action = _ ∧ Except.ok after = next ∧ shared = later := by
      simpa using chosen
    cases state with
    | error message => simp [Except.bind] at stepped
    | ok before => exact .inr ⟨before, after, rfl, stepped, rfl⟩
  · rename_i message failed
    obtain ⟨rfl, rfl, rfl⟩ : _ = action ∧ Except.error message = next ∧ shared = later := by
      simpa using chosen
    exact .inl ⟨message, rfl, rfl⟩

/-- What an instance does next, by what it remembers. -/
theorem Remembers.next {table : InstanceTable} {diary : Diary (Except String Actor)}
    (remembers : workload.Remembers diary) {notice : Notice} (expects : diary.Expects notice)
    (answered : ∀ exchange ∈ (diary.hear notice).dialogue,
      exchange.1.Answered table exchange.2) (shared : σ × List Memoir) :
    workload.Remembers ((behaviour σ).recorded.next diary shared notice).2.1 ∧
    ∀ memoir code, memoir.result = .ok code →
      (diary.hear notice).memoir? ((behaviour σ).next diary.state shared.1 notice).1 = some memoir →
        workload.Testifies memoir code := by
  -- The diary records the same action that the plain behaviour chooses.
  generalize chosen : (behaviour σ).recorded.next diary shared notice = result
  obtain ⟨action, next, later⟩ := result
  have goes := Behaviour.recorded_goes chosen
  rw [goes.chosen]
  rcases behaviour_case goes.chosen with
    ⟨message, rfl, failed⟩ | ⟨before, after, alive, stepped, goesOn⟩
  · constructor
    · intro actor state
      simp [failed] at state
    · intro memoir code result left
      obtain rfl : (⟨_, _, .error message⟩ : Memoir) = memoir := Option.some.inj left
      simp at result
  · rcases remembers.hears alive expects answered with
      ⟨message, fails⟩ | ⟨choosing, index, held, chooses, named, recalls⟩
    · simp [fails] at stepped
    · rw [chooses] at stepped
      rcases recalls.chooses (chooses_of_choose stepped) with
        ⟨request, errand, reading, joining, rfl, own, pursues, recallsToo⟩ |
          ⟨rfl, rfl, many, joins⟩
      · constructor
        · intro actor state
          obtain rfl := Except.ok.inj (goesOn.symm.trans state)
          refine ⟨index, held, reading, joining, by rw [goes.invocation]; exact named, ?_, ?_⟩
          · rw [goes.dialogue]
            exact recallsToo
          · rw [goes.asked]
            exact ⟨errand, own, pursues⟩
        · intro memoir code result left
          simp [Diary.memoir?, Action.result?] at left
      · constructor
        · intro actor state
          obtain rfl := Except.ok.inj (goesOn.symm.trans state)
          refine ⟨index, held, [], [], by rw [goes.invocation]; exact named, ?_, ?_⟩
          · rw [goes.dialogue]
            exact recalls
          · rw [goes.asked]
            exact ⟨rfl, rfl⟩
        · intro memoir code result left
          obtain rfl : (⟨_, _, .ok _⟩ : Memoir) = memoir := Option.some.inj left
          obtain rfl := Except.ok.inj result
          refine ⟨⟨index, held, ?_, many, rfl⟩, joins⟩
          show Arguments.read (diary.hear notice).invocation.argv = _
          rw [Diary.invocation_hear]
          exact named

/-- Whatever the diary of an instance of a workload says, if it was told the truth, the instance
remembers. -/
theorem remembers_of_kept {table : InstanceTable} {diary : Diary (Except String Actor)}
    (only : ∀ descriptor program, load descriptor = .ok program → program = workload)
    (kept : diary.Kept (behaviour σ) load)
    (answered : ∀ exchange ∈ diary.dialogue, exchange.1.Answered table exchange.2) :
    workload.Remembers diary := by
  -- What was heard before was no less true than what was heard last.
  induction kept with
  | @begins descriptor program loaded invocation =>
    obtain rfl := only descriptor program loaded
    intro actor state
    replace state : Actor.start program invocation.argv = .ok actor := state
    unfold Actor.start at state
    cases named : Arguments.read invocation.argv with
    | error message => simp [named, bind, Except.bind] at state
    | ok parts =>
      obtain ⟨index, held⟩ := parts
      rw [named] at state
      obtain rfl := Except.ok.inj state
      refine ⟨index, held, [], [], named, ⟨⟨[], ?_, rfl, rfl⟩, fun _ => ?_, rfl⟩, rfl, rfl⟩
      · exact (program.expected_transfersOf index).symm
      · simp_all [Behaviour.recorded, Dialogue.joined]
  | @further diary notice kept expects shared ih =>
    have before := ih fun exchange there => answered exchange (diary.mem_hear there notice)
    exact (before.next expects answered shared).1

/-- Whatever the memoir of an instance of a workload says, if it was told the truth, it testifies
to its exit code. -/
theorem testifies_of_kept {table : InstanceTable} {memoir : Memoir} {code : Int8}
    (only : ∀ descriptor program, load descriptor = .ok program → program = workload)
    (kept : memoir.Kept (behaviour σ) load)
    (answered : ∀ exchange ∈ memoir.dialogue, exchange.1.Answered table exchange.2)
    (result : memoir.result = .ok code) : workload.Testifies memoir code := by
  -- A memoir is the diary of the last choice, once the last answer is heard.
  obtain ⟨diary, notice, shared, kept, expects, left⟩ := kept
  have heard : memoir.dialogue = (diary.hear notice).dialogue := by
    obtain ⟨_, -, rfl⟩ := Option.map_eq_some_iff.mp left
    rfl
  rw [heard] at answered
  have remembers := remembers_of_kept only kept fun exchange there =>
    answered exchange (diary.mem_hear there notice)
  exact (remembers.next expects answered shared).2 memoir code result left

end Workload

end Progeny
