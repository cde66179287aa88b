import LawyerAssistance.Std.Machine
import LawyerAssistance.Workspace.Lawful
import LawyerAssistance.Workspace.Worker

/-!
# The service as a machine

A world is the store, the process which runs on it, if one does, and a record of what
happened: the identifiers that were issued, the polls of the cloud transport and the model
requests.
An event is one request behind the gate, one claim or step of a worker, a crash, or a
start of the process with its recovery. The storage may stop accepting transactions
within any event, and a crash between two transactions of a request is such an event
followed by a crash.
-/

namespace LawyerAssistance.Workspace

open PrivacyText

/-- The requests behind the gate, with the identifiers which they draw. -/
inductive Request where
  | createGroup (groupId salt : Id) (name : Text)
  | createClient (clientId : Id) (name : Text) (groupId : Id)
  | revokeClient (clientId : Id)
  | submit (taskId : Id) (materialIds : List Id) (groupId requestId : Id)
      (files : List ImportFile) (clientId : Option Id)
  | replaceMaterial (materialId : Id) (revision : Nat) (file : ImportFile)
  | cancelTask (taskId : Id)
  | retryTask (taskId : Id)
  | review (resultId materialId : Id) (request : ReviewRequest)
  | consent (consentId taskId providerId : Id) (model purpose : String)
      (apiKey : Except Error Unit)
  | revokeConsent (taskId : Id)
  | setDictionary (groupId : Id) (entries : List DictionaryEntry)
  | revokeMaterial (materialId : Id)
  | saveProvider (config : ProviderConfig) (prepared : Except Error Unit)

/-- The identifiers which a request draws. -/
def Request.fresh : Request → List Id
  | .createGroup groupId salt _ => [groupId, salt]
  | .createClient clientId _ _ => [clientId]
  | .submit taskId materialIds .. => taskId :: materialIds
  | .review resultId .. => [resultId]
  | .consent consentId .. => [consentId]
  | _ => []

/-- The program of a request. -/
def Request.op (services : Services) (now : Nat) : Request → Op Unit
  | .createGroup groupId salt name => Workspace.createGroup groupId salt name
  | .createClient clientId name groupId => Workspace.createClient clientId name groupId
  | .revokeClient clientId => Workspace.revokeClient clientId
  | .submit taskId materialIds groupId requestId files clientId =>
      Workspace.submit services now groupId requestId files clientId taskId materialIds
  | .replaceMaterial materialId revision file =>
      Workspace.replaceMaterial services materialId revision file
  | .cancelTask taskId => Workspace.cancelTask taskId
  | .retryTask taskId => Workspace.retryTask now taskId
  | .review resultId materialId request =>
      Workspace.review services now resultId materialId request
  | .consent consentId taskId providerId model purpose apiKey =>
      Workspace.consent services now consentId taskId providerId model purpose apiKey
  | .revokeConsent taskId => Workspace.revokeConsent taskId
  | .setDictionary groupId entries => updateDictionaryLocked services groupId entries
  | .revokeMaterial materialId => Workspace.revokeMaterial materialId
  | .saveProvider config prepared => Workspace.saveProvider config prepared

/-- The volatile state of a running process: the cancellation token of every task, the
tokens which are cancelled, and the workers. -/
structure Process where
  cancellations : Table Nat
  cancelled : List Nat
  nextToken : Nat
  workers : Nat → Worker

/-- A process which has just started. -/
def Process.start : Process := ⟨∅, [], 0, fun _ => .idle⟩

/-- The effect of a signal on the tokens. -/
def Process.signal (process : Process) : Signal → Process
  | .cancelTask taskId =>
      match process.cancellations.get taskId with
      | some token => { process with cancelled := token :: process.cancelled }
      | none => process
  | .cancelAll =>
      { process with
        cancelled := process.cancellations.rows.map Prod.snd ++ process.cancelled }
  | .cloudPoll .. | .modelRequest .. => process

/-- Give one worker its next state. -/
def Process.setWorker (process : Process) (index : Nat) (worker : Worker) : Process :=
  { process with workers := Function.update process.workers index worker }

/-- The token of a worker is cancelled. -/
def Process.workerCancelled (process : Process) (worker : Worker) : Bool :=
  match worker.token with
  | some token => process.cancelled.contains token
  | none => false

/-- The store, the process on it, and the record of what happened. -/
structure World where
  store : Store
  live : Option Process
  issued : List Id
  polls : List CloudPoll
  modelRequests : List (Id × Nat)

/-- A new workspace, before its first start. -/
def World.initial : World := ⟨Store.empty, none, [], [], []⟩

/-- The record of a signal. -/
def World.log (world : World) : Signal → World
  | .cloudPoll poll => { world with polls := poll :: world.polls }
  | .modelRequest materialId revision =>
      { world with modelRequests := (materialId, revision) :: world.modelRequests }
  | .cancelTask _ | .cancelAll => world

/-- What happens to the service. `allowed` is the number of transactions which the storage
still accepts within the event. -/
inductive Event where
  | request (now : Nat) (request : Request) (allowed : Option Nat)
  | claim (worker : Nat) (materialId : Id) (allowed : Option Nat)
  | work (worker : Nat) (now : Nat) (resultId : Id) (answer : Answer) (allowed : Option Nat)
  | crash
  | start (now : Nat) (running : List Id) (allowed : Option Nat)

/-- An event which a user or a client asks for. -/
def Event.isRequest : Event → Prop
  | .request .. => True
  | .claim .. | .work .. | .crash | .start .. => False

/-- The identifiers which an event draws. -/
def Event.fresh : Event → List Id
  | .request _ asked _ => asked.fresh
  | .work _ _ resultId _ _ => [resultId]
  | .claim .. | .crash | .start .. => []

/-- The identifiers of an event are new and different from each other. -/
def Event.drawsFresh (event : Event) (world : World) : Prop :=
  event.fresh.Nodup ∧ ∀ id ∈ event.fresh, id ∉ world.issued

instance (event : Event) (world : World) : Decidable (event.drawsFresh world) :=
  inferInstanceAs (Decidable (_ ∧ _))

/-- The identifiers of the running materials, in the order of the keys. -/
def runningIds (store : Store) : List Id :=
  (store.materials.rows.filter fun row => row.2.status == .running).map Prod.fst

/-- The answer of a storage which accepts no transaction. -/
def storageFailed : Error := .new "storage_failed"

/-- Execute a program on the store. -/
def Op.execute {α : Type} (op : Op α) (store : Store) (allowed : Option Nat) :
    Program.Outcome Store Signal Error α :=
  op.run Store.putMany storageFailed store allowed

section Execute

variable {α β : Type} {store : Store} {allowed : Option Nat}

@[simp] theorem Op.execute_current (next : Store → Op α) :
    Op.execute (Program.current >>= next) store allowed = (next store).execute store allowed := rfl

/-- A computation which touches nothing either fails or hands over its value. -/
@[simp] theorem Op.execute_lift (value : Except Error β) (next : β → Op α) :
    Op.execute (Program.lift value >>= next) store allowed =
      match value with
      | .ok result => (next result).execute store allowed
      | .error error => ⟨store, [], .error error⟩ := by
  cases value <;> rfl

@[simp] theorem Op.execute_refuse (condition : Prop) [Decidable condition] (error : Error)
    (next : Unit → Op α) :
    Op.execute (Program.refuse condition error >>= next) store allowed =
      if condition then ⟨store, [], .error error⟩ else (next ()).execute store allowed := by
  rw [Program.refuse, Op.execute_lift]
  by_cases holds : condition <;> simp [refuseIf, holds]

end Execute

/-- A world after a program of its process: the store which is left, the signals in the
tokens and in the record, and the worker which took the step. -/
def World.after {α : Type} (world : World) (process : Process) (fresh : List Id)
    (outcome : Program.Outcome Store Signal Error α) : World :=
  let logged := outcome.signals.foldl World.log world
  { logged with
    store := outcome.state
    live := some (outcome.signals.foldl Process.signal process)
    issued := fresh ++ world.issued }

/-- The process after a claim: the attempt gets a new token, which becomes the token of
the task. -/
def Process.claimed (process : Process) (index : Nat) (m : Material) (g : Group) : Process :=
  { (process.setWorker index (.working ⟨m, g, process.nextToken⟩ .selecting)) with
    cancellations := process.cancellations.put m.taskId process.nextToken
    nextToken := process.nextToken + 1 }

/-- The process after the claim attempt of a worker. -/
def Process.afterClaim (process : Process) (index : Nat) :
    Except Error (Option (Material × Group)) → Process
  | .ok (some (m, g)) => process.claimed index m g
  | .ok none | .error _ => process

/-- The worker after a step. -/
def Worker.next (worker : Worker) : Except Error Worker → Worker
  | .ok next => next
  | .error error => worker.failed error

/-- Execute one event. -/
def step (services : Services) (pool : Nat) (world : World) (event : Event) : Option World :=
  if event.drawsFresh world then
    match world.live, event with
    | some process, .request now request allowed =>
        some (world.after process request.fresh
          ((request.op services now).execute world.store allowed))
    | some process, .claim index materialId allowed =>
        if index < pool ∧ process.workers index = .idle then
          let outcome := (claimNext materialId).execute world.store allowed
          some (world.after (process.afterClaim index outcome.result) [] outcome)
        else
          none
    | some process, .work index now resultId answer allowed =>
        let worker := process.workers index
        match worker.step services now resultId (process.workerCancelled worker) answer with
        | none => none
        | some op =>
            let outcome := op.execute world.store allowed
            some (world.after (process.setWorker index (worker.next outcome.result)) [resultId]
              outcome)
    | some _, .crash => some { world with live := none }
    | none, .start now running allowed =>
        if running.Perm (runningIds world.store) then
          let outcome := (recovery now running).execute world.store allowed
          some { world with
            store := outcome.state
            live := match outcome.result with
              | .ok () => some .start
              | .error _ => none }
        else
          none
    | _, _ => none
  else
    none

theorem Process.setWorker_workers (process : Process) (index other : Nat) (worker : Worker) :
    (process.setWorker index worker).workers other =
      if other = index then worker else process.workers other := by
  simp [setWorker, Function.update_apply]

@[simp] theorem Process.signal_workers (process : Process) (signal : Signal) :
    (process.signal signal).workers = process.workers := by
  cases signal <;> simp only [Process.signal]
  split <;> rfl

@[simp] theorem Process.signals_workers (process : Process) (signals : List Signal) :
    (signals.foldl Process.signal process).workers = process.workers := by
  induction signals generalizing process with
  | nil => rfl
  | cons signal rest inductionHypothesis =>
      rw [List.foldl_cons, inductionHypothesis, signal_workers]

/-- The events of a world, one constructor for each way in which it can go on. -/
inductive Stepped (services : Services) (pool : Nat) (world : World) : Event → World → Prop where
  | request {process : Process} {now : Nat} {request : Request} {allowed : Option Nat}
      (live : world.live = some process) :
      Stepped services pool world (.request now request allowed)
        (world.after process request.fresh
          ((request.op services now).execute world.store allowed))
  | claim {process : Process} {index : Nat} {materialId : Id} {allowed : Option Nat}
      {outcome : Program.Outcome Store Signal Error (Option (Material × Group))}
      (live : world.live = some process) (inPool : index < pool)
      (idle : process.workers index = .idle)
      (executed : (claimNext materialId).execute world.store allowed = outcome) :
      Stepped services pool world (.claim index materialId allowed)
        (world.after (process.afterClaim index outcome.result) [] outcome)
  | work {process : Process} {index now : Nat} {resultId : Id} {answer : Answer}
      {allowed : Option Nat} {op : Op Worker}
      {outcome : Program.Outcome Store Signal Error Worker}
      (live : world.live = some process)
      (enabled : (process.workers index).step services now resultId
        (process.workerCancelled (process.workers index)) answer = some op)
      (executed : op.execute world.store allowed = outcome) :
      Stepped services pool world (.work index now resultId answer allowed)
        (world.after (process.setWorker index ((process.workers index).next outcome.result))
          [resultId] outcome)
  | crash {process : Process} (live : world.live = some process) :
      Stepped services pool world .crash { world with live := none }
  | start {now : Nat} {running : List Id} {allowed : Option Nat}
      {outcome : Program.Outcome Store Signal Error Unit} (stopped : world.live = none)
      (listed : running.Perm (runningIds world.store))
      (executed : (recovery now running).execute world.store allowed = outcome) :
      Stepped services pool world (.start now running allowed)
        { world with
          store := outcome.state
          live := match outcome.result with
            | .ok () => some .start
            | .error _ => none }

theorem eq_start_of_live {result : Except Error Unit} {process : Process}
    (live : (match result with
      | .ok () => some Process.start
      | .error _ => none) = some process) : process = .start := by
  cases result with
  | error error => cases live
  | ok value => exact (Option.some.inj live).symm

/-- Every enabled event draws fresh identifiers and is one of these. -/
theorem stepped_of_step {services : Services} {pool : Nat} {world next : World} {event : Event}
    (taken : step services pool world event = some next) :
    event.drawsFresh world ∧ Stepped services pool world event next := by
  unfold step at taken
  split at taken
  case isFalse => cases taken
  case isTrue fresh =>
    refine ⟨fresh, ?_⟩
    split at taken
    · cases taken
      exact .request ‹_›
    · split at taken
      · rename_i enabled
        cases taken
        exact .claim ‹_› enabled.1 enabled.2 rfl
      · cases taken
    · simp only at taken
      split at taken
      · cases taken
      · cases taken
        exact .work ‹_› ‹_› rfl
    · cases taken
      exact .crash ‹_›
    · split at taken
      · cases taken
        exact .start ‹_› ‹_› rfl
      · cases taken
    · cases taken

/-- The service with a pool of workers. -/
def machine (services : Services) (pool : Nat) : Machine World Event where
  step := step services pool

end LawyerAssistance.Workspace
