import LawyerAssistance.AiRuns.Worker
import LawyerAssistance.Std.Machine

/-!
# The assistant as a machine

A world is the store, the workers of the running process, the deletions which have read
their run but did not delete it yet, and a record of the messages which were dispatched and
of the turns which became histories. An event is one operation of the user, one step of a
worker, or a crash with the recovery of the next start. It carries the answers of the
services, and the storage may stop accepting transactions within it.
-/

namespace LawyerAssistance.AiRuns

open Storage

/-- What happens. The identifiers which the service draws are part of an event. -/
inductive Label where
  | createConversation (id : String) (title : Option String)
  | migrateLegacy (id title : String) (messages : List (String × String))
      (materialIds : List String)
  | rename (id title : String)
  | start (runId : String) (request : AiRunRequest)
  | cancel (id : String)
  | readForDeletion (id : String)
  | commitDeletion (id : String)
  | continueRun (runId id : String)
  | edit (runId id content : String) (expectedRevision : Nat) (caseDate : AiCaseDateUpdate)
  | replace (id : String) (expectedRevision : Nat) (materials : List AiMaterialReference)
      (attachmentIds : List String) (ranges : List AiContextRangeSelection)
  | work (runId : String)
  | panic (runId error : String)
  | restart

/-- One event. `allowed` is the number of transactions which the storage still accepts. -/
structure Event where
  label : Label
  services : Services
  now : Nat
  allowed : Option Nat

/-- The store, the workers, and the record of what they sent. -/
structure World where
  store : Store
  workers : Table Worker
  deleting : List String
  dispatches : List (String × List Json)
  histories : List (String × String × List String)

namespace World

/-- A new workspace. -/
def initial : World := ⟨Store.empty, ∅, [], [], []⟩

/-- The effect of a signal. -/
def signal (world : World) : Signal → World
  | .cancelToken runId =>
      match world.workers.get runId with
      | none => world
      | some worker =>
          { world with workers := world.workers.put runId { worker with cancelled := true } }
  | .dispatch runId messages =>
      { world with dispatches := (runId, messages) :: world.dispatches }
  | .history runId conversationId turns =>
      { world with histories := (runId, conversationId, turns) :: world.histories }

/-- Execute a program behind an event. -/
def outcome {α : Type} (world : World) (event : Event) (op : Op α) :
    Program.Outcome Store Signal String α :=
  op.run Store.apply "storage_unavailable" world.store event.allowed

/-- The world which a program leaves. -/
def after {α : Type} (world : World) (result : Program.Outcome Store Signal String α) : World :=
  result.signals.foldl signal { world with store := result.state }

/-- The world after an operation. -/
def act {α : Type} (world : World) (event : Event) (op : Op α) : World :=
  world.after (world.outcome event op)

/-- The world after an operation which gives a run to a worker. -/
def spawn (world : World) (event : Event) (op : Op AiRun) : World :=
  let next := world.act event op
  match (world.outcome event op).result with
  | .error _ => next
  | .ok run => { next with workers := next.workers.put run.id (Worker.spawned run) }

/-- Put a worker back, unless it has ended. -/
def setWorker (world : World) (runId : String) (worker : Worker) : World :=
  match worker.phase with
  | .ended => { world with workers := world.workers.remove runId }
  | _ => { world with workers := world.workers.put runId worker }

end World

/-- An error ends the work on a run; an error of recording it is ignored. -/
def Worker.fail (worker : Worker) (error : String) : Worker :=
  match worker.phase with
  | .failing _ => { worker with phase := .ended }
  | _ => { worker with phase := .failing error }

/-- What a worker is after a step. -/
def Worker.after (worker : Worker) : Except String Worker → Worker
  | .ok next => next
  | .error error => worker.fail error

/-- A run identifier under which nothing was ever stored. -/
def Store.unwritten (store : Store) (runId : String) : Bool :=
  store.written.all fun row => row.id ≠ runId

/-- An event can happen when the identifiers which it draws are new, and what it continues is
there. -/
def Label.enabled (world : World) : Label → Bool
  | .createConversation id _ => id ≠ "" && (world.store.conversations.get id).isNone
  | .migrateLegacy id .. => id ≠ ""
  | .start runId _ | .continueRun runId _ | .edit runId .. => world.store.unwritten runId
  | .commitDeletion id => world.deleting.contains id
  | .work runId | .panic runId _ => (world.workers.get runId).isSome
  | _ => true

/-- The world after an event which is enabled. -/
def World.next (world : World) (event : Event) : World :=
  match event.label with
  | .createConversation id title =>
      world.act event (createAiConversation event.services event.now id title)
  | .migrateLegacy id title messages materialIds =>
      world.act event
        (migrateLegacyConversation event.services event.now id title messages materialIds)
  | .rename id title => world.act event (renameAiConversation event.services event.now id title)
  | .start runId request =>
      world.spawn event (startAiRun event.services event.now runId request)
  | .cancel id => world.act event (cancelAiRun event.services event.now id)
  | .readForDeletion id =>
      match (world.outcome event (readForDeletion event.services id)).result with
      | .error _ => world
      | .ok _ => { world with deleting := id :: world.deleting }
  | .commitDeletion id =>
      { world.act event (commitDeletion id) with deleting := world.deleting.erase id }
  | .continueRun runId id =>
      world.spawn event (continueAiRun event.services event.now runId id)
  | .edit runId id content expectedRevision caseDate =>
      world.act event
        (editAiDocument event.services event.now runId id content expectedRevision caseDate)
  | .replace id expectedRevision materials attachmentIds ranges =>
      world.act event (replaceAiConversationContext event.services event.now id expectedRevision
        materials attachmentIds ranges)
  | .work runId =>
      match world.workers.get runId with
      | none => world
      | some worker =>
          let step := worker.step event.services event.now
          (world.act event step).setWorker runId (worker.after (world.outcome event step).result)
  | .panic runId error =>
      match world.workers.get runId with
      | none => world
      | some worker => world.setWorker runId { worker with phase := .failing error }
  | .restart =>
      { world with workers := ∅, deleting := [] }.act event (recoverAiRuns event.services)

/-- The machine of the assistant. -/
def assistant : Machine World Event where
  step world event := if event.label.enabled world then some (world.next event) else none

/-- Services which refuse nothing, and a model which always gives one answer. -/
def Services.accepting (reply : Json) : Services where
  gate := .ok ()
  reads _ _ := .ok ()
  encodes _ := .ok ()
  validateSearchOptions _ := .ok ()
  reserve := .ok ()
  selectedAiModel _ := .ok ⟨"provider", "model"⟩
  opens _ _ := .ok ()
  maybeSummary _ _ := .ok true
  inspection _ := .error "context_scope_invalid"
  contextPlanFromMetadata _ _ _ := .ok ⟨"plan", "prepared", none, none, none, [], []⟩
  contextPreparationHash _ _ _ := .ok "prepared"
  checkMaterialPolicyMetadata _ _ _ := .ok ()
  providerProfileBinding _ := .ok (1, "profile")
  originalMaterialRevisions _ := .ok []
  chatCancellations := .ok ()
  validateRunBindings _ := .ok ()
  activate := .ok ()
  gather _ := .ok ⟨[], "", 1000⟩
  estimateTextTokens _ := 1
  reserveHistory _ := .ok ()
  applyActualContextScope plan := .ok plan
  dispatchBudgetForRun _ := .ok ()
  authorize := .ok ()
  complete := .ok ⟨reply, .null⟩
  fromStr _ := some (.object [])
  executeLegalTool _ _ := .ok (.object [])
  finalizeAiAnswer _ text := .ok ⟨"title", text, text, [], none⟩
  renderedHtml text := text
  isIsoCalendarDate _ := true
  staleForRun _ _ := .null
  addUsage total _ := total

/-- An event under services which refuse nothing. -/
def Label.accepted (label : Label) (reply : Json) : Event :=
  ⟨label, Services.accepting reply, 0, none⟩

end LawyerAssistance.AiRuns
