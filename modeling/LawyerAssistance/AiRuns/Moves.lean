import Mathlib.Logic.Relation
import LawyerAssistance.AiRuns.System

/-!
# What one write does to the store

`Move` lists what a row which an operation writes can do: create a run, update one which is
active, create a conversation, keep the context of one or replace it; and a run which is not
active may be deleted. Every operation evolves the store by moves, so that a property of all
runs of the assistant looks at these moves instead of at every operation.
-/

namespace LawyerAssistance.AiRuns

open Storage

/-! ## Rows of one run -/

/-- What all rows of one run have in common. -/
structure Origin where
  id : String
  kind : String
  request : AiRunRequest
  contextManifest : Option AiContextManifest

/-- The origin of a row. -/
def AiRun.origin (run : AiRun) : Origin := ⟨run.id, run.kind, run.request, run.contextManifest⟩

/-- A row of the origin of a run was written. -/
def Store.Known (store : Store) (run : AiRun) : Prop :=
  ∃ row ∈ store.written, row.origin = run.origin

/-- A run was written, and is not active any more. -/
def Store.Ended (store : Store) (id : String) : Prop :=
  (∃ row ∈ store.written, row.id = id) ∧
    ∀ run, store.runs.get id = some run → run.isActive = false

/-! ## Moves -/

/-- What is asked beyond the checks of the operations. -/
structure Rules where
  /-- When a run which is no chat may be created in a conversation. -/
  admits : Store → String → Prop
  /-- The messages which a worker may save. -/
  legal : List Json → Prop
  /-- The runs which may be deleted. -/
  deletes : String → Prop
  /-- The conversations whose context may be replaced. -/
  replaces : String → Prop

/-- Nothing more is asked. -/
def Rules.any : Rules := ⟨fun _ _ => True, fun _ => True, fun _ => True, fun _ => True⟩

/-- A message of a conversation which a run adds: its prompt while it is active, or its answer. -/
inductive Recorded (store : Store) (conversationId : String) (message : ConversationMessage) :
    Prop where
  | prompt {run : AiRun} (role : message.role = "user") (found : store.runs.get run.id = some run)
      (active : run.isActive = true) (asks : run.request.conversationId = some conversationId)
      (named : message.runId = some run.id)
      (manifest : message.contextManifest = run.contextManifest) :
      Recorded store conversationId message
  | answer {run : AiRun} (role : message.role = "assistant") (member : run ∈ store.written)
      (asks : run.request.conversationId = some conversationId) (named : message.runId = some run.id)
      (manifest : message.contextManifest = run.contextManifest) :
      Recorded store conversationId message

/-- How a run is created. -/
inductive Created (rules : Rules) (store : Store) (run : AiRun) : Prop where
  /-- A chat takes the context of its conversation, which is idle. -/
  | chat {conversationId : String} {conversation : AiConversation} (kind : run.kind = "chat")
      (asks : run.request.conversationId = some conversationId)
      (found : store.conversations.get conversationId = some conversation)
      (known : conversation.contextKnown = true)
      (manifest : run.contextManifest = some (contextManifest conversation))
      (materials : run.request.materials = conversation.materials)
      (attachments : run.request.attachmentIds = conversation.attachmentIds)
      (idle : store.anyActiveRelation ("conversation", conversationId) = false)
      (messages : run.messages = []) : Created rules store run
  /-- A search or a document has no context of a conversation. -/
  | plain (kind : run.kind ≠ "chat") (manifest : run.contextManifest = none)
      (messages : run.messages = [])
      (admitted : ∀ conversationId, run.request.conversationId = some conversationId →
        rules.admits store conversationId) : Created rules store run
  /-- A copy of another run is resumed outside of conversations, or is an edited document. -/
  | copied {id : String} {old : AiRun} (found : store.runs.get id = some old)
      (kind : run.kind = old.kind)
      (asks : run.request.conversationId = old.request.conversationId)
      (manifest : run.contextManifest = old.contextManifest)
      (messages : run.messages = old.messages)
      (apart : run.isActive = false ∧ run.kind ≠ "chat" ∨ run.request.conversationId = none) :
      Created rules store run

/-- What one row which is written does. -/
inductive Change (rules : Rules) (store : Store) : Row → Prop where
  | createRun {run : AiRun} (fresh : store.unwritten run.id = true)
      (created : Created rules store run) : Change rules store (.run run)
  | updateRun {old run : AiRun} (found : store.runs.get run.id = some old)
      (active : old.isActive = true) (origin : old.origin = run.origin)
      (messages : run.messages = old.messages ∨ rules.legal run.messages) :
      Change rules store (.run run)
  | createConversation {conversation : AiConversation}
      (absent : store.conversations.get conversation.id = none) (named : conversation.id ≠ "")
      (noRuns : ∀ message ∈ conversation.messages, message.runId = none)
      (context : conversation.contextKnown = false ∨
        conversation.materials = [] ∧ conversation.attachmentIds = [] ∧
          conversation.contextRanges = []) :
      Change rules store (.conversation conversation)
  | keepContext {old conversation : AiConversation}
      (found : store.conversations.get conversation.id = some old)
      (context : conversation.materials = old.materials ∧
        conversation.attachmentIds = old.attachmentIds ∧
        conversation.contextRanges = old.contextRanges ∧
        conversation.contextKnown = old.contextKnown)
      (messages : conversation.messages = old.messages ∨
        ∃ message, conversation.messages = old.messages ++ [message] ∧
          Recorded store conversation.id message) :
      Change rules store (.conversation conversation)
  | replaceContext {old conversation : AiConversation}
      (allowed : rules.replaces conversation.id)
      (found : store.conversations.get conversation.id = some old)
      (known : conversation.contextKnown = true) (messages : conversation.messages = old.messages)
      (shaped : (contextManifest conversation).Shaped)
      (released : ∀ {id run}, store.runs.get id = some run → run.isActive = true →
        (run.relations.any (deselectedRelations (contextManifest old)
          (contextManifest conversation)).contains) = true →
        runUsesDeselectedContext run conversation.id (contextManifest conversation) = false) :
      Change rules store (.conversation conversation)

/-- One row which is written, or one run which is deleted. -/
inductive Move (rules : Rules) (store : Store) : Store → Prop where
  | write {row : Row} (change : Change rules store row) : Move rules store (store.putRow row)
  | delete {id : String} (allowed : rules.deletes id)
      (ended : ∀ run, store.runs.get id = some run → run.isActive = false) :
      Move rules store { store with runs := store.runs.remove id }

/-- Any number of moves. -/
abbrev Evolves (rules : Rules) : Store → Store → Prop := Relation.ReflTransGen (Move rules)

/-- A transaction which is made of moves. -/
def Lawful (rules : Rules) (store : Store) (batch : Batch) : Prop :=
  Evolves rules store (store.apply batch)

variable {rules : Rules} {store next : Store}

theorem Lawful.single {row : Row} (change : Change rules store row) :
    Lawful rules store (.put [row]) :=
  Relation.ReflTransGen.single (Move.write change)

theorem Evolves.invariant (invariant : Store → Prop)
    (moved : ∀ {store next}, invariant store → Move rules store next → invariant next)
    (holds : invariant store) (evolves : Evolves rules store next) : invariant next := by
  induction evolves with
  | refl => exact holds
  | tail _ move inductionHypothesis => exact moved inductionHypothesis move

/-! ## Rows which are written -/

@[simp] theorem putRow_run_runs (run : AiRun) :
    (store.putRow (.run run)).runs = store.runs.put run.id run := rfl

@[simp] theorem putRow_run_written (run : AiRun) :
    (store.putRow (.run run)).written = run :: store.written := rfl

@[simp] theorem putRow_conversation_conversations (conversation : AiConversation) :
    (store.putRow (.conversation conversation)).conversations =
      store.conversations.put conversation.id conversation := rfl

theorem unwritten_iff {runId : String} :
    store.unwritten runId = true ↔ ∀ row ∈ store.written, row.id ≠ runId := by
  simp [Store.unwritten]

/-- The messages of a conversation which is written: it is new and has none of a run, or it has
the messages from before and one more at most. -/
theorem Change.messages {conversation : AiConversation}
    (change : Change rules store (.conversation conversation)) :
    (store.conversations.get conversation.id = none ∧
        ∀ message ∈ conversation.messages, message.runId = none) ∨
      ∃ old, store.conversations.get conversation.id = some old ∧
        (conversation.messages = old.messages ∨ ∃ message,
          conversation.messages = old.messages ++ [message] ∧
            Recorded store conversation.id message) := by
  cases change with
  | createConversation absent named noRuns context => exact .inl ⟨absent, noRuns⟩
  | keepContext found context messages => exact .inr ⟨_, found, messages⟩
  | replaceContext allowed found known messages shaped released => exact .inr ⟨_, found, .inl messages⟩

/-- What was written stays written. -/
theorem Move.written_subset (move : Move rules store next) {row : AiRun}
    (member : row ∈ store.written) : row ∈ next.written := by
  cases move with
  | write change =>
      rename_i written
      cases written with
      | run run => exact List.mem_cons_of_mem _ member
      | conversation conversation => exact member
  | delete allowed ended => exact member

theorem Evolves.written_subset (evolves : Evolves rules store next) {row : AiRun}
    (member : row ∈ store.written) : row ∈ next.written :=
  evolves.invariant (fun now => row ∈ now.written) (fun holds move => move.written_subset holds) member

theorem Store.Known.evolves {run : AiRun} (known : store.Known run)
    (evolves : Evolves rules store next) : next.Known run := by
  obtain ⟨row, member, same⟩ := known
  exact ⟨row, evolves.written_subset member, same⟩

/-- A run which ended is neither written again nor made active. -/
theorem Store.Ended.move {id : String} (ended : store.Ended id) (move : Move rules store next) :
    next.Ended id := by
  obtain ⟨⟨row, member, named⟩, stopped⟩ := ended
  refine ⟨⟨row, move.written_subset member, named⟩, fun run found => ?_⟩
  cases move with
  | delete _ _ =>
      rw [Table.get_remove] at found
      split_ifs at found
      exact stopped run found
  | write change =>
      cases change with
      | @createRun run' fresh created =>
          have other : id ≠ run'.id := fun same => unwritten_iff.mp fresh row member (named.trans same)
          rw [putRow_run_runs, Table.get_put_other _ _ other] at found
          exact stopped run found
      | @updateRun old run' before active origin messages =>
          have other : id ≠ run'.id := by
            rintro rfl
            rw [stopped old before] at active
            cases active
          rw [putRow_run_runs, Table.get_put_other _ _ other] at found
          exact stopped run found
      | createConversation _ _ _ _ => exact stopped run found
      | keepContext _ _ _ => exact stopped run found
      | replaceContext _ _ _ _ _ _ => exact stopped run found

theorem Store.Ended.evolves {id : String} (ended : store.Ended id)
    (evolves : Evolves rules store next) : next.Ended id :=
  evolves.invariant (fun now => now.Ended id) (fun holds move => holds.move move) ended

/-! ## The tables and what was written -/

/-- Rows are stored under their identifiers, and all rows of a run have one origin. -/
structure Store.Sound (store : Store) : Prop where
  keyed : ∀ {id run}, store.runs.get id = some run → run.id = id ∧ run ∈ store.written
  named : ∀ {id conversation}, store.conversations.get id = some conversation →
    conversation.id = id ∧ id ≠ ""
  origins : ∀ {first second}, first ∈ store.written → second ∈ store.written →
    first.id = second.id → first.origin = second.origin

theorem sound_empty : Store.empty.Sound where
  keyed found := nomatch found
  named found := nomatch found
  origins member := nomatch member

/-- A run which is written keeps the tables sound when its rows had its origin before. -/
theorem Store.Sound.putRun (sound : store.Sound) {run : AiRun}
    (same : ∀ row ∈ store.written, row.id = run.id → row.origin = run.origin) :
    (store.putRow (.run run)).Sound where
  keyed := by
    intro id found here
    rw [putRow_run_runs, Table.get_put] at here
    split_ifs at here with key
    · cases here
      exact ⟨key.symm, List.mem_cons_self⟩
    · obtain ⟨keyed, member⟩ := sound.keyed here
      exact ⟨keyed, List.mem_cons_of_mem _ member⟩
  named := sound.named
  origins := by
    intro first second inFirst inSecond ids
    obtain rfl | before := List.mem_cons.mp inFirst
    · obtain rfl | before' := List.mem_cons.mp inSecond
      · rfl
      · exact (same second before' ids.symm).symm
    · obtain rfl | before' := List.mem_cons.mp inSecond
      · exact same first before ids
      · exact sound.origins before before' ids

/-- A conversation which is written keeps the tables sound. -/
theorem Store.Sound.putConversation (sound : store.Sound) {conversation : AiConversation}
    (named : conversation.id ≠ "") : (store.putRow (.conversation conversation)).Sound where
  keyed := sound.keyed
  named := by
    intro id found here
    rw [putRow_conversation_conversations, Table.get_put] at here
    split_ifs at here with key
    · cases here
      exact ⟨key.symm, key ▸ named⟩
    · exact sound.named here
  origins := sound.origins

/-- Every move keeps the tables sound. -/
theorem Store.Sound.move (sound : store.Sound) (move : Move rules store next) : next.Sound := by
  cases move with
  | delete _ _ =>
      refine ⟨fun found => ?_, sound.named, sound.origins⟩
      rw [Table.get_remove] at found
      split_ifs at found
      exact sound.keyed found
  | write change =>
      cases change with
      | createRun fresh created =>
          exact sound.putRun fun row member same => absurd same (unwritten_iff.mp fresh row member)
      | updateRun found active origin messages =>
          refine sound.putRun fun row member same => ?_
          obtain ⟨keyed, stored⟩ := sound.keyed found
          exact (sound.origins member stored (same.trans keyed.symm)).trans origin
      | createConversation absent named noRuns context => exact sound.putConversation named
      | keepContext found context messages =>
          exact sound.putConversation (sound.named found).2
      | replaceContext allowed found known messages shaped released =>
          exact sound.putConversation (sound.named found).2

theorem Store.Sound.evolves (sound : store.Sound) (evolves : Evolves rules store next) :
    next.Sound :=
  evolves.invariant Store.Sound (fun holds move => holds.move move) sound

end LawyerAssistance.AiRuns
