import LawyerAssistance.AiRuns.Removal

/-!
# Calls and answers in what is sent to a model

When the tool calls of every reply have distinct identifiers, the stored messages of a run are
well formed up to answers which are missing at their end, wherever the run was interrupted, and
what a worker sends is well formed. `Worker.Speaks` says for every phase what is missing.
-/

namespace LawyerAssistance.AiRuns

open Storage

/-! ## Replies -/

/-- The tool calls of a reply have distinct texts as identifiers. -/
def ProperCalls (message : Json) : Prop :=
  ∀ calls, (message.field "tool_calls").asArray = some calls →
    ∃ ids : List String, ids.Nodup ∧ calls.map (fun call => call.field "id") = ids.map .string

/-- A reply within an event has proper calls. -/
def Event.Proper (event : Event) : Prop :=
  ∀ completion, event.services.complete = .ok completion → ProperCalls completion.message

theorem callIds_of_map {calls : List Json} {ids : List String}
    (same : calls.map (fun call => call.field "id") = ids.map .string) : callIds calls = ids := by
  have mapped : callIds calls = (calls.map fun call => call.field "id").filterMap Json.asStr := by
    rw [List.filterMap_map]
    rfl
  rw [mapped, same, List.filterMap_map]
  exact List.filterMap_some

/-- An accepted reply is the reply without its reasoning. -/
theorem acceptedMessage_eq_ok {message accepted : Json}
    (done : acceptedMessage message = .ok accepted) :
    (∃ fields, accepted = .object fields) ∧
      accepted.field "tool_calls" = message.field "tool_calls" := by
  obtain ⟨admitted, done⟩ := refuseIf_bind_eq_ok.mp done
  cases done
  constructor
  · cases message with
    | object fields => exact ⟨_, rfl⟩
    | _ => exact absurd ⟨rfl, rfl⟩ admitted
  · rw [field_removeField_other (by decide), field_removeField_other (by decide)]

/-- A reply is put into the history as a message of the assistant. -/
def replyMessage (message : Json) : Json := setField message "role" (.string "assistant")

theorem role_replyMessage (fields : List (String × Json)) :
    ((replyMessage (.object fields)).field "role").asStr = some "assistant" := by
  rw [replyMessage, field_setField_self, Json.asStr]

theorem calls_replyMessage (fields : List (String × Json)) :
    toolDialogue.calls (replyMessage (.object fields)) =
      (((Json.object fields).field "tool_calls").asArray).map callIds := by
  change toolCalls (replyMessage (.object fields)) = _
  rw [toolCalls, if_pos (role_replyMessage fields), replyMessage, field_setField_other (by decide)]

theorem isAnswer_replyMessage (fields : List (String × Json)) :
    toolDialogue.isAnswer (replyMessage (.object fields)) = false := by
  simp [toolDialogue, role_replyMessage]

/-! ## Histories -/

/-- A well formed history whose calls are distinct. -/
def Settled (messages : List Json) : Prop :=
  toolDialogue.WellFormed messages ∧ toolDialogue.Distinct messages

/-- A history in which some calls wait. -/
def Waits (messages calls : List Json) : Prop :=
  ∃ ids : List String, calls.map (fun call => call.field "id") = ids.map .string ∧
    toolDialogue.pendingAfter [] messages = some ids ∧ toolDialogue.Distinct messages

section Histories

variable {messages waiting rest : List Json} {call : Json}

theorem Settled.resumable (settled : Settled messages) : toolDialogue.Resumable messages :=
  ⟨⟨[], settled.1⟩, settled.2⟩

theorem Waits.resumable (waits : Waits messages waiting) : toolDialogue.Resumable messages := by
  obtain ⟨ids, _, reads, distinct⟩ := waits
  exact ⟨⟨ids, reads⟩, distinct⟩

theorem Waits.settled (waits : Waits messages []) : Settled messages := by
  obtain ⟨ids, same, reads, distinct⟩ := waits
  cases ids with
  | nil => exact ⟨reads, distinct⟩
  | cons _ _ => cases same

theorem settled_repair (resumable : toolDialogue.Resumable messages) :
    Settled (repairInterruptedToolResults messages) :=
  ⟨resumable.repair toolDialogue_lawful, resumable.2.repair toolDialogue_lawful⟩

theorem settled_nil : Settled [] := ⟨rfl, fun _ member => nomatch member⟩

/-- A message behind a history whose calls are distinct. -/
theorem distinct_append {message : Json} (distinct : toolDialogue.Distinct messages)
    (nodup : ∀ ids ∈ toolDialogue.calls message, ids.Nodup) :
    toolDialogue.Distinct (messages ++ [message]) := by
  intro other member
  obtain before | same := List.mem_append.mp member
  · exact distinct other before
  · rw [List.mem_singleton.mp same]
    exact nodup

/-- A text of another role than a tool keeps a history settled. -/
theorem Settled.text {role content : String} (settled : Settled messages) (other : role ≠ "tool") :
    Settled (messages ++ [textMessage role content]) := by
  have noCalls := calls_textMessage role content
  refine ⟨Dialogue.pendingAfter_other settled.1 noCalls (isAnswer_textMessage other), ?_⟩
  refine distinct_append settled.2 fun ids calls => ?_
  rw [noCalls] at calls
  cases calls

theorem settled_textMessages {texts : List (String × String)}
    (roles : ∀ text ∈ texts, text.1 ≠ "tool") :
    Settled (texts.map fun text => textMessage text.1 text.2) := by
  refine ⟨wellFormed_textMessages roles, fun message member ids calls => ?_⟩
  obtain ⟨text, _, rfl⟩ := List.mem_map.mp member
  rw [calls_textMessage] at calls
  cases calls

/-- The result of the first call which waits. -/
theorem Waits.answer (waits : Waits messages (call :: rest)) (content : String) :
    Waits (messages ++ [toolResult call content]) rest := by
  obtain ⟨ids, same, reads, distinct⟩ := waits
  cases ids with
  | nil => cases same
  | cons id others =>
      obtain ⟨first, later⟩ := List.cons.inj same
      have noCalls : toolDialogue.calls (toolResult call content) = none := rfl
      refine ⟨others, later, ?_, distinct_append distinct fun ids calls => ?_⟩
      · refine Dialogue.pendingAfter_answer reads rfl ?_
        change (call.field "id").asStr = some id
        dsimp only at first
        rw [first, Json.asStr]
      · rw [noCalls] at calls
        cases calls

/-- A reply without calls keeps a history settled. -/
theorem Settled.reply {fields : List (String × Json)} (settled : Settled messages)
    (noCalls : (((Json.object fields).field "tool_calls").asArray).getD [] = []) :
    Settled (messages ++ [replyMessage (.object fields)]) := by
  have calls := calls_replyMessage fields
  have notAnswer := isAnswer_replyMessage fields
  cases made : ((Json.object fields).field "tool_calls").asArray with
  | none =>
      rw [made, Option.map_none] at calls
      refine ⟨Dialogue.pendingAfter_other settled.1 calls notAnswer, ?_⟩
      refine distinct_append settled.2 fun ids member => ?_
      rw [calls] at member
      cases member
  | some found =>
      rw [made, Option.getD_some] at noCalls
      subst noCalls
      rw [made, Option.map_some] at calls
      refine ⟨Dialogue.pendingAfter_call settled.1 calls notAnswer, ?_⟩
      refine distinct_append settled.2 fun ids member => ?_
      rw [calls] at member
      cases member
      exact List.nodup_nil

/-- The calls of a reply wait behind it. -/
theorem Settled.calls {fields : List (String × Json)} (settled : Settled messages)
    (proper : ProperCalls (.object fields))
    (made : ((Json.object fields).field "tool_calls").asArray = some waiting) :
    Waits (messages ++ [replyMessage (.object fields)]) waiting := by
  obtain ⟨ids, nodup, same⟩ := proper _ made
  have called := calls_replyMessage fields
  rw [made, Option.map_some, callIds_of_map same] at called
  refine ⟨ids, same, ?_, distinct_append settled.2 fun others member => ?_⟩
  · rw [Dialogue.pendingAfter_call settled.1 called (isAnswer_replyMessage fields), nodup.dedup]
  · rw [called] at member
    cases member
    exact nodup

end Histories

/-! ## Phases -/

/-- What the messages of a worker are in its phases. -/
def Worker.Speaks (worker : Worker) : Prop :=
  match worker.phase with
  | .queued | .starting => toolDialogue.Resumable worker.run.messages
  | .reading => worker.run.messages = []
  | .calling _ calls => Waits worker.run.messages calls
  | .tool _ call rest => Waits worker.run.messages (call :: rest)
  | .failing _ | .ended => True
  | _ => Settled worker.run.messages

section Phases

variable {services : Services} {now : Nat} {worker : Worker} {run : AiRun}

theorem saveRunProgress_always {stage : String} {post : AiRun → Prop}
    (ensures : post { run with stage, updatedAt := now }) :
    (saveRunProgress services now run stage).Always (fun _ => True) post := by
  simp only [saveRunProgress, save, Program.always_bind, Program.always_lift,
    Program.always_current, Program.always_commit, Program.always_pure]
  exact fun _ _ _ _ _ _ _ => ensures

theorem validateRunBindings_always {post : Unit → Prop} (ensures : post ()) :
    (validateRunBindings services run).Always (fun _ => True) post :=
  (sends_validateRunBindings services run).imp (fun _ sent => sent) fun _ _ => ensures

/-- The messages of the permitted turns are of users and assistants. -/
theorem historyMessages_roles {conversation : AiConversation} {turns : List String}
    (permitted : ∀ turn ∈ turns,
      turn ∈ historyTurnIdsForContext conversation.messages (contextManifest conversation)) :
    ∀ text ∈ historyMessages conversation.messages turns, text.1 ≠ "tool" := by
  intro text member
  obtain ⟨turn, inTurns, inTurn⟩ := List.mem_flatMap.mp member
  obtain ⟨message, ofTurn, rfl⟩ := List.mem_map.mp inTurn
  obtain ⟨_, allowed⟩ := List.mem_filter.mp (permitted turn inTurns)
  rw [permittedTurn, Bool.and_eq_true] at allowed
  have all := List.all_eq_true.mp allowed.2 message ofTurn
  rw [permittedMessage, Bool.and_eq_true, Bool.or_eq_true, beq_iff_eq, beq_iff_eq] at all
  intro tool
  obtain user | assistant := all.1
  · exact absurd (tool.symm.trans user) (by decide)
  · exact absurd (tool.symm.trans assistant) (by decide)

/-- The history of a run has no answers of tools. -/
theorem selectHistory_always {remainingTokens : Nat} :
    (selectHistory services run remainingTokens).Always (fun _ => True) fun selected =>
      ∀ text ∈ selected.2, text.1 ≠ "tool" := by
  unfold selectHistory
  split
  · exact fun _ member => nomatch member
  · simp only [Program.always_bind, Program.always_current, Program.always_lift,
      Program.always_send, Program.always_pure]
    intro store conversation opened newestFirst selected
    refine ⟨trivial, historyMessages_roles fun turn member => ?_⟩
    exact List.mem_reverse.mp (mem_of_mem_selectTurns selected (List.mem_reverse.mp member))

/-- The first messages are settled. -/
theorem initialAiMessages_always (empty : run.messages = []) :
    (initialAiMessages services run).Always (fun _ => True) fun read => Settled read.messages := by
  simp only [initialAiMessages, Program.always_bind, Program.always_lift, Program.always_pure]
  intro plan _ gathered _
  refine selectHistory_always.imp (fun _ sent => sent) ?_
  rintro ⟨turns, history⟩ roles actual _
  rw [empty, List.nil_append]
  refine settled_textMessages fun text member => ?_
  rw [firstMessages, List.mem_append, List.mem_cons, List.mem_singleton] at member
  obtain (rfl | inHistory) | rfl := member
  · simp
  · exact roles text inHistory
  · simp

theorem speaks_afterRound {round : Nat} (settled : Settled worker.run.messages) :
    { worker with phase := afterRound round }.Speaks := by
  rw [Worker.Speaks, afterRound]
  split_ifs <;> exact settled

/-- The worker behind a reply. -/
theorem speaks_answered {round : Nat} {completion : AiCompletion} {message : Json}
    (settled : Settled worker.run.messages) (proper : ProperCalls completion.message)
    (accepted : acceptedMessage completion.message = .ok message) :
    (worker.answered services round completion message).Speaks := by
  obtain ⟨⟨fields, rfl⟩, same⟩ := acceptedMessage_eq_ok accepted
  have called : (replyMessage (.object fields)).field "tool_calls" =
      (Json.object fields).field "tool_calls" := field_setField_other (by decide)
  have properFields : ProperCalls (.object fields) := fun calls made => proper calls (same ▸ made)
  rw [Worker.answered, ← replyMessage]
  dsimp only
  rw [called]
  split
  · next first rest made =>
      have waits := settled.calls properFields made
      split_ifs
      · exact settled_repair waits.resumable
      · exact waits
  · next others =>
      refine settled.reply ?_
      cases made : ((Json.object fields).field "tool_calls").asArray with
      | none => rfl
      | some calls =>
          cases calls with
          | nil => rfl
          | cons first rest => exact absurd made (others first rest)

/-- A step of a worker keeps what its messages are, when a reply within it has proper calls. -/
theorem Worker.step_speaks (speaks : worker.Speaks)
    (proper : ∀ completion, services.complete = .ok completion → ProperCalls completion.message) :
    (worker.step services now).Always (fun _ => True) Worker.Speaks := by
  cases phase : worker.phase with
  | queued =>
      rw [Worker.Speaks, phase] at speaks
      simp only [Worker.step, phase, Program.always_bind, Program.always_lift]
      exact fun _ _ => speaks
  | starting =>
      rw [Worker.Speaks, phase] at speaks
      simp only [Worker.step, phase, Program.always_bind]
      refine saveRunProgress_always ?_
      split_ifs with empty
      · exact List.isEmpty_iff.mp empty
      · exact settled_repair speaks
  | reading =>
      rw [Worker.Speaks, phase] at speaks
      simp only [Worker.step, phase, Program.always_bind]
      exact (initialAiMessages_always speaks).imp (fun _ sent => sent) fun _ settled => settled
  | prepared =>
      rw [Worker.Speaks, phase] at speaks
      simp only [Worker.step, phase, Program.always_bind]
      exact saveRunProgress_always (settled_repair speaks.resumable)
  | validating round =>
      rw [Worker.Speaks, phase] at speaks
      simp only [Worker.step, phase, Program.always_bind]
      exact validateRunBindings_always speaks
  | announcing round =>
      rw [Worker.Speaks, phase] at speaks
      simp only [Worker.step, phase, Program.always_bind]
      exact saveRunProgress_always speaks
  | dispatching round =>
      rw [Worker.Speaks, phase] at speaks
      simp only [Worker.step, phase, Program.always_bind, Program.always_lift, Program.always_send]
      exact fun _ _ _ _ => ⟨trivial, speaks⟩
  | waiting round =>
      rw [Worker.Speaks, phase] at speaks
      simp only [Worker.step, phase, Program.always_bind, Program.always_lift]
      exact fun completion replied message accepted =>
        speaks_answered speaks (proper completion replied) accepted
  | calling round calls =>
      rw [Worker.Speaks, phase] at speaks
      cases calls with
      | nil =>
          simp only [Worker.step, phase]
          exact speaks_afterRound speaks.settled
      | cons call rest =>
          simp only [Worker.step, phase, Program.always_bind, Program.always_refuse]
          exact fun _ => validateRunBindings_always speaks
  | tool round call rest =>
      rw [Worker.Speaks, phase] at speaks
      simp only [Worker.step, phase, Worker.callTool, Program.always_bind]
      exact saveRunProgress_always (speaks.answer _)
  | finalizing round text =>
      rw [Worker.Speaks, phase] at speaks
      simp only [Worker.step, phase, Worker.finalize]
      split
      · exact speaks
      · next code _ =>
          split_ifs
          · have prompted : Settled (worker.run.messages ++ [textMessage "user" (repairPrompt code)]) :=
              speaks.text (by decide)
            rw [Program.always_pure, Worker.Speaks, afterRound]
            split_ifs <;> exact prompted
          · trivial
  | checking =>
      rw [Worker.Speaks, phase] at speaks
      simp only [Worker.step, phase, Program.always_bind, Program.always_refuse]
      exact validateRunBindings_always fun _ => speaks
  | completing =>
      rw [Worker.Speaks, phase] at speaks
      simp only [Worker.step, phase, Program.always_bind]
      refine saveRunProgress_always ?_
      rw [Program.always_pure, Worker.Speaks]
      split_ifs
      · exact speaks
      · trivial
  | recording =>
      rw [Worker.Speaks, phase] at speaks
      simp only [Worker.step, phase, Program.always_bind]
      refine (sends_recordAnswer services now worker.run).imp (fun _ sent => sent) ?_
      intro needs _
      rw [Program.always_pure, Worker.Speaks]
      split_ifs
      · exact speaks
      · trivial
  | titling =>
      rw [Worker.Speaks, phase] at speaks
      simp only [Worker.step, phase]
      split
      · trivial
      · exact ⟨trivial, speaks⟩
  | titled =>
      simp only [Worker.step, phase, Program.always_bind]
      exact (sends_recordTitle services worker.run).imp (fun _ sent => sent) fun _ _ => trivial
  | pausing =>
      simp only [Worker.step, phase, Program.always_bind]
      exact saveRunProgress_always trivial
  | failing error =>
      simp only [Worker.step, phase, Program.always_bind]
      exact (sends_finishAiRunErrorIfActive services now worker.run.id error).imp
        (fun _ sent => sent) fun _ _ => trivial
  | ended =>
      simp only [Worker.step, phase]
      exact speaks

end Phases

/-! ## Runs of the assistant -/

section Runs

variable {world : World} {event : Event}

/-- What is stored can be resumed, what workers hold is in order, and what was sent is settled. -/
structure World.Orderly (world : World) : Prop where
  rows : ∀ row ∈ world.store.written, toolDialogue.Resumable row.messages
  workers : ∀ {id worker}, world.workers.get id = some worker → worker.Speaks
  dispatches : ∀ entry ∈ world.dispatches, Settled entry.2

theorem orderly_initial : World.initial.Orderly where
  rows _ member := nomatch member
  workers found := nomatch found
  dispatches _ member := nomatch member

/-- Moves write messages which can be resumed when workers save such messages only. -/
theorem resumable_move {store after : Store}
    (rows : store.Sound ∧ ∀ row ∈ store.written, toolDialogue.Resumable row.messages)
    (move : Move { Rules.any with legal := toolDialogue.Resumable } store after) :
    after.Sound ∧ ∀ row ∈ after.written, toolDialogue.Resumable row.messages := by
  obtain ⟨sound, rows⟩ := rows
  refine ⟨sound.move move, ?_⟩
  cases move with
  | delete _ _ => exact rows
  | write change =>
      cases change with
      | createRun fresh created =>
          refine List.forall_mem_cons.mpr ⟨?_, rows⟩
          cases created with
          | chat _ _ _ _ _ _ _ _ messages => exact messages ▸ settled_nil.resumable
          | plain _ _ messages _ => exact messages ▸ settled_nil.resumable
          | copied found _ _ _ messages _ => exact messages ▸ rows _ (sound.keyed found).2
      | updateRun found _ _ messages =>
          refine List.forall_mem_cons.mpr ⟨?_, rows⟩
          obtain same | legal := messages
          · exact same ▸ rows _ (sound.keyed found).2
          · exact legal
      | createConversation _ _ _ _ => exact rows
      | keepContext _ _ _ => exact rows
      | replaceContext _ _ _ _ _ _ => exact rows

/-- What a worker saves can be resumed. -/
theorem Worker.Speaks.resumable {worker : Worker} {messages : List Json} (speaks : worker.Speaks)
    (saves : worker.MaySave messages) : toolDialogue.Resumable messages := by
  rw [Worker.Speaks] at speaks
  rw [Worker.MaySave] at saves
  cases phase : worker.phase <;> simp only [phase] at speaks saves
  case starting => exact saves ▸ speaks
  case tool =>
    obtain ⟨content, rfl⟩ := saves
    exact (speaks.answer content).resumable
  all_goals exact saves ▸ speaks.resumable

/-- What a worker sends is settled. -/
theorem Worker.Speaks.settled {worker : Worker} {runId : String} {messages : List Json}
    (speaks : worker.Speaks) (sends : worker.MaySend (.dispatch runId messages)) :
    Settled messages := by
  cases sends with
  | messages phase =>
      rw [Worker.Speaks, phase] at speaks
      exact speaks
  | title phase =>
      refine settled_textMessages fun text member => ?_
      rw [titleMessages, List.mem_cons, List.mem_singleton] at member
      obtain rfl | rfl := member <;> simp

/-- An event whose replies have proper calls keeps a world in order. -/
theorem World.Orderly.preserved (orderly : world.Orderly) (sound : world.Sound)
    (enabled : event.label.enabled world = true) (proper : event.Proper) :
    (world.next event).Orderly := by
  have evolves : Evolves { Rules.any with legal := toolDialogue.Resumable } world.store
      (world.next event).store :=
    World.evolves sound enabled
      ⟨fun _ _ _ _ => trivial,
        fun _ found messages saves => (orderly.workers found).resumable saves,
        fun _ => trivial, fun _ => trivial⟩
  have rows := (evolves.invariant _ resumable_move ⟨sound.store, orderly.rows⟩).2
  refine ⟨rows, fun {id worker} found => ?_, fun entry member => ?_⟩
  · cases comes sound enabled found with
    | @kept before cancelled held =>
        have speaks : before.Speaks := orderly.workers held
        exact speaks
    | failing held => trivial
    | @started request run label result =>
        obtain ⟨_, services, now, allowed⟩ := event
        cases label
        obtain ⟨_, written⟩ := start_result sound enabled result
        dsimp only [World.next] at rows
        rw [spawn_store, act_store] at rows
        exact rows run written
    | @continued old run label result =>
        obtain ⟨_, services, now, allowed⟩ := event
        cases label
        obtain ⟨_, written⟩ := continue_result sound enabled result
        dsimp only [World.next] at rows
        rw [spawn_store, act_store] at rows
        exact rows run written
    | stepped label held result =>
        exact (Worker.step_speaks (orderly.workers held) proper).run_post result
  · obtain ⟨new, same, sent⟩ := (@next_sent world event).dispatches
    rw [same] at member
    obtain sentNow | before := List.mem_append.mp member
    · obtain ⟨_, impossible⟩ | ⟨runId, worker, _, held, signalled⟩ := sent entry sentNow
      · cases impossible
      · exact (orderly.workers held).settled
          (Program.Always.run_signals (Worker.step_sends event.services event.now worker) signalled)
    · exact orderly.dispatches entry before

/-- The messages directly behind a message which is not of a tool, up to the next such message,
answer the calls of this message: each exactly once, and no other one. No history begins with an
answer. -/
def AnsweredOnce (history : List Json) : Prop :=
  history.takeWhile toolDialogue.isAnswer = [] ∧
    ∀ front message rest, history = front ++ message :: rest →
      toolDialogue.isAnswer message = false →
      ((toolCalls message).getD []).Nodup ∧
        ((rest.takeWhile toolDialogue.isAnswer).map toolDialogue.answered).Perm
          (((toolCalls message).getD []).map some)

/-- A settled history is answered. -/
theorem Settled.answeredOnce {history : List Json} (settled : Settled history) :
    AnsweredOnce history := by
  refine ⟨settled.1.noAnswerFirst, ?_⟩
  rintro front message rest rfl notAnswer
  have nodup : ((toolCalls message).getD []).Nodup := by
    cases calls : toolCalls message with
    | none => exact List.nodup_nil
    | some ids => exact settled.2 message (by simp) ids calls
  have answers := settled.1.answers notAnswer
  change List.Perm _ (((toolCalls message).getD []).dedup.map some) at answers
  rw [nodup.dedup] at answers
  exact ⟨nodup, answers⟩

/-- When the tool calls of every reply have distinct identifiers, every dispatch has, behind each
message, exactly one answer for each of its calls and no other answer, whatever fails, pauses,
crashes or is continued. Repair is idempotent, and leaves a well formed history as it is. -/
theorem dispatches_answer_calls_once {events : List Event}
    (proper : ∀ event ∈ events, event.Proper)
    (runs : assistant.run World.initial events = some world) :
    (∀ entry ∈ world.dispatches, AnsweredOnce entry.2) ∧
      ∀ history, repairInterruptedToolResults (repairInterruptedToolResults history) =
          repairInterruptedToolResults history ∧
        (toolDialogue.WellFormed history → repairInterruptedToolResults history = history) := by
  refine ⟨fun entry member => ?_, fun history =>
    ⟨Dialogue.repair_repair toolDialogue_lawful, Dialogue.repair_eq_self toolDialogue_lawful⟩⟩
  have orderly : ∀ {start : World}, start.Sound → start.Orderly →
      assistant.run start events = some world → world.Orderly := by
    clear runs member
    induction events with
    | nil =>
        intro start _ orderly runs
        cases runs
        exact orderly
    | cons event rest inductionHypothesis =>
        intro start sound orderly runs
        obtain ⟨next, step, later⟩ := assistant.run_cons_eq_some.mp runs
        obtain ⟨enabled, rfl⟩ := step_eq_some.mp step
        obtain ⟨here, others⟩ := List.forall_mem_cons.mp proper
        exact inductionHypothesis others (sound.preserved enabled)
          (orderly.preserved sound enabled here) later
  exact ((orderly sound_initial orderly_initial runs).dispatches entry member).answeredOnce

/-- A reply which calls one tool under each of some identifiers. -/
def replyCalling (ids : List String) : Json :=
  .object
    [("content", .null),
      ("tool_calls", .array (ids.map fun id =>
        .object [("id", .string id),
          ("function", .object [("name", .string "search"), ("arguments", .string "\x7b\x7d")])]))]

/-- Some steps of the worker of a run. -/
def workOn (runId : String) (steps : Nat) : List Label := List.replicate steps (.work runId)

/-- A search is interrupted after the first of two results, and is continued up to its next
dispatch. -/
def interruptedSearch : List Event :=
  (Label.start "run" { kind := "search", prompt := "case" } :: workOn "run" 10 ++
    [Label.restart, Label.continueRun "again" "run"] ++ workOn "again" 5).map fun label =>
      label.accepted (replyCalling ["first", "second"])

/-- The interrupted call is answered at the dispatch of the continued search. -/
theorem dispatches_answer_calls_once_after_interruption :
    ∃ world, assistant.run World.initial interruptedSearch = some world ∧
      (∃ messages, ("again", messages) ∈ world.dispatches ∧
        messages.filterMap toolDialogue.answered = ["first", "second"]) ∧
      ∀ entry ∈ world.dispatches, AnsweredOnce entry.2 := by
  have runs : ((assistant.run World.initial interruptedSearch).any fun world =>
      world.dispatches.any fun entry =>
        entry.1 == "again" && entry.2.filterMap toolDialogue.answered == ["first", "second"]) =
          true := by
    decide
  obtain ⟨world, reached, sent⟩ := (Option.any_eq_true _ _).mp runs
  obtain ⟨⟨runId, messages⟩, member, same⟩ := List.any_eq_true.mp sent
  obtain ⟨again, answers⟩ := Bool.and_eq_true_iff.mp same
  obtain rfl : runId = "again" := eq_of_beq again
  have proper : ∀ event ∈ interruptedSearch, event.Proper := by
    intro event member completion replied
    obtain ⟨label, _, rfl⟩ := List.mem_map.mp member
    cases replied
    rintro calls ⟨⟩
    exact ⟨["first", "second"], by decide, rfl⟩
  exact ⟨world, reached, ⟨messages, member, eq_of_beq answers⟩,
    (dispatches_answer_calls_once proper reached).1⟩

/-- A search whose model calls two tools under one identifier, up to its second dispatch. -/
def searchWithOneIdentifier : List Event :=
  (Label.start "run" { kind := "search", prompt := "case" } :: workOn "run" 16).map fun label =>
    label.accepted (replyCalling ["call", "call"])

/-- The two results answer the same call. -/
theorem duplicate_calls_are_answered_twice :
    ∃ world, assistant.run World.initial searchWithOneIdentifier = some world ∧
      ∃ messages, ("run", messages) ∈ world.dispatches ∧
        messages.filterMap toolDialogue.answered = ["call", "call"] ∧
        ¬ toolDialogue.WellFormed messages := by
  have runs : ((assistant.run World.initial searchWithOneIdentifier).any fun world =>
      world.dispatches.any fun entry =>
        entry.1 == "run" && (entry.2.filterMap toolDialogue.answered == ["call", "call"] &&
          !decide (toolDialogue.WellFormed entry.2))) = true := by
    decide
  obtain ⟨world, reached, sent⟩ := (Option.any_eq_true _ _).mp runs
  obtain ⟨⟨runId, messages⟩, member, same⟩ := List.any_eq_true.mp sent
  obtain ⟨first, same⟩ := Bool.and_eq_true_iff.mp same
  obtain ⟨answers, broken⟩ := Bool.and_eq_true_iff.mp same
  obtain rfl : runId = "run" := eq_of_beq first
  refine ⟨world, reached, messages, member, eq_of_beq answers, ?_⟩
  simpa using broken

end Runs

end LawyerAssistance.AiRuns
