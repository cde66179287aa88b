import LawyerAssistance.AiRuns.Steps

/-!
# Every event evolves the store by moves

`World.evolves` carries the lemmas about single operations to the machine of the assistant:
what an event does to the store are moves. `Comes` says where the workers of a world come
from, and `Sent` what was dispatched. A sound world keeps, for every worker, a row of the
origin of its run, and every deletion which has read its run is of one which ended.
-/

namespace LawyerAssistance.AiRuns

open Storage

variable {world next : World} {event : Event}

/-! ## Signals -/

section Signals

/-- A world in which more was dispatched and more histories were taken. -/
structure Sent (world next : World) (sent : Signal → Prop) : Prop where
  dispatches : ∃ new, next.dispatches = new ++ world.dispatches ∧
    ∀ entry ∈ new, sent (.dispatch entry.1 entry.2)
  histories : ∃ new, next.histories = new ++ world.histories ∧
    ∀ entry ∈ new, sent (.history entry.1 entry.2.1 entry.2.2)

theorem Sent.of_eq {sent : Signal → Prop} (dispatches : next.dispatches = world.dispatches)
    (histories : next.histories = world.histories) : Sent world next sent :=
  ⟨⟨[], dispatches, fun _ member => nomatch member⟩, ⟨[], histories, fun _ member => nomatch member⟩⟩

theorem Sent.imp {sent more : Signal → Prop} (grown : Sent world next sent)
    (implies : ∀ what, sent what → more what) : Sent world next more := by
  obtain ⟨⟨first, same, each⟩, ⟨second, same', each'⟩⟩ := grown
  exact ⟨⟨first, same, fun entry member => implies _ (each entry member)⟩,
    ⟨second, same', fun entry member => implies _ (each' entry member)⟩⟩

/-- What one signal adds. -/
theorem sent_signal (world : World) (what : Signal) : Sent world (world.signal what) (· = what) := by
  cases what with
  | cancelToken runId =>
      rw [World.signal]
      split <;> exact .of_eq rfl rfl
  | dispatch runId messages =>
      refine ⟨⟨[(runId, messages)], rfl, fun entry member => ?_⟩, ⟨[], rfl, fun _ member => nomatch member⟩⟩
      rw [List.mem_singleton.mp member]
  | history runId conversationId turns =>
      refine ⟨⟨[], rfl, fun _ member => nomatch member⟩,
        ⟨[(runId, conversationId, turns)], rfl, fun entry member => ?_⟩⟩
      rw [List.mem_singleton.mp member]

/-- What is sent twice. -/
theorem Sent.trans {final : World} {sent : Signal → Prop} (first : Sent world next sent)
    (second : Sent next final sent) : Sent world final sent := by
  obtain ⟨⟨before, same, each⟩, ⟨before', same', each'⟩⟩ := first
  obtain ⟨⟨after, later, every⟩, ⟨after', later', every'⟩⟩ := second
  refine ⟨⟨after ++ before, ?_, fun entry member => ?_⟩, ⟨after' ++ before', ?_, fun entry member => ?_⟩⟩
  · rw [later, same, List.append_assoc]
  · exact (List.mem_append.mp member).elim (every entry) (each entry)
  · rw [later', same', List.append_assoc]
  · exact (List.mem_append.mp member).elim (every' entry) (each' entry)

/-- What some signals add. -/
theorem sent_signals (world : World) (signals : List Signal) :
    Sent world (signals.foldl World.signal world) (· ∈ signals) := by
  induction signals generalizing world with
  | nil => exact .of_eq rfl rfl
  | cons what rest inductionHypothesis =>
      have first := (sent_signal world what).imp fun other same =>
        show other ∈ what :: rest from same ▸ List.mem_cons_self
      exact first.trans ((inductionHypothesis _).imp fun _ member => List.mem_cons_of_mem _ member)

/-- A signal does not touch the store, and cancels tokens only. -/
theorem signal_store (world : World) (what : Signal) : (world.signal what).store = world.store := by
  cases what with
  | cancelToken runId =>
      rw [World.signal]
      split <;> rfl
  | dispatch runId messages => rfl
  | history runId conversationId turns => rfl

theorem signals_store (world : World) (signals : List Signal) :
    (signals.foldl World.signal world).store = world.store := by
  induction signals generalizing world with
  | nil => rfl
  | cons what rest inductionHypothesis => exact (inductionHypothesis _).trans (signal_store world what)

/-- Deletions are not touched by signals. -/
theorem signals_deleting (world : World) (signals : List Signal) :
    (signals.foldl World.signal world).deleting = world.deleting := by
  induction signals generalizing world with
  | nil => rfl
  | cons what rest inductionHypothesis =>
      refine (inductionHypothesis _).trans ?_
      cases what with
      | cancelToken runId =>
          rw [World.signal]
          split <;> rfl
      | dispatch runId messages => rfl
      | history runId conversationId turns => rfl

/-- Signals keep the workers but for their tokens. -/
theorem signals_workers {signals : List Signal} {id : String} {worker : Worker}
    (found : (signals.foldl World.signal world).workers.get id = some worker) :
    ∃ before cancelled, world.workers.get id = some before ∧
      worker = { before with cancelled } := by
  induction signals generalizing world with
  | nil => exact ⟨worker, worker.cancelled, found, rfl⟩
  | cons what rest inductionHypothesis =>
      obtain ⟨before, cancelled, signalled, rfl⟩ := inductionHypothesis found
      cases what with
      | dispatch runId messages => exact ⟨before, cancelled, signalled, rfl⟩
      | history runId conversationId turns => exact ⟨before, cancelled, signalled, rfl⟩
      | cancelToken runId =>
          rw [World.signal] at signalled
          split at signalled
          · exact ⟨before, cancelled, signalled, rfl⟩
          · next stored held =>
              rw [Table.get_put] at signalled
              split_ifs at signalled with here
              · cases signalled
                exact ⟨stored, cancelled, here ▸ held, rfl⟩
              · exact ⟨before, cancelled, signalled, rfl⟩

end Signals

/-! ## Operations within an event -/

section Acting

variable {rules : Rules} {α : Type} {op : Op α}

theorem act_store : (world.act event op).store = (world.outcome event op).state :=
  signals_store _ _

theorem act_deleting : (world.act event op).deleting = world.deleting := signals_deleting _ _

theorem mem_deleting_act {id : String} (member : id ∈ (world.act event op).deleting) :
    id ∈ world.deleting :=
  act_deleting ▸ member

/-- An operation which makes moves evolves the store. -/
theorem act_evolves {post : α → Store → Prop}
    (lawful : op.Holds Store.apply (Lawful rules) post world.store) :
    Evolves rules world.store (world.act event op).store := by
  rw [act_store]
  have reflexive : ∀ store, Evolves rules store store := fun _ => .refl
  have transitive : ∀ {a b c}, Evolves rules a b → Evolves rules b c → Evolves rules a c :=
    fun first second => first.trans second
  exact lawful.run_relation reflexive transitive (fun made => made) event.allowed

theorem act_workers {id : String} {worker : Worker}
    (found : (world.act event op).workers.get id = some worker) :
    ∃ before cancelled, world.workers.get id = some before ∧
      worker = { before with cancelled } := by
  exact @signals_workers { world with store := (world.outcome event op).state } _ _ _ found

theorem act_sent : Sent world (world.act event op) (· ∈ (world.outcome event op).signals) := by
  obtain ⟨dispatches, histories⟩ := sent_signals
    { world with store := (world.outcome event op).state } (world.outcome event op).signals
  exact ⟨dispatches, histories⟩

theorem spawn_store {op : Op AiRun} : (world.spawn event op).store = (world.act event op).store := by
  rw [World.spawn]
  split <;> rfl

theorem spawn_deleting {op : Op AiRun} : (world.spawn event op).deleting = world.deleting := by
  rw [World.spawn]
  split <;> exact act_deleting

/-- A worker behind an operation which may start one. -/
theorem spawn_workers {op : Op AiRun} {id : String} {worker : Worker}
    (found : (world.spawn event op).workers.get id = some worker) :
    (∃ before cancelled, world.workers.get id = some before ∧ worker = { before with cancelled }) ∨
      ∃ run, (world.outcome event op).result = .ok run ∧ run.id = id ∧
        worker = Worker.spawned run := by
  rw [World.spawn] at found
  split at found
  · exact .inl (act_workers found)
  · next run started =>
      rw [Table.get_put] at found
      split_ifs at found with here
      · cases found
        exact .inr ⟨run, started, here.symm, rfl⟩
      · exact .inl (act_workers found)

theorem spawn_sent {op : Op AiRun} :
    Sent world (world.spawn event op) (· ∈ (world.outcome event op).signals) := by
  obtain ⟨dispatches, histories⟩ := @act_sent world event AiRun op
  rw [World.spawn]
  split <;> exact ⟨dispatches, histories⟩

theorem setWorker_store {runId : String} {worker : Worker} :
    (world.setWorker runId worker).store = world.store := by
  rw [World.setWorker]
  split <;> rfl

theorem setWorker_deleting {runId : String} {worker : Worker} :
    (world.setWorker runId worker).deleting = world.deleting := by
  rw [World.setWorker]
  split <;> rfl

theorem setWorker_sent {runId : String} {worker : Worker} {sent : Signal → Prop} :
    Sent world (world.setWorker runId worker) sent := by
  rw [World.setWorker]
  split <;> exact .of_eq rfl rfl

/-- A worker which is put back is found unless it ended. -/
theorem setWorker_workers {runId id : String} {put worker : Worker}
    (found : (world.setWorker runId put).workers.get id = some worker) :
    (id = runId ∧ worker = put ∧ put.phase ≠ .ended) ∨ world.workers.get id = some worker := by
  rw [World.setWorker] at found
  split at found
  · rw [Table.get_remove] at found
    split_ifs at found
    exact .inr found
  · next working =>
      rw [Table.get_put] at found
      split_ifs at found with here
      · cases found
        exact .inl ⟨here, rfl, working⟩
      · exact .inr found

end Acting

/-! ## Sound worlds -/

/-- The store is sound, every worker has a row of its run, and every deletion is of a run which
ended. -/
structure World.Sound (world : World) : Prop where
  store : world.store.Sound
  workers : ∀ {id worker}, world.workers.get id = some worker →
    worker.run.id = id ∧ world.store.Known worker.run
  deleting : ∀ id ∈ world.deleting, world.store.Ended id

/-- What rules ask of an event. -/
structure Admitted (rules : Rules) (world : World) (event : Event) : Prop where
  starts : ∀ {runId request}, event.label = .start runId request → request.kind ≠ "chat" →
    ∀ conversationId, request.conversationId = some conversationId →
      rules.admits world.store conversationId
  saves : ∀ {runId worker}, event.label = .work runId → world.workers.get runId = some worker →
    ∀ messages, worker.MaySave messages → rules.legal messages
  deletes : ∀ {id}, event.label = .commitDeletion id → rules.deletes id
  replaces : ∀ {id expectedRevision materials attachmentIds ranges},
    event.label = .replace id expectedRevision materials attachmentIds ranges → rules.replaces id

/-- What an event does to the store are moves. -/
theorem World.evolves {rules : Rules} (sound : world.Sound)
    (enabled : event.label.enabled world = true) (admitted : Admitted rules world event) :
    Evolves rules world.store (world.next event).store := by
  obtain ⟨starts, saves, deletes, replaces⟩ := admitted
  obtain ⟨label, services, now, allowed⟩ := event
  cases label with
  | createConversation id title =>
      simp only [Label.enabled, Bool.and_eq_true, decide_eq_true_eq, Option.isNone_iff_eq_none]
        at enabled
      exact act_evolves (createAiConversation_lawful enabled.1 enabled.2)
  | migrateLegacy id title messages materialIds =>
      simp only [Label.enabled, decide_eq_true_eq] at enabled
      exact act_evolves (migrateLegacyConversation_lawful enabled)
  | rename id title => exact act_evolves (renameAiConversation_lawful sound.store)
  | start runId request =>
      rw [World.next, spawn_store]
      exact act_evolves (startAiRun_lawful sound.store enabled (starts rfl))
  | cancel id => exact act_evolves (cancelAiRun_lawful sound.store)
  | readForDeletion id =>
      dsimp only [World.next]
      split <;> exact .refl
  | commitDeletion id =>
      have ended := sound.deleting id (List.contains_iff_mem.mp enabled)
      exact act_evolves (commitDeletion_lawful ended (deletes rfl))
  | continueRun runId id =>
      rw [World.next, spawn_store]
      exact act_evolves (continueAiRun_lawful sound.store enabled)
  | edit runId id content expectedRevision caseDate =>
      exact act_evolves (editAiDocument_lawful enabled)
  | replace id expectedRevision materials attachmentIds ranges =>
      exact act_evolves (replaceAiConversationContext_lawful sound.store (replaces rfl))
  | work runId =>
      dsimp only [World.next]
      split
      · exact .refl
      · next worker found =>
          rw [setWorker_store]
          exact act_evolves (Worker.step_lawful sound.store (sound.workers found).2 (saves rfl found))
  | panic runId error =>
      dsimp only [World.next]
      split
      · exact .refl
      · rw [setWorker_store]
  | restart =>
      exact @act_evolves { world with workers := ∅, deleting := [] } _ _ _ _ _
        (recoverAiRuns_lawful sound.store)

/-! ## What is sent -/

section Quiet

variable {services : Services} {now : Nat}

/-- Whatever the store answers, only tokens are cancelled. -/
def Quiet {α : Type} (op : Op α) : Prop := op.Sends fun what => ∃ runId, what = .cancelToken runId

theorem quiet_createAiConversation (id : String) (title : Option String) :
    Quiet (createAiConversation services now id title) :=
  (Program.sends_refuse _ _).bind fun _ => sends_save _

theorem quiet_migrateLegacyConversation (id title : String) (messages : List (String × String))
    (materialIds : List String) :
    Quiet (migrateLegacyConversation services now id title messages materialIds) := by
  refine Program.sends_current.bind fun store => ?_
  split_ifs
  · exact sends_save _
  · exact Program.sends_pure _

theorem quiet_renameAiConversation (id title : String) :
    Quiet (renameAiConversation services now id title) :=
  (Program.sends_lift _).bind fun _ => (Program.sends_lift _).bind fun _ =>
    Program.sends_current.bind fun _ => (Program.sends_lift _).bind fun _ => sends_save _

theorem quiet_startAiRun (runId : String) (request : AiRunRequest) :
    Quiet (startAiRun services now runId request) := by
  refine Program.sends_current.bind fun store => (Program.sends_lift _).bind fun run =>
    (sends_save _).bind fun _ => Program.Sends.bind ?_ fun _ =>
    (Program.sends_lift _).bind fun _ => Program.sends_pure _
  unfold recordPrompt
  split
  · exact Program.sends_pure _
  · exact Program.sends_current.bind fun _ => (Program.sends_lift _).bind fun _ => sends_save _

theorem quiet_cancelAiRun (id : String) : Quiet (cancelAiRun services now id) := by
  refine (Program.sends_lift _).bind fun _ => Program.sends_current.bind fun store =>
    (Program.sends_lift _).bind fun run => ?_
  split_ifs
  · exact (Program.sends_lift _).bind fun _ => (Program.sends_send ⟨id, rfl⟩).bind fun _ =>
      (Program.sends_lift _).bind fun _ => sends_save _
  · exact Program.sends_pure _

theorem quiet_continueAiRun (runId id : String) : Quiet (continueAiRun services now runId id) := by
  refine (Program.sends_lift _).bind fun _ => Program.sends_current.bind fun store =>
    (Program.sends_lift _).bind fun run => (Program.sends_refuse _ _).bind fun _ =>
    (Program.sends_refuse _ _).bind fun _ => (Program.sends_lift _).bind fun _ =>
    (Program.sends_lift _).bind fun _ => ?_
  split_ifs
  · exact quiet_startAiRun _ _
  · exact (Program.sends_refuse _ _).bind fun _ => (sends_save _).bind fun _ =>
      (Program.sends_lift _).bind fun _ => Program.sends_pure _

theorem quiet_editAiDocument (runId id content : String) (expectedRevision : Nat)
    (caseDate : AiCaseDateUpdate) :
    Quiet (editAiDocument services now runId id content expectedRevision caseDate) :=
  (Program.sends_lift _).bind fun _ => Program.sends_current.bind fun _ =>
    (Program.sends_lift _).bind fun _ => (Program.sends_refuse _ _).bind fun _ =>
    (Program.sends_refuse _ _).bind fun _ => (Program.sends_lift _).bind fun _ => sends_save _

theorem quiet_replaceAiConversationContext (id : String) (expectedRevision : Nat)
    (materials : List AiMaterialReference) (attachmentIds : List String)
    (supplied : List AiContextRangeSelection) :
    Quiet (replaceAiConversationContext services now id expectedRevision materials attachmentIds
      supplied) := by
  refine Program.sends_current.bind fun store => (Program.sends_lift _).bind fun found =>
    (Program.sends_commit _).bind fun _ => ?_
  induction found.2 with
  | nil => exact Program.sends_pure _
  | cons run rest inductionHypothesis => exact ⟨⟨run.id, rfl⟩, inductionHypothesis⟩

theorem quiet_recoverAiRuns : Quiet (recoverAiRuns services) := by
  refine Program.sends_current.bind fun store => ?_
  induction store.activeIds with
  | nil => exact Program.sends_pure _
  | cons id rest inductionHypothesis =>
      exact Program.sends_current.bind fun _ => (Program.sends_lift _).bind fun _ =>
        (sends_save _).bind fun _ => inductionHypothesis

/-- What one step of a worker sends. -/
def SentByWorker (world : World) (event : Event) (what : Signal) : Prop :=
  (∃ runId, what = .cancelToken runId) ∨
    ∃ runId worker, event.label = .work runId ∧ world.workers.get runId = some worker ∧
      what ∈ (world.outcome event (worker.step event.services event.now)).signals

theorem Quiet.sent {α : Type} {op : Op α} (quiet : Quiet op) :
    Sent world (world.act event op) (SentByWorker world event) :=
  act_sent.imp fun _ sent => .inl (Program.Always.run_signals quiet sent)

/-- What an event sends is sent by a worker. -/
theorem next_sent : Sent world (world.next event) (SentByWorker world event) := by
  obtain ⟨label, services, now, allowed⟩ := event
  cases label with
  | createConversation id title => exact (quiet_createAiConversation id title).sent
  | migrateLegacy id title messages materialIds =>
      exact (quiet_migrateLegacyConversation id title messages materialIds).sent
  | rename id title => exact (quiet_renameAiConversation id title).sent
  | start runId request =>
      exact spawn_sent.imp fun _ sent => .inl (Program.Always.run_signals (quiet_startAiRun runId request) sent)
  | cancel id => exact (quiet_cancelAiRun id).sent
  | readForDeletion id =>
      dsimp only [World.next]
      split <;> exact .of_eq rfl rfl
  | commitDeletion id =>
      obtain ⟨dispatches, histories⟩ :=
        @Quiet.sent world ⟨.commitDeletion id, services, now, allowed⟩ _ _
          (Program.sends_commit (.deleteRun id))
      exact ⟨dispatches, histories⟩
  | continueRun runId id =>
      exact spawn_sent.imp fun _ sent => .inl (Program.Always.run_signals (quiet_continueAiRun runId id) sent)
  | edit runId id content expectedRevision caseDate =>
      exact (quiet_editAiDocument runId id content expectedRevision caseDate).sent
  | replace id expectedRevision materials attachmentIds ranges =>
      exact (quiet_replaceAiConversationContext id expectedRevision materials attachmentIds ranges).sent
  | work runId =>
      dsimp only [World.next]
      split
      · exact .of_eq rfl rfl
      · next worker found =>
          refine Sent.trans (act_sent.imp fun what sent => .inr ⟨runId, worker, rfl, found, sent⟩) ?_
          exact setWorker_sent
  | panic runId error =>
      dsimp only [World.next]
      split
      · exact .of_eq rfl rfl
      · exact setWorker_sent
  | restart =>
      obtain ⟨dispatches, histories⟩ := @act_sent { world with workers := ∅, deleting := [] }
        ⟨.restart, services, now, allowed⟩ _ (recoverAiRuns services)
      refine Sent.imp ⟨dispatches, histories⟩ fun what sent => .inl ?_
      exact Program.Always.run_signals quiet_recoverAiRuns sent

end Quiet

/-! ## Where workers come from -/

/-- A run which was started is written. -/
theorem start_result {runId : String} {request : AiRunRequest} {run : AiRun} (sound : world.Sound)
    (fresh : world.store.unwritten runId = true)
    (result : (world.outcome event (startAiRun event.services event.now runId request)).result =
      .ok run) :
    run.id = runId ∧
      run ∈ (world.outcome event (startAiRun event.services event.now runId request)).state.written := by
  have lawful : (startAiRun event.services event.now runId request).Holds Store.apply
      (Lawful Rules.any) (fun run final => run.id = runId ∧ run ∈ final.written) world.store :=
    startAiRun_lawful sound.store fresh fun _ _ _ => trivial
  exact lawful.run_post result

/-- A run which was continued is written. -/
theorem continue_result {runId old : String} {run : AiRun} (sound : world.Sound)
    (fresh : world.store.unwritten runId = true)
    (result : (world.outcome event (continueAiRun event.services event.now runId old)).result =
      .ok run) :
    run.id = runId ∧
      run ∈ (world.outcome event (continueAiRun event.services event.now runId old)).state.written := by
  have lawful : (continueAiRun event.services event.now runId old).Holds Store.apply
      (Lawful Rules.any) (fun run final => run.id = runId ∧ run ∈ final.written) world.store :=
    continueAiRun_lawful sound.store fresh
  exact lawful.run_post result

theorem Worker.fail_cases (worker : Worker) (error : String) :
    (worker.fail error).phase = .ended ∨ worker.fail error = { worker with phase := .failing error } := by
  rw [Worker.fail]
  split
  · exact .inl rfl
  · exact .inr rfl

/-- Where a worker of the next world comes from. -/
inductive Comes (world : World) (event : Event) (id : String) : Worker → Prop where
  | kept {worker : Worker} {cancelled : Bool} (found : world.workers.get id = some worker) :
      Comes world event id { worker with cancelled }
  | failing {worker : Worker} {error : String} (found : world.workers.get id = some worker) :
      Comes world event id { worker with phase := .failing error }
  | started {request : AiRunRequest} {run : AiRun} (label : event.label = .start id request)
      (result : (world.outcome event (startAiRun event.services event.now id request)).result =
        .ok run) : Comes world event id (Worker.spawned run)
  | continued {old : String} {run : AiRun} (label : event.label = .continueRun id old)
      (result : (world.outcome event (continueAiRun event.services event.now id old)).result =
        .ok run) : Comes world event id (Worker.spawned run)
  | stepped {worker next : Worker} (label : event.label = .work id)
      (found : world.workers.get id = some worker)
      (result : (world.outcome event (worker.step event.services event.now)).result = .ok next) :
      Comes world event id next

theorem Comes.of_act {id : String} {worker : Worker} {α : Type} {op : Op α}
    (found : (world.act event op).workers.get id = some worker) : Comes world event id worker := by
  obtain ⟨before, cancelled, held, rfl⟩ := act_workers found
  exact .kept held

/-- Where the workers of the next world come from. -/
theorem comes {id : String} {worker : Worker} (sound : world.Sound)
    (enabled : event.label.enabled world = true)
    (found : (world.next event).workers.get id = some worker) : Comes world event id worker := by
  obtain ⟨label, services, now, allowed⟩ := event
  cases label with
  | createConversation conversationId title => exact .of_act found
  | migrateLegacy conversationId title messages materialIds => exact .of_act found
  | rename conversationId title => exact .of_act found
  | cancel runId => exact .of_act found
  | commitDeletion runId => exact .of_act found
  | edit runId old content expectedRevision caseDate => exact .of_act found
  | replace conversationId expectedRevision materials attachmentIds ranges => exact .of_act found
  | start runId request =>
      obtain ⟨before, cancelled, held, rfl⟩ | ⟨run, started, here, rfl⟩ := spawn_workers found
      · exact .kept held
      · obtain rfl : runId = id := (start_result sound enabled started).1.symm.trans here
        exact .started rfl started
  | continueRun runId old =>
      obtain ⟨before, cancelled, held, rfl⟩ | ⟨run, started, here, rfl⟩ := spawn_workers found
      · exact .kept held
      · obtain rfl : runId = id := (continue_result sound enabled started).1.symm.trans here
        exact .continued rfl started
  | readForDeletion runId =>
      dsimp only [World.next] at found
      split at found <;> exact .kept found
  | work runId =>
      dsimp only [World.next] at found
      split at found
      · exact .kept found
      · next before held =>
          obtain ⟨rfl, rfl, working⟩ | found := setWorker_workers found
          · cases result : (world.outcome ⟨.work id, services, now, allowed⟩
                (before.step services now)).result with
            | ok next => exact .stepped rfl held result
            | error error =>
                rw [result] at working
                obtain ended | failing := before.fail_cases error
                · exact absurd ended working
                · rw [Worker.after, failing]
                  exact .failing held
          · exact .of_act found
  | panic runId error =>
      dsimp only [World.next] at found
      split at found
      · exact .kept found
      · next before held =>
          obtain ⟨rfl, rfl, _⟩ | found := setWorker_workers found
          · exact .failing held
          · exact .kept found
  | restart =>
      obtain ⟨before, cancelled, held, rfl⟩ :=
        @act_workers { world with workers := ∅, deleting := [] } _ _ _ _ _ found
      cases held

/-! ## Reachable worlds -/

/-- Deletions which wait are kept, or have just read their run. -/
theorem mem_deleting_next {id : String} (member : id ∈ (world.next event).deleting) :
    id ∈ world.deleting ∨ ∃ result,
      event.label = .readForDeletion id ∧
        (world.outcome event (readForDeletion event.services id)).result = .ok result := by
  obtain ⟨label, services, now, allowed⟩ := event
  cases label with
  | readForDeletion runId =>
      dsimp only [World.next] at member
      split at member
      · exact .inl member
      · next result read =>
          obtain rfl | waits := List.mem_cons.mp member
          · exact .inr ⟨result, rfl, read⟩
          · exact .inl waits
  | commitDeletion runId =>
      refine .inl ?_
      exact List.mem_of_mem_erase member
  | restart =>
      have none : id ∈ ([] : List String) :=
        @mem_deleting_act { world with workers := ∅, deleting := [] } _ _ _ _ member
      cases none
  | work runId =>
      dsimp only [World.next] at member
      split at member
      · exact .inl member
      · rw [setWorker_deleting] at member
        exact .inl (mem_deleting_act member)
  | panic runId error =>
      dsimp only [World.next] at member
      split at member
      · exact .inl member
      · rw [setWorker_deleting] at member
        exact .inl member
  | start runId request => exact .inl (spawn_deleting ▸ member)
  | continueRun runId old => exact .inl (spawn_deleting ▸ member)
  | createConversation _ _ => exact .inl (mem_deleting_act member)
  | migrateLegacy _ _ _ _ => exact .inl (mem_deleting_act member)
  | rename _ _ => exact .inl (mem_deleting_act member)
  | cancel _ => exact .inl (mem_deleting_act member)
  | edit _ _ _ _ _ => exact .inl (mem_deleting_act member)
  | replace _ _ _ _ _ => exact .inl (mem_deleting_act member)

theorem Admitted.any : Admitted Rules.any world event where
  starts _ _ _ _ := trivial
  saves _ _ _ _ := trivial
  deletes _ := trivial
  replaces _ := trivial

theorem sound_initial : World.initial.Sound where
  store := sound_empty
  workers found := nomatch found
  deleting _ member := nomatch member

/-- Every event keeps a world sound. -/
theorem World.Sound.preserved (sound : world.Sound) (enabled : event.label.enabled world = true) :
    (world.next event).Sound := by
  have evolves := World.evolves sound enabled Admitted.any
  refine ⟨sound.store.evolves evolves, fun {id worker} found => ?_, fun id member => ?_⟩
  · cases comes sound enabled found with
    | kept held => exact ⟨(sound.workers held).1, (sound.workers held).2.evolves evolves⟩
    | failing held => exact ⟨(sound.workers held).1, (sound.workers held).2.evolves evolves⟩
    | @started request run label result =>
        obtain ⟨_, services, now, allowed⟩ := event
        cases label
        obtain ⟨named, written⟩ := start_result sound enabled result
        refine ⟨named, run, ?_, rfl⟩
        dsimp only [World.next]
        rw [spawn_store, act_store]
        exact written
    | @continued old run label result =>
        obtain ⟨_, services, now, allowed⟩ := event
        cases label
        obtain ⟨named, written⟩ := continue_result sound enabled result
        refine ⟨named, run, ?_, rfl⟩
        dsimp only [World.next]
        rw [spawn_store, act_store]
        exact written
    | @stepped before _ label held result =>
        obtain ⟨named, known⟩ := sound.workers held
        have lawful : (before.step event.services event.now).Holds Store.apply (Lawful Rules.any)
            (fun after _ => after.run.origin = before.run.origin) world.store :=
          Worker.step_lawful sound.store known fun _ _ => trivial
        have same : worker.run.origin = before.run.origin := lawful.run_post result
        obtain ⟨row, member, origin⟩ := known.evolves evolves
        exact ⟨(congrArg Origin.id same).trans named, row, member, origin.trans same.symm⟩
  · obtain waits | ⟨result, _, read⟩ := mem_deleting_next member
    · exact (sound.deleting id waits).evolves evolves
    · have ended := (readForDeletion_holds sound.store).unchanged.run_post read
      exact (ended.1 ▸ ended.2).evolves evolves

theorem step_eq_some :
    assistant.step world event = some next ↔
      event.label.enabled world = true ∧ world.next event = next := by
  by_cases enabled : event.label.enabled world = true <;> simp [assistant, enabled]

theorem World.Sound.step (sound : world.Sound) (step : assistant.step world event = some next) :
    next.Sound := by
  obtain ⟨enabled, rfl⟩ := step_eq_some.mp step
  exact sound.preserved enabled

theorem sound_of_reachable (reachable : assistant.Reachable World.initial world) : world.Sound :=
  reachable.invariant World.Sound sound_initial fun sound step => sound.step step

end LawyerAssistance.AiRuns
