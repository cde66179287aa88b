import LawyerAssistance.AiRuns.Invariant

/-!
# When a start is atomic

A start saves the row of its run, and then adds the prompt to the conversation which the
request names and registers a cancellation token. An error behind the first write leaves the
queued row in the store, and no worker is given it. A start is atomic exactly when its checks
refuse the request, its row is not stored, or nothing behind the first write fails.
-/

namespace LawyerAssistance.AiRuns

section Start

variable {services : Services} {now : Nat} {runId : String} {request : AiRunRequest}
  {run : AiRun} {store : Store} {broken : String} {allowed : Option Nat}

/-- What is left of a start behind its first write. -/
def finishStart (services : Services) (now : Nat) (run : AiRun) : Op AiRun := do
  recordPrompt services now run
  Program.lift services.chatCancellations
  pure run

/-- Nothing behind the first write of a start fails: the conversation which the request names is
there, and is stored with its prompt, and the token is registered. -/
def Finishes (services : Services) (now : Nat) (run : AiRun) (store : Store)
    (allowed : Option Nat) : Prop :=
  (∀ conversationId, run.request.conversationId = some conversationId →
    ∃ conversation, store.openConversation services conversationId = .ok conversation ∧
      services.encodes (.conversation
        { conversation with
          messages := conversation.messages ++
            [⟨"user", run.prompt, some run.id, now, run.contextManifest⟩] }) = .ok () ∧
      allowed ≠ some 1) ∧
    services.chatCancellations = .ok ()

theorem start_refused {error : String}
    (refused : prepareRun services now runId request store = .error error) :
    (startAiRun services now runId request).run Store.apply broken store allowed =
      ⟨store, [], .error error⟩ := by
  change ((Program.lift (prepareRun services now runId request store) >>= _ : Op AiRun)).run _ _ _ _ = _
  rw [refused]
  rfl

theorem start_prepared (prepared : prepareRun services now runId request store = .ok run) :
    (startAiRun services now runId request).run Store.apply broken store allowed =
      ((save services (.run run) : Op Unit) >>= fun _ => finishStart services now run).run Store.apply
        broken store allowed := by
  change ((Program.lift (prepareRun services now runId request store) >>= _ : Op AiRun)).run _ _ _ _ = _
  rw [prepared]
  rfl

theorem save_failed {α : Type} {row : Row} {rest : Unit → Op α} {error : String}
    (failed : services.encodes row = .error error) :
    ((save services row : Op Unit) >>= rest).run Store.apply broken store allowed =
      ⟨store, [], .error error⟩ := by
  rw [save, failed, Program.lift_error_bind]
  rfl

theorem save_broken {α : Type} {row : Row} {rest : Unit → Op α}
    (encoded : services.encodes row = .ok ()) :
    ((save services row : Op Unit) >>= rest).run Store.apply broken store (some 0) =
      ⟨store, [], .error broken⟩ := by
  rw [save, encoded, Program.lift_ok_bind]
  rfl

/-- A row which is stored takes one transaction. -/
theorem save_stored {α : Type} {row : Row} {rest : Unit → Op α}
    (encoded : services.encodes row = .ok ()) (accepts : allowed ≠ some 0) :
    ((save services row : Op Unit) >>= rest).run Store.apply broken store allowed =
      (rest ()).run Store.apply broken (store.putRow row) (allowed.map (· - 1)) := by
  rw [save, encoded, Program.lift_ok_bind]
  cases allowed with
  | none => rfl
  | some count =>
      cases count with
      | zero => exact absurd rfl accepts
      | succ count => rfl

/-- A start behind its first write writes no other run. -/
theorem finishStart_written :
    ((finishStart services now run).run Store.apply broken store allowed).state.written =
      store.written := by
  have writes : (finishStart services now run).Holds Store.apply
      (fun now batch => (now.apply batch).written = now.written) (fun _ _ => True) store := by
    simp only [finishStart, recordPrompt, Program.holds_bind, Program.holds_lift]
    split
    · exact fun _ _ => trivial
    · simp only [Program.holds_bind, Program.holds_lift, Program.holds_current]
      exact fun _ _ => save_holds rfl fun _ _ => trivial
  exact writes.run_invariant (fun final => final.written = store.written)
    (fun same kept => kept.trans same) rfl allowed

theorem register_result :
    (∃ result, ((Program.lift services.chatCancellations >>= fun _ => pure run : Op AiRun).run
      Store.apply broken store allowed).result = .ok result) ↔
      services.chatCancellations = .ok () := by
  cases services.chatCancellations with
  | ok value => exact ⟨fun _ => rfl, fun _ => ⟨run, rfl⟩⟩
  | error error => exact ⟨fun ⟨_, ends⟩ => (nomatch ends), fun ends => (nomatch ends)⟩

/-- What is left of a start succeeds exactly when nothing in it fails. -/
theorem finishStart_result (accepts : allowed ≠ some 0) :
    (∃ result, ((finishStart services now run).run Store.apply broken (store.putRow (.run run))
      (allowed.map (· - 1))).result = .ok result) ↔ Finishes services now run store allowed := by
  rw [Finishes]
  cases asks : run.request.conversationId with
  | none =>
      have skipped : recordPrompt services now run = pure () := by simp only [recordPrompt, asks]
      rw [finishStart, skipped]
      exact register_result.trans (by simp)
  | some conversationId =>
      have asked : finishStart services now run = (Program.current >>= fun store =>
          Program.lift (store.openConversation services conversationId) >>= fun conversation =>
          save services (.conversation
            { conversation with
              messages := conversation.messages ++
                [⟨"user", run.prompt, some run.id, now, run.contextManifest⟩] }) >>= fun _ =>
          Program.lift services.chatCancellations >>= fun _ => pure run) := by
        simp only [finishStart, recordPrompt, asks, Program.bind_assoc]
      rw [asked]
      change (∃ result, ((Program.lift (store.openConversation services conversationId) >>= _ :
        Op AiRun).run _ _ _ _).result = .ok result) ↔ _
      cases opened : store.openConversation services conversationId with
      | error error =>
          refine ⟨fun ⟨_, ends⟩ => (nomatch ends), fun ⟨found, _⟩ => ?_⟩
          obtain ⟨_, opens, _⟩ := found conversationId rfl
          rw [opened] at opens
          cases opens
      | ok conversation =>
          rw [Program.lift_ok_bind]
          cases encoded : services.encodes (.conversation
            { conversation with
              messages := conversation.messages ++
                [⟨"user", run.prompt, some run.id, now, run.contextManifest⟩] }) with
          | error error =>
              rw [save_failed encoded]
              refine ⟨fun ⟨_, ends⟩ => (nomatch ends), fun ⟨found, _⟩ => ?_⟩
              obtain ⟨_, opens, encodes, _⟩ := found conversationId rfl
              rw [opened] at opens
              cases opens
              rw [encoded] at encodes
              cases encodes
          | ok value =>
              by_cases second : allowed = some 1
              · subst second
                rw [Option.map_some, save_broken encoded]
                refine ⟨fun ⟨_, ends⟩ => (nomatch ends), fun ⟨found, _⟩ => ?_⟩
                obtain ⟨_, _, _, accepts'⟩ := found conversationId rfl
                exact absurd rfl accepts'
              · have accepts' : allowed.map (· - 1) ≠ some 0 := by
                  match allowed with
                  | none => simp
                  | some 0 => exact absurd rfl accepts
                  | some 1 => exact absurd rfl second
                  | some (count + 2) => simp
                rw [save_stored encoded accepts', register_result]
                refine ⟨fun token => ⟨?_, token⟩, fun ⟨_, token⟩ => token⟩
                rintro _ ⟨⟩
                exact ⟨conversation, opened, encoded, second⟩

end Start

/-! ## The machine -/

section Machine

variable {world : World} {runId : String} {request : AiRunRequest} {services : Services} {now : Nat}
  {allowed : Option Nat}

/-- A start of the assistant which fails changes nothing, for every store and every request,
exactly when its checks refuse the request, its row is not stored, or nothing fails behind the
first write. Otherwise the row of the run stays, and no worker is given it. -/
theorem start_is_atomic_iff :
    (∀ error, (world.outcome ⟨.start runId request, services, now, allowed⟩
        (startAiRun services now runId request)).result = .error error →
      world.next ⟨.start runId request, services, now, allowed⟩ = world) ↔
    ∀ run, prepareRun services now runId request world.store = .ok run →
      services.encodes (.run run) ≠ .ok () ∨ allowed = some 0 ∨
        Finishes services now run world.store allowed := by
  have unchanged : ∀ error, world.outcome ⟨.start runId request, services, now, allowed⟩
      (startAiRun services now runId request) = ⟨world.store, [], .error error⟩ →
      world.next ⟨.start runId request, services, now, allowed⟩ = world := by
    intro error same
    simp only [World.next, World.spawn, World.act, same, World.after, List.foldl_nil]
  cases prepared : prepareRun services now runId request world.store with
  | error error =>
      refine ⟨fun _ run ready => (by cases ready), fun _ _ _ => unchanged error ?_⟩
      exact start_refused prepared
  | ok run =>
      have start : world.outcome ⟨.start runId request, services, now, allowed⟩
          (startAiRun services now runId request) = _ := start_prepared prepared
      cases encoded : services.encodes (.run run) with
      | error error =>
          rw [save_failed encoded] at start
          refine ⟨?_, fun _ _ _ => unchanged error start⟩
          rintro _ _ ⟨⟩
          exact .inl (by simp [encoded])
      | ok value =>
          by_cases accepts : allowed = some 0
          · subst accepts
            rw [save_broken encoded] at start
            refine ⟨fun _ _ _ => .inr (.inl rfl), fun _ _ _ => unchanged _ start⟩
          · rw [save_stored encoded accepts] at start
            have finishing :=
              @finishStart_result services now run world.store "storage_unavailable" allowed accepts
            refine ⟨fun atomic => ?_, fun finishes error failed => ?_⟩
            · rintro _ ⟨⟩
              refine .inr (.inr (finishing.mp ?_))
              cases ends : (world.outcome ⟨.start runId request, services, now, allowed⟩
                (startAiRun services now runId request)).result with
              | ok result =>
                  rw [start] at ends
                  exact ⟨result, ends⟩
              | error error =>
                  -- the row which was saved is still written
                  have kept := congrArg (fun world : World => world.store.written) (atomic error ends)
                  dsimp only [World.next] at kept
                  rw [spawn_store, act_store, start, finishStart_written, putRow_run_written] at kept
                  exact absurd kept (List.cons_ne_self _ _)
            · obtain refused | broken | finished := finishes run rfl
              · exact absurd encoded refused
              · exact absurd broken accepts
              · obtain ⟨result, ends⟩ := finishing.mpr finished
                rw [start, ends] at failed
                cases failed

/-- A search which names a conversation that is not there. -/
def searchWithoutConversation : Event :=
  Label.accepted (.start "run"
    { kind := "search", prompt := "case", conversationId := some "missing" }) .null

/-- The start of such a search fails, and leaves a queued run which no worker has and no deletion
removes. -/
theorem failed_start_leaves_queued_run :
    (World.initial.outcome searchWithoutConversation (startAiRun searchWithoutConversation.services 0
        "run" { kind := "search", prompt := "case", conversationId := some "missing" })).result.toOption.isNone
        = true ∧
      ((World.initial.next searchWithoutConversation).store.runs.get "run").any AiRun.isActive = true ∧
      ((World.initial.next searchWithoutConversation).workers.get "run").isNone = true ∧
      ((World.initial.next searchWithoutConversation).outcome searchWithoutConversation
        (readForDeletion searchWithoutConversation.services "run")).result.toOption.isNone = true := by
  decide

end Machine

end LawyerAssistance.AiRuns
