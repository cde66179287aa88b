import LawyerAssistance.AiRuns.Invariant

/-!
# One active run of a conversation

A chat is refused while its conversation has an active run, and a run which is resumed belongs
to no conversation. A search or a document may name a conversation as well, and for these
nothing is checked. When each of them starts while its conversation is idle, every conversation
has one active run at most, and the run of its last prompt stays until it has ended.
-/

namespace LawyerAssistance.AiRuns

open Storage

/-! ## Idle conversations -/

/-- No run of a conversation is queued or running. -/
def Store.Idle (store : Store) (conversationId : String) : Prop :=
  ∀ {id run}, store.runs.get id = some run → run.isActive = true →
    run.request.conversationId ≠ some conversationId

/-- The run which a prompt belongs to. -/
def ConversationMessage.promptOf (message : ConversationMessage) : Option String :=
  if message.role = "user" then message.runId else none

/-- The runs of the prompts of a conversation, the oldest first. -/
def AiConversation.prompts (conversation : AiConversation) : List String :=
  conversation.messages.filterMap ConversationMessage.promptOf

/-- The latest run which a conversation records. -/
def AiConversation.latestRun (conversation : AiConversation) : Option String :=
  conversation.prompts.getLast?

/-- A search or a document which names a conversation is started while it is idle. -/
def StartsAlone (world : World) (event : Event) : Prop :=
  ∀ {runId request}, event.label = .start runId request → request.kind ≠ "chat" →
    ∀ conversationId, request.conversationId = some conversationId →
      world.store.Idle conversationId

/-- The rules of runs which start alone. -/
def aloneRules : Rules := { Rules.any with admits := Store.Idle }

/-! ## The invariant -/

/-- A conversation has one active run at most, and an active run which has a prompt in it is
the latest one. -/
structure Store.Exclusive (store : Store) : Prop where
  alone : ∀ {conversationId first second a b}, store.runs.get first = some a →
    store.runs.get second = some b → a.isActive = true → b.isActive = true →
    a.request.conversationId = some conversationId → b.request.conversationId = some conversationId →
    first = second
  latest : ∀ {conversationId conversation id run},
    store.conversations.get conversationId = some conversation → store.runs.get id = some run →
    run.isActive = true → id ∈ conversation.prompts → conversation.latestRun = some id
  prompts : ∀ {conversationId conversation id},
    store.conversations.get conversationId = some conversation → id ∈ conversation.prompts →
    ∃ row ∈ store.written, row.id = id ∧ row.request.conversationId = some conversationId

section Moves

variable {rules : Rules} {store next : Store}

theorem exclusive_empty : Store.empty.Exclusive where
  alone found := nomatch found
  latest found := nomatch found
  prompts found := nomatch found

/-- An active run which is created is alone in its conversation. -/
theorem Created.idle {run : AiRun} {conversationId : String} (sound : store.Sound)
    (created : Created aloneRules store run) (active : run.isActive = true)
    (asks : run.request.conversationId = some conversationId) : store.Idle conversationId := by
  intro id other found otherActive same
  cases created with
  | chat kind asks' found' known manifest materials attachments idle messages =>
      obtain rfl := Option.some.inj (asks'.symm.trans asks)
      exact not_mem_relations_of_idle idle found otherActive
        (conversation_mem_relations (sound.named found').2 same)
  | plain kind manifest messages admitted => exact admitted _ asks found otherActive same
  | copied old kind asks' manifest messages apart =>
      obtain ⟨inactive, _⟩ | outside := apart
      · rw [inactive] at active
        cases active
      · rw [outside] at asks
        cases asks

/-- A run which is written is alone when no other run of its conversation is active. -/
theorem Store.Exclusive.putRun (exclusive : store.Exclusive) {run : AiRun}
    (others : ∀ {conversationId id other}, run.isActive = true →
      run.request.conversationId = some conversationId → store.runs.get id = some other →
      other.isActive = true → other.request.conversationId = some conversationId → run.id = id)
    (latest : ∀ {conversationId conversation},
      store.conversations.get conversationId = some conversation → run.isActive = true →
      run.id ∈ conversation.prompts → conversation.latestRun = some run.id) :
    (store.putRow (.run run)).Exclusive where
  alone := by
    intro conversationId first second a b inFirst inSecond activeFirst activeSecond asks asks'
    rw [putRow_run_runs, Table.get_put] at inFirst inSecond
    split_ifs at inFirst with key <;> split_ifs at inSecond with key'
    · exact key.trans key'.symm
    · cases inFirst
      exact key.trans (others activeFirst asks inSecond activeSecond asks')
    · cases inSecond
      exact (key'.trans (others activeSecond asks' inFirst activeFirst asks)).symm
    · exact exclusive.alone inFirst inSecond activeFirst activeSecond asks asks'
  latest := by
    intro conversationId conversation id found stored here active prompt
    rw [putRow_run_runs, Table.get_put] at here
    split_ifs at here with key
    · cases here
      subst key
      exact latest stored active prompt
    · exact exclusive.latest stored here active prompt
  prompts := by
    intro conversationId conversation id stored prompt
    obtain ⟨row, member, named, asks⟩ := exclusive.prompts stored prompt
    exact ⟨row, List.mem_cons_of_mem _ member, named, asks⟩

/-- A conversation which is written keeps the invariant when its prompts do. -/
theorem Store.Exclusive.putConversation (exclusive : store.Exclusive)
    {conversation : AiConversation}
    (latest : ∀ {id run}, store.runs.get id = some run → run.isActive = true →
      id ∈ conversation.prompts → conversation.latestRun = some id)
    (prompts : ∀ {id}, id ∈ conversation.prompts → ∃ row ∈ store.written, row.id = id ∧
      row.request.conversationId = some conversation.id) :
    (store.putRow (.conversation conversation)).Exclusive where
  alone := exclusive.alone
  latest := by
    intro conversationId stored id run here found active prompt
    rw [putRow_conversation_conversations, Table.get_put] at here
    split_ifs at here with key
    · cases here
      exact latest found active prompt
    · exact exclusive.latest here found active prompt
  prompts := by
    intro conversationId stored id here prompt
    rw [putRow_conversation_conversations, Table.get_put] at here
    split_ifs at here with key
    · cases here
      rw [key]
      exact prompts prompt
    · exact exclusive.prompts here prompt

/-- A conversation which is written with the prompts from before. -/
theorem Store.Exclusive.putConversation_same (exclusive : store.Exclusive)
    {old conversation : AiConversation}
    (found : store.conversations.get conversation.id = some old)
    (prompts : conversation.prompts = old.prompts) :
    (store.putRow (.conversation conversation)).Exclusive := by
  refine exclusive.putConversation (fun stored active prompt => ?_) fun prompt => ?_
  · rw [AiConversation.latestRun, prompts]
    exact exclusive.latest found stored active (prompts ▸ prompt)
  · exact exclusive.prompts found (prompts ▸ prompt)

theorem prompts_append {old conversation : AiConversation} {message : ConversationMessage}
    (messages : conversation.messages = old.messages ++ [message]) :
    conversation.prompts = old.prompts ++ message.promptOf.toList := by
  rw [AiConversation.prompts, messages, List.filterMap_append, AiConversation.prompts]
  cases named : message.promptOf <;> simp [named]

/-- A conversation which is written as a move does keeps the invariant. -/
theorem Store.Exclusive.putConversation_change (exclusive : store.Exclusive) (sound : store.Sound)
    {conversation : AiConversation} (change : Change rules store (.conversation conversation)) :
    (store.putRow (.conversation conversation)).Exclusive := by
  obtain ⟨_, noRuns⟩ | ⟨old, found, same | ⟨message, same, recorded⟩⟩ := change.messages
  · have none : ∀ {id}, id ∉ conversation.prompts := by
      intro id member
      obtain ⟨message, inMessages, prompt⟩ := List.mem_filterMap.mp member
      rw [ConversationMessage.promptOf, noRuns message inMessages, ite_self] at prompt
      cases prompt
    exact exclusive.putConversation (fun _ _ prompt => absurd prompt none)
      fun prompt => absurd prompt none
  · have prompts : conversation.prompts = old.prompts := by
      rw [AiConversation.prompts, same, AiConversation.prompts]
    exact exclusive.putConversation_same found prompts
  · have appended := prompts_append same
    cases recorded with
    | answer role member asks named manifest =>
        have noPrompt : message.promptOf = none := by
          rw [ConversationMessage.promptOf, role]
          rfl
        rw [noPrompt, Option.toList_none, List.append_nil] at appended
        exact exclusive.putConversation_same found appended
    | @prompt run role stored active asks named manifest =>
        have asked : message.promptOf = some run.id := by
          rw [ConversationMessage.promptOf, role, if_pos rfl, named]
        rw [asked, Option.toList_some] at appended
        refine exclusive.putConversation (fun {id other} found' active' prompt => ?_)
          fun {id} prompt => ?_
        · have here : run.id = id := by
            rw [appended, List.mem_append, List.mem_singleton] at prompt
            obtain before | rfl := prompt
            · -- an earlier prompt of an active run is of this run
              obtain ⟨row, member, rowId, asks'⟩ := exclusive.prompts found before
              obtain ⟨keyed, inWritten⟩ := sound.keyed found'
              have origin := sound.origins inWritten member (keyed.trans rowId.symm)
              have requests : other.request = row.request := congrArg Origin.request origin
              rw [← requests] at asks'
              exact exclusive.alone stored found' active active' asks asks'
            · rfl
          rw [AiConversation.latestRun, appended, here, List.getLast?_concat]
        · rw [appended, List.mem_append, List.mem_singleton] at prompt
          obtain before | rfl := prompt
          · exact exclusive.prompts found before
          · exact ⟨run, (sound.keyed stored).2, rfl, asks⟩

/-- Every move of runs which start alone keeps the invariant. -/
theorem Store.Exclusive.move (exclusive : store.Exclusive) (sound : store.Sound)
    (move : Move aloneRules store next) : next.Exclusive := by
  cases move with
  | @delete removed _ ended =>
      have kept : ∀ {id run}, (store.runs.remove removed).get id = some run →
          store.runs.get id = some run := by
        intro id run found
        rw [Table.get_remove] at found
        split_ifs at found
        exact found
      exact ⟨fun first second => exclusive.alone (kept first) (kept second),
        fun stored found => exclusive.latest stored (kept found), exclusive.prompts⟩
  | @write row change =>
      cases row with
      | conversation conversation => exact exclusive.putConversation_change sound change
      | run run =>
          cases change with
          | createRun fresh created =>
              refine exclusive.putRun (fun active asks found active' asks' => ?_)
                fun stored active prompt => ?_
              · exact absurd asks' (created.idle sound active asks found active')
              · obtain ⟨row, member, named, _⟩ := exclusive.prompts stored prompt
                exact absurd named (unwritten_iff.mp fresh row member)
          | @updateRun old _ found active origin messages =>
              have requests : old.request = run.request := congrArg Origin.request origin
              refine exclusive.putRun (fun _ asks found' active' asks' => ?_)
                fun stored _ prompt => ?_
              · rw [← requests] at asks
                exact exclusive.alone found found' active active' asks asks'
              · exact exclusive.latest stored found active prompt

/-- A conversation stays, with its prompts. -/
theorem Move.prompts_subset {conversationId id : String} (move : Move rules store next)
    (prompted : ∃ conversation, store.conversations.get conversationId = some conversation ∧
      id ∈ conversation.prompts) :
    ∃ conversation, next.conversations.get conversationId = some conversation ∧
      id ∈ conversation.prompts := by
  obtain ⟨before, stored, prompt⟩ := prompted
  cases move with
  | delete _ _ => exact ⟨before, stored, prompt⟩
  | @write row change =>
      cases row with
      | run run => exact ⟨before, stored, prompt⟩
      | conversation conversation =>
          rw [putRow_conversation_conversations, Table.get_put]
          split_ifs with key
          · subst key
            refine ⟨conversation, rfl, ?_⟩
            obtain ⟨absent, _⟩ | ⟨old, found, same | ⟨message, same, _⟩⟩ := change.messages
            · rw [stored] at absent
              cases absent
            · obtain rfl := Option.some.inj (stored.symm.trans found)
              rw [AiConversation.prompts, same]
              exact prompt
            · obtain rfl := Option.some.inj (stored.symm.trans found)
              rw [prompts_append same]
              exact List.mem_append_left _ prompt
          · exact ⟨before, stored, prompt⟩

end Moves

/-! ## Runs of the assistant -/

section Runs

variable {world next : World} {event : Event}

/-- An event which starts alone keeps the invariant. -/
theorem exclusive_step (sound : world.Sound) (exclusive : world.store.Exclusive)
    (alone : StartsAlone world event) (step : assistant.step world event = some next) :
    next.store.Exclusive := by
  obtain ⟨enabled, rfl⟩ := step_eq_some.mp step
  have evolves : Evolves aloneRules world.store (world.next event).store :=
    World.evolves sound enabled ⟨alone, fun _ _ _ _ => trivial, fun _ => trivial, fun _ => trivial⟩
  have both : (world.next event).store.Sound ∧ (world.next event).store.Exclusive :=
    evolves.invariant (fun now => now.Sound ∧ now.Exclusive)
      (fun holds move => ⟨holds.1.move move, holds.2.move holds.1 move⟩) ⟨sound.store, exclusive⟩
  exact both.2

/-- The worlds of a run whose searches and documents start alone. -/
theorem exclusive_run {events : List Event} {final : World} (sound : world.Sound)
    (exclusive : world.store.Exclusive)
    (alone : assistant.Along (fun world event _ => StartsAlone world event) world events)
    (runs : assistant.run world events = some final) : final.Sound ∧ final.store.Exclusive := by
  induction events generalizing world with
  | nil =>
      cases runs
      exact ⟨sound, exclusive⟩
  | cons event rest inductionHypothesis =>
      obtain ⟨next, step, runs⟩ := assistant.run_cons_eq_some.mp runs
      obtain ⟨here, later⟩ := alone next step
      exact inductionHypothesis (sound.step step) (exclusive_step sound exclusive here step) later runs

/-- When every search and every document which names a conversation starts while it is idle, no
conversation ever has two active runs, and no event replaces the latest run of a conversation
while that run is active. -/
theorem conversations_run_alone {events : List Event}
    (alone : assistant.Along (fun world event _ => StartsAlone world event) World.initial events)
    (runs : assistant.run World.initial events = some world) :
    (∀ {conversationId first second a b}, world.store.runs.get first = some a →
      world.store.runs.get second = some b → a.isActive = true → b.isActive = true →
      a.request.conversationId = some conversationId →
      b.request.conversationId = some conversationId → first = second) ∧
    ∀ {event next conversationId conversation id}, StartsAlone world event →
      assistant.step world event = some next →
      world.store.conversations.get conversationId = some conversation →
      conversation.latestRun = some id →
      ∃ later, next.store.conversations.get conversationId = some later ∧
        (later.latestRun = some id ∨
          ∀ run, next.store.runs.get id = some run → run.isActive = false) := by
  obtain ⟨sound, exclusive⟩ := exclusive_run sound_initial exclusive_empty alone runs
  refine ⟨exclusive.alone, fun {event next conversationId conversation id} here step stored latest => ?_⟩
  have exclusive' := exclusive_step sound exclusive here step
  obtain ⟨enabled, rfl⟩ := step_eq_some.mp step
  have prompt : id ∈ conversation.prompts := List.mem_of_getLast? latest
  obtain ⟨later, stored', prompt'⟩ := (World.evolves sound enabled Admitted.any).invariant
    (fun now => ∃ conversation, now.conversations.get conversationId = some conversation ∧
      id ∈ conversation.prompts)
    (fun prompted move => move.prompts_subset prompted) ⟨conversation, stored, prompt⟩
  refine ⟨later, stored', ?_⟩
  by_cases active : ∃ run, (world.next event).store.runs.get id = some run ∧ run.isActive = true
  · obtain ⟨run, found, active⟩ := active
    exact .inl (exclusive'.latest stored' found active prompt')
  · refine .inr fun run found => ?_
    by_contra other
    exact active ⟨run, found, by simpa using other⟩

/-- A new conversation and a chat in it. -/
def chatAlone : List Event :=
  [Label.createConversation "conversation" none,
    .start "chat"
      { kind := "chat"
        prompt := "question"
        conversationId := some "conversation"
        contextRevision := some 1
        contextPreparationHash := some "prepared" }].map fun label => label.accepted .null

/-- A search in the same conversation. -/
def searchBeside : Event :=
  Label.accepted (.start "search"
    { kind := "search", prompt := "case", conversationId := some "conversation" }) .null

/-- A chat alone in its conversation. -/
theorem conversations_run_alone_for_chat :
    ∃ world, assistant.run World.initial chatAlone = some world ∧
      world.store.activeIds = ["chat"] ∧
      ∀ {first second a b}, world.store.runs.get first = some a →
        world.store.runs.get second = some b → a.isActive = true → b.isActive = true →
        a.request.conversationId = some "conversation" →
        b.request.conversationId = some "conversation" → first = second := by
  have runs : ((assistant.run World.initial chatAlone).any fun world =>
      world.store.activeIds == ["chat"]) = true := by
    decide
  obtain ⟨world, runs, active⟩ := (Option.any_eq_true _ _).mp runs
  have alone : assistant.Along (fun world event _ => StartsAlone world event) World.initial
      chatAlone := by
    refine fun _ _ => ⟨fun label => (nomatch label), fun _ _ => ⟨fun label plain => ?_, trivial⟩⟩
    cases label
    exact absurd rfl plain
  exact ⟨world, runs, eq_of_beq active, (conversations_run_alone alone runs).1⟩

/-- A search which names the conversation of an active chat is a second active run, and the latest
one of the conversation. -/
theorem search_runs_beside_chat :
    ∃ world, assistant.run World.initial (chatAlone ++ [searchBeside]) = some world ∧
      (world.store.runs.get "chat").any (fun run => run.isActive &&
        run.request.conversationId == some "conversation") = true ∧
      (world.store.runs.get "search").any (fun run => run.isActive &&
        run.request.conversationId == some "conversation") = true ∧
      (world.store.conversations.get "conversation").any (fun conversation =>
        conversation.latestRun == some "search") = true := by
  have runs : ((assistant.run World.initial (chatAlone ++ [searchBeside])).any fun world =>
      (world.store.runs.get "chat").any (fun run => run.isActive &&
        run.request.conversationId == some "conversation") &&
      ((world.store.runs.get "search").any (fun run => run.isActive &&
        run.request.conversationId == some "conversation") &&
      (world.store.conversations.get "conversation").any fun conversation =>
        conversation.latestRun == some "search")) = true := by
    decide
  obtain ⟨world, runs, both⟩ := (Option.any_eq_true _ _).mp runs
  rw [Bool.and_eq_true, Bool.and_eq_true] at both
  exact ⟨world, runs, both⟩

end Runs

end LawyerAssistance.AiRuns
