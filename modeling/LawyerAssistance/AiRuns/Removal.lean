import LawyerAssistance.AiRuns.Contexts

/-!
# Removed context is not used

A history is taken from the turns whose messages all have a context which the conversation
selects when it is read. So after a replacement, and until the next one, neither an active chat
nor a turn of a history which is taken has a context which the replacement does not contain.
-/

namespace LawyerAssistance.AiRuns

open Storage

/-! ## Turns of a history -/

section Turns

variable {services : Services} {messages : List ConversationMessage} {turn : String}

/-- The turns which fit are turns which were offered. -/
theorem mem_of_mem_selectTurns {ids selected : List String} {remaining : Nat}
    (done : selectTurns services messages ids remaining = .ok selected)
    (member : turn ∈ selected) : turn ∈ ids := by
  induction ids generalizing selected remaining with
  | nil =>
      cases done
      cases member
  | cons first older inductionHypothesis =>
      rw [selectTurns] at done
      split_ifs at done
      · exact List.mem_cons_of_mem _ (inductionHypothesis done member)
      · obtain ⟨_, _, done⟩ := bind_eq_ok.mp done
        obtain ⟨others, selectedOthers, done⟩ := bind_eq_ok.mp done
        cases done
        obtain rfl | later := List.mem_cons.mp member
        · exact List.mem_cons_self
        · exact List.mem_cons_of_mem _ (inductionHypothesis selectedOthers later)

/-- A permitted turn has a message whose context is contained in the current one. -/
theorem message_of_permitted {current : AiContextManifest}
    (member : turn ∈ historyTurnIdsForContext messages current) :
    ∃ message ∈ messages, message.runId = some turn ∧ ∃ manifest,
      message.contextManifest = some manifest ∧ contextContainsManifest current manifest = true := by
  obtain ⟨_, permitted⟩ := List.mem_filter.mp member
  rw [permittedTurn, Bool.and_eq_true, Bool.and_eq_true] at permitted
  obtain ⟨⟨asked, _⟩, all⟩ := permitted
  obtain ⟨message, inTurn, _⟩ := List.any_eq_true.mp asked
  obtain ⟨inMessages, named⟩ := List.mem_filter.mp inTurn
  have allowed := List.all_eq_true.mp all message inTurn
  rw [permittedMessage, Bool.and_eq_true] at allowed
  obtain ⟨manifest, context, contained⟩ := (Option.any_eq_true _ _).mp allowed.2
  exact ⟨message, inMessages, eq_of_beq named, manifest, context, contained⟩

/-- A history of a conversation has permitted turns of it only. -/
def PermittedHistory (store : Store) (what : Signal) : Prop :=
  ∀ runId conversationId turns, what = .history runId conversationId turns →
    ∃ conversation, store.conversations.get conversationId = some conversation ∧
      ∀ turn ∈ turns,
        turn ∈ historyTurnIdsForContext conversation.messages (contextManifest conversation)

/-- The history of a run is taken from its conversation as it is stored. -/
theorem selectHistory_emits {store : Store} {run : AiRun} {remainingTokens : Nat} :
    (selectHistory services run remainingTokens).Emits Store.apply (PermittedHistory store)
      store := by
  unfold selectHistory
  split
  · trivial
  · next conversationId asks =>
      change (Program.lift (store.openConversation services conversationId) >>= _ :
        Op (List String × List (String × String))).Emits _ _ _
      refine Program.emits_lift_bind.mpr fun conversation opened => ?_
      refine Program.emits_lift_bind.mpr fun newestFirst selected => ⟨?_, trivial⟩
      rintro runId other turns ⟨⟩
      refine ⟨conversation, openConversation_found opened, fun turn member => ?_⟩
      exact List.mem_reverse.mp (mem_of_mem_selectTurns selected (List.mem_reverse.mp member))

theorem initialAiMessages_emits {store : Store} {run : AiRun} :
    (initialAiMessages services run).Emits Store.apply (PermittedHistory store) store := by
  refine Program.emits_lift_bind.mpr fun _ _ => Program.emits_lift_bind.mpr fun _ _ => ?_
  refine Program.emits_bind.mpr ⟨selectHistory_emits, selectHistory_holds ?_⟩
  rintro ⟨turns, history⟩
  exact Program.emits_lift_bind.mpr fun _ _ => trivial

end Turns

/-! ## One event -/

section Events

variable {world : World} {event : Event}

/-- The histories which an event takes have permitted turns. -/
theorem histories_next :
    ∃ taken, (world.next event).histories = taken ++ world.histories ∧
      ∀ entry ∈ taken, PermittedHistory world.store (.history entry.1 entry.2.1 entry.2.2) := by
  obtain ⟨taken, same, sent⟩ := (@next_sent world event).histories
  refine ⟨taken, same, fun entry member => ?_⟩
  obtain ⟨_, impossible⟩ | ⟨runId, worker, _, _, sentNow⟩ := sent entry member
  · cases impossible
  · have may : worker.MaySend (.history entry.1 entry.2.1 entry.2.2) :=
      Program.Always.run_signals (Worker.step_sends event.services event.now worker) sentNow
    have phase := may.reading
    have emits : (worker.step event.services event.now).Emits Store.apply
        (PermittedHistory world.store) world.store := by
      simp only [Worker.step, phase]
      exact Program.emits_bind.mpr ⟨initialAiMessages_emits, initialAiMessages_holds fun _ _ => trivial⟩
    exact emits.run_signals sentNow

/-- The sources and ranges which a conversation selects. -/
def Store.Selects (store : Store) (conversationId : String) (manifest : AiContextManifest) : Prop :=
  ∃ conversation, store.conversations.get conversationId = some conversation ∧
    conversation.materials = manifest.materials ∧
    conversation.attachmentIds = manifest.attachmentIds ∧
    conversation.contextRanges = manifest.contextRanges

/-- A selection stays when it is not replaced. -/
theorem Store.Selects.move {rules : Rules} {store next : Store} {conversationId : String}
    {manifest : AiContextManifest} (selects : store.Selects conversationId manifest)
    (kept : ¬ rules.replaces conversationId) (move : Move rules store next) :
    next.Selects conversationId manifest := by
  obtain ⟨before, stored, materials, attachments, ranges⟩ := selects
  cases move with
  | delete _ _ => exact ⟨before, stored, materials, attachments, ranges⟩
  | @write row change =>
      cases row with
      | run run => exact ⟨before, stored, materials, attachments, ranges⟩
      | conversation conversation =>
          rw [Store.Selects, putRow_conversation_conversations, Table.get_put]
          split_ifs with key
          · subst key
            refine ⟨conversation, rfl, ?_⟩
            cases change with
            | createConversation absent _ _ _ =>
                rw [stored] at absent
                cases absent
            | keepContext found context _ =>
                obtain rfl := Option.some.inj (stored.symm.trans found)
                exact ⟨context.1.trans materials, context.2.1.trans attachments,
                  context.2.2.1.trans ranges⟩
            | replaceContext allowed _ _ _ _ _ => exact absurd allowed kept
          · exact ⟨before, stored, materials, attachments, ranges⟩

/-- An event which replaces the context of a conversation. -/
def Replaces (id : String) (world : World) (event : Event) : Prop :=
  ∃ expectedRevision materials attachmentIds ranges,
    event.label = .replace id expectedRevision materials attachmentIds ranges ∧
      (world.outcome event (replaceAiConversationContext event.services event.now id
        expectedRevision materials attachmentIds ranges)).result = .ok ()

theorem sendAll_result {signals : List Signal} {broken : String} {store : Store}
    {allowed : Option Nat} :
    ((sendAll signals).run Store.apply broken store allowed).result = .ok () := by
  induction signals with
  | nil => rfl
  | cons first rest inductionHypothesis => exact inductionHypothesis

section Replacement

variable {services : Services} {now : Nat} {id : String} {expectedRevision : Nat}
  {materials : List AiMaterialReference} {attachmentIds : List String}
  {ranges : List AiContextRangeSelection} {store : Store}

/-- A replacement which fails changes nothing. -/
theorem replace_failed {broken error : String} {allowed : Option Nat}
    (failed : ((replaceAiConversationContext services now id expectedRevision materials attachmentIds
      ranges).run Store.apply broken store allowed).result = .error error) :
    ((replaceAiConversationContext services now id expectedRevision materials attachmentIds
      ranges).run Store.apply broken store allowed).state = store := by
  have start : (replaceAiConversationContext services now id expectedRevision materials attachmentIds
      ranges).run Store.apply broken store allowed = ((Program.lift (replacement services now id
        expectedRevision materials attachmentIds ranges store) >>= fun found => do
          Program.commit (.put (.conversation found.1 :: found.2.map .run))
          sendAll (found.2.map fun run => .cancelToken run.id) : Op Unit)).run Store.apply broken
        store allowed := rfl
  rw [start] at failed ⊢
  cases replaced : replacement services now id expectedRevision materials attachmentIds ranges
      store with
  | error error => rfl
  | ok found =>
      rw [replaced, Program.lift_ok_bind] at failed
      rw [Program.lift_ok_bind]
      match allowed with
      | some 0 => rfl
      | some (count + 1) =>
          have sent : Except.error error = Except.ok () := failed.symm.trans sendAll_result
          cases sent
      | none =>
          have sent : Except.error error = Except.ok () := failed.symm.trans sendAll_result
          cases sent

/-- A replacement which succeeds selects what it was asked for. -/
theorem replace_selects (sound : store.Sound) :
    (replaceAiConversationContext services now id expectedRevision materials attachmentIds
      ranges).Holds Store.apply (fun _ _ => True)
      (fun _ final => ∃ current : AiContextManifest, current.materials = materials ∧
        current.attachmentIds = attachmentIds ∧
        canonicalContextRangesMetadata services materials attachmentIds ranges =
          .ok current.contextRanges ∧ final.Selects id current) store := by
  simp only [replaceAiConversationContext, Program.holds_bind, Program.holds_lift,
    Program.holds_current]
  rintro ⟨replaced, cancelled⟩ done
  obtain ⟨old, done⟩ := replacement_eq_ok done
  have named : replaced.id = id := done.named.trans (sound.named done.found).1
  simp only [Program.holds_commit]
  refine ⟨trivial, sendAll_holds ⟨contextManifest replaced, done.materials, done.attachments, ?_, ?_⟩⟩
  · rw [← done.materials, ← done.attachments]
    exact done.ranges
  · refine ⟨replaced, ?_, rfl, rfl, rfl⟩
    rw [Store.apply, List.foldl_cons, putRuns_putConversation, putRow_conversation_conversations,
      named, Table.get_put_self]

end Replacement

/-- An event which does not replace the context of a conversation keeps its selection. -/
theorem selects_next {id : String} {manifest : AiContextManifest} (sound : world.Sound)
    (enabled : event.label.enabled world = true) (kept : ¬ Replaces id world event)
    (selects : world.store.Selects id manifest) : (world.next event).store.Selects id manifest := by
  by_cases replaces : ∃ expectedRevision materials attachmentIds ranges,
      event.label = .replace id expectedRevision materials attachmentIds ranges
  · obtain ⟨expectedRevision, materials, attachmentIds, ranges, label⟩ := replaces
    obtain ⟨_, services, now, allowed⟩ := event
    obtain rfl : _ = _ := label
    have unchanged : (world.next ⟨.replace id expectedRevision materials attachmentIds ranges,
        services, now, allowed⟩).store = world.store := by
      rw [World.next]
      refine act_store.trans ?_
      cases result : (world.outcome ⟨.replace id expectedRevision materials attachmentIds ranges,
        services, now, allowed⟩ (replaceAiConversationContext services now id expectedRevision
          materials attachmentIds ranges)).result with
      | ok done => exact absurd ⟨_, _, _, _, rfl, result⟩ kept
      | error error => exact replace_failed result
    rw [unchanged]
    exact selects
  · have evolves : Evolves { Rules.any with replaces := fun other => other ≠ id } world.store
        (world.next event).store := by
      refine World.evolves sound enabled
        ⟨fun _ _ _ _ => trivial, fun _ _ _ _ => trivial, fun _ => trivial, ?_⟩
      rintro other expectedRevision materials attachmentIds ranges label rfl
      exact replaces ⟨_, _, _, _, label⟩
    refine evolves.invariant (fun now => now.Selects id manifest) (fun holds move => ?_) selects
    exact holds.move (fun other : id ≠ id => other rfl) move

end Events

/-! ## Runs of the assistant -/

section Runs

variable {world final : World}

/-- A turn whose run used nothing which is not selected. -/
def Store.TurnWithin (store : Store) (manifest : AiContextManifest) (turn : String) : Prop :=
  ∃ row ∈ store.written, row.id = turn ∧ ∃ context, row.contextManifest = some context ∧
    contextContainsManifest manifest context = true

/-- The turns of a permitted history are within the selection of the conversation. -/
theorem turnWithin_of_permitted {store : Store} {id runId turn : String} {turns : List String}
    {manifest : AiContextManifest} (contexts : store.Contexts) (selects : store.Selects id manifest)
    (permitted : PermittedHistory store (.history runId id turns)) (member : turn ∈ turns) :
    store.TurnWithin manifest turn := by
  obtain ⟨conversation, stored, materials, attachments, ranges⟩ := selects
  obtain ⟨other, stored', within⟩ := permitted _ _ _ rfl
  obtain rfl := Option.some.inj (stored.symm.trans stored')
  obtain ⟨message, inMessages, named, context, attached, contained⟩ :=
    message_of_permitted (within turn member)
  obtain ⟨row, written, rowId, same⟩ := contexts.attributed stored inMessages named
  refine ⟨row, written, rowId, context, same.trans attached, ?_⟩
  exact (contextContainsManifest_congr materials attachments ranges).symm.trans contained

/-- Along events which do not replace the context of a conversation, its selection is kept, and
the histories which are taken of it are within the selection. -/
theorem selects_run {id : String} {manifest : AiContextManifest} {events : List Event}
    (sound : world.Sound) (contexts : world.store.Contexts)
    (selects : world.store.Selects id manifest)
    (kept : assistant.Along (fun world event _ => ¬ Replaces id world event) world events)
    (runs : assistant.run world events = some final) :
    final.Sound ∧ final.store.Contexts ∧ final.store.Selects id manifest ∧
      (∀ row ∈ world.store.written, row ∈ final.store.written) ∧
      ∃ taken, final.histories = taken ++ world.histories ∧
        ∀ entry ∈ taken, entry.2.1 = id → ∀ turn ∈ entry.2.2,
          final.store.TurnWithin manifest turn := by
  induction events generalizing world with
  | nil =>
      cases runs
      exact ⟨sound, contexts, selects, fun _ member => member, [], rfl, fun _ member => nomatch member⟩
  | cons event rest inductionHypothesis =>
      obtain ⟨next, step, runs⟩ := assistant.run_cons_eq_some.mp runs
      obtain ⟨here, later⟩ := kept next step
      obtain ⟨enabled, rfl⟩ := step_eq_some.mp step
      have evolves := World.evolves sound enabled Admitted.any
      obtain ⟨sound', contexts', selects', written, taken, histories, within⟩ :=
        inductionHypothesis (sound.preserved enabled) (contexts.evolves sound.store evolves)
          (selects_next sound enabled here selects) later runs
      obtain ⟨now, historiesNow, permitted⟩ := @histories_next world event
      refine ⟨sound', contexts', selects', fun row member => written row (evolves.written_subset member),
        taken ++ now, by rw [histories, historiesNow, List.append_assoc], ?_⟩
      intro entry member ofConversation turn inTurns
      obtain inTaken | inNow := List.mem_append.mp member
      · exact within entry inTaken ofConversation turn inTurns
      · obtain ⟨row, inWritten, used⟩ := turnWithin_of_permitted contexts selects
          (ofConversation ▸ permitted entry inNow) inTurns
        exact ⟨row, written row (evolves.written_subset inWritten), used⟩

/-- After the context of a conversation was replaced, and until it is replaced again, every queued
or running chat of the conversation has a context which is contained in the new one, and so has
the run of every turn which becomes part of a history of the conversation. -/
theorem removed_context_is_not_used {before after : List Event} {replaced : World}
    {services : Services} {now : Nat} {allowed : Option Nat} {id : String} {expectedRevision : Nat}
    {materials : List AiMaterialReference} {attachmentIds : List String}
    {ranges : List AiContextRangeSelection}
    (reached : assistant.run World.initial before = some world)
    (step : assistant.step world
      ⟨.replace id expectedRevision materials attachmentIds ranges, services, now, allowed⟩ =
        some replaced)
    (succeeds : (world.outcome
      ⟨.replace id expectedRevision materials attachmentIds ranges, services, now, allowed⟩
      (replaceAiConversationContext services now id expectedRevision materials attachmentIds
        ranges)).result = .ok ())
    (kept : assistant.Along (fun world event _ => ¬ Replaces id world event) replaced after)
    (runs : assistant.run replaced after = some final) :
    ∃ current : AiContextManifest, current.materials = materials ∧
      current.attachmentIds = attachmentIds ∧
      canonicalContextRangesMetadata services materials attachmentIds ranges =
        .ok current.contextRanges ∧
      (∀ {runId run}, final.store.runs.get runId = some run → run.isActive = true →
        run.kind = "chat" → run.request.conversationId = some id →
        ∃ context, run.contextManifest = some context ∧
          contextContainsManifest current context = true) ∧
      ∃ taken, final.histories = taken ++ replaced.histories ∧
        ∀ entry ∈ taken, entry.2.1 = id → ∀ turn ∈ entry.2.2,
          ∀ row ∈ final.store.written, row.id = turn →
            ∃ context, row.contextManifest = some context ∧
              contextContainsManifest current context = true := by
  have sound := sound_of_reachable ⟨before, reached⟩
  have contexts := contexts_of_reachable ⟨before, reached⟩
  have sound' := sound.step step
  obtain ⟨enabled, rfl⟩ := step_eq_some.mp step
  have contexts' := contexts.evolves sound.store (World.evolves sound enabled Admitted.any)
  obtain ⟨current, ofMaterials, ofAttachments, canonical, selects⟩ :=
    (replace_selects sound.store).run_post succeeds
  have selects' : (world.next ⟨.replace id expectedRevision materials attachmentIds ranges, services,
      now, allowed⟩).store.Selects id current := by
    rw [World.next]
    exact act_store ▸ selects
  obtain ⟨soundFinal, contextsFinal, ⟨conversation, stored, selected⟩, _, taken, histories, within⟩ :=
    selects_run sound' contexts' selects' kept runs
  refine ⟨current, ofMaterials, ofAttachments, canonical, fun {runId run} found active chat asks => ?_,
    taken, histories, fun entry member ofConversation turn inTurns row written named => ?_⟩
  · obtain ⟨_, _, context, _, _, _⟩ | ⟨plain, _⟩ :=
      contextsFinal.proper run (soundFinal.store.keyed found).2
    · obtain ⟨other, stored', _, contained⟩ := contextsFinal.contained found active asks context
      obtain rfl := Option.some.inj (stored.symm.trans stored')
      refine ⟨_, context, ?_⟩
      exact (contextContainsManifest_congr selected.1 selected.2.1 selected.2.2).symm.trans contained
    · exact absurd chat plain
  · obtain ⟨other, written', named', context, attached, contained⟩ :=
      within entry member ofConversation turn inTurns
    have origin := soundFinal.store.origins written written' (named.trans named'.symm)
    exact ⟨context, (congrArg Origin.contextManifest origin).trans attached, contained⟩

/-- A conversation with one material, and a chat which uses it. -/
def chatWithMaterial : List Event :=
  [Label.createConversation "conversation" none,
    .replace "conversation" 1 [⟨"material", "redacted"⟩] [] [],
    .start "chat"
      { kind := "chat"
        prompt := "question"
        conversationId := some "conversation"
        contextRevision := some 2
        contextPreparationHash := some "prepared" }].map fun label => label.accepted .null

/-- The material is removed. -/
def removeMaterial : Event := Label.accepted (.replace "conversation" 2 [] [] []) .null

/-- The chat which used the material is cancelled, and no other one is active. -/
theorem removed_context_is_not_used_by_chat :
    ∃ replaced final, assistant.run World.initial (chatWithMaterial ++ [removeMaterial]) =
        some replaced ∧
      assistant.run replaced [Label.accepted (.work "chat") .null] = some final ∧
      (final.store.runs.get "chat").any (fun run => run.status == .cancelled) = true ∧
      ∃ current : AiContextManifest, current.materials = [] ∧
        ∀ {runId run}, final.store.runs.get runId = some run → run.isActive = true →
          run.kind = "chat" → run.request.conversationId = some "conversation" →
          ∃ context, run.contextManifest = some context ∧
            contextContainsManifest current context = true := by
  have runs : ((assistant.run World.initial chatWithMaterial).any fun world =>
      (world.outcome removeMaterial (replaceAiConversationContext removeMaterial.services 0
        "conversation" 2 [] [] [])).result.toOption.isSome &&
      (assistant.step world removeMaterial).any fun replaced =>
        (assistant.run replaced [Label.accepted (.work "chat") .null]).any fun final =>
          (final.store.runs.get "chat").any fun run => run.status == .cancelled) = true := by
    decide
  obtain ⟨world, reached, runs⟩ := (Option.any_eq_true _ _).mp runs
  rw [Bool.and_eq_true] at runs
  obtain ⟨succeeds, runs⟩ := runs
  obtain ⟨replaced, step, runs⟩ := (Option.any_eq_true _ _).mp runs
  obtain ⟨final, later, cancelled⟩ := (Option.any_eq_true _ _).mp runs
  have done : (world.outcome removeMaterial (replaceAiConversationContext removeMaterial.services 0
      "conversation" 2 [] [] [])).result = .ok () := by
    cases result : (world.outcome removeMaterial (replaceAiConversationContext
      removeMaterial.services 0 "conversation" 2 [] [] [])).result with
    | ok value => rfl
    | error error =>
        rw [result] at succeeds
        cases succeeds
  have kept : assistant.Along (fun world event _ => ¬ Replaces "conversation" world event) replaced
      [Label.accepted (.work "chat") .null] := by
    refine fun _ _ => ⟨?_, trivial⟩
    rintro ⟨_, _, _, _, label, _⟩
    cases label
  obtain ⟨current, materials, _, _, within, _⟩ :=
    removed_context_is_not_used reached step done kept later
  refine ⟨replaced, final, ?_, later, cancelled, current, materials, within⟩
  exact assistant.run_append_eq_some.mpr ⟨world, reached, by rw [Machine.run_singleton, step]⟩

end Runs

end LawyerAssistance.AiRuns
