import LawyerAssistance.AiRuns.Invariant

/-!
# Active chats use what their conversation selects

The context of an active chat is contained in the context of its conversation, at any time. A
replacement finds every active chat which would break this: a chat which used a source that was
removed or changed is related to it.
-/

namespace LawyerAssistance.AiRuns

open Storage

/-! ## What a replacement finds -/

section Deselection

variable {old current required : AiContextManifest} {key : RangeKey}

theorem mem_deselectedRelations {relation : Relation} :
    relation ∈ deselectedRelations old current ↔
      (∃ material ∈ old.materials, material ∉ current.materials ∧
          ("material_" ++ material.source, material.id) = relation) ∨
        (∃ id ∈ old.attachmentIds, id ∉ current.attachmentIds ∧ ("attachment", id) = relation) ∨
        ∃ key ∈ changedSources old current, sourceRelation key = relation := by
  have member : ∀ {relations : List Relation}, relation ∈ relationSet relations ↔
      relation ∈ relations := by
    intro relations
    rw [relationSet, (List.perm_insertionSort _ _).mem_iff, List.mem_dedup]
  rw [deselectedRelations, member, List.mem_append, List.mem_append, or_assoc]
  simp only [List.mem_map, List.mem_filter, decide_eq_true_eq, and_assoc]

/-- The selection of a source is the only one. -/
theorem selectionOf_eq_some {manifest : AiContextManifest} {range : AiContextRangeSelection}
    (once : ((manifestContextRanges manifest).map AiContextRangeSelection.key).Nodup)
    (member : range ∈ manifestContextRanges manifest) :
    selectionOf manifest range.key = some range := by
  rw [selectionOf]
  cases found : (manifestContextRanges manifest).find? fun other => other.key == range.key with
  | none => simpa using List.find?_eq_none.mp found range member
  | some other =>
      have same : other.key = range.key := by simpa using List.find?_some found
      exact congrArg some (List.inj_on_of_nodup_map once (List.mem_of_find?_eq_some found) member same)

/-- A run whose context was contained before a replacement, and is not contained any more, is
related to a source which was removed or changed. -/
theorem related_of_removed {run : AiRun} (shaped : old.Shaped) (uses : required.Shaped)
    (materials : run.request.materials = required.materials)
    (attachments : run.request.attachmentIds = required.attachmentIds)
    (contained : contextContainsManifest old required = true)
    (removed : contextContainsManifest current required = false) :
    (run.relations.any (deselectedRelations old current).contains) = true := by
  suffices related : ∃ relation ∈ deselectedRelations old current, relation ∈ run.relations by
    obtain ⟨relation, deselected, member⟩ := related
    exact List.any_eq_true.mpr ⟨relation, member, List.contains_iff_mem.mpr deselected⟩
  have named : ∀ {key}, required.names key → sourceRelation key ∈ run.relations :=
    sourceRelation_mem_relations uses materials attachments
  obtain ⟨inOld, inOld', ranges⟩ := contextContainsManifest_iff.mp contained
  by_cases allMaterials : ∀ item ∈ required.materials, item ∈ current.materials
  swap
  · obtain ⟨material, member, gone⟩ : ∃ item ∈ required.materials, item ∉ current.materials := by
      simpa using allMaterials
    refine ⟨_, mem_deselectedRelations.mpr (.inl ⟨material, inOld material member, gone, rfl⟩), ?_⟩
    exact named (.inl ⟨material, member, rfl⟩)
  by_cases allAttachments : ∀ item ∈ required.attachmentIds, item ∈ current.attachmentIds
  swap
  · obtain ⟨id, member, gone⟩ : ∃ item ∈ required.attachmentIds, item ∉ current.attachmentIds := by
      simpa using allAttachments
    refine ⟨_, mem_deselectedRelations.mpr (.inr (.inl ⟨id, inOld' id member, gone, rfl⟩)), ?_⟩
    exact named (.inr ⟨id, member, rfl⟩)
  obtain ⟨needed, member, uncovered⟩ : ∃ needed ∈ manifestContextRanges required,
      ∀ available ∈ manifestContextRanges current,
        rangeSelectionContains available needed = false := by
    by_contra covered
    refine absurd (contextContainsManifest_iff.mpr ⟨allMaterials, allAttachments, ?_⟩)
      (by simp [removed])
    intro needed member
    by_contra none
    exact covered ⟨needed, member, fun available inCurrent => by
      by_contra contains
      exact none ⟨available, inCurrent, by simpa using contains⟩⟩
  -- the selection which contained it before is not selected any more
  obtain ⟨available, inRanges, contains⟩ := ranges needed member
  have same : available.key = needed.key := key_eq_of_contains contains
  have before : selectionOf old needed.key = some available :=
    same ▸ selectionOf_eq_some shaped.once inRanges
  have changed : needed.key ∈ changedSources old current := by
    refine List.mem_filter.mpr ⟨?_, ?_⟩
    · rw [← same]
      exact List.mem_map_of_mem (List.mem_append_left _ inRanges)
    · rw [decide_eq_true_eq, before]
      intro kept
      have inCurrent : available ∈ manifestContextRanges current :=
        List.mem_of_find?_eq_some kept.symm
      rw [uncovered available inCurrent] at contains
      cases contains
  exact ⟨_, mem_deselectedRelations.mpr (.inr (.inr ⟨needed.key, changed, rfl⟩)),
    named (uses.named needed member)⟩

end Deselection

/-! ## Shapes -/

/-- The shape of a context depends on its sources and ranges only. -/
theorem AiContextManifest.Shaped.congr {first second : AiContextManifest} (shaped : first.Shaped)
    (materials : second.materials = first.materials)
    (attachments : second.attachmentIds = first.attachmentIds)
    (ranges : second.contextRanges = first.contextRanges) : second.Shaped := by
  obtain ⟨revision, materials', attachmentIds', contextRanges', updatedAt⟩ := second
  obtain rfl : materials' = first.materials := materials
  obtain rfl : attachmentIds' = first.attachmentIds := attachments
  obtain rfl : contextRanges' = first.contextRanges := ranges
  exact ⟨shaped.materials, shaped.attachments, shaped.named, shaped.once⟩

theorem shaped_of_empty {manifest : AiContextManifest} (materials : manifest.materials = [])
    (attachments : manifest.attachmentIds = []) (ranges : manifest.contextRanges = []) :
    manifest.Shaped := by
  have none : manifestContextRanges manifest = [] := by
    rw [manifestContextRanges, if_pos ranges, materials, attachments]
    rfl
  refine ⟨?_, ?_, ?_, ?_⟩ <;> simp [materials, attachments, none]

/-! ## The invariant -/

/-- Chats have the context of a conversation, and other runs have none. -/
inductive Origin.Proper (origin : Origin) : Prop where
  | chat {conversationId : String} {manifest : AiContextManifest} (kind : origin.kind = "chat")
      (asks : origin.request.conversationId = some conversationId)
      (context : origin.contextManifest = some manifest) (shaped : manifest.Shaped)
      (materials : origin.request.materials = manifest.materials)
      (attachments : origin.request.attachmentIds = manifest.attachmentIds) : origin.Proper
  | plain (kind : origin.kind ≠ "chat") (context : origin.contextManifest = none) : origin.Proper

/-- What the contexts of runs and conversations have to do with each other. -/
structure Store.Contexts (store : Store) : Prop where
  proper : ∀ row ∈ store.written, row.origin.Proper
  shaped : ∀ {conversationId conversation},
    store.conversations.get conversationId = some conversation →
    conversation.contextKnown = true → (contextManifest conversation).Shaped
  attributed : ∀ {conversationId conversation message runId},
    store.conversations.get conversationId = some conversation →
    message ∈ conversation.messages → message.runId = some runId →
    ∃ row ∈ store.written, row.id = runId ∧ row.contextManifest = message.contextManifest
  contained : ∀ {id run conversationId manifest}, store.runs.get id = some run →
    run.isActive = true → run.request.conversationId = some conversationId →
    run.contextManifest = some manifest →
    ∃ conversation, store.conversations.get conversationId = some conversation ∧
      conversation.contextKnown = true ∧
      contextContainsManifest (contextManifest conversation) manifest = true

section Moves

variable {rules : Rules} {store next : Store}

theorem contexts_empty : Store.empty.Contexts where
  proper _ member := nomatch member
  shaped found := nomatch found
  attributed found := nomatch found
  contained found := nomatch found

/-- A run which is created is proper. -/
theorem Created.proper {run : AiRun} (contexts : store.Contexts) (sound : store.Sound)
    (created : Created rules store run) : run.origin.Proper := by
  cases created with
  | chat kind asks found known manifest materials attachments idle messages =>
      exact .chat kind asks manifest (contexts.shaped found known) materials attachments
  | plain kind manifest messages admitted => exact .plain kind manifest
  | @copied id old found kind asks manifest messages apart =>
      obtain ⟨kindOld, asksOld, _, _, _, _⟩ | ⟨kindOld, contextOld⟩ :=
        contexts.proper old (sound.keyed found).2
      · obtain ⟨_, edited⟩ | outside := apart
        · exact absurd (kind.trans kindOld) edited
        · rw [asks] at outside
          exact absurd (outside.symm.trans asksOld) (by simp)
      · exact .plain (fun chat => kindOld (kind.symm.trans chat)) (manifest.trans contextOld)

/-- The context of an active run which is created is that of its conversation. -/
theorem Created.contained {run : AiRun} {conversationId : String} {manifest : AiContextManifest}
    (contexts : store.Contexts) (sound : store.Sound) (created : Created rules store run)
    (asks : run.request.conversationId = some conversationId)
    (context : run.contextManifest = some manifest) :
    ∃ conversation, store.conversations.get conversationId = some conversation ∧
      conversation.contextKnown = true ∧
      contextContainsManifest (contextManifest conversation) manifest = true := by
  have proper := created.proper contexts sound
  cases created with
  | chat kind asks' found known manifest' materials attachments idle messages =>
      obtain rfl := Option.some.inj (asks'.symm.trans asks)
      obtain rfl := Option.some.inj (manifest'.symm.trans context)
      exact ⟨_, found, known, contextContainsManifest_self _⟩
  | plain kind manifest' messages admitted =>
      rw [manifest'] at context
      cases context
  | copied found kind asks' manifest' messages apart =>
      obtain ⟨_, outside⟩ | outside := apart
      · cases proper with
        | chat kind' _ _ _ _ _ => exact absurd kind' outside
        | plain _ context' => exact absurd (context.symm.trans context') (by simp)
      · rw [outside] at asks
        cases asks

/-- A run which is written keeps the contexts when it is proper and contained. -/
theorem Store.Contexts.putRun (contexts : store.Contexts) {run : AiRun}
    (proper : run.origin.Proper)
    (contained : ∀ {conversationId manifest}, run.isActive = true →
      run.request.conversationId = some conversationId → run.contextManifest = some manifest →
      ∃ conversation, store.conversations.get conversationId = some conversation ∧
        conversation.contextKnown = true ∧
        contextContainsManifest (contextManifest conversation) manifest = true) :
    (store.putRow (.run run)).Contexts where
  proper := List.forall_mem_cons.mpr ⟨proper, contexts.proper⟩
  shaped := contexts.shaped
  attributed := by
    intro conversationId conversation message runId found member named
    obtain ⟨row, written, attributed⟩ := contexts.attributed found member named
    exact ⟨row, List.mem_cons_of_mem _ written, attributed⟩
  contained := by
    intro id other conversationId manifest found active asks context
    rw [putRow_run_runs, Table.get_put] at found
    split_ifs at found
    · cases found
      exact contained active asks context
    · exact contexts.contained found active asks context

/-- A conversation which is written keeps the contexts when the active runs in it are contained. -/
theorem Store.Contexts.putConversation (contexts : store.Contexts) (sound : store.Sound)
    {conversation : AiConversation} (change : Change rules store (.conversation conversation))
    (shaped : conversation.contextKnown = true → (contextManifest conversation).Shaped)
    (contained : ∀ {id run manifest}, store.runs.get id = some run → run.isActive = true →
      run.request.conversationId = some conversation.id → run.contextManifest = some manifest →
      conversation.contextKnown = true ∧
        contextContainsManifest (contextManifest conversation) manifest = true) :
    (store.putRow (.conversation conversation)).Contexts where
  proper := contexts.proper
  shaped := by
    intro conversationId stored found known
    rw [putRow_conversation_conversations, Table.get_put] at found
    split_ifs at found
    · cases found
      exact shaped known
    · exact contexts.shaped found known
  attributed := by
    intro conversationId stored message runId found member named
    rw [putRow_conversation_conversations, Table.get_put] at found
    split_ifs at found
    · cases found
      obtain ⟨_, noRuns⟩ | ⟨old, found, same | ⟨added, same, recorded⟩⟩ := change.messages
      · rw [noRuns message member] at named
        cases named
      · exact contexts.attributed found (same ▸ member) named
      · rw [same, List.mem_append, List.mem_singleton] at member
        obtain before | rfl := member
        · exact contexts.attributed found before named
        · cases recorded with
          | @prompt run role stored active asks named' manifest =>
              obtain rfl := Option.some.inj (named'.symm.trans named)
              exact ⟨run, (sound.keyed stored).2, rfl, manifest.symm⟩
          | @answer run role written asks named' manifest =>
              obtain rfl := Option.some.inj (named'.symm.trans named)
              exact ⟨run, written, rfl, manifest.symm⟩
    · exact contexts.attributed found member named
  contained := by
    intro id run conversationId manifest found active asks context
    rw [putRow_conversation_conversations, Table.get_put]
    split_ifs with key
    · subst key
      exact ⟨conversation, rfl, contained found active asks context⟩
    · exact contexts.contained found active asks context

/-- Every move keeps the contexts. -/
theorem Store.Contexts.move (contexts : store.Contexts) (sound : store.Sound)
    (move : Move rules store next) : next.Contexts := by
  cases move with
  | delete _ _ =>
      refine ⟨contexts.proper, contexts.shaped, contexts.attributed, fun found => ?_⟩
      rw [Table.get_remove] at found
      split_ifs at found
      exact contexts.contained found
  | write change =>
      have written := change
      cases change with
      | createRun fresh created =>
          exact contexts.putRun (created.proper contexts sound) fun _ asks context =>
            created.contained contexts sound asks context
      | @updateRun old run found active origin messages =>
          have requests : old.request = run.request := congrArg Origin.request origin
          have manifests : old.contextManifest = run.contextManifest :=
            congrArg Origin.contextManifest origin
          refine contexts.putRun (origin ▸ contexts.proper old (sound.keyed found).2)
            fun _ asks context => ?_
          exact contexts.contained found active (requests ▸ asks) (manifests ▸ context)
      | createConversation absent named noRuns context =>
          refine contexts.putConversation sound written (fun known => ?_)
            fun found active asks manifest => ?_
          · obtain unknown | ⟨materials, attachments, ranges⟩ := context
            · rw [unknown] at known
              cases known
            · exact shaped_of_empty materials attachments ranges
          · obtain ⟨_, stored, _⟩ := contexts.contained found active asks manifest
            rw [absent] at stored
            cases stored
      | @keepContext old conversation found context messages =>
          obtain ⟨materials, attachments, ranges, known⟩ := context
          refine contexts.putConversation sound written (fun isKnown => ?_)
            fun stored active asks manifest => ?_
          · exact (contexts.shaped found (known ▸ isKnown)).congr materials attachments ranges
          · obtain ⟨other, stored', isKnown, contained⟩ :=
              contexts.contained stored active asks manifest
            obtain rfl := Option.some.inj (found.symm.trans stored')
            exact ⟨known.trans isKnown,
              (contextContainsManifest_congr materials attachments ranges).trans contained⟩
      | @replaceContext old conversation allowed found known messages shaped released =>
          refine contexts.putConversation sound written (fun _ => shaped)
            fun {id run manifest} stored active asks context => ⟨known, ?_⟩
          obtain ⟨other, stored', isKnown, contained⟩ :=
            contexts.contained stored active asks context
          obtain rfl := Option.some.inj (found.symm.trans stored')
          by_contra removed
          rw [Bool.not_eq_true] at removed
          obtain ⟨_, _, context', uses, materials, attachments⟩ | ⟨_, context'⟩ :=
            contexts.proper run (sound.keyed stored).2
          · obtain rfl := Option.some.inj (context'.symm.trans context)
            have kept := released stored active (related_of_removed
              (contexts.shaped found isKnown) uses materials attachments contained removed)
            rw [runUsesDeselectedContext, if_neg (by simp [asks, active]), context,
              Option.getD_some] at kept
            dsimp only at kept
            rw [removed] at kept
            cases kept
          · exact absurd (context'.symm.trans context) (by simp)

theorem Store.Contexts.evolves (contexts : store.Contexts) (sound : store.Sound)
    (evolves : Evolves rules store next) : next.Contexts := by
  have kept : next.Sound ∧ next.Contexts :=
    evolves.invariant (fun now => now.Sound ∧ now.Contexts)
      (fun holds move => ⟨holds.1.move move, holds.2.move holds.1 move⟩) ⟨sound, contexts⟩
  exact kept.2

end Moves

/-- The contexts of reachable worlds. -/
theorem contexts_of_reachable {world : World}
    (reachable : assistant.Reachable World.initial world) : world.store.Contexts := by
  have both : world.Sound ∧ world.store.Contexts := by
    refine reachable.invariant (fun world => world.Sound ∧ world.store.Contexts)
      ⟨sound_initial, contexts_empty⟩ ?_
    rintro world event next ⟨sound, contexts⟩ step
    refine ⟨sound.step step, ?_⟩
    obtain ⟨enabled, rfl⟩ := step_eq_some.mp step
    exact contexts.evolves sound.store (World.evolves sound enabled Admitted.any)
  exact both.2

end LawyerAssistance.AiRuns
