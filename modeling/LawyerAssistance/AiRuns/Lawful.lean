import LawyerAssistance.AiRuns.Containment
import LawyerAssistance.AiRuns.Moves

/-!
# Every operation makes moves

One lemma for each operation of a user: what it commits are moves of the store. What an
operation read before it wrote is found again in the move.
-/

namespace LawyerAssistance.AiRuns

open Storage

variable {services : Services} {now : Nat} {rules : Rules} {store : Store}

/-! ## Reading -/

section Reading

theorem openRun_found {id : String} {run : AiRun} (opened : store.openRun services id = .ok run) :
    store.runs.get id = some run := by
  obtain ⟨_, found, opened⟩ := bind_eq_ok.mp opened
  obtain ⟨_, _, opened⟩ := bind_eq_ok.mp opened
  cases opened
  exact presentOr_eq_ok.mp found

theorem openConversation_found {id : String} {conversation : AiConversation}
    (opened : store.openConversation services id = .ok conversation) :
    store.conversations.get id = some conversation := by
  obtain ⟨_, found, opened⟩ := bind_eq_ok.mp opened
  obtain ⟨_, _, opened⟩ := bind_eq_ok.mp opened
  cases opened
  exact presentOr_eq_ok.mp found

theorem conversationSummary_found {id : String} {conversation : AiConversation}
    (read : store.conversationSummary services id = .ok conversation) :
    store.conversations.get id = some conversation := by
  obtain ⟨_, found, read⟩ := bind_eq_ok.mp read
  obtain ⟨_, _, read⟩ := bind_eq_ok.mp read
  cases read
  exact presentOr_eq_ok.mp found

/-- No active run has a relation which no active run is indexed under. -/
theorem not_mem_relations_of_idle {relation : Relation}
    (idle : store.anyActiveRelation relation = false) {id : String} {run : AiRun}
    (found : store.runs.get id = some run) (active : run.isActive = true) :
    relation ∉ run.relations := by
  intro member
  rw [Store.anyActiveRelation, List.any_eq_false] at idle
  exact idle ⟨id, run⟩ (Table.mem_entries.mpr found) (by simp [active, member])

theorem nodup_keys_filter (table : Table AiRun) (test : (Sigma fun _ : String => AiRun) → Bool) :
    ((table.entries.filter test).map fun row => row.1).Nodup :=
  List.NodupKeys.sublist List.filter_sublist table.nodupKeys

/-- The active runs which have one of some relations. -/
theorem mem_activeRelatedIds {relations : List Relation} {id : String} :
    id ∈ store.activeRelatedIds relations ↔ ∃ run, store.runs.get id = some run ∧
      run.isActive = true ∧ (run.relations.any relations.contains) = true := by
  simp only [Store.activeRelatedIds, List.mem_map, List.mem_filter, Bool.and_eq_true]
  constructor
  · rintro ⟨⟨id, run⟩, ⟨member, active, related⟩, rfl⟩
    exact ⟨run, Table.mem_entries.mp member, active, related⟩
  · rintro ⟨run, found, active, related⟩
    exact ⟨⟨id, run⟩, ⟨Table.mem_entries.mpr found, active, related⟩, rfl⟩

theorem active_of_mem_activeIds {id : String} (member : id ∈ store.activeIds) :
    ∃ run, store.runs.get id = some run ∧ run.isActive = true := by
  obtain ⟨⟨id, run⟩, listed, rfl⟩ := List.mem_map.mp member
  obtain ⟨entry, active⟩ := List.mem_filter.mp ((List.perm_insertionSort _ _).mem_iff.mp listed)
  exact ⟨run, Table.mem_entries.mp entry, active⟩

theorem nodup_activeIds : store.activeIds.Nodup :=
  (((List.perm_insertionSort _ _).map _).nodup_iff).mpr (nodup_keys_filter store.runs _)

end Reading

/-! ## Saving -/

/-- What holds of one row and of the store with it holds of a save. -/
theorem save_holds {row : Row} {guarantee : Store → Batch → Prop} {post : Unit → Store → Prop}
    (guaranteed : guarantee store (.put [row])) (ensures : post () (store.putRow row)) :
    (save services row).Holds Store.apply guarantee post store := by
  simp only [save, Program.holds_bind, Program.holds_lift, Program.holds_commit]
  exact fun _ _ => ⟨guaranteed, ensures⟩

theorem save_lawful {row : Row} {post : Unit → Store → Prop} (change : Change rules store row)
    (ensures : post () (store.putRow row)) :
    (save services row).Holds Store.apply (Lawful rules) post store :=
  save_holds (.single change) ensures

theorem sends_save {sends : Signal → Prop} (row : Row) : (save services row).Sends sends :=
  (Program.sends_lift _).bind fun _ => Program.sends_commit _

theorem sendAll_holds {signals : List Signal} {guarantee : Store → Batch → Prop}
    {post : Unit → Store → Prop} (ensures : post () store) :
    (sendAll signals).Holds Store.apply guarantee post store := by
  induction signals with
  | nil => exact ensures
  | cons first rest inductionHypothesis => exact inductionHypothesis

/-! ## Conversations -/

theorem createAiConversation_lawful {id : String} {title : Option String} (named : id ≠ "")
    (absent : store.conversations.get id = none) :
    (createAiConversation services now id title).Holds Store.apply (Lawful rules)
      (fun _ _ => True) store := by
  simp only [createAiConversation, Program.holds_bind, Program.holds_refuse]
  intro _
  exact save_lawful (.createConversation absent named (by simp) (.inr ⟨rfl, rfl, rfl⟩)) trivial

theorem migrateLegacyConversation_lawful {id title : String} {messages : List (String × String)}
    {materialIds : List String} (named : id ≠ "") :
    (migrateLegacyConversation services now id title messages materialIds).Holds Store.apply
      (Lawful rules) (fun _ _ => True) store := by
  simp only [migrateLegacyConversation, Program.holds_bind, Program.holds_current]
  split_ifs with absent
  · refine save_lawful (.createConversation (Option.isNone_iff_eq_none.mp absent) named ?_ (.inl rfl))
      trivial
    intro message member
    obtain ⟨_, _, rfl⟩ := List.mem_map.mp member
    rfl
  · trivial

theorem renameAiConversation_lawful {id title : String} (sound : store.Sound) :
    (renameAiConversation services now id title).Holds Store.apply (Lawful rules)
      (fun _ _ => True) store := by
  simp only [renameAiConversation, Program.holds_bind, Program.holds_lift, Program.holds_current]
  intro _ _ _ _ conversation opened
  have found := openConversation_found opened
  have keyed : conversation.id = id := (sound.named found).1
  rw [← keyed] at found
  exact save_lawful (.keepContext found ⟨rfl, rfl, rfl, rfl⟩ (.inl rfl)) trivial

/-! ## Starting a run -/

section Starting

variable {runId : String} {request : AiRunRequest} {run : AiRun}

/-- What a chat takes from its conversation. -/
theorem chatContext_eq_ok {selection : AiModelSelection} {chosen : AiRunRequest}
    {manifest : Option AiContextManifest} {plan : AiContextPlan}
    (done : chatContext services request selection store = .ok (chosen, manifest, plan)) :
    ∃ conversationId conversation, request.conversationId = some conversationId ∧
      store.conversations.get conversationId = some conversation ∧
      conversation.contextKnown = true ∧
      store.anyActiveRelation ("conversation", conversationId) = false ∧
      manifest = some (contextManifest conversation) ∧
      chosen =
        { request with
          materials := conversation.materials
          attachmentIds := conversation.attachmentIds
          contextRanges := manifestContextRanges (contextManifest conversation) } := by
  obtain ⟨conversationId, asks, done⟩ := bind_eq_ok.mp done
  obtain ⟨idle, done⟩ := refuseIf_bind_eq_ok.mp done
  obtain ⟨conversation, read, done⟩ := bind_eq_ok.mp done
  obtain ⟨known, done⟩ := refuseIf_bind_eq_ok.mp done
  obtain ⟨_, _, done⟩ := bind_eq_ok.mp done
  obtain ⟨_, done⟩ := refuseIf_bind_eq_ok.mp done
  obtain ⟨_, done⟩ := refuseIf_bind_eq_ok.mp done
  obtain ⟨_, _, done⟩ := bind_eq_ok.mp done
  obtain ⟨_, _, done⟩ := bind_eq_ok.mp done
  obtain ⟨_, done⟩ := refuseIf_bind_eq_ok.mp done
  obtain ⟨_, _, done⟩ := bind_eq_ok.mp done
  obtain ⟨_, _, done⟩ := bind_eq_ok.mp done
  cases done
  exact ⟨conversationId, conversation, presentOr_eq_ok.mp asks, conversationSummary_found read,
    by simpa using known, by simpa using idle, rfl, rfl⟩

/-- A search or a document takes its own sources. -/
theorem requestContext_eq_ok {selection : AiModelSelection} {chosen : AiRunRequest}
    {manifest : Option AiContextManifest} {plan : AiContextPlan}
    (done : requestContext services request selection = .ok (chosen, manifest, plan)) :
    manifest = none ∧ ∃ contextRanges, chosen = { request with contextRanges } := by
  obtain ⟨contextRanges, _, done⟩ := bind_eq_ok.mp done
  obtain ⟨_, _, done⟩ := bind_eq_ok.mp done
  obtain ⟨_, _, done⟩ := bind_eq_ok.mp done
  cases done
  exact ⟨rfl, contextRanges, rfl⟩

/-- What a prepared run is: a new queued run of the request. -/
structure Prepared (store : Store) (runId : String) (request : AiRunRequest) (run : AiRun) :
    Prop where
  id : run.id = runId
  status : run.status = .queued
  kind : run.kind = request.kind
  asks : run.request.conversationId = request.conversationId
  created : ∀ rules : Rules, (request.kind ≠ "chat" → ∀ conversationId,
    request.conversationId = some conversationId → rules.admits store conversationId) →
    Created rules store run

/-- A run which is prepared. -/
theorem prepareRun_eq_ok (done : prepareRun services now runId request store = .ok run) :
    Prepared store runId request run := by
  obtain ⟨_, _, done⟩ := bind_eq_ok.mp done
  obtain ⟨_, _, done⟩ := bind_eq_ok.mp done
  obtain ⟨_, _, done⟩ := bind_eq_ok.mp done
  obtain ⟨_, _, done⟩ := bind_eq_ok.mp done
  obtain ⟨_, _, done⟩ := bind_eq_ok.mp done
  dsimp only at done
  split at done
  · next chat =>
      obtain ⟨⟨chosen, manifest, plan⟩, context, done⟩ := bind_eq_ok.mp done
      obtain ⟨_, _, done⟩ := bind_eq_ok.mp done
      obtain ⟨_, _, done⟩ := bind_eq_ok.mp done
      obtain ⟨_, _, done⟩ := bind_eq_ok.mp done
      obtain ⟨_, _, done⟩ := bind_eq_ok.mp done
      obtain ⟨_, _, done⟩ := bind_eq_ok.mp done
      obtain ⟨conversationId, conversation, asks, found, known, idle, rfl, rfl⟩ :=
        chatContext_eq_ok context
      cases done
      exact ⟨rfl, rfl, rfl, rfl, fun _ _ => .chat chat asks found known rfl rfl rfl idle rfl⟩
  · next plain =>
      obtain ⟨⟨chosen, manifest, plan⟩, context, done⟩ := bind_eq_ok.mp done
      obtain ⟨_, _, done⟩ := bind_eq_ok.mp done
      obtain ⟨_, _, done⟩ := bind_eq_ok.mp done
      obtain ⟨_, _, done⟩ := bind_eq_ok.mp done
      obtain ⟨_, _, done⟩ := bind_eq_ok.mp done
      obtain ⟨_, _, done⟩ := bind_eq_ok.mp done
      obtain ⟨rfl, contextRanges, rfl⟩ := requestContext_eq_ok context
      cases done
      exact ⟨rfl, rfl, rfl, rfl, fun _ admitted => .plain plain rfl rfl (admitted plain)⟩

/-- The prompt of an active run of a conversation may be added to it. -/
theorem recordPrompt_lawful {post : Unit → Store → Prop} (sound : store.Sound)
    (found : store.runs.get run.id = some run) (active : run.isActive = true)
    (ensures : ∀ final, final.written = store.written → post () final) :
    (recordPrompt services now run).Holds Store.apply (Lawful rules) post store := by
  unfold recordPrompt
  split
  · exact ensures store rfl
  · next conversationId asks =>
      simp only [Program.holds_bind, Program.holds_lift, Program.holds_current]
      intro conversation opened
      have stored := openConversation_found opened
      have keyed : conversation.id = conversationId := (sound.named stored).1
      rw [← keyed] at stored
      refine save_lawful (.keepContext stored ⟨rfl, rfl, rfl, rfl⟩ (.inr ⟨_, rfl, ?_⟩))
        (ensures _ rfl)
      exact .prompt rfl found active (keyed ▸ asks) rfl rfl

theorem startAiRun_lawful (sound : store.Sound) (fresh : store.unwritten runId = true)
    (admitted : request.kind ≠ "chat" → ∀ conversationId,
      request.conversationId = some conversationId → rules.admits store conversationId) :
    (startAiRun services now runId request).Holds Store.apply (Lawful rules)
      (fun run final => run.id = runId ∧ run ∈ final.written) store := by
  simp only [startAiRun, Program.holds_bind, Program.holds_lift, Program.holds_current]
  intro run prepared
  have shape := prepareRun_eq_ok prepared
  have change : Change rules store (.run run) :=
    .createRun (shape.id ▸ fresh) (shape.created rules admitted)
  refine save_lawful change ?_
  have active : run.isActive = true := by rw [AiRun.isActive, shape.status]; rfl
  refine recordPrompt_lawful (sound.move (.write change)) (Table.get_put_self _ _ _) active ?_
  intro final written _ _
  rw [Program.holds_pure, written]
  exact ⟨shape.id, List.mem_cons_self⟩

end Starting

/-! ## Cancelling, deleting, continuing and editing -/

section Changing

variable {id : String}

theorem update_lawful {old run : AiRun} {post : Unit → Store → Prop} (sound : store.Sound)
    (found : store.runs.get id = some old) (active : old.isActive = true)
    (origin : old.origin = run.origin) (messages : run.messages = old.messages)
    (ensures : post () (store.putRow (.run run))) :
    (save services (.run run)).Holds Store.apply (Lawful rules) post store := by
  have named : run.id = id := (congrArg Origin.id origin).symm.trans (sound.keyed found).1
  exact save_lawful (.updateRun (named ▸ found) active origin (.inl messages)) ensures

theorem cancelAiRun_lawful (sound : store.Sound) :
    (cancelAiRun services now id).Holds Store.apply (Lawful rules) (fun _ _ => True) store := by
  simp only [cancelAiRun, Program.holds_bind, Program.holds_lift, Program.holds_current]
  intro _ _ run opened
  split_ifs with active
  · simp only [Program.holds_bind, Program.holds_lift, Program.holds_send]
    intro _ _ revision _
    exact update_lawful sound (openRun_found opened) active rfl rfl trivial
  · trivial

theorem commitDeletion_lawful (ended : store.Ended id) (allowed : rules.deletes id) :
    (commitDeletion id).Holds Store.apply (Lawful rules) (fun _ _ => True) store :=
  ⟨Relation.ReflTransGen.single (Move.delete allowed ended.2), trivial⟩

/-- What a deletion reads before it deletes has ended. -/
theorem readForDeletion_holds (sound : store.Sound) :
    (readForDeletion services id).Holds Store.apply (fun _ _ => False)
      (fun _ final => final.Ended id) store := by
  simp only [readForDeletion, Program.holds_bind, Program.holds_lift, Program.holds_current,
    Program.holds_refuse]
  intro run opened stopped
  have found := openRun_found opened
  obtain ⟨keyed, member⟩ := sound.keyed found
  refine ⟨⟨run, member, keyed⟩, fun other found' => ?_⟩
  rw [found] at found'
  cases found'
  simpa using stopped

theorem continueAiRun_lawful {runId : String} (sound : store.Sound)
    (fresh : store.unwritten runId = true) :
    (continueAiRun services now runId id).Holds Store.apply (Lawful rules)
      (fun run final => run.id = runId ∧ run ∈ final.written) store := by
  simp only [continueAiRun, Program.holds_bind, Program.holds_lift, Program.holds_current,
    Program.holds_refuse]
  intro _ _ run opened stopped outside _ _ _ _
  have alone : run.request.conversationId = none := by simpa using outside
  split_ifs with completed
  · refine startAiRun_lawful sound fresh fun _ conversationId asks => ?_
    have : run.request.conversationId = some conversationId := asks
    rw [alone] at this
    cases this
  · simp only [Program.holds_bind, Program.holds_lift, Program.holds_refuse]
    intro _
    refine save_lawful (.createRun fresh (.copied (openRun_found opened) rfl rfl rfl rfl (.inr alone)))
      ?_
    exact fun _ _ => ⟨rfl, List.mem_cons_self⟩

theorem editAiDocument_lawful {runId content : String} {expectedRevision : Nat}
    {caseDate : AiCaseDateUpdate} (fresh : store.unwritten runId = true) :
    (editAiDocument services now runId id content expectedRevision caseDate).Holds Store.apply
      (Lawful rules) (fun _ _ => True) store := by
  simp only [editAiDocument, Program.holds_bind, Program.holds_lift, Program.holds_current,
    Program.holds_refuse]
  intro _ _ run opened ready _ scope _
  obtain ⟨writing, completed⟩ := not_or.mp ready
  rw [ne_eq, not_not] at writing completed
  refine save_lawful (.createRun fresh (.copied (openRun_found opened) rfl rfl rfl rfl (.inl ?_)))
    trivial
  simp [AiRun.isActive, completed, RunStatus.isActive, writing]

end Changing

/-! ## Replacing the context of a conversation -/

section Replacing

variable {id : String} {expectedRevision : Nat} {materials : List AiMaterialReference}
  {attachmentIds : List String} {supplied : List AiContextRangeSelection}

/-- What one affected run becomes. -/
theorem cancelDeselected_eq_ok {current : AiContextManifest} {runId : String} {found : List AiRun}
    (done : cancelDeselected services now id current store runId = .ok found) :
    ∃ run, store.runs.get runId = some run ∧
      (runUsesDeselectedContext run id current = true ∧
          (∃ cancelled, found = [cancelled] ∧ cancelled.origin = run.origin ∧
            cancelled.isActive = false ∧ cancelled.messages = run.messages) ∨
        runUsesDeselectedContext run id current = false ∧ found = []) := by
  obtain ⟨run, opened, done⟩ := bind_eq_ok.mp done
  refine ⟨run, openRun_found opened, ?_⟩
  split_ifs at done with uses
  · obtain ⟨_, _, done⟩ := bind_eq_ok.mp done
    obtain ⟨_, _, done⟩ := bind_eq_ok.mp done
    cases done
    exact .inl ⟨uses, _, rfl, rfl, rfl, rfl⟩
  · cases done
    exact .inr ⟨by simpa using uses, rfl⟩

theorem active_of_uses {current : AiContextManifest} {run : AiRun}
    (uses : runUsesDeselectedContext run id current = true) : run.isActive = true := by
  by_contra inactive
  rw [runUsesDeselectedContext, if_pos (.inr (by simpa using inactive))] at uses
  cases uses

/-- The affected runs are cancelled one after the other, and those which stay active do not use
what is not selected any more. -/
theorem cancelled_evolves {current : AiContextManifest} {before : Store} (sound : before.Sound)
    {ids : List String} {cancelled : List AiRun} (distinct : ids.Nodup)
    (gathered : gather (cancelDeselected services now id current before) ids = .ok cancelled)
    (same : ∀ runId ∈ ids, store.runs.get runId = before.runs.get runId) :
    Evolves rules store ((cancelled.map .run).foldl Store.putRow store) ∧
      ∀ {runId run}, ((cancelled.map .run).foldl Store.putRow store).runs.get runId = some run →
        run.isActive = true → store.runs.get runId = some run ∧
          (runId ∈ ids → runUsesDeselectedContext run id current = false) := by
  induction ids generalizing store cancelled with
  | nil =>
      cases gathered
      exact ⟨.refl, fun found _ => ⟨found, fun member => nomatch member⟩⟩
  | cons first rest inductionHypothesis =>
      obtain ⟨unlisted, distinct⟩ := List.nodup_cons.mp distinct
      obtain ⟨here, same⟩ := List.forall_mem_cons.mp same
      obtain ⟨found, others, visited, gatheredRest, rfl⟩ := gather_cons_eq_ok.mp gathered
      obtain ⟨run, stored, ⟨uses, ended, rfl, origin, stopped, messages⟩ | ⟨free, rfl⟩⟩ :=
        cancelDeselected_eq_ok visited
      · have named : ended.id = first :=
          (congrArg Origin.id origin).trans (sound.keyed stored).1
        have others' : ∀ runId ∈ rest,
            (store.putRow (.run ended)).runs.get runId = before.runs.get runId := by
          intro runId member
          have other : runId ≠ ended.id := by
            rintro rfl
            exact unlisted (named ▸ member)
          rw [putRow_run_runs, Table.get_put_other _ _ other]
          exact same runId member
        obtain ⟨evolves, kept⟩ := inductionHypothesis distinct gatheredRest others'
        have move : Move rules store (store.putRow (.run ended)) :=
          .write (.updateRun (named ▸ here.trans stored) (active_of_uses uses) origin.symm
            (.inl messages))
        refine ⟨.head move evolves, fun {runId final} found active => ?_⟩
        obtain ⟨found, released⟩ := kept found active
        rw [putRow_run_runs, Table.get_put] at found
        split_ifs at found with key
        · cases found
          rw [stopped] at active
          cases active
        · refine ⟨found, fun member => released ((List.mem_cons.mp member).resolve_left ?_)⟩
          rintro rfl
          exact key named.symm
      · obtain ⟨evolves, kept⟩ := inductionHypothesis distinct gatheredRest same
        refine ⟨evolves, fun {runId final} found active => ?_⟩
        obtain ⟨found, released⟩ := kept found active
        refine ⟨found, fun member => ?_⟩
        obtain rfl | later := List.mem_cons.mp member
        · rw [here, stored] at found
          cases found
          exact free
        · exact released later

/-- Runs which are written keep the conversations, and are written before or after one. -/
theorem putRuns_putConversation {runs : List AiRun} {conversation : AiConversation} :
    (runs.map .run).foldl Store.putRow (store.putRow (.conversation conversation)) =
      ((runs.map .run).foldl Store.putRow store).putRow (.conversation conversation) := by
  induction runs generalizing store with
  | nil => rfl
  | cons run rest inductionHypothesis =>
      have swapped : (store.putRow (.conversation conversation)).putRow (.run run) =
          (store.putRow (.run run)).putRow (.conversation conversation) := rfl
      rw [List.map_cons, List.foldl_cons, List.foldl_cons, swapped]
      exact inductionHypothesis

theorem putRuns_conversations {runs : List AiRun} :
    ((runs.map .run).foldl Store.putRow store).conversations = store.conversations := by
  induction runs generalizing store with
  | nil => rfl
  | cons run rest inductionHypothesis => exact inductionHypothesis

/-- What a replacement writes. -/
structure Replaced (services : Services) (now : Nat) (id : String)
    (materials : List AiMaterialReference) (attachmentIds : List String)
    (supplied : List AiContextRangeSelection) (store : Store) (old replaced : AiConversation)
    (cancelled : List AiRun) : Prop where
  found : store.conversations.get id = some old
  shape : checkContextShape services replaced.materials replaced.attachmentIds = .ok ()
  ranges : canonicalContextRangesMetadata services replaced.materials replaced.attachmentIds
    supplied = .ok replaced.contextRanges
  named : replaced.id = old.id
  materials : replaced.materials = materials
  attachments : replaced.attachmentIds = attachmentIds
  known : replaced.contextKnown = true
  messages : replaced.messages = old.messages
  cancelled : gather (cancelDeselected services now id (contextManifest replaced) store)
    (store.activeRelatedIds
      (deselectedRelations (contextManifest old) (contextManifest replaced))) = .ok cancelled

theorem replacement_eq_ok {replaced : AiConversation} {cancelled : List AiRun}
    (done : replacement services now id expectedRevision materials attachmentIds supplied store =
      .ok (replaced, cancelled)) :
    ∃ old, Replaced services now id materials attachmentIds supplied store old replaced
      cancelled := by
  obtain ⟨_, shape, done⟩ := bind_eq_ok.mp done
  obtain ⟨contextRanges, ranges, done⟩ := bind_eq_ok.mp done
  obtain ⟨_, _, done⟩ := bind_eq_ok.mp done
  obtain ⟨old, opened, done⟩ := bind_eq_ok.mp done
  obtain ⟨_, done⟩ := refuseIf_bind_eq_ok.mp done
  obtain ⟨_, _, done⟩ := bind_eq_ok.mp done
  obtain ⟨_, _, done⟩ := bind_eq_ok.mp done
  obtain ⟨_, gathered, done⟩ := bind_eq_ok.mp done
  cases done
  exact ⟨old, openConversation_found opened, shape, ranges, rfl, rfl, rfl, rfl, rfl, gathered⟩

/-- The transaction of a replacement. -/
theorem Replaced.lawful {old replaced : AiConversation} {cancelled : List AiRun}
    (sound : store.Sound) (allowed : rules.replaces id)
    (done : Replaced services now id materials attachmentIds supplied store old replaced
      cancelled) :
    Lawful rules store (.put (.conversation replaced :: cancelled.map .run)) := by
  obtain ⟨evolves, kept⟩ := cancelled_evolves sound (nodup_keys_filter store.runs _) done.cancelled
    (fun _ _ => rfl)
  have named : replaced.id = id := done.named.trans (sound.named done.found).1
  have shaped : (contextManifest replaced).Shaped := shaped_of_canonical done.shape done.ranges
  have found : ((cancelled.map .run).foldl Store.putRow store).conversations.get replaced.id =
      some old := by
    rw [putRuns_conversations, named]
    exact done.found
  rw [Lawful, Store.apply, List.foldl_cons, putRuns_putConversation]
  refine .tail evolves (.write (.replaceContext (named ▸ allowed) found done.known done.messages shaped ?_))
  intro runId run found active related
  obtain ⟨stored, released⟩ := kept found active
  rw [named]
  exact released (mem_activeRelatedIds.mpr ⟨run, stored, active, related⟩)

theorem replaceAiConversationContext_lawful (sound : store.Sound) (allowed : rules.replaces id) :
    (replaceAiConversationContext services now id expectedRevision materials attachmentIds
      supplied).Holds Store.apply (Lawful rules) (fun _ _ => True) store := by
  simp only [replaceAiConversationContext, Program.holds_bind, Program.holds_lift,
    Program.holds_current]
  rintro ⟨replaced, cancelled⟩ done
  obtain ⟨old, done⟩ := replacement_eq_ok done
  simp only [Program.holds_bind, Program.holds_commit]
  exact ⟨done.lawful sound allowed, sendAll_holds trivial⟩

end Replacing

/-! ## Recovery -/

/-- Active runs are marked as interrupted. -/
theorem interruptRuns_lawful {ids : List String} (sound : store.Sound) (distinct : ids.Nodup)
    (active : ∀ id ∈ ids, ∃ run, store.runs.get id = some run ∧ run.isActive = true) :
    (interruptRuns services ids).Holds Store.apply (Lawful rules) (fun _ _ => True) store := by
  induction ids generalizing store with
  | nil => trivial
  | cons id rest inductionHypothesis =>
      obtain ⟨unlisted, distinct⟩ := List.nodup_cons.mp distinct
      obtain ⟨⟨stored, found, running⟩, active⟩ := List.forall_mem_cons.mp active
      simp only [interruptRuns, Program.holds_bind, Program.holds_lift, Program.holds_current]
      intro run opened
      obtain rfl : stored = run := Option.some.inj (found.symm.trans (openRun_found opened))
      have named : stored.id = id := (sound.keyed found).1
      refine update_lawful sound found running rfl rfl (inductionHypothesis ?_ distinct ?_)
      · refine sound.putRun fun row member same => ?_
        have origin : row.origin = stored.origin := sound.origins member (sound.keyed found).2 same
        exact origin
      · intro other member
        have different : other ≠ stored.id := by
          rintro rfl
          exact unlisted (named ▸ member)
        rw [putRow_run_runs, Table.get_put_other _ _ different]
        exact active other member

theorem recoverAiRuns_lawful (sound : store.Sound) :
    (recoverAiRuns services).Holds Store.apply (Lawful rules) (fun _ _ => True) store :=
  interruptRuns_lawful sound nodup_activeIds fun _ member => active_of_mem_activeIds member

end LawyerAssistance.AiRuns
