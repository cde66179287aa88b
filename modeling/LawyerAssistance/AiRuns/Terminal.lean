import LawyerAssistance.AiRuns.Invariant

/-!
# Runs which ended

Of the rows which were written for one run, all but the newest are active, and the newest is
the one which is stored. So one terminal row is recorded for a run at most, and a run which
ended is never written again, whatever its worker still does.
-/

namespace LawyerAssistance.AiRuns

/-- The rows which were written for a run, the newest first. -/
def Store.rowsOf (store : Store) (id : String) : List AiRun :=
  store.written.filter fun row => row.id = id

/-- The rows which recorded that a run is neither queued nor running. -/
def Store.terminalRows (store : Store) (id : String) : List AiRun :=
  (store.rowsOf id).filter fun row => !row.isActive

/-- The newest row of a run is the stored one, and the older ones are active. -/
structure Store.Ledger (store : Store) : Prop where
  stored : ∀ {id run}, store.runs.get id = some run →
    ∃ earlier, store.rowsOf id = run :: earlier ∧ ∀ row ∈ earlier, row.isActive = true
  removed : ∀ {id}, store.runs.get id = none → store.rowsOf id = [] ∨
    ∃ last earlier, store.rowsOf id = last :: earlier ∧ last.isActive = false ∧
      ∀ row ∈ earlier, row.isActive = true

section Rows

variable {rules : Rules} {store next : Store} {id : String}

theorem rowsOf_putRun_self (run : AiRun) :
    (store.putRow (.run run)).rowsOf run.id = run :: store.rowsOf run.id := by
  rw [Store.rowsOf, putRow_run_written, List.filter_cons_of_pos (by simp), Store.rowsOf]

theorem rowsOf_putRun_other {run : AiRun} (other : id ≠ run.id) :
    (store.putRow (.run run)).rowsOf id = store.rowsOf id := by
  rw [Store.rowsOf, putRow_run_written, List.filter_cons_of_neg (by simpa using other.symm),
    Store.rowsOf]

theorem rowsOf_of_unwritten (fresh : store.unwritten id = true) : store.rowsOf id = [] :=
  List.filter_eq_nil_iff.mpr fun row member => by simpa using unwritten_iff.mp fresh row member

theorem ledger_empty : Store.empty.Ledger where
  stored found := nomatch found
  removed _ := .inl rfl

/-- A run whose rows are all active may be written again. -/
theorem Store.Ledger.putRun (ledger : store.Ledger) {run : AiRun}
    (active : ∀ row ∈ store.rowsOf run.id, row.isActive = true) :
    (store.putRow (.run run)).Ledger where
  stored := by
    intro other found here
    rw [putRow_run_runs, Table.get_put] at here
    split_ifs at here with key
    · cases here
      rw [key]
      exact ⟨store.rowsOf run.id, rowsOf_putRun_self run, active⟩
    · rw [rowsOf_putRun_other key]
      exact ledger.stored here
  removed := by
    intro other here
    rw [putRow_run_runs, Table.get_put] at here
    split_ifs at here with key
    rw [rowsOf_putRun_other key]
    exact ledger.removed here

/-- Every move keeps the ledger. -/
theorem Store.Ledger.move (ledger : store.Ledger) (move : Move rules store next) :
    next.Ledger := by
  cases move with
  | @delete id _ ended =>
      refine ⟨fun {other found} here => ?_, fun {other} here => ?_⟩
      · rw [Table.get_remove] at here
        split_ifs at here
        exact ledger.stored here
      · rw [Table.get_remove] at here
        split_ifs at here with key
        · subst key
          cases before : store.runs.get other with
          | none => exact ledger.removed before
          | some run =>
              obtain ⟨earlier, rows, active⟩ := ledger.stored before
              exact .inr ⟨run, earlier, rows, ended run before, active⟩
        · exact ledger.removed here
  | write change =>
      cases change with
      | createRun fresh created =>
          refine ledger.putRun fun row member => ?_
          rw [rowsOf_of_unwritten fresh] at member
          cases member
      | updateRun found active origin messages =>
          obtain ⟨earlier, rows, activeRows⟩ := ledger.stored found
          refine ledger.putRun fun row member => ?_
          rw [rows] at member
          obtain rfl | before := List.mem_cons.mp member
          · exact active
          · exact activeRows row before
      | createConversation _ _ _ _ => exact ⟨ledger.stored, ledger.removed⟩
      | keepContext _ _ _ => exact ⟨ledger.stored, ledger.removed⟩
      | replaceContext _ _ _ _ _ _ => exact ⟨ledger.stored, ledger.removed⟩

/-- A run has one terminal row at most, and has one when it ended. -/
theorem Store.Ledger.terminalRows (ledger : store.Ledger) (id : String) :
    (store.terminalRows id).length ≤ 1 ∧
      (store.Ended id ↔ (store.terminalRows id).length = 1) := by
  have written : (∃ row ∈ store.written, row.id = id) ↔ store.rowsOf id ≠ [] := by
    simp [Store.rowsOf, List.filter_eq_nil_iff]
  have older : ∀ {earlier : List AiRun}, (∀ row ∈ earlier, row.isActive = true) →
      (earlier.filter fun row => !row.isActive) = [] := fun active =>
    List.filter_eq_nil_iff.mpr fun row member => by simp [active row member]
  rw [Store.Ended, written, Store.terminalRows]
  cases found : store.runs.get id with
  | some run =>
      obtain ⟨earlier, rows, active⟩ := ledger.stored found
      cases status : run.isActive <;> simp [rows, older active, status]
  | none =>
      obtain rows | ⟨last, earlier, rows, stopped, active⟩ := ledger.removed found
      · simp [rows]
      · simp [rows, older active, stopped]

/-- A run which ended keeps its rows, and is stored as it is until it is deleted. -/
theorem Store.Ended.rows_move (ended : store.Ended id) (move : Move rules store next) :
    next.rowsOf id = store.rowsOf id ∧ (next.runs.get id = store.runs.get id ∨
      next.runs.get id = none ∧ rules.deletes id) := by
  obtain ⟨⟨row, member, named⟩, stopped⟩ := ended
  cases move with
  | @delete other allowed _ =>
      refine ⟨rfl, ?_⟩
      rw [Table.get_remove]
      split_ifs with key
      · exact .inr ⟨rfl, key ▸ allowed⟩
      · exact .inl rfl
  | write change =>
      cases change with
      | @createRun run fresh created =>
          have other : id ≠ run.id := fun same => unwritten_iff.mp fresh row member (named.trans same)
          rw [rowsOf_putRun_other other, putRow_run_runs, Table.get_put_other _ _ other]
          exact ⟨rfl, .inl rfl⟩
      | @updateRun old run found active origin messages =>
          have other : id ≠ run.id := by
            rintro rfl
            rw [stopped old found] at active
            cases active
          rw [rowsOf_putRun_other other, putRow_run_runs, Table.get_put_other _ _ other]
          exact ⟨rfl, .inl rfl⟩
      | createConversation _ _ _ _ => exact ⟨rfl, .inl rfl⟩
      | keepContext _ _ _ => exact ⟨rfl, .inl rfl⟩
      | replaceContext _ _ _ _ _ _ => exact ⟨rfl, .inl rfl⟩

/-- A run which ended keeps its rows. -/
theorem Store.Ended.rows_evolves (ended : store.Ended id) (evolves : Evolves rules store next) :
    next.rowsOf id = store.rowsOf id ∧ (next.runs.get id = store.runs.get id ∨
      next.runs.get id = none ∧ rules.deletes id) := by
  have kept : next.Ended id ∧ next.rowsOf id = store.rowsOf id ∧
      (next.runs.get id = store.runs.get id ∨ next.runs.get id = none ∧ rules.deletes id) := by
    refine evolves.invariant (fun now => now.Ended id ∧ now.rowsOf id = store.rowsOf id ∧
      (now.runs.get id = store.runs.get id ∨ now.runs.get id = none ∧ rules.deletes id)) ?_
      ⟨ended, rfl, .inl rfl⟩
    rintro now after ⟨ended, rows, stored⟩ move
    obtain ⟨rows', stored'⟩ := ended.rows_move move
    refine ⟨ended.move move, rows'.trans rows, ?_⟩
    rcases stored' with same | deleted
    · rw [same]
      exact stored
    · exact .inr deleted
  exact kept.2

end Rows

section Runs

variable {world final : World} {event : Event} {id : String}

/-- The ledger of reachable worlds. -/
theorem ledger_of_reachable (reachable : assistant.Reachable World.initial world) :
    world.store.Ledger := by
  have both : world.Sound ∧ world.store.Ledger := by
    refine reachable.invariant (fun world => world.Sound ∧ world.store.Ledger)
      ⟨sound_initial, ledger_empty⟩ ?_
    rintro world event next ⟨sound, ledger⟩ step
    refine ⟨sound.step step, ?_⟩
    obtain ⟨enabled, rfl⟩ := step_eq_some.mp step
    exact (World.evolves sound enabled Admitted.any).invariant Store.Ledger
      (fun holds move => holds.move move) ledger
  exact both.2

/-- One event keeps a run which ended, unless it is its deletion. -/
theorem World.Sound.ended_next (sound : world.Sound) (enabled : event.label.enabled world = true)
    (ended : world.store.Ended id) :
    (world.next event).store.Ended id ∧
      (world.next event).store.rowsOf id = world.store.rowsOf id ∧
      ((world.next event).store.runs.get id = world.store.runs.get id ∨
        (world.next event).store.runs.get id = none ∧ event.label = .commitDeletion id) := by
  have evolves : Evolves { Rules.any with deletes := fun id => event.label = .commitDeletion id }
      world.store (world.next event).store :=
    World.evolves sound enabled
      ⟨fun _ _ _ _ => trivial, fun _ _ _ _ => trivial, fun same => same, fun _ => trivial⟩
  exact ⟨ended.evolves evolves, ended.rows_evolves evolves⟩

/-- A run which ended is not written again by any later event: no step of its worker changes it
or creates it again, and only the deletion of the user removes it. For each run at most one
terminal row is ever recorded, and one is recorded exactly when it ended. -/
theorem ended_runs_stay_ended {events later : List Event}
    (reached : assistant.run World.initial events = some world)
    (runs : assistant.run world later = some final) (id : String) :
    (world.store.Ended id → final.store.rowsOf id = world.store.rowsOf id ∧
      (final.store.runs.get id = world.store.runs.get id ∨ final.store.runs.get id = none ∧
        ∃ event ∈ later, event.label = .commitDeletion id)) ∧
    (world.store.terminalRows id).length ≤ 1 ∧
      (world.store.Ended id ↔ (world.store.terminalRows id).length = 1) := by
  have reachable : assistant.Reachable World.initial world := ⟨events, reached⟩
  refine ⟨fun ended => ?_, (ledger_of_reachable reachable).terminalRows id⟩
  have sound := sound_of_reachable reachable
  clear reached reachable
  induction later generalizing world with
  | nil =>
      cases runs
      exact ⟨rfl, .inl rfl⟩
  | cons event rest inductionHypothesis =>
      obtain ⟨next, step, runs⟩ := assistant.run_cons_eq_some.mp runs
      obtain ⟨enabled, rfl⟩ := step_eq_some.mp step
      obtain ⟨ended', rows, stored⟩ := sound.ended_next enabled ended
      obtain ⟨rows', stored'⟩ := inductionHypothesis runs ended' (sound.preserved enabled)
      refine ⟨rows'.trans rows, ?_⟩
      obtain same' | ⟨gone, other, member, deletes⟩ := stored'
      · obtain same | ⟨gone, deletes⟩ := stored
        · exact .inl (same'.trans same)
        · exact .inr ⟨same'.trans gone, event, List.mem_cons_self, deletes⟩
      · exact .inr ⟨gone, other, List.mem_cons_of_mem _ member, deletes⟩

/-- A search which is cancelled after its worker has a permit. -/
def cancelledSearch : List Event :=
  [Label.start "run" { kind := "search", prompt := "case" }, .work "run", .cancel "run"].map
    fun label => label.accepted .null

/-- What the worker still does: its first save is refused, and its error is not recorded. -/
def lateWork : List Event :=
  [Label.work "run", .work "run"].map fun label => label.accepted .null

/-- The worker of a cancelled run leaves it as it is. -/
theorem ended_runs_stay_ended_after_cancel :
    ∃ world final, assistant.run World.initial cancelledSearch = some world ∧
      assistant.run world lateWork = some final ∧
      (world.store.terminalRows "run").length = 1 ∧
      final.store.rowsOf "run" = world.store.rowsOf "run" := by
  have runs : ((assistant.run World.initial cancelledSearch).any fun world =>
      (assistant.run world lateWork).isSome && (world.store.terminalRows "run").length == 1) =
        true := by
    decide
  obtain ⟨world, reached, runs⟩ := (Option.any_eq_true _ _).mp runs
  obtain ⟨late, terminal⟩ := Bool.and_eq_true_iff.mp runs
  obtain ⟨final, runs⟩ := Option.isSome_iff_exists.mp late
  have one : (world.store.terminalRows "run").length = 1 := eq_of_beq terminal
  obtain ⟨stays, _, ended⟩ := ended_runs_stay_ended reached runs "run"
  exact ⟨world, final, reached, runs, one, (stays (ended.mpr one)).1⟩

end Runs

end LawyerAssistance.AiRuns
