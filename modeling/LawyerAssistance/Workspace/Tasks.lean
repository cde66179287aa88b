import LawyerAssistance.Workspace.Invariant

/-!
# Tasks

Only a submission writes a task, and it writes a new one: no task has the same group, client and
request, its identifier is fresh, and its materials are stored in the same transaction. So a task
keeps its identifier, its contents and its materials in every later world, and no two tasks answer
one request.
-/

namespace LawyerAssistance.Workspace

open PrivacyText

/-- Two tasks answer the same request. -/
def Task.SameRequest (first second : Task) : Prop :=
  first.groupId = second.groupId ∧ first.clientId = second.clientId ∧
    first.requestId = second.requestId

/-- No row of a transaction is a task. -/
def Taskless (rows : List Row) : Prop := ∀ id task, .task id task ∉ rows

/-- A transaction of a request, as far as tasks go. -/
inductive TaskRows (fresh : List Id) (store : Store) : List Row → Prop where
  | other {rows : List Row} (taskless : Taskless rows) : TaskRows fresh store rows
  | submitted {rows : List Row} {id : Id} {task : Task} (taskless : Taskless rows)
      (keyed : task.id = id) (isFresh : id ∈ fresh) (unstored : store.tasks.get id = none)
      (group : (store.groups.get task.groupId).isSome)
      (first : ∀ id other, store.tasks.get id = some other → ¬ other.SameRequest task)
      (materials : ∀ id ∈ task.materialIds, ∃ m, .material id m ∈ rows) :
      TaskRows fresh store (rows ++ [.task id task])

/-- The rows of the task table. -/
def taskKind : Kind Task where
  table := Store.tasks
  key | .task id body => some (id, some body) | _ => none
  writes := by
    intro store row id body written other
    cases row <;> simp_all [Store.writeRow, Table.get_put]
  ignores := by
    intro store row ignored other
    cases row <;> simp_all [Store.writeRow]

section Rows

variable {store : Store} {rows first second : List Row} {id : Id} {fresh : List Id}

theorem tasks_putMany_of_absent (absent : ∀ task, .task id task ∉ rows) :
    (store.putMany rows).tasks.get id = store.tasks.get id :=
  taskKind.get_putMany_of_absent fun row member body key => by
    cases row <;> simp_all [taskKind]

/-- A group is never removed. -/
theorem groups_putMany_isSome (stored : (store.groups.get id).isSome) :
    ((store.putMany rows).groups.get id).isSome := by
  rcases groupKind.get_putMany_cases store rows id with
    ⟨last, member, final, key, left⟩ | ⟨-, kept⟩
  · change (store.putMany rows).groups.get id = final at left
    obtain ⟨body, rfl⟩ : ∃ body, final = some body := by
      cases last <;> simp_all [groupKind]
      exact ⟨_, key.2.symm⟩
    simp [left]
  · change (store.putMany rows).groups.get id = store.groups.get id at kept
    rwa [kept]

/-- A transaction stores the materials of its rows. -/
theorem materials_putMany_of_present {m : Material} (present : .material id m ∈ rows) :
    ((store.putMany rows).materials.get id).isSome := by
  obtain ⟨last, -, final, key, left⟩ : ∃ last ∈ rows, ∃ final,
      materialKind.key last = some (id, final) ∧ (store.putMany rows).materials.get id = final :=
    materialKind.get_putMany_of_present present rfl
  obtain ⟨body, rfl⟩ : ∃ body, final = some body := by
    cases last <;> simp_all [materialKind]
    exact ⟨_, key.2.symm⟩
  simp [left]

theorem Taskless.append (left : Taskless first) (right : Taskless second) :
    Taskless (first ++ second) := by
  intro id task member
  exact (List.mem_append.mp member).elim (left id task) (right id task)

theorem Taskless.gather {α : Type} {visit : α → Except Error (List Row)} {items : List α}
    (gathered : LawyerAssistance.gather visit items = .ok rows)
    (visited : ∀ item ∈ items, ∀ found, visit item = .ok found → Taskless found) : Taskless rows :=
  gather_induction Taskless (by simp [Taskless]) Taskless.append gathered visited

theorem taskless_of_revokedResult {resultId : Option Id}
    (revokes : revokedResult store resultId = .ok rows) : Taskless rows := by
  obtain ⟨-, rfl⟩ | ⟨resultId, r, -, -, rfl⟩ := revokedResult_eq_ok.mp revokes
  · simp [Taskless]
  · simp [Taskless]

end Rows

/-! ## The requests -/

/-- No transaction of a program from a store writes a task. -/
def TasklessOp {α : Type} (store : Store) (op : Op α) : Prop :=
  op.Holds Store.putMany (fun _ rows => Taskless rows) (fun _ _ => True) store

section Requests

variable {store : Store}

theorem cancelTask_taskless (taskId : Id) : TasklessOp store (cancelTask taskId) := by
  simp only [TasklessOp, cancelTask, Program.holds_bind, Program.holds_lift,
    Program.holds_current, Program.holds_commit, Program.holds_send]
  intro _ _ rows gathered
  refine ⟨.gather gathered ?_, trivial⟩
  intro materialId _ written cancelled
  obtain ⟨stored, -, cancelled⟩ := bind_eq_ok.mp cancelled
  split at cancelled <;> cases cancelled <;> simp [Taskless]

theorem retryTask_taskless (now : Nat) (taskId : Id) :
    TasklessOp store (retryTask now taskId) := by
  simp only [TasklessOp, retryTask, Program.holds_bind, Program.holds_lift, Program.holds_refuse,
    Program.holds_current, Program.holds_commit]
  intro _ _ _
  refine ⟨by simp [Taskless], fun rows gathered => ⟨.gather gathered ?_, trivial⟩⟩
  intro materialId _ written retried
  obtain ⟨stored, -, retried⟩ := bind_eq_ok.mp retried
  split at retried
  · obtain ⟨revoked, revokes, retried⟩ := bind_eq_ok.mp retried
    cases retried
    exact (taskless_of_revokedResult revokes).append (by simp [Taskless])
  · cases retried
    simp [Taskless]

theorem consent_taskless (services : Services) (now : Nat) (consentId taskId providerId : Id)
    (model purpose : String) (apiKey : Except Error Unit) :
    TasklessOp store (consent services now consentId taskId providerId model purpose apiKey) := by
  simp only [TasklessOp, consent, Program.holds_bind, Program.holds_lift, Program.holds_refuse,
    Program.holds_current, Program.holds_commit]
  intro _ _ _ _ _ _ _ _ pending gathered _
  refine ⟨Taskless.append ?_ (by simp [Taskless]), trivial⟩
  refine gather_induction
    (fun pending : List ((Id × Nat × String) × Row) => Taskless (pending.map Prod.snd))
    (by simp [Taskless]) (fun first second => by simpa using first.append second) gathered ?_
  intro materialId _ written waits
  obtain ⟨stored, -, waits⟩ := bind_eq_ok.mp waits
  obtain ⟨_, -, waits⟩ := bind_eq_ok.mp waits
  split at waits <;> cases waits <;> simp [Taskless]

/-- The rows of a dictionary update for the materials of its group. -/
theorem reanalyzeGroup_taskless (read : Store) (groupId : Id) (listed : List (Id × Material)) :
    (reanalyzeGroup read groupId listed).Holds Store.putMany (fun _ rows => Taskless rows)
      (fun rows _ => Taskless rows) store := by
  induction listed with
  | nil => simp [reanalyzeGroup, Taskless]
  | cons entry rest inductionHypothesis =>
      unfold reanalyzeGroup
      split
      · simp only [Program.holds_bind, Program.holds_send, Program.holds_lift,
          Program.holds_pure]
        intro revoked revokes
        refine inductionHypothesis.imp (fun _ _ taskless => taskless) fun others _ taskless => ?_
        refine Taskless.append (Taskless.append ?_ (by simp [Taskless])) taskless
        cases named : entry.2.resultId with
        | none =>
            rw [named] at revokes
            cases revokes
            simp [Taskless]
        | some resultId =>
            rw [named] at revokes
            obtain ⟨result, -, revokes⟩ := bind_eq_ok.mp revokes
            cases revokes
            simp [Taskless]
      · exact inductionHypothesis

theorem updateDictionaryLocked_taskless (services : Services) (groupId : Id)
    (entries : List DictionaryEntry) :
    TasklessOp store (updateDictionaryLocked services groupId entries) := by
  simp only [TasklessOp, updateDictionaryLocked, Program.holds_bind, Program.holds_lift,
    Program.holds_refuse, Program.holds_current, Program.holds_commit]
  intro _ _ _ group _ _ _
  refine (reanalyzeGroup_taskless _ _ _).imp (fun _ _ taskless => taskless) ?_
  intro rows _ taskless
  refine ⟨fun id task member => ?_, trivial⟩
  exact taskless id task ((List.mem_cons.mp member).resolve_left (by simp))

theorem finishLocked_taskless (services : Services) (now : Nat) (resultId : Id) (m : Material)
    (g : Group) (analysis : Analysis) (waiting : Bool) :
    TasklessOp store (finishLocked services now resultId m g analysis waiting) := by
  simp only [TasklessOp, finishLocked, Program.holds_bind, Program.holds_lift,
    Program.holds_current, Program.holds_commit]
  intro revoked revokes published publishes
  refine ⟨Taskless.append (Taskless.append (taskless_of_revokedResult revokes) ?_)
    (by simp [Taskless]), trivial⟩
  obtain ⟨-, rfl⟩ | ⟨-, -, -, rfl⟩ := publicationRows_eq_ok.mp publishes
  · simp [Taskless]
  · simp [Taskless]

theorem reviewDictionary_taskless (services : Services) (materialId : Id) (m : Material) (g : Group)
    (aiFindings : Option (List AiFinding)) (request : ReviewRequest) :
    TasklessOp store (reviewDictionary services materialId m g aiFindings request) := by
  unfold reviewDictionary TasklessOp
  split
  · simp
  · simp only [Program.holds_bind, Program.holds_lift, Program.holds_current, Program.holds_pure]
    intro _ _
    refine (updateDictionaryLocked_taskless services _ _).imp (fun _ _ taskless => taskless) ?_
    simp

theorem review_taskless (services : Services) (now : Nat) (resultId materialId : Id)
    (request : ReviewRequest) :
    TasklessOp store (review services now resultId materialId request) := by
  simp only [TasklessOp, review, Program.holds_bind, Program.holds_lift, Program.holds_refuse,
    Program.holds_current]
  intro m _ _ _ evidence _ group _
  refine (reviewDictionary_taskless services _ _ _ _ _).imp (fun _ _ taskless => taskless) ?_
  intro reviewed _ _ analysis _
  refine (finishLocked_taskless services _ _ _ _ _ _).imp (fun _ _ taskless => taskless) ?_
  intro _ _ _
  cases evidence.2 with
  | none => trivial
  | some stage => simp [saveReviewedStage, Taskless]

/-- The rows of a submission for its files. -/
def fileRows (services : Services) (groupId : Id) (group : Group) (taskId : Id)
    (pairs : List (Id × ImportFile)) : List Row :=
  pairs.flatMap fun (materialId, file) =>
    [.source materialId file.bytes,
      .material materialId (newMaterial services groupId group taskId materialId file)]

theorem taskless_fileRows {services : Services} {groupId taskId : Id} {group : Group}
    {pairs : List (Id × ImportFile)} :
    Taskless (fileRows services groupId group taskId pairs) := by
  intro id task member
  obtain ⟨pair, -, row⟩ := List.mem_flatMap.mp member
  simp at row

theorem material_mem_fileRows {services : Services} {groupId taskId id : Id} {group : Group}
    {pairs : List (Id × ImportFile)} (listed : id ∈ pairs.map Prod.fst) :
    ∃ m, .material id m ∈ fileRows services groupId group taskId pairs := by
  obtain ⟨pair, member, rfl⟩ := List.mem_map.mp listed
  exact ⟨newMaterial services groupId group taskId pair.1 pair.2,
    List.mem_flatMap.mpr ⟨pair, member, List.mem_cons_of_mem _ List.mem_cons_self⟩⟩

/-- The rows of a submission. -/
theorem submit_taskRows {fresh : List Id} (services : Services) (now : Nat) (groupId requestId : Id)
    (files : List ImportFile) (clientId : Option Id) {taskId : Id} (materialIds : List Id)
    (isFresh : taskId ∈ fresh) (unstored : store.tasks.get taskId = none) :
    (submit services now groupId requestId files clientId taskId materialIds).Holds Store.putMany
      (TaskRows fresh) (fun _ _ => True) store := by
  simp only [submit, Program.holds_bind, Program.holds_lift, Program.holds_refuse,
    Program.holds_current]
  intro _ _ _ _ _ group found _ _
  split
  · simp
  · rename_i nothing
    refine ⟨.submitted taskless_fileRows rfl isFresh unstored ?_ ?_ ?_, trivial⟩
    · rw [Store.require_eq_ok.mp found]
      rfl
    · intro id other stored same
      refine List.find?_eq_none.mp nothing (id, other) (Table.mem_rows.mpr stored) ?_
      simp only [Bool.and_eq_true, beq_iff_eq]
      exact ⟨⟨same.1, same.2.1⟩, same.2.2⟩
    · exact fun id => material_mem_fileRows

/-- What the transactions of a request do to the tasks. -/
theorem Request.taskRows (request : Request) (services : Services) (now : Nat)
    (unstored : ∀ id ∈ request.fresh, store.tasks.get id = none) :
    (request.op services now).Holds Store.putMany (TaskRows request.fresh) (fun _ _ => True)
      store := by
  have taskless {op : Op Unit} (holds : TasklessOp store op) :
      op.Holds Store.putMany (TaskRows request.fresh) (fun _ _ => True) store :=
    holds.imp (fun _ _ => .other) fun _ _ _ => trivial
  cases request with
  | submit taskId =>
      exact submit_taskRows _ _ _ _ _ _ _ List.mem_cons_self (unstored _ List.mem_cons_self)
  | cancelTask => exact taskless (cancelTask_taskless _)
  | retryTask => exact taskless (retryTask_taskless _ _)
  | review => exact taskless (review_taskless _ _ _ _ _)
  | consent => exact taskless (consent_taskless _ _ _ _ _ _ _ _)
  | setDictionary => exact taskless (updateDictionaryLocked_taskless _ _ _)
  | createGroup =>
      refine taskless ?_
      simp [TasklessOp, Request.op, Workspace.createGroup, Taskless]
  | createClient =>
      refine taskless ?_
      simp [TasklessOp, Request.op, Workspace.createClient, Taskless]
  | revokeClient =>
      refine taskless ?_
      simp [TasklessOp, Request.op, Workspace.revokeClient, Taskless]
  | revokeConsent =>
      refine taskless ?_
      simp [TasklessOp, Request.op, Workspace.revokeConsent, Taskless]
  | saveProvider =>
      refine taskless ?_
      simp [TasklessOp, Request.op, Workspace.saveProvider, Taskless]
  | replaceMaterial =>
      refine taskless ?_
      simp only [TasklessOp, Request.op, Workspace.replaceMaterial, Program.holds_bind,
        Program.holds_lift, Program.holds_refuse, Program.holds_current, Program.holds_commit,
        Program.holds_send]
      intro _ _ _ _ stored _ _ revoked revokes
      exact ⟨Taskless.append (Taskless.append (by simp [Taskless])
        (taskless_of_revokedResult revokes)) (by simp [Taskless]), trivial⟩
  | revokeMaterial =>
      refine taskless ?_
      simp only [TasklessOp, Request.op, Workspace.revokeMaterial, Program.holds_bind,
        Program.holds_lift, Program.holds_current, Program.holds_commit, Program.holds_send]
      intro stored _ revoked revokes
      exact ⟨(taskless_of_revokedResult revokes).append (by simp [Taskless]), trivial⟩

end Requests

/-! ## Reachable worlds -/

/-- Tasks are kept under their identifiers, one for each request, with their groups and their
materials. -/
structure TasksSound (issued : List Id) (store : Store) : Prop where
  keyed : ∀ {id task}, store.tasks.get id = some task → task.id = id
  known : ∀ {id task}, store.tasks.get id = some task → id ∈ issued
  single : ∀ {id other task same}, store.tasks.get id = some task →
    store.tasks.get other = some same → task.SameRequest same → id = other
  group : ∀ {id task}, store.tasks.get id = some task →
    (store.groups.get task.groupId).isSome
  materials : ∀ {id task}, store.tasks.get id = some task →
    ∀ materialId ∈ task.materialIds, (store.materials.get materialId).isSome

/-- Every task is kept as it is. -/
def TasksKept (before after : Store) : Prop :=
  ∀ id task, before.tasks.get id = some task → after.tasks.get id = some task

section Reachable

variable {services : Services} {pool : Nat} {issued fresh : List Id} {store : Store}
  {rows : List Row}

theorem tasks_putMany_submitted {key : Id} {task : Task} (taskless : Taskless rows) (id : Id) :
    (store.putMany (rows ++ [.task key task])).tasks.get id =
      if id = key then some task else store.tasks.get id := by
  rw [Store.putMany_append, Store.putMany_cons, Store.putMany_nil, Store.writeRow, Table.get_put,
    tasks_putMany_of_absent (taskless id)]

/-- A transaction of a request keeps the tasks, and their invariant. -/
theorem TasksSound.putMany (sound : TasksSound issued store) (written : TaskRows fresh store rows)
    (subset : fresh ⊆ issued) :
    TasksSound issued (store.putMany rows) ∧ TasksKept store (store.putMany rows) := by
  cases written with
  | other taskless =>
      have same (id : Id) : (store.putMany rows).tasks.get id = store.tasks.get id :=
        tasks_putMany_of_absent (taskless id)
      refine ⟨⟨?_, ?_, ?_, ?_, ?_⟩, fun id task stored => (same id).trans stored⟩
      · exact fun stored => sound.keyed ((same _).symm.trans stored)
      · exact fun stored => sound.known ((same _).symm.trans stored)
      · exact fun stored other => sound.single ((same _).symm.trans stored)
          ((same _).symm.trans other)
      · exact fun stored => groups_putMany_isSome (sound.group ((same _).symm.trans stored))
      · exact fun stored materialId listed => materials_putMany_isSome
          (sound.materials ((same _).symm.trans stored) materialId listed)
  | @submitted rows key task taskless keyed isFresh unstored group first materials =>
      subst keyed
      have cases (id : Id) (stored : Task)
          (found : (store.putMany (rows ++ [.task task.id task])).tasks.get id = some stored) :
          (id = task.id ∧ stored = task) ∨ store.tasks.get id = some stored := by
        rw [tasks_putMany_submitted taskless] at found
        split_ifs at found with same
        · exact .inl ⟨same, (Option.some.inj found).symm⟩
        · exact .inr found
      refine ⟨⟨?_, ?_, ?_, ?_, ?_⟩, ?_⟩
      · intro id stored found
        obtain ⟨rfl, rfl⟩ | before := cases id stored found
        · rfl
        · exact sound.keyed before
      · intro id stored found
        obtain ⟨rfl, rfl⟩ | before := cases id stored found
        · exact subset isFresh
        · exact sound.known before
      · intro id other stored same found foundOther agree
        obtain ⟨rfl, rfl⟩ | before := cases id stored found
        · obtain ⟨rfl, rfl⟩ | beforeOther := cases other same foundOther
          · rfl
          · refine absurd ?_ (first other same beforeOther)
            exact ⟨agree.1.symm, agree.2.1.symm, agree.2.2.symm⟩
        · obtain ⟨rfl, rfl⟩ | beforeOther := cases other same foundOther
          · exact absurd agree (first id stored before)
          · exact sound.single before beforeOther agree
      · intro id stored found
        obtain ⟨rfl, rfl⟩ | before := cases id stored found
        · exact groups_putMany_isSome group
        · exact groups_putMany_isSome (sound.group before)
      · intro id stored found materialId listed
        obtain ⟨rfl, rfl⟩ | before := cases id stored found
        · obtain ⟨m, row⟩ := materials materialId listed
          exact materials_putMany_of_present (List.mem_append_left _ row)
        · exact materials_putMany_isSome (sound.materials before materialId listed)
      · intro id stored before
        rw [tasks_putMany_submitted taskless, if_neg]
        · exact before
        · rintro rfl
          rw [unstored] at before
          cases before

theorem AttemptRows.taskless {id : Id} {revision : Nat}
    (attempt : AttemptRows fresh id revision store rows) : Taskless rows := by
  cases attempt <;> simp [Taskless]

theorem ClaimRows.taskless (claim : ClaimRows store rows) : Taskless rows := by
  cases claim
  simp [Taskless]

theorem RecoveryRows.taskless (recovers : RecoveryRows store rows) : Taskless rows := by
  cases recovers <;> simp [Taskless]

theorem TasksKept.trans {first second third : Store} (left : TasksKept first second)
    (right : TasksKept second third) : TasksKept first third :=
  fun id task stored => right id task (left id task stored)

theorem TasksSound.mono {more : List Id} (sound : TasksSound issued store)
    (subset : issued ⊆ more) : TasksSound more store :=
  { sound with known := fun stored => subset (sound.known stored) }

/-- Every event keeps the tasks and their invariant. -/
theorem TasksSound.step {world next : World} {event : Event} (sound : Sound world)
    (tasks : TasksSound world.issued world.store)
    (taken : Workspace.step services pool world event = some next) :
    TasksSound next.issued next.store ∧ TasksKept world.store next.store := by
  obtain ⟨subset, issued⟩ := issued_of_step taken
  have start : TasksSound next.issued world.store ∧ TasksKept world.store world.store :=
    ⟨tasks.mono issued, fun _ _ stored => stored⟩
  have write {store : Store} {rows : List Row}
      (holds : TasksSound next.issued store ∧ TasksKept world.store store)
      (written : TaskRows event.fresh store rows) :
      TasksSound next.issued (store.putMany rows) ∧
        TasksKept world.store (store.putMany rows) := by
    obtain ⟨sound, kept⟩ := holds.1.putMany written subset
    exact ⟨sound, holds.2.trans kept⟩
  by_cases asked : event.isRequest
  · obtain ⟨⟨-, areFresh⟩, stepped⟩ := stepped_of_step taken
    cases stepped with
    | @request process now request allowed live =>
        refine (request.taskRows services now fun id drawn => ?_).run_invariant
          (fun store => TasksSound _ store ∧ TasksKept world.store store) write start allowed
        exact Option.eq_none_iff_forall_ne_some.mpr fun _ stored =>
          areFresh id drawn (tasks.known stored)
    | claim | work | crash | start => cases asked
  · exact sound.store_invariant taken
      (fun store => TasksSound next.issued store ∧ TasksKept world.store store)
      (fun request => absurd request asked)
      (fun _ holds attempt => write holds (.other attempt.taskless))
      (fun holds claim => write holds (.other claim.taskless))
      (fun holds recovers => write holds (.other recovers.taskless)) start

theorem TasksSound.initial : TasksSound World.initial.issued World.initial.store := by
  constructor <;> simp [World.initial, Store.empty]

theorem tasksSound_of_reachable {world : World}
    (reachable : (machine services pool).Reachable World.initial world) :
    TasksSound world.issued world.store :=
  (reachable.invariant (fun world => Sound world ∧ TasksSound world.issued world.store)
    ⟨Sound.initial, TasksSound.initial⟩
    fun holds taken => ⟨holds.1.step taken, (holds.2.step holds.1 taken).1⟩).2

/-- A run from a reachable world keeps every task. -/
theorem tasksKept_of_run {world later : World} {events : List Event}
    (reachable : (machine services pool).Reachable World.initial world)
    (runs : (machine services pool).run world events = some later) :
    TasksKept world.store later.store :=
  Machine.run_relation (fun world => Sound world ∧ TasksSound world.issued world.store)
    (fun world later => TasksKept world.store later.store) (fun _ _ _ stored => stored)
    TasksKept.trans
    (fun holds taken => ⟨⟨holds.1.step taken, (holds.2.step holds.1 taken).1⟩,
      (holds.2.step holds.1 taken).2⟩)
    ⟨sound_of_reachable reachable, tasksSound_of_reachable reachable⟩ runs

end Reachable

end LawyerAssistance.Workspace
