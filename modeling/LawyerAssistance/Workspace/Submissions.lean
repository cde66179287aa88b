import LawyerAssistance.Workspace.Results
import LawyerAssistance.Workspace.Tasks

/-!
# Repeated submissions

A submission carries the identifier which its client chose for the request. The first accepted one
stores a task with a fingerprint of its files. Whatever happens in between, a later submission of
the same group, client and request writes nothing: with the same files it answers with that task,
and with other files it is a conflict. The checks of the files and of the client come first, so a
client which was revoked in between is refused.
-/

namespace LawyerAssistance.Workspace

open PrivacyText
open Program (current commit send lift refuse)

/-! ## The answer of a submission -/

/-- `display_material`. -/
def displayMaterial (store : Store) (now : Nat) (m : Material) : Material :=
  if m.status = .ready then
    let invalid := match m.resultId.bind store.results.get with
      | some r =>
          if r.expiresAt ≤ now then some "result_expired"
          else if r.revoked then some "result_revoked"
          else none
      | none => some "result_not_ready"
    match invalid with
    | some code => { m with status := .needsReview, reasonCode := some code, resultId := none }
    | none => m
  else m

/-- `aggregate`. -/
def aggregate (materials : List Material) : String :=
  let has (status : Status) : Bool := materials.any fun m => m.status = status
  if has .running then "running"
  else if has .queued then "queued"
  else if has .awaitingConsent then "awaiting_consent"
  else if has .needsReview then "needs_review"
  else if materials.all fun m => m.status = .ready then "ready"
  else if materials.all fun m => m.status = .cancelled then "cancelled"
  else if has .ready then "partial"
  else "failed"

/-- What `task_status` returns, with the materials from which it takes its summaries. -/
structure TaskStatus where
  id : Id
  status : String
  materials : List Material
deriving DecidableEq, Repr

/-- `task_status`. -/
def taskStatus (store : Store) (now : Nat) (taskId : Id) : Except Error TaskStatus := do
  let task ← Store.require (store.tasks.get taskId)
  let materials ← task.materialIds.mapM store.material
  let displayed := materials.map (displayMaterial store now)
  .ok ⟨task.id, aggregate displayed, displayed⟩

/-- A call of `submit`, with the identifiers which it draws. -/
structure Submission where
  now : Nat
  groupId : Id
  requestId : Id
  files : List ImportFile
  clientId : Option Id
  taskId : Id
  materialIds : List Id

namespace Submission

/-- The checks of `submit` before it takes the gate. -/
def check (submission : Submission) : Except Error Unit := do
  bounded submission.requestId.toList 128
  refuseIf (submission.files = [] ∨ 100 < submission.files.length ∨
    100 * 1024 * 1024 < (submission.files.map fun file => file.bytes.length).sum)
    (.new "batch_too_large")
  submission.files.forM checkFile

/-- What the fingerprint of some files digests. -/
def fingerprinted (services : Services) (files : List ImportFile) : Bytes :=
  services.filesJson (files.map fun file => (file.name, services.hash file.bytes, file.encoding))

/-- The fingerprint of some files. -/
def fingerprint (services : Services) (files : List ImportFile) : String :=
  services.hash (fingerprinted services files)

/-- The task of the request, if there is one. -/
def earlier (submission : Submission) (store : Store) : Option Task :=
  (store.tasks.rows.find? fun row => row.2.groupId == submission.groupId &&
    row.2.clientId == submission.clientId && row.2.requestId == submission.requestId).map Prod.snd

/-- The task which an accepted submission stores. -/
def task (services : Services) (submission : Submission) : Task where
  id := submission.taskId
  groupId := submission.groupId
  clientId := submission.clientId
  requestId := submission.requestId
  fingerprint := fingerprint services submission.files
  materialIds := (submission.materialIds.zip submission.files).map Prod.fst
  createdAt := submission.now

/-- The rows which an accepted submission stores. -/
def rows (services : Services) (submission : Submission) (group : Group) : List Row :=
  fileRows services submission.groupId group submission.taskId
    (submission.materialIds.zip submission.files) ++
      [.task submission.taskId (submission.task services)]

/-- `submit` as a request of the service. -/
def request (submission : Submission) : Request :=
  .submit submission.taskId submission.materialIds submission.groupId submission.requestId
    submission.files submission.clientId

/-- `submit` with its answer: the status of the earlier task, or of the new one. -/
def op (services : Services) (submission : Submission) : Op TaskStatus := do
  let store ← current
  let taskId := match submission.earlier store with
    | some task => task.id
    | none => submission.taskId
  submit services submission.now submission.groupId submission.requestId submission.files
    submission.clientId submission.taskId submission.materialIds
  let store ← current
  lift (taskStatus store submission.now taskId)

/-- The same group, client and request. -/
def SameRequest (first second : Submission) : Prop :=
  first.groupId = second.groupId ∧ first.clientId = second.clientId ∧
    first.requestId = second.requestId

/-- The digest fails to tell two lists of files apart: two files, or what is fingerprinted. -/
def Collide (services : Services) (files others : List ImportFile) : Prop :=
  (∃ file ∈ files, ∃ other ∈ others, file.bytes ≠ other.bytes ∧
    services.hash file.bytes = services.hash other.bytes) ∨
  (fingerprinted services files ≠ fingerprinted services others ∧
    fingerprint services files = fingerprint services others)

/-- What a repeated submission does in a store, after the first one was answered with a status. -/
structure Repeats (services : Services) (store : Store) (first second : Submission)
    (status : TaskStatus) (outcome : Program.Outcome Store Signal Error TaskStatus) : Prop where
  unchanged : outcome.state = store
  same : second.files = first.files →
    checkClient store second.groupId second.clientId = .ok () →
      ∃ again, outcome.result = .ok again ∧ again.id = status.id
  refused : ∀ error, second.files = first.files →
    checkClient store second.groupId second.clientId = .error error →
      outcome.result = .error error
  conflict : Function.Injective services.filesJson → second.files ≠ first.files →
    ¬ Collide services second.files first.files → second.check = .ok () →
      checkClient store second.groupId second.clientId = .ok () →
        outcome.result = .error (.new "idempotency_conflict")
  failed : Function.Injective services.filesJson → second.files ≠ first.files →
    ¬ Collide services second.files first.files → ∃ error, outcome.result = .error error

/-! ## What a submission does -/

section Answers

variable {services : Services} {submission first second : Submission} {store : Store} {task : Task}
  {allowed : Option Nat}

theorem execute_answer {α : Type} {value : Except Error α} :
    Op.execute (lift value) store allowed = ⟨store, [], value⟩ := by
  cases value <;> rfl

theorem execute_lift_answer {α β : Type} {value : Except Error α} {next : α → Op β}
    {answer : α → Except Error β}
    (answers : ∀ result, (next result).execute store allowed = ⟨store, [], answer result⟩) :
    Op.execute (lift value >>= next) store allowed = ⟨store, [], value >>= answer⟩ := by
  cases value with
  | error error => rfl
  | ok result => exact answers result

/-- A program behind a computation fails, or goes on with its value. -/
theorem execute_lift_eq {α β : Type} {value : Except Error α} {next : α → Op β}
    {outcome : Program.Outcome Store Signal Error β}
    (executed : Op.execute (lift value >>= next) store allowed = outcome) :
    (∃ error, outcome = ⟨store, [], .error error⟩) ∨
      ∃ result, value = .ok result ∧ (next result).execute store allowed = outcome := by
  cases value with
  | error error => exact .inl ⟨error, executed.symm⟩
  | ok result => exact .inr ⟨result, rfl, executed⟩

/-- A program behind a transaction fails with the storage, or goes on with its rows. -/
theorem execute_commit_eq {β : Type} {rows : List Row} {next : Unit → Op β}
    {outcome : Program.Outcome Store Signal Error β}
    (executed : Op.execute (commit rows >>= next) store allowed = outcome) :
    outcome = ⟨store, [], .error storageFailed⟩ ∨
      ∃ left, (next ()).execute (store.putMany rows) left = outcome := by
  match allowed with
  | none => exact .inr ⟨none, executed⟩
  | some 0 => exact .inl executed.symm
  | some (left + 1) => exact .inr ⟨some left, executed⟩

/-- A repeated submission reads, and writes nothing. -/
theorem execute_of_earlier (repeated : submission.earlier store = some task) :
    (submission.op services).execute store allowed = ⟨store, [], do
      submission.check
      let _ ← Store.require (store.groups.get submission.groupId)
      checkClient store submission.groupId submission.clientId
      refuseIf (task.fingerprint ≠ fingerprint services submission.files)
        (.new "idempotency_conflict")
      taskStatus store submission.now task.id⟩ := by
  obtain ⟨⟨key, found⟩, listed, rfl⟩ := Option.map_eq_some_iff.mp repeated
  rw [op, Op.execute_current, repeated]
  simp only [submit, check, Program.bind_assoc, bind_assoc, refuse]
  refine execute_lift_answer fun _ => execute_lift_answer fun _ => execute_lift_answer fun _ => ?_
  rw [Op.execute_current]
  refine execute_lift_answer fun _ => execute_lift_answer fun _ => ?_
  rw [listed]
  exact execute_lift_answer fun _ => execute_answer

/-- The first submission of a request writes its task and its materials in one transaction, or
nothing. -/
theorem execute_of_first {outcome : Program.Outcome Store Signal Error TaskStatus}
    (first : submission.earlier store = none)
    (executed : (submission.op services).execute store allowed = outcome) :
    (∃ error, outcome = ⟨store, [], .error error⟩) ∨
      ∃ group, submission.check = .ok () ∧ store.groups.get submission.groupId = some group ∧
        checkClient store submission.groupId submission.clientId = .ok () ∧
        outcome = ⟨store.putMany (submission.rows services group), [], taskStatus
          (store.putMany (submission.rows services group)) submission.now submission.taskId⟩ := by
  rw [op, Op.execute_current, first] at executed
  simp only [submit, Program.bind_assoc, refuse] at executed
  obtain failed | ⟨_, named, executed⟩ := execute_lift_eq executed
  · exact .inl failed
  obtain failed | ⟨_, sized, executed⟩ := execute_lift_eq executed
  · exact .inl failed
  obtain failed | ⟨_, checked, executed⟩ := execute_lift_eq executed
  · exact .inl failed
  rw [Op.execute_current] at executed
  obtain failed | ⟨group, found, executed⟩ := execute_lift_eq executed
  · exact .inl failed
  obtain failed | ⟨_, authorized, executed⟩ := execute_lift_eq executed
  · exact .inl failed
  rw [Option.map_eq_none_iff.mp first] at executed
  obtain failed | ⟨left, executed⟩ := execute_commit_eq executed
  · exact .inl ⟨storageFailed, failed⟩
  refine .inr ⟨group, ?_, Store.require_eq_ok.mp found, authorized, ?_⟩
  · rw [check, named, ok_bind, sized, ok_bind, checked]
  · rw [Op.execute_current, execute_answer] at executed
    exact executed.symm

/-- What only reads behind a program leaves its state. -/
theorem run_bind_state {α β : Type} {program : Op α} {next : α → Op β}
    (reads : ∀ value store allowed, ((next value).execute store allowed).state = store) :
    (Op.execute (program >>= next) store allowed).state =
      (program.execute store allowed).state := by
  change (Op.execute (program.bind next) store allowed).state = _
  induction program generalizing store allowed with
  | done value => exact reads value store allowed
  | throw error => rfl
  | inspect first inductionHypothesis => exact inductionHypothesis store
  | transact batch first inductionHypothesis =>
      match allowed with
      | some 0 => rfl
      | some (left + 1) => exact inductionHypothesis
      | none => exact inductionHypothesis
  | emit what first inductionHypothesis => exact inductionHypothesis

theorem execute_op_state : ((submission.op services).execute store allowed).state =
    ((submission.request.op services submission.now).execute store allowed).state := by
  rw [op, Op.execute_current]
  exact run_bind_state fun _ store allowed => by rw [Op.execute_current, execute_answer]

theorem error_of_never_ok {α : Type} {computed : Except Error α}
    (never : ∀ value, computed ≠ .ok value) : ∃ error, computed = .error error := by
  cases computed with
  | error error => exact ⟨error, rfl⟩
  | ok value => exact absurd rfl (never value)

/-- Every item is computed when each one is. -/
theorem mapM_isOk {α β : Type} {compute : α → Except Error β} {items : List α}
    (each : ∀ item ∈ items, ∃ value, compute item = .ok value) :
    ∃ values, items.mapM compute = .ok values := by
  induction items with
  | nil => exact ⟨[], rfl⟩
  | cons item rest inductionHypothesis =>
      obtain ⟨value, computed⟩ := each item List.mem_cons_self
      obtain ⟨values, others⟩ := inductionHypothesis fun other member =>
        each other (List.mem_cons_of_mem _ member)
      exact ⟨value :: values, by rw [List.mapM_cons, computed, ok_bind, others]; rfl⟩

/-- A stored task whose materials are stored has a status. -/
theorem taskStatus_isOk {taskId : Id} {now : Nat} (stored : store.tasks.get taskId = some task)
    (materials : ∀ id ∈ task.materialIds, (store.materials.get id).isSome) :
    ∃ status, taskStatus store now taskId = .ok status ∧ status.id = task.id := by
  obtain ⟨values, read⟩ := @mapM_isOk _ _ store.material task.materialIds fun id listed => by
    obtain ⟨m, found⟩ := Option.isSome_iff_exists.mp (materials id listed)
    exact ⟨m, Store.material_eq_ok.mpr found⟩
  rw [taskStatus, Store.require_eq_ok.mpr stored, ok_bind, read]
  exact ⟨_, rfl, rfl⟩

/-- What an accepted submission stores. -/
theorem stored_of_rows {group : Group} :
    (store.putMany (submission.rows services group)).tasks.get submission.taskId =
        some (submission.task services) ∧
      ∀ id ∈ (submission.task services).materialIds,
        ((store.putMany (submission.rows services group)).materials.get id).isSome := by
  constructor
  · rw [rows, tasks_putMany_submitted taskless_fileRows, if_pos rfl]
  · intro id listed
    obtain ⟨m, row⟩ := material_mem_fileRows listed
    exact materials_putMany_of_present (List.mem_append_left _ row)

/-- The first task of a request is a stored one. -/
theorem stored_of_earlier {issued : List Id} (sound : TasksSound issued store)
    (repeated : submission.earlier store = some task) :
    store.tasks.get task.id = some task ∧ task.groupId = submission.groupId ∧
      task.clientId = submission.clientId ∧ task.requestId = submission.requestId := by
  obtain ⟨⟨key, found⟩, listed, rfl⟩ := Option.map_eq_some_iff.mp repeated
  have stored := Table.mem_rows.mp (List.mem_of_find?_eq_some listed)
  have matched := List.find?_some listed
  simp only [Bool.and_eq_true, beq_iff_eq] at matched
  have keyed := sound.keyed stored
  subst keyed
  exact ⟨stored, matched.1.1, matched.1.2, matched.2⟩

/-- A stored task is the one which its request finds. -/
theorem earlier_of_stored {issued : List Id} {id : Id} (sound : TasksSound issued store)
    (stored : store.tasks.get id = some task) (group : task.groupId = submission.groupId)
    (client : task.clientId = submission.clientId)
    (request : task.requestId = submission.requestId) :
    submission.earlier store = some task := by
  cases found : submission.earlier store with
  | none =>
      refine absurd ?_ (List.find?_eq_none.mp (Option.map_eq_none_iff.mp found) (id, task)
        (Table.mem_rows.mpr stored))
      simp only [Bool.and_eq_true, beq_iff_eq]
      exact ⟨⟨group, client⟩, request⟩
  | some other =>
      obtain ⟨storedOther, groupOther, clientOther, requestOther⟩ := stored_of_earlier sound found
      have same : other.id = id := sound.single storedOther stored
        ⟨groupOther.trans group.symm, clientOther.trans client.symm,
          requestOther.trans request.symm⟩
      rw [same, stored] at storedOther
      exact congrArg some (Option.some.inj storedOther).symm

/-- The answer of a submission is its stored task, with the fingerprint of its files. -/
theorem stored_of_answered {issued : List Id} {status : TaskStatus}
    (sound : TasksSound issued store)
    (answered : ((submission.op services).execute store allowed).result = .ok status) :
    submission.check = .ok () ∧ ∃ task,
      ((submission.op services).execute store allowed).state.tasks.get status.id = some task ∧
        task.groupId = submission.groupId ∧ task.clientId = submission.clientId ∧
        task.requestId = submission.requestId ∧
        task.fingerprint = fingerprint services submission.files := by
  cases repeated : submission.earlier store with
  | none =>
      obtain ⟨error, failed⟩ | ⟨group, checked, found, authorized, executed⟩ :=
        execute_of_first repeated rfl
      · rw [failed] at answered
        cases answered
      · rw [executed] at answered ⊢
        obtain ⟨stored, -⟩ := @stored_of_rows services submission store group
        obtain ⟨task, read, rest⟩ := bind_eq_ok.mp answered
        obtain ⟨materials, -, rest⟩ := bind_eq_ok.mp rest
        cases rest
        have same := Option.some.inj ((Store.require_eq_ok.mp read).symm.trans stored)
        subst same
        exact ⟨checked, _, stored, rfl, rfl, rfl, rfl⟩
  | some task =>
      rw [execute_of_earlier repeated] at answered ⊢
      obtain ⟨stored, group, client, request⟩ := stored_of_earlier sound repeated
      obtain ⟨_, checked, rest⟩ := bind_eq_ok.mp answered
      obtain ⟨_, -, rest⟩ := bind_eq_ok.mp rest
      obtain ⟨_, -, rest⟩ := bind_eq_ok.mp rest
      obtain ⟨alike, rest⟩ := refuseIf_bind_eq_ok.mp rest
      obtain ⟨read, found, rest⟩ := bind_eq_ok.mp rest
      obtain ⟨materials, -, rest⟩ := bind_eq_ok.mp rest
      cases rest
      have same := Option.some.inj ((Store.require_eq_ok.mp found).symm.trans stored)
      subst same
      exact ⟨checked, read, stored, group, client, request, not_not.mp alike⟩

/-- Lists of files with the same names, digests and encodings are the same when the digest tells
their files apart. -/
theorem eq_of_entries {files others : List ImportFile}
    (told : ∀ file ∈ files, ∀ other ∈ others,
      services.hash file.bytes = services.hash other.bytes → file.bytes = other.bytes)
    (entries : files.map (fun file => (file.name, services.hash file.bytes, file.encoding)) =
      others.map fun file => (file.name, services.hash file.bytes, file.encoding)) :
    files = others := by
  induction files generalizing others with
  | nil => exact (List.map_eq_nil_iff.mp entries.symm).symm
  | cons file rest inductionHypothesis =>
      cases others with
      | nil => cases entries
      | cons other others =>
          simp only [List.map_cons, List.cons.injEq, Prod.mk.injEq] at entries
          obtain ⟨⟨name, digest, encoding⟩, entries⟩ := entries
          have bytes := told file List.mem_cons_self other List.mem_cons_self digest
          have same : file = other := by
            cases file
            cases other
            simp_all
          rw [same, inductionHypothesis (fun first firstMember second secondMember =>
            told first (List.mem_cons_of_mem _ firstMember) second
              (List.mem_cons_of_mem _ secondMember)) entries]

/-- Without a collision different files have different fingerprints. -/
theorem fingerprint_ne {files others : List ImportFile}
    (encodes : Function.Injective services.filesJson) (different : files ≠ others)
    (apart : ¬ Collide services files others) :
    fingerprint services others ≠ fingerprint services files := by
  intro same
  refine apart (.inr ⟨fun alike => different (eq_of_entries ?_ (encodes alike)), same.symm⟩)
  intro file member other otherMember digest
  by_contra bytes
  exact apart (.inl ⟨file, member, other, otherMember, bytes, digest⟩)

/-- A failed submission leaves the store as it was. -/
theorem unchanged_of_error {error : Error}
    (failed : ((submission.op services).execute store allowed).result = .error error) :
    ((submission.op services).execute store allowed).state = store := by
  cases repeated : submission.earlier store with
  | some task => rw [execute_of_earlier repeated]
  | none =>
      obtain ⟨error, stopped⟩ | ⟨group, -, -, -, executed⟩ := execute_of_first repeated rfl
      · rw [stopped]
      · obtain ⟨stored, materials⟩ := @stored_of_rows services submission store group
        obtain ⟨status, read, -⟩ := @taskStatus_isOk _ _ _ submission.now stored materials
        rw [executed, read] at failed
        cases failed

/-- A submission whose checks fail is refused. -/
theorem refused_of_check {error : Error} (checked : submission.check = .error error) :
    ∃ other, ((submission.op services).execute store allowed).result = .error other := by
  cases repeated : submission.earlier store with
  | some task =>
      rw [execute_of_earlier repeated, checked]
      exact ⟨error, rfl⟩
  | none =>
      obtain ⟨error, stopped⟩ | ⟨group, passed, -⟩ := execute_of_first repeated rfl
      · exact ⟨error, by rw [stopped]⟩
      · rw [checked] at passed
        cases passed

/-- A submission with a refused file does not pass the checks. -/
theorem check_of_refused_file {file : ImportFile} {error : Error} (member : file ∈ submission.files)
    (refused : checkFile file = .error error) : ∃ other, submission.check = .error other := by
  cases checked : submission.check with
  | error other => exact ⟨other, rfl⟩
  | ok _ =>
      obtain ⟨_, -, rest⟩ := bind_eq_ok.mp checked
      obtain ⟨_, -, rest⟩ := bind_eq_ok.mp rest
      rw [forM_eq_ok.mp rest file member] at refused
      cases refused

end Answers

/-- A submission of a request which an earlier task answers. -/
theorem repeats_of_stored {services : Services} {first second : Submission} {store : Store}
    {task : Task} {status : TaskStatus} {issued : List Id} {allowed : Option Nat}
    (sound : TasksSound issued store) (stored : store.tasks.get status.id = some task)
    (request : first.SameRequest second) (group : task.groupId = first.groupId)
    (client : task.clientId = first.clientId) (named : task.requestId = first.requestId)
    (digest : task.fingerprint = fingerprint services first.files)
    (checked : first.check = .ok ()) :
    Repeats services store first second status ((second.op services).execute store allowed) := by
  have repeated : second.earlier store = some task := earlier_of_stored sound stored
    (group.trans request.1) (client.trans request.2.1) (named.trans request.2.2)
  have keyed : task.id = status.id := sound.keyed stored
  obtain ⟨g, found⟩ := Option.isSome_iff_exists.mp (sound.group stored)
  rw [group, request.1] at found
  have recheck (same : second.files = first.files) : second.check = .ok () := by
    rw [check, same, ← request.2.2]
    exact checked
  rw [execute_of_earlier repeated]
  refine ⟨rfl, fun same authorized => ?_, fun error same refused => ?_,
    fun encodes different apart passed authorized => ?_, fun encodes different apart => ?_⟩
  · obtain ⟨again, read, answer⟩ := @taskStatus_isOk _ _ _ second.now stored
      (sound.materials stored)
    refine ⟨again, ?_, answer.trans keyed⟩
    rw [recheck same, ok_bind, Store.require_eq_ok.mpr found, ok_bind, authorized, ok_bind]
    refine refuseIf_bind_eq_ok.mpr ⟨not_not.mpr ?_, ?_⟩
    · rw [digest, same]
    · rw [keyed]
      exact read
  · rw [recheck same, ok_bind, Store.require_eq_ok.mpr found, ok_bind, refused]
    rfl
  · rw [passed, ok_bind, Store.require_eq_ok.mpr found, ok_bind, authorized, ok_bind, refuseIf,
      if_pos]
    · rfl
    · rw [digest]
      exact fingerprint_ne encodes different apart
  · refine error_of_never_ok fun status answered => ?_
    obtain ⟨_, -, rest⟩ := bind_eq_ok.mp answered
    obtain ⟨_, -, rest⟩ := bind_eq_ok.mp rest
    obtain ⟨_, -, rest⟩ := bind_eq_ok.mp rest
    refine (refuseIf_bind_eq_ok.mp rest).1 ?_
    rw [digest]
    exact fingerprint_ne encodes different apart

/-- A submission is answered once. In every reachable world, after a first submission was answered
and whatever happened in between, a second one of the same request writes nothing: with the same
files it is answered with the same task, unless its client may not submit any more, and with other
files it fails, with a conflict when it passes the checks of its files and its client. In every
store a submission which fails changes nothing, and one with a refused file fails. -/
theorem submission_is_answered_once {services : Services} {pool : Nat}
    {before middle later : World} {first second : Submission} {status : TaskStatus}
    {between : List Event} {allowed : Option Nat}
    (reachable : (machine services pool).Reachable World.initial before)
    (submitted : step services pool before (.request first.now first.request allowed) =
      some middle)
    (answered : ((first.op services).execute before.store allowed).result = .ok status)
    (happened : (machine services pool).run middle between = some later)
    (request : first.SameRequest second) :
    (∀ accepts, Repeats services later.store first second status
      ((second.op services).execute later.store accepts)) ∧
    ∀ (store : Store) (submission : Submission) (accepts : Option Nat),
      (∀ error, ((submission.op services).execute store accepts).result = .error error →
        ((submission.op services).execute store accepts).state = store) ∧
      ∀ file ∈ submission.files, ∀ error, checkFile file = .error error →
        (∃ other, ((submission.op services).execute store accepts).result = .error other) ∧
          ((submission.op services).execute store accepts).state = store := by
  constructor
  · intro accepts
    have runs : (machine services pool).run before [.request first.now first.request allowed] =
        some middle := by
      rw [Machine.run_singleton]
      exact submitted
    have state : middle.store = ((first.op services).execute before.store allowed).state := by
      rw [execute_op_state]
      cases (stepped_of_step submitted).2 with
      | request live => rfl
    obtain ⟨checked, task, stored, group, client, named, digest⟩ :=
      stored_of_answered (tasksSound_of_reachable reachable) answered
    rw [← state] at stored
    have reached := reachable.run runs
    exact repeats_of_stored (tasksSound_of_reachable (reached.run happened))
      (tasksKept_of_run reached happened _ _ stored) request group client named digest checked
  · intro store submission accepts
    refine ⟨fun error => unchanged_of_error, fun file member error refused => ?_⟩
    obtain ⟨other, checked⟩ := check_of_refused_file member refused
    obtain ⟨last, failed⟩ := refused_of_check checked
    exact ⟨⟨last, failed⟩, unchanged_of_error failed⟩

/-! ## A client which is revoked in between -/

/-- A submission of one file by a client. -/
def ofClient (now : Nat) (taskId materialId : Id) : Submission where
  now := now
  groupId := "grp"
  requestId := "request"
  files := [⟨"a.txt", [104, 105], none⟩]
  clientId := some "cli"
  taskId := taskId
  materialIds := [materialId]

/-- A workspace with a group and a client. -/
def prepared : List Event :=
  [.start 0 [] none,
    .request 1 (.createGroup "grp" "salt" "case".toList) none,
    .request 2 (.createClient "cli" "client".toList "grp") none]

/-- The workspace after the submission, and after what happened next. -/
def worldSince (events : List Event) : World :=
  worldAfter plainServices 1
    (prepared ++ .request 3 (ofClient 3 "task" "mat").request none :: events)

/-- The answer of a submission in a world. -/
def answerIn (world : World) (submission : Submission) : Except Error TaskStatus :=
  ((submission.op plainServices).execute world.store none).result

/-- The file is submitted again after its task was cancelled. -/
theorem cancelled_task_is_answered_again : ∃ status again,
    answerIn (worldAfter plainServices 1 prepared) (ofClient 3 "task" "mat") = .ok status ∧
      answerIn (worldSince [.request 4 (.cancelTask "task") none]) (ofClient 5 "again" "more") =
        .ok again ∧ again.id = status.id := by
  have first : ((answerIn (worldAfter plainServices 1 prepared)
      (ofClient 3 "task" "mat")).toOption.any fun _ => true) = true := by decide +kernel
  obtain ⟨status, answered, -⟩ := any_toOption first
  have submitted : step plainServices 1 (worldAfter plainServices 1 prepared)
      (.request 3 (ofClient 3 "task" "mat").request none) = some (worldSince []) := by
    refine ((machine plainServices 1).run_singleton _ _).symm.trans ?_
    exact worldAfter_run (by decide +kernel)
  have happened : (machine plainServices 1).run (worldSince [])
      [.request 4 (.cancelTask "task") none] =
        some (worldSince [.request 4 (.cancelTask "task") none]) :=
    worldAfter_run (by decide +kernel)
  have request : SameRequest (ofClient 3 "task" "mat") (ofClient 5 "again" "more") :=
    ⟨rfl, rfl, rfl⟩
  obtain ⟨again, repeated, same⟩ := ((submission_is_answered_once
    (worldAfter_reachable (by decide +kernel)) submitted answered happened request).1 none).same
      rfl (by decide +kernel)
  exact ⟨status, again, answered, repeated, same⟩

/-- The same file is refused after its client was revoked. -/
theorem revoked_client_is_refused : ∃ status,
    answerIn (worldAfter plainServices 1 prepared) (ofClient 3 "task" "mat") = .ok status ∧
      ((machine plainServices 1).run World.initial (prepared ++
        [.request 3 (ofClient 3 "task" "mat").request none,
          .request 4 (.revokeClient "cli") none])).isSome ∧
      answerIn (worldSince [.request 4 (.revokeClient "cli") none]) (ofClient 5 "again" "more") =
        .error (.new "unauthorized") := by
  have first : ((answerIn (worldAfter plainServices 1 prepared)
      (ofClient 3 "task" "mat")).toOption.any fun _ => true) = true := by decide +kernel
  obtain ⟨status, answered, -⟩ := any_toOption first
  exact ⟨status, answered, by decide +kernel, by decide +kernel⟩

end Submission

end LawyerAssistance.Workspace
