import LawyerAssistance.Workspace.CloudUse

/-!
# Cloud consents

The use of a consent for a material is stored before its dispatch, a consent never loses a
use while its identifier is stored, and one worker holds it. So no material is dispatched
twice under one consent, whatever crashes come in between, and a superseded attempt polls
nothing more.
-/

namespace LawyerAssistance.Workspace

/-- The dispatches of a world: consent and material of every first poll. -/
def World.dispatched (world : World) : List (Id × Id) :=
  (world.polls.filter fun poll => poll.first).map fun poll => (poll.consentId, poll.materialId)

/-- The consent was issued, and where it is stored it records its use for the material. -/
def Spent (issued : List Id) (store : Store) (consentId materialId : Id) : Prop :=
  consentId ∈ issued ∧ ∀ {taskId c}, store.consents.get taskId = some c → c.id = consentId →
    materialId ∈ c.usedMaterials

theorem Spent.kept {issued more : List Id} {before after : Store} {consentId materialId : Id}
    (spent : Spent issued before consentId materialId) (kept : ConsentsKept issued before after)
    (subset : issued ⊆ more) : Spent more after consentId materialId := by
  refine ⟨subset spent.1, ?_⟩
  rintro taskId c found rfl
  obtain ⟨old, oldFound, same, grows⟩ := kept.older found spent.1
  exact grows (spent.2 oldFound same)

/-- The invariant of the uses of consents. -/
structure CloudSound (world : World) : Prop where
  unique : UniqueConsents world.store
  polls : ∀ {poll}, poll ∈ world.polls →
    Spent world.issued world.store poll.consentId poll.materialId
  once : world.dispatched.Nodup
  uses : ∀ {index use}, world.use index = some use →
    Spent world.issued world.store use.consentId use.materialId
  unsent : ∀ {index use}, world.use index = some use → use.sent = false →
    (use.consentId, use.materialId) ∉ world.dispatched
  exclusive : ∀ {first second use other}, world.use first = some use →
    world.use second = some other → use.consentId = other.consentId →
    use.materialId = other.materialId → first = second

theorem World.mem_dispatched {world : World} {consentId materialId : Id} :
    (consentId, materialId) ∈ world.dispatched ↔
      ∃ poll ∈ world.polls, poll.first = true ∧ poll.consentId = consentId ∧
        poll.materialId = materialId := by
  simp [World.dispatched, and_assoc]

/-- A claimed use is new and is spent afterwards. -/
theorem CloudSound.claimed {world : World} (sound : Sound world) (cloud : CloudSound world)
    {taskId materialId : Id} {consent : CloudConsent}
    (found : world.store.consents.get taskId = some consent)
    (unused : materialId ∉ consent.usedMaterials) :
    ¬ Spent world.issued world.store consent.id materialId ∧
      Spent world.issued
        (world.store.putMany [.consent taskId (claimedConsent consent materialId)])
        consent.id materialId := by
  refine ⟨fun spent => unused (spent.2 found rfl), sound.known.consent found, ?_⟩
  intro other c stored same
  simp only [Store.putMany_cons, Store.putMany_nil, Store.writeRow, Table.get_put] at stored
  split at stored
  · obtain rfl := Option.some.inj stored
    simp [claimedConsent]
  · exact absurd (cloud.unique stored found same) ‹_›

/-- Every event keeps the invariant of the uses. -/
theorem CloudSound.step {services : Services} {pool : Nat} {world next : World} {event : Event}
    (sound : Sound world) (cloud : CloudSound world)
    (taken : Workspace.step services pool world event = some next) : CloudSound next := by
  have kept := sound.consents_kept cloud.unique taken
  have stays : ∀ {consentId materialId}, Spent world.issued world.store consentId materialId →
      Spent next.issued next.store consentId materialId :=
    fun spent => spent.kept kept (issued_of_step taken).2
  have unchanged : next.polls = world.polls → next.dispatched = world.dispatched := by
    intro polls
    rw [World.dispatched, polls, World.dispatched]
  cases use_effect sound taken with
  | quiet polls keeps =>
    have same := unchanged polls
    refine ⟨kept.unique, ?_, same ▸ cloud.once, ?_, ?_, ?_⟩
    · exact fun member => stays (cloud.polls (polls ▸ member))
    · intro index after used
      obtain ⟨use, sent, before, rfl, -⟩ := keeps index after used
      have spent := cloud.uses before
      exact stays spent
    · intro index after used isUnsent
      obtain ⟨use, sent, before, rfl, unsent⟩ := keeps index after used
      have undispatched := cloud.unsent before (unsent isUnsent)
      exact same ▸ undispatched
    · intro first second after other used otherUsed sameConsent sameMaterial
      obtain ⟨use, _, before, rfl, -⟩ := keeps first after used
      obtain ⟨otherUse, _, otherBefore, rfl, -⟩ := keeps second other otherUsed
      exact cloud.exclusive before otherBefore sameConsent sameMaterial
  | @claimed _ claimant taskId consent use polls found unused sameId stored keeps =>
    have same := unchanged polls
    obtain ⟨new, spent⟩ := cloud.claimed sound found unused
    rw [← sameId] at new spent
    have unheld : ∀ {index other}, world.use index = some other →
        ¬ (use.consentId = other.consentId ∧ use.materialId = other.materialId) := by
      rintro index other used ⟨sameConsent, sameMaterial⟩
      exact new (sameConsent ▸ sameMaterial ▸ cloud.uses used)
    refine ⟨kept.unique, ?_, same ▸ cloud.once, ?_, ?_, ?_⟩
    · exact fun member => stays (cloud.polls (polls ▸ member))
    · intro index after used
      rcases keeps index after used with ⟨rfl, rfl⟩ | ⟨-, before⟩
      · exact ⟨(issued_of_step taken).2 spent.1, stored ▸ spent.2⟩
      · exact stays (cloud.uses before)
    · intro index after used isUnsent
      rw [same]
      rcases keeps index after used with ⟨rfl, rfl⟩ | ⟨-, before⟩
      · intro dispatched
        obtain ⟨poll, member, -, sameConsent, sameMaterial⟩ := World.mem_dispatched.mp dispatched
        exact new (sameConsent ▸ sameMaterial ▸ cloud.polls member)
      · exact cloud.unsent before isUnsent
    · intro first second after other used otherUsed sameConsent sameMaterial
      rcases keeps first after used with ⟨rfl, rfl⟩ | ⟨-, before⟩ <;>
        rcases keeps second other otherUsed with ⟨rfl, rfl⟩ | ⟨-, otherBefore⟩
      · rfl
      · exact absurd ⟨sameConsent, sameMaterial⟩ (unheld otherBefore)
      · exact absurd ⟨sameConsent.symm, sameMaterial.symm⟩ (unheld before)
      · exact cloud.exclusive before otherBefore sameConsent sameMaterial
  | @polled worked now resultId answer allowed use used polls authorized keeps =>
    have spent := cloud.uses used
    have dispatched : next.dispatched = if use.sent then world.dispatched else
        (use.consentId, use.materialId) :: world.dispatched := by
      rw [World.dispatched, polls]
      cases use.sent <;> simp [World.dispatched]
    -- A use which another worker holds is for another consent or another material.
    have foreign : ∀ {index other}, index ≠ worked → world.use index = some other →
        (other.consentId, other.materialId) ≠ (use.consentId, use.materialId) := by
      intro index other different otherUsed same
      obtain ⟨sameConsent, sameMaterial⟩ := Prod.mk.inj same
      exact different (cloud.exclusive otherUsed used sameConsent sameMaterial)
    refine ⟨kept.unique, ?_, ?_, ?_, ?_, ?_⟩
    · intro poll member
      rw [polls] at member
      rcases List.mem_cons.mp member with rfl | before
      · exact stays spent
      · exact stays (cloud.polls before)
    · rw [dispatched]
      split
      · exact cloud.once
      · rename_i unsent
        exact List.nodup_cons.mpr ⟨cloud.unsent used (eq_false_of_ne_true unsent), cloud.once⟩
    · intro index after afterUsed
      rcases keeps index after afterUsed with ⟨rfl, rfl⟩ | ⟨-, before⟩
      · exact stays spent
      · exact stays (cloud.uses before)
    · intro index after afterUsed isUnsent
      rcases keeps index after afterUsed with ⟨rfl, rfl⟩ | ⟨different, before⟩
      · cases isUnsent
      · have undispatched := cloud.unsent before isUnsent
        rw [dispatched]
        split
        · exact undispatched
        · exact fun member => (List.mem_cons.mp member).elim (foreign different before) undispatched
    · intro first second after other afterUsed otherUsed sameConsent sameMaterial
      rcases keeps first after afterUsed with ⟨rfl, rfl⟩ | ⟨different, before⟩ <;>
        rcases keeps second other otherUsed with ⟨rfl, rfl⟩ | ⟨otherDifferent, otherBefore⟩
      · rfl
      · exact absurd (Prod.ext sameConsent.symm sameMaterial.symm) (foreign otherDifferent otherBefore)
      · exact absurd (Prod.ext sameConsent sameMaterial) (foreign different before)
      · exact cloud.exclusive before otherBefore sameConsent sameMaterial

theorem cloudSound_of_reachable {services : Services} {pool : Nat} {world : World}
    (reachable : (machine services pool).Reachable World.initial world) : CloudSound world := by
  have initial : CloudSound World.initial := by
    constructor <;> intros <;> simp_all [World.initial, World.use, World.dispatched, Store.empty, UniqueConsents]
  exact (reachable.invariant (fun world => Sound world ∧ CloudSound world)
    ⟨Sound.initial, initial⟩
    (fun before taken => ⟨before.1.step taken, before.2.step before.1 taken⟩)).2

/-! ## Uses which are over -/

/-- The polls for a material under a consent. -/
def World.pollsUnder (world : World) (consentId materialId : Id) : List CloudPoll :=
  world.polls.filter fun poll => poll.consentId == consentId && poll.materialId == materialId

/-- A use is over: it is spent, and whoever holds it has lost its attempt. -/
structure UseOver (world : World) (consentId materialId : Id) : Prop where
  spent : Spent world.issued world.store consentId materialId
  lost : ∀ {index use}, world.use index = some use → use.consentId = consentId →
    use.materialId = materialId → Lost world.store materialId use.revision

/-- A use which is over stays over, and no event polls under it. -/
theorem UseOver.step {services : Services} {pool : Nat} {world next : World} {event : Event}
    {consentId materialId : Id} (sound : Sound world) (cloud : CloudSound world)
    (isOver : UseOver world consentId materialId)
    (taken : Workspace.step services pool world event = some next) :
    UseOver next consentId materialId ∧
      next.pollsUnder consentId materialId = world.pollsUnder consentId materialId := by
  have spent : Spent next.issued next.store consentId materialId :=
    isOver.spent.kept (sound.consents_kept cloud.unique taken) (issued_of_step taken).2
  have stays : ∀ {use : CloudUse} {index}, world.use index = some use →
      use.consentId = consentId → use.materialId = materialId →
      Lost next.store materialId use.revision :=
    fun used sameConsent sameMaterial => (isOver.lost used sameConsent sameMaterial).step sound taken
  cases use_effect sound taken with
  | quiet polls keeps =>
    refine ⟨⟨spent, ?_⟩, by rw [World.pollsUnder, polls, World.pollsUnder]⟩
    intro index after used sameConsent sameMaterial
    obtain ⟨use, _, before, rfl, -⟩ := keeps index after used
    have lost := stays before sameConsent sameMaterial
    exact lost
  | @claimed _ claimant taskId consent use polls found unused sameId stored keeps =>
    refine ⟨⟨spent, ?_⟩, by rw [World.pollsUnder, polls, World.pollsUnder]⟩
    intro index after used sameConsent sameMaterial
    rcases keeps index after used with ⟨-, rfl⟩ | ⟨-, before⟩
    · subst sameMaterial
      exact absurd (isOver.spent.2 found (sameId.symm.trans sameConsent)) unused
    · exact stays before sameConsent sameMaterial
  | @polled worked now resultId answer allowed use used polls authorized keeps =>
    refine ⟨⟨spent, ?_⟩, ?_⟩
    · intro index after afterUsed sameConsent sameMaterial
      have held := stays used
      rcases keeps index after afterUsed with ⟨-, rfl⟩ | ⟨-, before⟩
      · exact held sameConsent sameMaterial
      · exact stays before sameConsent sameMaterial
    · rw [World.pollsUnder, polls, List.filter_cons_of_neg, World.pollsUnder]
      intro same
      obtain ⟨sameConsent, sameMaterial⟩ : use.consentId = consentId ∧
          use.materialId = materialId := by simpa using same
      obtain ⟨m, taskId, c, found, sameRevision, running, -⟩ := authorized
      exact (isOver.lost used sameConsent sameMaterial).not_current m
        ⟨sameMaterial ▸ found, sameRevision, running⟩

/-- No run polls under a use which is over. -/
theorem UseOver.run {services : Services} {pool : Nat} {world final : World}
    {events : List Event} {consentId materialId : Id} (sound : Sound world)
    (cloud : CloudSound world) (isOver : UseOver world consentId materialId)
    (runs : (machine services pool).run world events = some final) :
    final.pollsUnder consentId materialId = world.pollsUnder consentId materialId :=
  Machine.run_relation
    (fun world => Sound world ∧ CloudSound world ∧ UseOver world consentId materialId)
    (fun before after => after.pollsUnder consentId materialId =
      before.pollsUnder consentId materialId)
    (fun _ => rfl) (fun first second => second.trans first)
    (fun ⟨sound, cloud, isOver⟩ taken =>
      ⟨⟨sound.step taken, cloud.step sound taken, (isOver.step sound cloud taken).1⟩,
        (isOver.step sound cloud taken).2⟩)
    ⟨sound, cloud, isOver⟩ runs

theorem Lost.recheck {services : Services} {store : Store} {now : Nat} {m : Material}
    {c : CloudConsent} {p : ProviderConfig} (lost : Lost store m.id m.revision) :
    recheckCloud services now store m c p ≠ .ok () := by
  intro checked
  obtain ⟨fresh, -, found, revision, running, -⟩ := recheckCloud_eq_ok checked
  exact lost.not_current fresh ⟨found, revision, running⟩

/-- A worker in the cloud leg is in an unfinished attempt at the material of its use. -/
theorem Worker.attempt_of_cloudUse {worker : Worker} {use : CloudUse}
    (uses : worker.cloudUse = some use) :
    worker.attempt = some (use.materialId, use.revision) := by
  unfold Worker.cloudUse at uses
  split at uses
  · obtain rfl := Option.some.inj uses
    rfl
  · cases uses

/-- Under one consent a material is dispatched at most once. Every poll happens under a
stored, unexpired consent which records the stored revision and source. Once the material of
an attempt in the cloud leg has changed, nothing more is polled under its consent and every
check of the leg fails; and a crash leaves no further poll under a claimed consent. -/
theorem cloud_consents_are_used_once {services : Services} {pool : Nat} {world : World}
    (reachable : (machine services pool).Reachable World.initial world) :
    world.dispatched.Nodup ∧
    (∀ event next, (machine services pool).step world event = some next →
      next.polls = world.polls ∨
        ∃ index now resultId answer allowed poll,
          event = .work index now resultId answer allowed ∧ next.polls = poll :: world.polls ∧
            PollAuthorized now world.store poll) ∧
    (∀ index use m, world.use index = some use →
      world.store.materials.get use.materialId = some m →
      ¬ (m.revision = use.revision ∧ m.status = .running) →
      ∀ events final, (machine services pool).run world events = some final →
        final.pollsUnder use.consentId use.materialId =
            world.pollsUnder use.consentId use.materialId ∧
          ∀ now copy consent config, copy.id = use.materialId → copy.revision = use.revision →
            recheckCloud services now final.store copy consent config ≠ .ok ()) ∧
    (∀ index use stopped, world.use index = some use →
      (machine services pool).step world .crash = some stopped →
      ∀ events final, (machine services pool).run stopped events = some final →
        final.pollsUnder use.consentId use.materialId =
          world.pollsUnder use.consentId use.materialId) := by
  have sound := sound_of_reachable reachable
  have cloud := cloudSound_of_reachable reachable
  refine ⟨cloud.once, ?_, ?_, ?_⟩
  · intro event next taken
    cases use_effect sound taken with
    | quiet polls => exact .inl polls
    | claimed polls => exact .inl polls
    | polled used polls authorized =>
      exact .inr ⟨_, _, _, _, _, _, rfl, polls, authorized⟩
  · intro index use m used found changed events final runs
    obtain ⟨process, live, uses⟩ := Option.bind_eq_some_iff.mp used
    have lost := Exclusive.lost sound (exclusive_of_reachable reachable) live
      (Worker.attempt_of_cloudUse uses) found changed
    have isOver : UseOver world use.consentId use.materialId := by
      refine ⟨cloud.uses used, fun otherUsed sameConsent sameMaterial => ?_⟩
      obtain rfl := cloud.exclusive otherUsed used sameConsent sameMaterial
      rw [Option.some.inj (otherUsed.symm.trans used)]
      exact lost
    refine ⟨isOver.run sound cloud runs, fun now copy consent config sameId sameRevision => ?_⟩
    have lostAtEnd : Lost final.store use.materialId use.revision :=
      (Machine.run_invariant
        (fun world => Sound world ∧ Lost world.store use.materialId use.revision)
        (fun before taken => ⟨before.1.step taken, before.2.step before.1 taken⟩)
        ⟨sound, lost⟩ runs).2
    rw [← sameId, ← sameRevision] at lostAtEnd
    exact lostAtEnd.recheck
  · intro index use stopped used crashes events final runs
    have taken : step services pool world .crash = some stopped := crashes
    have soundStopped := sound.step taken
    have cloudStopped := cloud.step sound taken
    cases (stepped_of_step taken).2 with
    | crash live =>
      have isOver : UseOver { world with live := none } use.consentId use.materialId :=
        ⟨cloud.uses used, fun nobody => by cases nobody⟩
      have unpolled := isOver.run soundStopped cloudStopped runs
      exact unpolled

/-- Services which find that everything needs a review. -/
def cautiousServices : Services :=
  { plainServices with
    analyze := fun text _ _ _ _ =>
      .ok ⟨text, [], none, [], true, String.ofList text, String.ofList text⟩ }

/-- A provider is configured, and the local leg leaves the submitted file to a consent. -/
def awaitingConsent : List Event :=
  submitted ++ [.request 3 (.saveProvider ⟨"prov", "p", "https://p", "m", false, 0⟩ (.ok ())) none] ++
    processedLocally ++ [.work 0 3 "w6" .proceed none]

/-- The consent is given, and the next attempt dispatches the file to the provider. -/
def dispatchedToCloud : List Event :=
  [.request 4 (.consent "con" "task" "prov" "m" "redaction_assistance" (.ok ())) none,
    .claim 0 "mat" none,
    .work 0 5 "v1" (.selected (.error (.new "ai_model_required"))) none,
    .work 0 5 "v2" (.admitted (.ok ())) none,
    .work 0 5 "v3" .proceed none,
    .work 0 5 "v4" (.extracted (.ok "hi".toList)) none,
    .work 0 5 "v5" .proceed none,
    .work 0 5 "v6" .proceed none,
    .work 0 5 "v7" .proceed none,
    .work 0 5 "v8" .proceed none,
    .work 0 5 "v9" (.connected (.ok ())) none,
    .work 0 6 "v10" (.polled none) none]

/-- The dispatched file is replaced before the provider has answered. -/
def replacedInFlight : List Event :=
  awaitingConsent ++ dispatchedToCloud ++
    [.request 7 (.replaceMaterial "mat" 1 ⟨"b.txt", [104, 111], none⟩) none]

/-- The worker of the replaced file wakes up once more. -/
def wokenAfterReplacement : List Event := [.work 0 8 "v11" .proceed none]

/-- The replaced file was dispatched once and is not polled again. -/
theorem cloud_consents_are_used_once_after_replacement :
    (worldAfter cautiousServices 1 replacedInFlight).dispatched = [("con", "mat")] ∧
      (worldAfter cautiousServices 1 (replacedInFlight ++ wokenAfterReplacement)).pollsUnder
          "con" "mat" =
        (worldAfter cautiousServices 1 replacedInFlight).pollsUnder "con" "mat" := by
  refine ⟨by decide +kernel, ?_⟩
  have used : (worldAfter cautiousServices 1 replacedInFlight).use 0 =
      some ⟨"con", "mat", 1, true⟩ := by decide +kernel
  have replaced : ((worldAfter cautiousServices 1 replacedInFlight).store.materials.get "mat").map
      Material.revision = some 2 := by decide +kernel
  obtain ⟨m, stored, revision⟩ := Option.map_eq_some_iff.mp replaced
  exact ((cloud_consents_are_used_once (worldAfter_reachable (by decide +kernel))).2.2.1 0 _ m used
    stored (by simp [revision]) _ _ (worldAfter_run (by decide +kernel))).1

end LawyerAssistance.Workspace
