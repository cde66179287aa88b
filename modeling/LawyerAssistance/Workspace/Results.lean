import LawyerAssistance.Workspace.Invariant

/-!
# Published results of reachable worlds

The relation between materials and their results, for every run from a new workspace.
-/

namespace LawyerAssistance.Workspace

open PrivacyText

/-- In every reachable world the unrevoked results of a material are the one that it
names, a named result is current, and a ready material names one. -/
theorem published_results_are_current {services : Services} {pool : Nat} {world : World}
    (reachable : (machine services pool).Reachable World.initial world) {materialId : Id}
    {m : Material} (stored : world.store.materials.get materialId = some m) :
    (∀ resultId r, world.store.results.get resultId = some r → r.materialId = materialId →
      r.revoked = false → m.resultId = some resultId) ∧
    (∀ resultId, m.resultId = some resultId →
      ∃ r g, world.store.results.get resultId = some r ∧
        world.store.groups.get m.groupId = some g ∧ m.status = .ready ∧
        r.revision = m.revision ∧ r.dictionaryRevision = g.dictionaryRevision) ∧
    (m.status = .ready → ∃ resultId, m.resultId = some resultId) := by
  have published := (sound_of_reachable reachable).published
  refine ⟨?_, ?_, ?_⟩
  · intro resultId r found owner unrevoked
    obtain ⟨other, otherFound, names⟩ := published.live found unrevoked
    rw [owner, stored] at otherFound
    cases otherFound
    exact names
  · intro resultId names
    obtain ⟨r, g, found, group, status, -, revision, dictionary⟩ := published.named stored names
    exact ⟨r, g, found, group, status, revision, dictionary⟩
  · intro status
    exact Option.isSome_iff_exists.mp (published.ready stored status)

/-- Services which redact nothing, with a text's own bytes as its digest. -/
def plainServices : Services where
  sha256Hex bytes := String.ofList (bytes.map fun byte => Char.ofNat byte.toNat)
  filesJson files := utf8 (files.flatMap fun file => file.1.toList)
  providerJson config := utf8 (config.id ++ config.model).toList
  analyze text _ _ _ _ := .ok ⟨text, [], none, [], false, String.ofList text, String.ofList text⟩
  analyzeWithAi text _ _ findings _ :=
    .ok ⟨text, [], some findings, [], false, String.ofList text, String.ofList text⟩
  validateAnalysis _ := .ok ()
  verifyAnalysisSource _ _ := .ok ()

/-- A workspace in which one file was submitted, with one worker. -/
def submitted : List Event :=
  [.start 0 [] none,
    .request 1 (.createGroup "grp" "salt" "case".toList) none,
    .request 2 (.submit "task" ["mat"] "grp" "request" [⟨"a.txt", [104, 105], none⟩] none) none]

/-- The local leg for the submitted file. -/
def processedLocally : List Event :=
  [.claim 0 "mat" none,
    .work 0 3 "w1" (.selected (.error (.new "ai_model_required"))) none,
    .work 0 3 "w2" (.admitted (.ok ())) none,
    .work 0 3 "w3" .proceed none,
    .work 0 3 "w4" (.extracted (.ok "hi".toList)) none,
    .work 0 3 "w5" .proceed none,
    .work 0 3 "res" .proceed none]

/-- The world after a run from a new workspace. -/
def worldAfter (services : Services) (pool : Nat) (events : List Event) : World :=
  ((machine services pool).run World.initial events).getD World.initial

theorem worldAfter_run {services : Services} {pool : Nat} {events more : List Event}
    (runs : ((machine services pool).run World.initial (events ++ more)).isSome) :
    (machine services pool).run (worldAfter services pool events) more =
      some (worldAfter services pool (events ++ more)) := by
  obtain ⟨final, ran⟩ := Option.isSome_iff_exists.mp runs
  obtain ⟨middle, ranFirst, ranMore⟩ := (machine services pool).run_append_eq_some.mp ran
  simp [worldAfter, ran, ranFirst, ranMore]

theorem worldAfter_reachable {services : Services} {pool : Nat} {events : List Event}
    (runs : ((machine services pool).run World.initial events).isSome) :
    (machine services pool).Reachable World.initial (worldAfter services pool events) :=
  ⟨events, @worldAfter_run services pool [] events runs⟩

/-- The published result after the local leg of one file. -/
theorem published_results_are_current_locally :
    ∃ m r g, (worldAfter plainServices 1 (submitted ++ processedLocally)).store.materials.get "mat" = some m ∧
      (worldAfter plainServices 1 (submitted ++ processedLocally)).store.results.get "res" = some r ∧
      (worldAfter plainServices 1 (submitted ++ processedLocally)).store.groups.get m.groupId = some g ∧
      m.status = .ready ∧ r.revision = m.revision ∧
      r.dictionaryRevision = g.dictionaryRevision := by
  have named : ((worldAfter plainServices 1 (submitted ++ processedLocally)).store.materials.get "mat").map
      Material.resultId = some (some "res") := by decide +kernel
  obtain ⟨m, stored, names⟩ := Option.map_eq_some_iff.mp named
  obtain ⟨r, g, result, group, status, revision, dictionary⟩ :=
    (published_results_are_current (worldAfter_reachable (by decide +kernel)) stored).2.1 "res" names
  exact ⟨m, r, g, stored, result, group, status, revision, dictionary⟩

end LawyerAssistance.Workspace
