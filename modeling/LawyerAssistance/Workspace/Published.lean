import LawyerAssistance.Workspace.Operations

/-!
# The published result of a material

`Published` relates the materials of a store to their results. Two shapes of
transactions keep it: a `Withdrawal`, which takes results away from materials and
revokes them, and a `Publication`, which finishes one material with a new result.
-/

namespace LawyerAssistance.Workspace

/-- A result which is not revoked is the one that its material names, a named result is
current, and a ready material names one. -/
structure Published (store : Store) : Prop where
  materialKeyed : ∀ {id m}, store.materials.get id = some m → m.id = id
  resultKeyed : ∀ {id r}, store.results.get id = some r → r.id = id
  live : ∀ {id r}, store.results.get id = some r → r.revoked = false →
    ∃ m, store.materials.get r.materialId = some m ∧ m.resultId = some id
  named : ∀ {id m resultId}, store.materials.get id = some m → m.resultId = some resultId →
    ∃ r g, store.results.get resultId = some r ∧ store.groups.get m.groupId = some g ∧
      m.status = .ready ∧ r.materialId = id ∧ r.revision = m.revision ∧
      r.dictionaryRevision = g.dictionaryRevision
  ready : ∀ {id m}, store.materials.get id = some m → m.status = .ready → m.resultId.isSome

/-- Rows which leave materials without a result, revoke the results which these
materials named, and change no group whose materials keep theirs. -/
structure Withdrawal (store : Store) (rows : List Row) : Prop where
  material : ∀ {id m}, .material id m ∈ rows → m.id = id ∧ m.resultId = none ∧ m.status ≠ .ready
  taken : ∀ {id m stored resultId}, .material id m ∈ rows → store.materials.get id = some stored →
    stored.resultId = some resultId → ∃ r, .result resultId r ∈ rows
  result : ∀ {id r}, .result id r ∈ rows → r.id = id ∧ r.revoked = true ∧
    ∃ stored m, store.results.get id = some stored ∧ .material stored.materialId m ∈ rows
  group : ∀ {groupId g id stored resultId}, .group groupId g ∈ rows →
    store.materials.get id = some stored → stored.groupId = groupId →
    stored.resultId = some resultId → ∃ m, .material id m ∈ rows

/-- Rows which finish the stored material `stored` as `m` with the new result `r`. -/
structure Publication (store : Store) (stored m : Material) (r : ReadyResult)
    (revoked : List Row) : Prop where
  found : store.materials.get m.id = some stored
  revokes : revokedResult store stored.resultId = .ok revoked
  resultId : m.resultId = some r.id
  status : m.status = .ready
  fresh : store.results.get r.id = none
  owner : r.materialId = m.id
  revision : r.revision = m.revision
  group : ∃ g, store.groups.get m.groupId = some g ∧ r.dictionaryRevision = g.dictionaryRevision

theorem Published.empty : Published Store.empty := by
  constructor <;> intros <;> simp_all [Store.empty]

section Withdrawal

variable {store : Store} {rows : List Row}

/-- After a withdrawal a result row is an untouched one or a revoked one. -/
theorem Withdrawal.result_cases (withdraws : Withdrawal store rows) {id : Id} {r : ReadyResult}
    (found : (store.putMany rows).results.get id = some r) :
    (r.id = id ∧ r.revoked = true) ∨
      (store.results.get id = some r ∧ ∀ other, .result id other ∉ rows) := by
  rcases results_putMany_cases found with member | untouched
  · obtain ⟨keyed, revoked, -⟩ := withdraws.result member
    exact .inl ⟨keyed, revoked⟩
  · exact .inr untouched

/-- After a withdrawal a material which still names a result is an untouched one. -/
theorem Withdrawal.untouched (withdraws : Withdrawal store rows) {id resultId : Id} {m : Material}
    (found : (store.putMany rows).materials.get id = some m)
    (names : m.resultId = some resultId) :
    store.materials.get id = some m ∧ ∀ other, .material id other ∉ rows := by
  rcases materials_putMany_cases found with member | untouched
  · have none := (withdraws.material member).2.1
    simp [none] at names
  · exact untouched

/-- A withdrawal keeps the relation. -/
theorem Withdrawal.published (withdraws : Withdrawal store rows) (holds : Published store) :
    Published (store.putMany rows) where
  materialKeyed := by
    intro id m found
    rcases materials_putMany_cases found with member | ⟨stored, -⟩
    · exact (withdraws.material member).1
    · exact holds.materialKeyed stored
  resultKeyed := by
    intro id r found
    rcases withdraws.result_cases found with ⟨keyed, -⟩ | ⟨stored, -⟩
    · exact keyed
    · exact holds.resultKeyed stored
  live := by
    intro id r found unrevoked
    rcases withdraws.result_cases found with ⟨-, revoked⟩ | ⟨stored, absent⟩
    · simp [revoked] at unrevoked
    · obtain ⟨m, owner, names⟩ := holds.live stored unrevoked
      -- Had the owner been written, its result would be among the revoked rows.
      have ownerKept : ∀ other, .material r.materialId other ∉ rows := by
        intro other member
        obtain ⟨taken, revokedRow⟩ := withdraws.taken member owner names
        exact absent taken revokedRow
      exact ⟨m, (materials_putMany_of_absent ownerKept).trans owner, names⟩
  named := by
    intro id m resultId found names
    obtain ⟨stored, absent⟩ := withdraws.untouched found names
    obtain ⟨r, g, result, group, status, owner, revision, dictionary⟩ := holds.named stored names
    have resultKept : ∀ other, .result resultId other ∉ rows := by
      intro other member
      obtain ⟨-, -, before, taken, found, ownerRow⟩ := withdraws.result member
      obtain rfl : before = r := Option.some.inj (found.symm.trans result)
      exact absent taken (owner ▸ ownerRow)
    have groupKept : ∀ other, .group m.groupId other ∉ rows := by
      intro other member
      obtain ⟨taken, ownerRow⟩ := withdraws.group member stored rfl names
      exact absent taken ownerRow
    exact ⟨r, g, (results_putMany_of_absent resultKept).trans result,
      (groups_putMany_of_absent groupKept).trans group, status, owner, revision, dictionary⟩
  ready := by
    intro id m found status
    rcases materials_putMany_cases found with member | ⟨stored, -⟩
    · exact absurd status (withdraws.material member).2.2
    · exact holds.ready stored status

end Withdrawal

section Publication

variable {store : Store}

/-- `revokedResult` writes exactly the named result, revoked. -/
theorem revokedResult_eq_ok {resultId : Option Id} {rows : List Row} :
    revokedResult store resultId = .ok rows ↔
      (resultId = none ∧ rows = []) ∨
      ∃ id r, resultId = some id ∧ store.results.get id = some r ∧
        rows = [.result id { r with revoked := true }] := by
  cases resultId with
  | none => simp [revokedResult, eq_comm]
  | some id =>
      simp only [revokedResult, bind_eq_ok, Store.require_eq_ok]
      simp [eq_comm]

/-- Taking the named result from one stored material is a withdrawal. -/
theorem withdrawal_of_revokedResult (holds : Published store) {stored m : Material}
    {revoked : List Row} (found : store.materials.get m.id = some stored)
    (revokes : revokedResult store stored.resultId = .ok revoked) (nameless : m.resultId = none)
    (unready : m.status ≠ .ready) : Withdrawal store (revoked ++ [.material m.id m]) := by
  rcases revokedResult_eq_ok.mp revokes with ⟨none, rfl⟩ | ⟨resultId, r, names, result, rfl⟩
  · constructor <;> simp_all
    rintro _ _ _ _ - - rfl
    simp [none]
  · have owner : r.materialId = m.id := by
      obtain ⟨other, -, otherResult, -, -, owner, -⟩ := holds.named found names
      obtain rfl : other = r := Option.some.inj (otherResult.symm.trans result)
      exact owner
    have keyed := holds.resultKeyed result
    constructor <;> simp_all
    rintro _ _ _ _ - - rfl other
    simpa [names] using other.symm

/-- Writing a new result and the material which names it, over a material without a
result. -/
theorem Published.publish (holds : Published store) {before m : Material} {r : ReadyResult}
    (found : store.materials.get m.id = some before) (nameless : before.resultId = none)
    (resultId : m.resultId = some r.id) (status : m.status = .ready)
    (fresh : store.results.get r.id = none) (owner : r.materialId = m.id)
    (revision : r.revision = m.revision)
    (group : ∃ g, store.groups.get m.groupId = some g ∧ r.dictionaryRevision = g.dictionaryRevision) :
    Published (store.putMany [.result r.id r, .material m.id m]) where
  materialKeyed := by
    intro id other stored
    simp only [Store.putMany_cons, Store.putMany_nil, Store.writeRow, Table.get_put] at stored
    split at stored
    · simp_all
    · exact holds.materialKeyed stored
  resultKeyed := by
    intro id other stored
    simp only [Store.putMany_cons, Store.putMany_nil, Store.writeRow, Table.get_put] at stored
    split at stored
    · simp_all
    · exact holds.resultKeyed stored
  live := by
    intro id other stored unrevoked
    simp only [Store.putMany_cons, Store.putMany_nil, Store.writeRow, Table.get_put] at stored ⊢
    split at stored
    · obtain rfl := Option.some.inj stored
      subst id
      exact ⟨m, by simp [owner], resultId⟩
    · obtain ⟨otherOwner, ownerFound, names⟩ := holds.live stored unrevoked
      have different : other.materialId ≠ m.id := by
        intro same
        rw [same, found] at ownerFound
        cases ownerFound
        simp [nameless] at names
      exact ⟨otherOwner, by simp [different, ownerFound], names⟩
  named := by
    intro id other named stored names
    simp only [Store.putMany_cons, Store.putMany_nil, Store.writeRow, Table.get_put] at stored ⊢
    split at stored
    · obtain rfl := Option.some.inj stored
      subst id
      obtain rfl : r.id = named := Option.some.inj (resultId.symm.trans names)
      obtain ⟨g, groupFound, dictionary⟩ := group
      exact ⟨r, g, by simp, groupFound, status, owner, revision, dictionary⟩
    · obtain ⟨result, g, resultFound, rest⟩ := holds.named stored names
      have different : named ≠ r.id := by
        rintro rfl
        simp [fresh] at resultFound
      exact ⟨result, g, by simp [different, resultFound], rest⟩
  ready := by
    intro id other stored ready
    simp only [Store.putMany_cons, Store.putMany_nil, Store.writeRow, Table.get_put] at stored
    split at stored
    · obtain rfl := Option.some.inj stored
      simp [resultId]
    · exact holds.ready stored ready

/-- A publication keeps the relation: it withdraws the old result and then writes the
new one. -/
theorem Publication.published {stored m : Material} {r : ReadyResult} {revoked : List Row}
    (publishes : Publication store stored m r revoked) (holds : Published store) :
    Published (store.putMany (revoked ++ [.result r.id r] ++ [.material m.id m])) := by
  let emptied : Material := { m with resultId := none, status := .needsReview }
  have withdraws : Withdrawal store (revoked ++ [.material emptied.id emptied]) :=
    withdrawal_of_revokedResult holds publishes.found publishes.revokes rfl (by simp [emptied])
  have sameStore : store.putMany (revoked ++ [.result r.id r] ++ [.material m.id m]) =
      (store.putMany (revoked ++ [.material emptied.id emptied])).putMany
        [.result r.id r, .material m.id m] := by
    simp [Store.putMany_append, Store.writeRow, Table.put, AList.insert_insert, emptied]
  rw [sameStore]
  have noOtherRow : ∀ other, .result r.id other ∉ revoked ++ [.material emptied.id emptied] := by
    intro other member
    rcases revokedResult_eq_ok.mp publishes.revokes with ⟨-, rfl⟩ | ⟨id, old, -, result, rfl⟩
    · simp at member
    · have := publishes.fresh
      simp_all
  have noGroupRow : ∀ other, .group m.groupId other ∉ revoked ++ [.material emptied.id emptied] := by
    intro other member
    rcases revokedResult_eq_ok.mp publishes.revokes with ⟨-, rfl⟩ | ⟨id, old, -, result, rfl⟩ <;>
      simp at member
  have emptiedFound : (store.putMany (revoked ++ [.material emptied.id emptied])).materials.get
      m.id = some emptied := by
    simp [Store.putMany_append, Store.writeRow, emptied]
  refine (withdraws.published holds).publish emptiedFound rfl publishes.resultId
    publishes.status ((results_putMany_of_absent noOtherRow).trans publishes.fresh)
    publishes.owner publishes.revision ?_
  obtain ⟨g, groupFound, dictionary⟩ := publishes.group
  exact ⟨g, (groups_putMany_of_absent noGroupRow).trans groupFound, dictionary⟩

end Publication

end LawyerAssistance.Workspace
