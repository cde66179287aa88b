import LawyerAssistance.Privacy.McpTicketTokens
import LawyerAssistance.Std.Machine

/-!
# Runs of the ticket store

Any number of processes open one database, and their statements come in any order. The log of a
world has what was committed. A ticket is consumed when it was issued with the same bindings, is in
time, and was neither consumed, nor revoked, nor ended by a new epoch before; and then it is
accepted.
-/

namespace LawyerAssistance.Privacy.McpTickets

open McpAccessTicketStore

/-! ## Operations which succeed -/

section Operations

variable {sha256 : Octets → Digest} {database next : McpTicketDatabase}

/-- A row is consumed when it is issued under the current epoch, with what the claims say. -/
theorem consumeRow_eq_ok {claims : McpAccessTicketClaims} {token : Text} {nowUnix : UInt64} :
    consumeRow sha256 claims token nowUnix database = .ok next ↔
      currentRevocationEpoch database = .ok claims.revocationEpoch ∧
      nowUnix.toNat < 2 ^ 63 ∧ ∃ row, database.tickets.lookup claims.ticketId = some row ∧
        row.state = .issued ∧ row.tokenSha256 = hexDigest sha256 (utf8 (String.ofList token)) ∧
        row.nonce = claims.nonce ∧ u64FromSql row.revocationEpoch = some claims.revocationEpoch ∧
        u64FromSql row.issuedAtUnix = some claims.issuedAtUnix ∧
        u64FromSql row.expiresAtUnix = some claims.expiresAtUnix ∧
        next = database.updateTicket claims.ticketId
          { row with state := .consumed, consumedAtUnix := some nowUnix.toNat } := by
  constructor
  · intro done
    obtain ⟨ticketMeta, opened, done⟩ := bind_eq_ok.mp done
    obtain ⟨epoch, done⟩ := refuseIf_bind_eq_ok.mp done
    obtain ⟨row, found, done⟩ := bind_eq_ok.mp done
    obtain ⟨unrevoked, done⟩ := refuseIf_bind_eq_ok.mp done
    obtain ⟨issued, done⟩ := refuseIf_bind_eq_ok.mp done
    obtain ⟨same, done⟩ := refuseIf_bind_eq_ok.mp done
    obtain ⟨consumedAt, fits, done⟩ := bind_eq_ok.mp done
    cases done
    obtain ⟨small, rfl⟩ := sqlI64_eq_ok.mp fits
    simp only [not_or, not_not] at epoch issued same
    obtain ⟨token, nonce, rowEpoch, issuedAt, expiresAt⟩ := same
    refine ⟨bind_eq_ok.mpr ⟨ticketMeta, opened, presentOr_eq_ok.mpr epoch⟩, small, row,
      presentOr_eq_ok.mp found, issued, token, nonce, rowEpoch, issuedAt, expiresAt, rfl⟩
  · rintro ⟨epoch, small, row, found, issued, token, nonce, rowEpoch, issuedAt, expiresAt, rfl⟩
    obtain ⟨ticketMeta, opened, epoch⟩ := bind_eq_ok.mp epoch
    refine bind_eq_ok.mpr ⟨ticketMeta, opened, refuseIf_bind_eq_ok.mpr
      ⟨not_not.mpr (presentOr_eq_ok.mp epoch), ?_⟩⟩
    refine bind_eq_ok.mpr ⟨row, presentOr_eq_ok.mpr found, ?_⟩
    refine refuseIf_bind_eq_ok.mpr ⟨by simp [issued], refuseIf_bind_eq_ok.mpr
      ⟨not_not.mpr issued, refuseIf_bind_eq_ok.mpr ⟨by simp [*], ?_⟩⟩⟩
    exact bind_eq_ok.mpr ⟨_, sqlI64_eq_ok.mpr ⟨small, rfl⟩, rfl⟩

/-- A ticket is consumed when its token is read, it is in time, and its bindings are right. -/
theorem consume_eq_ok {store : McpAccessTicketStore} {token : Text}
    {context : McpTicketVerificationContext} {claims : McpAccessTicketClaims} :
    store.consume sha256 token context database = .ok (next, claims) ↔
      store.openToken sha256 token context.nowUnix = .ok claims ∧
      (claims.issuedAtUnix ≤ context.nowUnix ∧ context.nowUnix < claims.expiresAtUnix) ∧
      context.target.validate = .ok () ∧ store.Bound claims context ∧
      consumeRow sha256 claims token context.nowUnix database = .ok next := by
  constructor
  · intro done
    obtain ⟨opened, opens, done⟩ := bind_eq_ok.mp done
    obtain ⟨inTime, done⟩ := refuseIf_bind_eq_ok.mp done
    obtain ⟨_, target, done⟩ := bind_eq_ok.mp done
    obtain ⟨bound, done⟩ := refuseIf_bind_eq_ok.mp done
    obtain ⟨_, consumes, done⟩ := bind_eq_ok.mp done
    cases done
    rw [not_or, UInt64.not_lt, UInt64.not_le] at inTime
    exact ⟨opens, inTime, target, not_not.mp bound, consumes⟩
  · rintro ⟨opens, inTime, target, bound, consumes⟩
    refine bind_eq_ok.mpr ⟨claims, opens, refuseIf_bind_eq_ok.mpr
      ⟨not_or.mpr ⟨UInt64.not_lt.mpr inTime.1, UInt64.not_le.mpr inTime.2⟩, ?_⟩⟩
    refine bind_eq_ok.mpr ⟨(), target, refuseIf_bind_eq_ok.mpr ⟨not_not.mpr bound, ?_⟩⟩
    exact bind_eq_ok.mpr ⟨next, consumes, rfl⟩

/-- A ticket is revoked when its row is issued. -/
theorem revoke_eq_ok {ticketId : Text} {revokedAtUnix : UInt64}
    (done : revoke ticketId revokedAtUnix database = .ok next) :
    ∃ row stored, database.tickets.lookup ticketId = some row ∧ row.state = .issued ∧
      next = database.updateTicket ticketId
        { row with state := .revoked, revokedAtUnix := stored } := by
  obtain ⟨_, done⟩ := refuseIf_bind_eq_ok.mp done
  obtain ⟨stored, _, done⟩ := bind_eq_ok.mp done
  obtain ⟨row, found, done⟩ := bind_eq_ok.mp done
  cases done
  obtain ⟨found, issued⟩ := Option.filter_eq_some_iff.mp (presentOr_eq_ok.mp found)
  exact ⟨row, _, found, of_decide_eq_true issued, rfl⟩

/-- A new epoch is the next one. -/
theorem bumpRevocationEpoch_eq_ok {epoch : UInt64}
    (done : bumpRevocationEpoch database = .ok (next, epoch)) :
    ∃ ticketMeta, database.ticketMeta = some ticketMeta ∧
      ticketMeta.revocationEpoch + 1 < 2 ^ 63 ∧ next = { database with
        ticketMeta := some
          { ticketMeta with revocationEpoch := ticketMeta.revocationEpoch + 1 } } := by
  obtain ⟨ticketMeta, opened, done⟩ := bind_eq_ok.mp done
  obtain ⟨small, done⟩ := refuseIf_bind_eq_ok.mp done
  obtain ⟨_, _, done⟩ := bind_eq_ok.mp done
  cases done
  exact ⟨ticketMeta, presentOr_eq_ok.mp opened, Int.not_le.mp small, rfl⟩

/-- A database is opened with its epoch, or with the first one. -/
theorem initializeStore_eq_ok {store : McpAccessTicketStore}
    (done : store.initializeStore database = .ok next) :
    next.tickets = database.tickets ∧ (next.ticketMeta = database.ticketMeta ∨
      database.ticketMeta = none ∧ ∃ ticketMeta, next.ticketMeta = some ticketMeta ∧
        ticketMeta.revocationEpoch = 0) := by
  obtain ⟨_, done⟩ := refuseIf_bind_eq_ok.mp done
  rw [initializeDatabase] at done
  cases existing : database.ticketMeta with
  | some ticketMeta =>
      rw [existing] at done
      obtain ⟨_, done⟩ := refuseIf_bind_eq_ok.mp done
      cases done
      exact ⟨rfl, .inl existing⟩
  | none =>
      rw [existing] at done
      obtain ⟨_, _, done⟩ := bind_eq_ok.mp done
      cases done
      exact ⟨rfl, .inr ⟨rfl, _, rfl, rfl⟩⟩

end Operations

/-! ## Worlds -/

/-- A call of `issue` which has read the epoch. -/
structure Draft where
  store : McpAccessTicketStore
  request : McpAccessTicketRequest
  claims : McpAccessTicketClaims
  deriving DecidableEq

/-- A ticket which was recorded. -/
structure Issue where
  draft : Draft
  ticket : IssuedTicket
  deriving DecidableEq

/-- A ticket which was consumed. -/
structure Use where
  store : McpAccessTicketStore
  token : Text
  context : McpTicketVerificationContext
  claims : McpAccessTicketClaims
  deriving DecidableEq

/-- What was committed. -/
inductive Entry where
  | issued (issue : Issue)
  | consumed (use : Use)
  | revoked (ticketId : Text)
  | bumped
  deriving DecidableEq

/-- The database, the stores which are open, the calls which wait, and the log from its end. -/
structure World where
  database : McpTicketDatabase
  opened : List McpAccessTicketStore
  drafts : List Draft
  log : List Entry

/-- The world before the first store is opened. -/
def World.empty : World := ⟨⟨none, ∅⟩, [], [], []⟩

/-- The statements of the processes. A statement of the database which fails changes nothing. -/
inductive Event where
  | opens (store : McpAccessTicketStore)
  | prepares (store : McpAccessTicketStore) (request : McpAccessTicketRequest)
      (random : McpTicketRandom)
  | records (draft : Draft)
  | consumes (store : McpAccessTicketStore) (token : Text) (context : McpTicketVerificationContext)
  | revokes (ticketId : Text) (revokedAtUnix : UInt64)
  | bumps

section Machine

variable (sha256 : Octets → Digest)

/-- What a statement does. -/
def World.step (world : World) : Event → Option World
  | .opens store =>
      match store.initializeStore world.database with
      | .ok next => some { world with database := next, opened := store :: world.opened }
      | .error _ => some world
  | .prepares store request random =>
      if store ∈ world.opened then
        match store.prepare request random world.database with
        | .ok claims => some { world with drafts := ⟨store, request, claims⟩ :: world.drafts }
        | .error _ => some world
      else none
  | .records draft =>
      if draft ∈ world.drafts then
        match draft.store.record sha256 draft.claims world.database with
        | .ok (next, ticket) => some { world with
            database := next
            drafts := world.drafts.erase draft
            log := .issued ⟨draft, ticket⟩ :: world.log }
        | .error _ => some { world with drafts := world.drafts.erase draft }
      else none
  | .consumes store token context =>
      if store ∈ world.opened then
        match store.consume sha256 token context world.database with
        | .ok (next, claims) => some { world with
            database := next
            log := .consumed ⟨store, token, context, claims⟩ :: world.log }
        | .error _ => some world
      else none
  | .revokes ticketId revokedAtUnix =>
      match revoke ticketId revokedAtUnix world.database with
      | .ok next => some { world with database := next, log := .revoked ticketId :: world.log }
      | .error _ => some world
  | .bumps =>
      match bumpRevocationEpoch world.database with
      | .ok (next, _) => some { world with database := next, log := .bumped :: world.log }
      | .error _ => some world

/-- The machine of the processes. -/
def machine : Machine World Event := ⟨World.step sha256⟩

/-- What a step may do. -/
inductive Stepped (world : World) : World → Prop where
  | same {drafts : List Draft} (fewer : ∀ draft ∈ drafts, draft ∈ world.drafts) :
      Stepped world { world with drafts }
  | opens {store : McpAccessTicketStore} {next : McpTicketDatabase}
      (done : store.initializeStore world.database = .ok next) :
      Stepped world { world with database := next, opened := store :: world.opened }
  | prepares {store : McpAccessTicketStore} {request : McpAccessTicketRequest}
      {random : McpTicketRandom} {claims : McpAccessTicketClaims}
      (done : store.prepare request random world.database = .ok claims) :
      Stepped world { world with drafts := ⟨store, request, claims⟩ :: world.drafts }
  | records {draft : Draft} {next : McpTicketDatabase} {ticket : IssuedTicket}
      (waits : draft ∈ world.drafts)
      (done : draft.store.record sha256 draft.claims world.database = .ok (next, ticket)) :
      Stepped world { world with
        database := next
        drafts := world.drafts.erase draft
        log := .issued ⟨draft, ticket⟩ :: world.log }
  | consumes {use : Use} {next : McpTicketDatabase}
      (done : use.store.consume sha256 use.token use.context world.database =
        .ok (next, use.claims)) :
      Stepped world { world with database := next, log := .consumed use :: world.log }
  | revokes {ticketId : Text} {revokedAtUnix : UInt64} {next : McpTicketDatabase}
      (done : revoke ticketId revokedAtUnix world.database = .ok next) :
      Stepped world { world with database := next, log := .revoked ticketId :: world.log }
  | bumps {epoch : UInt64} {next : McpTicketDatabase}
      (done : bumpRevocationEpoch world.database = .ok (next, epoch)) :
      Stepped world { world with database := next, log := .bumped :: world.log }

variable {sha256}

theorem step_records {world : World} {draft : Draft} {database : McpTicketDatabase}
    {ticket : IssuedTicket} (waits : draft ∈ world.drafts)
    (done : draft.store.record sha256 draft.claims world.database = .ok (database, ticket)) :
    (machine sha256).step world (.records draft) = some ⟨database, world.opened,
      world.drafts.erase draft, .issued ⟨draft, ticket⟩ :: world.log⟩ := by
  simp only [machine, World.step, if_pos waits, done]

theorem step_consumes {world : World} {use : Use} {database : McpTicketDatabase}
    (opened : use.store ∈ world.opened)
    (done : use.store.consume sha256 use.token use.context world.database =
      .ok (database, use.claims)) :
    (machine sha256).step world (.consumes use.store use.token use.context) =
      some ⟨database, world.opened, world.drafts, .consumed use :: world.log⟩ := by
  simp only [machine, World.step, if_pos opened, done]

theorem stepped_of_step {world next : World} {event : Event}
    (taken : (machine sha256).step world event = some next) : Stepped sha256 world next := by
  have stays : Stepped sha256 world world := .same fun _ => id
  cases event with
  | opens store =>
      cases done : store.initializeStore world.database with
      | error error => simp_all [machine, World.step]
      | ok database =>
          simp only [machine, World.step, done, Option.some.injEq] at taken
          exact taken ▸ .opens done
  | prepares store request random =>
      simp only [machine, World.step] at taken
      split_ifs at taken
      cases done : store.prepare request random world.database with
      | error error => simp_all
      | ok claims =>
          simp only [done, Option.some.injEq] at taken
          exact taken ▸ .prepares done
  | records draft =>
      simp only [machine, World.step] at taken
      split_ifs at taken with waits
      cases done : draft.store.record sha256 draft.claims world.database with
      | error error =>
          simp only [done, Option.some.injEq] at taken
          exact taken ▸ .same fun _ => List.mem_of_mem_erase
      | ok result =>
          simp only [done, Option.some.injEq] at taken
          exact taken ▸ .records waits done
  | consumes store token context =>
      simp only [machine, World.step] at taken
      split_ifs at taken
      cases done : store.consume sha256 token context world.database with
      | error error => simp_all
      | ok result =>
          let use : Use := ⟨store, token, context, result.2⟩
          have uses : use.store.consume sha256 use.token use.context world.database =
              .ok (result.1, use.claims) := done
          simp only [done, Option.some.injEq] at taken
          exact taken ▸ .consumes uses
  | revokes ticketId revokedAtUnix =>
      simp only [machine, World.step] at taken
      cases done : revoke ticketId revokedAtUnix world.database with
      | error error => simp_all
      | ok database =>
          simp only [done, Option.some.injEq] at taken
          exact taken ▸ .revokes done
  | bumps =>
      simp only [machine, World.step] at taken
      cases done : bumpRevocationEpoch world.database with
      | error error => simp_all
      | ok result =>
          have bumps : bumpRevocationEpoch world.database = .ok (result.1, result.2) := done
          simp only [done, Option.some.injEq] at taken
          exact taken ▸ .bumps bumps

end Machine

/-! ## What the rows say -/

section Rows

/-- The ticket which an entry ends, and the state of its row then. -/
def Entry.ending : Entry → Option (Text × McpTicketState)
  | .consumed use => some (use.claims.ticketId, .consumed)
  | .revoked ticketId => some (ticketId, .revoked)
  | .issued _ | .bumped => none

variable (sha256 : Octets → Digest)

/-- The ticket of a row was issued under an epoch which was not over then. -/
def Recorded (log : List Entry) (epoch : Int) (ticketId : Text) (row : McpTicketRow) : Prop :=
  ∃ later issue earlier, log = later ++ .issued issue :: earlier ∧
    issue.ticket.claims.ticketId = ticketId ∧ RowOf sha256 issue.ticket row ∧
    row.revocationEpoch ≤ epoch ∧ (.bumped ∈ later → row.revocationEpoch < epoch)

/-- The rows of the tickets agree with the log. -/
structure Tracks (tickets : AList fun _ : Text => McpTicketRow) (log : List Entry) (epoch : Int) :
    Prop where
  recorded : ∀ {ticketId row}, tickets.lookup ticketId = some row →
    Recorded sha256 log epoch ticketId row
  kept : ∀ {issue}, .issued issue ∈ log → ∃ row,
    tickets.lookup issue.ticket.claims.ticketId = some row ∧ RowOf sha256 issue.ticket row
  ended : ∀ {entry ticketId state}, entry ∈ log → entry.ending = some (ticketId, state) →
    ∃ row, tickets.lookup ticketId = some row ∧ row.state = state
  reason : ∀ {ticketId row}, tickets.lookup ticketId = some row → row.state ≠ .issued →
    ∃ entry ∈ log, entry.ending = some (ticketId, row.state)

variable {sha256} {tickets : AList fun _ : Text => McpTicketRow} {log : List Entry} {epoch : Int}
  {ticketId : Text} {row : McpTicketRow}

theorem Recorded.cons {entry : Entry} (recorded : Recorded sha256 log epoch ticketId row)
    (plain : entry ≠ .bumped) : Recorded sha256 (entry :: log) epoch ticketId row := by
  obtain ⟨later, issue, earlier, rfl, named, numbers, within, passed⟩ := recorded
  refine ⟨entry :: later, issue, earlier, rfl, named, numbers, within, fun among => ?_⟩
  exact passed ((List.mem_cons.mp among).resolve_left plain.symm)

/-- A ticket which is issued gets a new row. -/
theorem Tracks.issued (tracks : Tracks sha256 tickets log epoch) {issue : Issue}
    (free : tickets.lookup issue.ticket.claims.ticketId = none)
    (numbers : RowOf sha256 issue.ticket row) (state : row.state = .issued)
    (within : row.revocationEpoch ≤ epoch) :
    Tracks sha256 (tickets.insert issue.ticket.claims.ticketId row) (.issued issue :: log)
      epoch := by
  have others {ticketId : Text} {before : McpTicketRow}
      (found : tickets.lookup ticketId = some before) :
      (tickets.insert issue.ticket.claims.ticketId row).lookup ticketId = some before := by
    rw [AList.lookup_insert_ne, found]
    rintro rfl
    rw [free] at found
    cases found
  have lookedUp {ticketId : Text} {after : McpTicketRow}
      (found : (tickets.insert issue.ticket.claims.ticketId row).lookup ticketId = some after) :
      (ticketId = issue.ticket.claims.ticketId ∧ after = row) ∨
        tickets.lookup ticketId = some after := by
    by_cases same : ticketId = issue.ticket.claims.ticketId
    · rw [same, AList.lookup_insert, Option.some_inj] at found
      exact .inl ⟨same, found.symm⟩
    · rw [AList.lookup_insert_ne same] at found
      exact .inr found
  constructor
  · intro ticketId after found
    rcases lookedUp found with ⟨rfl, rfl⟩ | before
    · exact ⟨[], issue, log, rfl, rfl, numbers, within, fun among => absurd among List.not_mem_nil⟩
    · exact (tracks.recorded before).cons (by simp)
  · intro other among
    rcases List.mem_cons.mp among with same | among
    · cases same
      exact ⟨row, AList.lookup_insert _, numbers⟩
    · obtain ⟨before, found, numbers⟩ := tracks.kept among
      exact ⟨before, others found, numbers⟩
  · intro entry ticketId state among ends
    rcases List.mem_cons.mp among with rfl | among
    · cases ends
    · obtain ⟨before, found, same⟩ := tracks.ended among ends
      exact ⟨before, others found, same⟩
  · intro ticketId after found moved
    rcases lookedUp found with ⟨rfl, rfl⟩ | before
    · exact absurd state moved
    · obtain ⟨entry, among, ends⟩ := tracks.reason before moved
      exact ⟨entry, List.mem_cons_of_mem _ among, ends⟩

/-- A ticket which is consumed or revoked has a row which says so. -/
theorem Tracks.ends (tracks : Tracks sha256 tickets log epoch)
    (found : tickets.lookup ticketId = some row) (waits : row.state = .issued) {entry : Entry}
    {state : McpTicketState} (ending : entry.ending = some (ticketId, state))
    {consumedAtUnix revokedAtUnix : Option Int} :
    Tracks sha256 (tickets.insert ticketId { row with state, consumedAtUnix, revokedAtUnix })
      (entry :: log) epoch := by
  have plain : entry ≠ .bumped := by
    rintro rfl
    cases ending
  constructor
  · intro other after there
    by_cases same : other = ticketId
    · subst same
      rw [AList.lookup_insert, Option.some_inj] at there
      subst there
      obtain ⟨later, issue, earlier, parts, named, numbers, within, passed⟩ :=
        (tracks.recorded found).cons plain
      exact ⟨later, issue, earlier, parts, named, ⟨numbers.token, numbers.nonce, numbers.epoch,
        numbers.issued, numbers.expires⟩, within, passed⟩
    · rw [AList.lookup_insert_ne same] at there
      exact (tracks.recorded there).cons plain
  · intro issue among
    rcases List.mem_cons.mp among with same | among
    · subst same
      cases ending
    · obtain ⟨before, there, numbers⟩ := tracks.kept among
      by_cases same : issue.ticket.claims.ticketId = ticketId
      · obtain rfl : row = before := Option.some.inj (found.symm.trans (same ▸ there))
        rw [same]
        exact ⟨_, AList.lookup_insert _, ⟨numbers.token, numbers.nonce, numbers.epoch,
          numbers.issued, numbers.expires⟩⟩
      · exact ⟨before, by rw [AList.lookup_insert_ne same, there], numbers⟩
  · intro other otherId otherState among ends
    rcases List.mem_cons.mp among with same | among
    · subst same
      rw [ending, Option.some_inj, Prod.mk.injEq] at ends
      obtain ⟨rfl, rfl⟩ := ends
      exact ⟨_, AList.lookup_insert _, rfl⟩
    · obtain ⟨before, there, same⟩ := tracks.ended among ends
      have apart : otherId ≠ ticketId := by
        rintro rfl
        obtain rfl : row = before := Option.some.inj (found.symm.trans there)
        cases other with
        | consumed use => cases ends; rw [waits] at same; cases same
        | revoked revokedId => cases ends; rw [waits] at same; cases same
        | issued issue => cases ends
        | bumped => cases ends
      exact ⟨before, by rw [AList.lookup_insert_ne apart, there], same⟩
  · intro other after there moved
    by_cases same : other = ticketId
    · subst same
      rw [AList.lookup_insert, Option.some_inj] at there
      subst there
      exact ⟨entry, List.mem_cons_self, ending⟩
    · rw [AList.lookup_insert_ne same] at there
      obtain ⟨entry, among, ends⟩ := tracks.reason there moved
      exact ⟨entry, List.mem_cons_of_mem _ among, ends⟩

/-- A new epoch is later than those of all rows. -/
theorem Tracks.bumped (tracks : Tracks sha256 tickets log epoch) :
    Tracks sha256 tickets (.bumped :: log) (epoch + 1) := by
  constructor
  · intro ticketId row found
    obtain ⟨later, issue, earlier, rfl, named, numbers, within, _⟩ := tracks.recorded found
    exact ⟨.bumped :: later, issue, earlier, rfl, named, numbers, by omega, fun _ => by omega⟩
  · intro issue among
    exact tracks.kept ((List.mem_cons.mp among).resolve_left (by simp))
  · intro entry ticketId state among ends
    rcases List.mem_cons.mp among with rfl | among
    · cases ends
    · exact tracks.ended among ends
  · intro ticketId row found moved
    obtain ⟨entry, among, ends⟩ := tracks.reason found moved
    exact ⟨entry, List.mem_cons_of_mem _ among, ends⟩

end Rows

/-! ## Runs -/

section Runs

variable (sha256 : Octets → Digest)

/-- The claims of a call are those of its request. -/
def Draft.Asked (draft : Draft) : Prop :=
  ∃ random epoch, draft.claims = claimsOf draft.request random epoch

/-- The invariant of runs. -/
structure Sound (world : World) : Prop where
  tracks : Tracks sha256 world.database.tickets world.log world.database.epoch
  bounds : 0 ≤ world.database.epoch ∧ world.database.epoch < 2 ^ 63
  drafts : ∀ {draft}, draft ∈ world.drafts →
    (draft.claims.revocationEpoch.toNat : Int) ≤ world.database.epoch ∧ draft.Asked
  issues : ∀ {issue}, .issued issue ∈ world.log →
    Mints sha256 issue.draft.store.signer issue.ticket ∧
      issue.ticket.claims = issue.draft.claims ∧ issue.draft.Asked ∧
      issue.ticket.claims.expiresAtUnix.toNat < 2 ^ 63

/-- Two texts have one hash. -/
def Collision (text other : Text) : Prop :=
  text ≠ other ∧ sha256 (utf8 (String.ofList text)) = sha256 (utf8 (String.ofList other))

/-- A ticket is consumed in time, by a store with its bindings, for the first time and before it is
revoked; and it is the ticket which was issued under the current epoch, unless hashes collide. -/
structure Justified (use : Use) (before : List Entry) : Prop where
  inTime : use.claims.issuedAtUnix ≤ use.context.nowUnix ∧
    use.context.nowUnix < use.claims.expiresAtUnix
  bound : use.store.Bound use.claims use.context
  first : ∀ other, .consumed other ∈ before → other.claims.ticketId ≠ use.claims.ticketId
  unrevoked : .revoked use.claims.ticketId ∉ before
  issued : ∃ later issue earlier, before = later ++ .issued issue :: earlier ∧ .bumped ∉ later ∧
    issue.ticket.claims.ticketId = use.claims.ticketId ∧
    issue.ticket.claims = issue.draft.claims ∧ issue.draft.Asked ∧
    (use.token = issue.ticket.token ∧ use.claims = issue.ticket.claims ∨
      Collision sha256 use.token issue.ticket.token)

variable {sha256}

theorem hexText_injective {bytes others : Octets} (same : hexText bytes = hexText others) :
    bytes = others := by
  have digits : ∀ first < 16, ∀ second < 16, Json.hexCharacter first = Json.hexCharacter second →
      first = second := by decide
  induction bytes generalizing others with
  | nil =>
      cases others with
      | nil => rfl
      | cons other rest => cases same
  | cons byte rest inductionHypothesis =>
      cases others with
      | nil => cases same
      | cons other more =>
          simp only [hexText, List.flatMap_cons, List.cons_append, List.nil_append,
            List.cons.injEq] at same
          obtain ⟨upper, lower, same⟩ := same
          have small := byte.toNat_lt
          have small' := other.toNat_lt
          have upper := digits _ (by omega) _ (by omega) upper
          have lower := digits _ (Nat.mod_lt _ (by decide)) _ (Nat.mod_lt _ (by decide)) lower
          rw [inductionHypothesis same, UInt8.toNat_inj.mp (by omega : byte.toNat = other.toNat)]

/-- A token which is read as the claims of a ticket is read so by every store. -/
theorem claims_of_openToken {store : McpAccessTicketStore} {signer : McpTicketSigningKey}
    {ticket : IssuedTicket} {nowUnix : UInt64} {claims : McpAccessTicketClaims}
    (mints : Mints sha256 signer ticket)
    (opens : store.openToken sha256 ticket.token nowUnix = .ok claims) :
    claims = ticket.claims := by
  obtain ⟨signed, canonical, signs, encoded, spelled, _⟩ := mints
  have read : readSigned canonical = some signed := Codec.read_canonical (by decide) encoded
  obtain ⟨_, opens⟩ := refuseIf_bind_eq_ok.mp opens
  obtain ⟨encoded, cut, opens⟩ := bind_eq_ok.mp opens
  obtain ⟨bytes, decoded, opens⟩ := bind_eq_ok.mp opens
  obtain ⟨_, opens⟩ := refuseIf_bind_eq_ok.mp opens
  obtain ⟨signed', read', opens⟩ := bind_eq_ok.mp opens
  obtain ⟨_, _, opens⟩ := bind_eq_ok.mp opens
  obtain ⟨_, opens⟩ := refuseIf_bind_eq_ok.mp opens
  obtain ⟨_, _, returned⟩ := bind_eq_ok.mp opens
  have parts := List.isPrefixOf?_eq_some_iff_append_eq.mp (presentOr_eq_ok.mp cut)
  rw [spelled] at parts
  obtain rfl := List.append_cancel_left parts
  have back : Base64Url.decode (String.ofList (Base64Url.encodeLetters canonical)) =
      some canonical := Base64Url.decode_encode canonical
  obtain rfl := Option.some.inj (back.symm.trans (presentOr_eq_ok.mp decoded))
  obtain rfl := Option.some.inj (read.symm.trans (presentOr_eq_ok.mp read'))
  rw [← Except.ok.inj returned, (verify_of_sign signs).1]

variable {world next : World}

theorem sound_empty : Sound sha256 .empty where
  tracks := ⟨fun found => (by cases found), fun among => (by cases among),
    fun among => (by cases among), fun found => (by cases found)⟩
  bounds := by decide
  drafts among := by cases among
  issues among := by cases among

/-- What a consumption finds. -/
theorem Sound.consumed (sound : Sound sha256 world) {use : Use} {database : McpTicketDatabase}
    (done : use.store.consume sha256 use.token use.context world.database =
      .ok (database, use.claims)) :
    Justified sha256 use world.log ∧ database.epoch = world.database.epoch ∧
      Tracks sha256 database.tickets (.consumed use :: world.log) world.database.epoch := by
  obtain ⟨opens, inTime, _, bound, consumes⟩ := consume_eq_ok.mp done
  obtain ⟨epoch, _, row, found, waits, token, _, rowEpoch, _, _, rfl⟩ :=
    consumeRow_eq_ok.mp consumes
  obtain ⟨later, issue, earlier, parts, named, numbers, within, passed⟩ :=
    sound.tracks.recorded found
  have fresh {entry : Entry} {state : McpTicketState} (among : entry ∈ world.log)
      (ends : entry.ending = some (use.claims.ticketId, state)) : state = .issued := by
    obtain ⟨row', found', same⟩ := sound.tracks.ended among ends
    rw [← same, ← Option.some.inj (found.symm.trans found'), waits]
  have inLog : .issued issue ∈ world.log := by
    rw [parts]
    exact List.mem_append_right _ List.mem_cons_self
  obtain ⟨mints, given, asked, _⟩ := sound.issues inLog
  refine ⟨⟨inTime, bound, fun other among same => ?_, fun among => ?_, later, issue, earlier, parts,
    fun among => ?_, named, given, asked, ?_⟩, rfl, sound.tracks.ends found waits rfl⟩
  · cases fresh among (congrArg some (Prod.ext same rfl))
  · cases fresh among rfl
  · -- an epoch which is over is not the current one
    have earlier := passed among
    obtain ⟨ticketMeta, opened, current⟩ := bind_eq_ok.mp epoch
    have same : world.database.epoch = ticketMeta.revocationEpoch := by
      rw [McpTicketDatabase.epoch, presentOr_eq_ok.mp opened]
      rfl
    have current := toNat_of_u64FromSql (presentOr_eq_ok.mp current) (same ▸ sound.bounds.2)
    rw [numbers.epoch, u64FromSql_toNat] at rowEpoch
    rw [numbers.epoch, rowEpoch, same, current] at earlier
    exact absurd earlier (Int.lt_irrefl _)
  · rw [numbers.token] at token
    have hashed := Subtype.ext (hexText_injective token)
    by_cases same : use.token = issue.ticket.token
    · exact .inl ⟨same, claims_of_openToken mints (same ▸ opens)⟩
    · exact .inr ⟨same, hashed.symm⟩

/-- Every step keeps the invariant. -/
theorem Sound.step (sound : Sound sha256 world) (stepped : Stepped sha256 world next) :
    Sound sha256 next := by
  cases stepped with
  | same fewer =>
      exact ⟨sound.tracks, sound.bounds, fun among => sound.drafts (fewer _ among), sound.issues⟩
  | @opens store database done =>
      obtain ⟨tickets, opened⟩ := initializeStore_eq_ok done
      have epoch : database.epoch = world.database.epoch := by
        rcases opened with same | ⟨absent, ticketMeta, present, first⟩
        · rw [McpTicketDatabase.epoch, same, McpTicketDatabase.epoch]
        · rw [McpTicketDatabase.epoch, present, McpTicketDatabase.epoch, absent]
          exact first
      refine ⟨?_, ?_, ?_, sound.issues⟩
      · exact tickets.symm ▸ epoch.symm ▸ sound.tracks
      · exact epoch.symm ▸ sound.bounds
      · intro draft among
        exact epoch.symm ▸ sound.drafts among
  | @prepares store request random claims done =>
      refine ⟨sound.tracks, sound.bounds, fun among => ?_, sound.issues⟩
      rcases List.mem_cons.mp among with rfl | among
      · obtain ⟨_, done⟩ := refuseIf_bind_eq_ok.mp done
        obtain ⟨epoch, read, done⟩ := bind_eq_ok.mp done
        cases done
        obtain ⟨ticketMeta, opened, current⟩ := bind_eq_ok.mp read
        have same : world.database.epoch = ticketMeta.revocationEpoch := by
          rw [McpTicketDatabase.epoch, presentOr_eq_ok.mp opened]
          rfl
        have current := toNat_of_u64FromSql (presentOr_eq_ok.mp current) (same ▸ sound.bounds.2)
        exact ⟨Int.le_of_eq (current.trans same.symm), random, epoch, rfl⟩
      · exact sound.drafts among
  | @records draft database ticket waits done =>
      obtain ⟨given, mints, free, small, row, numbers, state, rfl⟩ := record_eq_ok done
      obtain ⟨before, asked⟩ := sound.drafts waits
      refine ⟨?_, sound.bounds, fun among => sound.drafts (List.mem_of_mem_erase among), ?_⟩
      · rw [← given] at free ⊢
        refine @Tracks.issued _ _ _ _ _ sound.tracks ⟨draft, ticket⟩ free numbers state ?_
        rw [numbers.epoch, given]
        exact before
      · intro issue among
        rcases List.mem_cons.mp among with same | among
        · cases same
          exact ⟨mints, given, asked, given ▸ small⟩
        · exact sound.issues among
  | @consumes use database done =>
      obtain ⟨_, epoch, tracks⟩ := sound.consumed done
      refine ⟨?_, ?_, ?_, ?_⟩
      · exact epoch.symm ▸ tracks
      · exact epoch.symm ▸ sound.bounds
      · intro draft among
        exact epoch.symm ▸ sound.drafts among
      · intro issue among
        exact sound.issues ((List.mem_cons.mp among).resolve_left (by simp))
  | @revokes ticketId revokedAtUnix database done =>
      obtain ⟨row, stored, found, state, rfl⟩ := revoke_eq_ok done
      refine ⟨?_, sound.bounds, sound.drafts, ?_⟩
      · exact sound.tracks.ends found state rfl
      · intro issue among
        exact sound.issues ((List.mem_cons.mp among).resolve_left (by simp))
  | @bumps epoch database done =>
      obtain ⟨ticketMeta, opened, small, rfl⟩ := bumpRevocationEpoch_eq_ok done
      have current : world.database.epoch = ticketMeta.revocationEpoch := by
        rw [McpTicketDatabase.epoch, opened]
        rfl
      have bounds := sound.bounds
      rw [current] at bounds
      refine ⟨?_, ⟨?_, small⟩, ?_, ?_⟩
      · have tracks := sound.tracks.bumped
        rw [current] at tracks
        exact tracks
      · exact Int.le_add_one bounds.1
      · intro draft among
        obtain ⟨before, asked⟩ := sound.drafts among
        rw [current] at before
        exact ⟨Int.le_add_one before, asked⟩
      · intro issue among
        exact sound.issues ((List.mem_cons.mp among).resolve_left (by simp))

theorem sound_of_reachable (reachable : (machine sha256).Reachable .empty world) :
    Sound sha256 world :=
  reachable.invariant (Sound sha256) sound_empty fun sound taken =>
    sound.step (stepped_of_step taken)

/-- Every consumption of a log is justified by what comes before it. -/
def Lawful (sha256 : Octets → Digest) (log : List Entry) : Prop :=
  ∀ after before use, log = after ++ .consumed use :: before → Justified sha256 use before

theorem Lawful.cons {log : List Entry} {entry : Entry} (lawful : Lawful sha256 log)
    (here : ∀ use, entry = .consumed use → Justified sha256 use log) :
    Lawful sha256 (entry :: log) := by
  intro after before use parts
  cases after with
  | nil =>
      obtain ⟨same, rest⟩ := List.cons.inj parts
      exact rest ▸ here use same
  | cons first after => exact lawful after before use (List.cons.inj parts).2

theorem Lawful.step (sound : Sound sha256 world) (lawful : Lawful sha256 world.log)
    (stepped : Stepped sha256 world next) : Lawful sha256 next.log := by
  cases stepped with
  | same | opens | prepares => exact lawful
  | records => exact lawful.cons (by simp)
  | revokes => exact lawful.cons (by simp)
  | bumps => exact lawful.cons (by simp)
  | consumes done =>
      refine lawful.cons fun other same => ?_
      cases same
      exact (sound.consumed done).1

/-- A ticket which was issued is accepted, when nothing ended it. -/
theorem Sound.accepts (sound : Sound sha256 world) {issue : Issue}
    (issued : .issued issue ∈ world.log) {store : McpAccessTicketStore}
    (signer : store.signer = issue.draft.store.signer) {context : McpTicketVerificationContext}
    (bound : store.Bound issue.ticket.claims context)
    (inTime : issue.ticket.claims.issuedAtUnix ≤ context.nowUnix ∧
      context.nowUnix < issue.ticket.claims.expiresAtUnix)
    (epoch : currentRevocationEpoch world.database = .ok issue.ticket.claims.revocationEpoch)
    (unused : ∀ use, .consumed use ∈ world.log →
      use.claims.ticketId ≠ issue.ticket.claims.ticketId)
    (unrevoked : .revoked issue.ticket.claims.ticketId ∉ world.log) :
    ∃ database, store.consume sha256 issue.ticket.token context world.database =
      .ok (database, issue.ticket.claims) := by
  obtain ⟨mints, _, _, small⟩ := sound.issues issued
  obtain ⟨row, found, numbers⟩ := sound.tracks.kept issued
  have valid : issue.ticket.claims.validate = .ok () := by
    obtain ⟨_, _, signs, _⟩ := mints
    exact (sign_eq_ok.mp signs).1
  obtain ⟨plain, target⟩ := refuseIf_bind_eq_ok.mp valid
  have waits : row.state = .issued := by
    by_contra moved
    obtain ⟨entry, among, ends⟩ := sound.tracks.reason found moved
    cases entry with
    | issued | bumped => cases ends
    | consumed use => exact unused use among (Prod.mk.inj (Option.some.inj ends)).1
    | revoked ticketId =>
        obtain rfl := (Prod.mk.inj (Option.some.inj ends)).1
        exact unrevoked among
  have later : context.nowUnix ≠ 0 := by
    intro zero
    simp only [not_or] at plain
    obtain ⟨_, _, _, _, _, _, _, started, _⟩ := plain
    rw [zero] at inTime
    exact started (UInt64.le_antisymm inTime.1 UInt64.zero_le)
  have early : context.nowUnix.toNat < 2 ^ 63 :=
    Nat.lt_trans (UInt64.lt_iff_toNat_lt.mp inTime.2) small
  have opens : store.openToken sha256 issue.ticket.token context.nowUnix =
      .ok issue.ticket.claims := openToken_of_mints (signer ▸ mints) later
  refine ⟨_, consume_eq_ok.mpr ⟨opens, inTime, ?_, bound, consumeRow_eq_ok.mpr
    ⟨epoch, early, row, found, waits, numbers.token, numbers.nonce, ?_, ?_, ?_, rfl⟩⟩⟩
  · obtain ⟨_, _, _, _, _, _, _, same, _⟩ := bound
    rw [← same]
    exact target
  · rw [numbers.epoch]
    exact (u64FromSql_toNat _ _).mpr rfl
  · rw [numbers.issued]
    exact (u64FromSql_toNat _ _).mpr rfl
  · rw [numbers.expires]
    exact (u64FromSql_toNat _ _).mpr rfl

end Runs

/-! ## A ticket -/

section Sample

/-- The call of `issue`. -/
def sampleDraft : Draft := ⟨sampleStore, sampleRequest, sampleClaims⟩

/-- The request, a second later. -/
def sampleContext : McpTicketVerificationContext where
  workspaceInstanceId := sampleRequest.workspaceInstanceId
  serverInstanceId := sampleRequest.serverInstanceId
  transport := sampleRequest.transport
  sessionId := sampleRequest.sessionId
  toolName := sampleRequest.toolName
  purpose := sampleRequest.purpose
  canonicalRequestSha256 := sampleRequest.canonicalRequestSha256
  target := sampleRequest.target
  nowUnix := 1001

/-- The store opens its tables, and the ticket is issued. -/
def sampleEvents : List Event :=
  [.opens sampleStore, .prepares sampleStore sampleRequest sampleRandom, .records sampleDraft]

/-- The database in which the ticket is. -/
def issuedDatabase (ticket : IssuedTicket) : McpTicketDatabase where
  ticketMeta := sampleDatabase.ticketMeta
  tickets := sampleDatabase.tickets.insert ticket.claims.ticketId (issuedRow sampleSha ticket)

/-- The world in which the ticket is. -/
def issuedWorld (ticket : IssuedTicket) : World :=
  ⟨issuedDatabase ticket, [sampleStore], [], [.issued ⟨sampleDraft, ticket⟩]⟩

theorem sample_is_recorded : ∃ ticket : IssuedTicket, ticket.claims = sampleClaims ∧
    sampleDraft.store.record sampleSha sampleDraft.claims sampleDatabase =
      .ok (issuedDatabase ticket, ticket) := by
  obtain ⟨ticket, given, mints⟩ : ∃ ticket : IssuedTicket, ticket.claims = sampleClaims ∧
      Mints sampleSha sampleDraft.store.signer ticket := exists_mints (by decide) (by decide)
  have storable : Storable sampleDraft.claims := by
    unfold Storable
    decide
  refine ⟨ticket, given, record_eq_ok_iff.mpr ⟨given, mints, storable, ?_⟩⟩
  have named : sampleDraft.claims = ticket.claims := given.symm
  rw [named]
  refine insertTicket_eq_some.mpr ⟨fun ticketId row found => ?_, rfl⟩
  cases found

theorem sample_runs : ∃ ticket : IssuedTicket, ticket.claims = sampleClaims ∧
    (machine sampleSha).run .empty sampleEvents = some (issuedWorld ticket) := by
  have opens : sampleStore.initializeStore World.empty.database = .ok sampleDatabase := rfl
  have prepares : sampleStore.prepare sampleRequest sampleRandom sampleDatabase =
      .ok sampleClaims := rfl
  obtain ⟨ticket, given, records⟩ := sample_is_recorded
  refine ⟨ticket, given, ?_⟩
  let waiting : World := ⟨sampleDatabase, [sampleStore], [sampleDraft], []⟩
  refine Machine.run_cons_eq_some _ |>.mpr ⟨⟨sampleDatabase, [sampleStore], [], []⟩, ?_,
    Machine.run_cons_eq_some _ |>.mpr ⟨waiting, ?_, (Machine.run_singleton _ _ _).trans ?_⟩⟩
  · simp only [machine, World.step, opens]
    rfl
  · simp only [machine, World.step, prepares, List.mem_singleton, if_true]
    rfl
  · have waits : sampleDraft ∈ waiting.drafts := List.mem_singleton_self _
    have emptied : waiting.drafts.erase sampleDraft = [] := List.erase_cons_head _ _
    have recorded : sampleDraft.store.record sampleSha sampleDraft.claims waiting.database =
        .ok (issuedDatabase ticket, ticket) := records
    rw [step_records waits recorded, emptied]
    rfl

theorem sample_is_bound {ticket : IssuedTicket} (given : ticket.claims = sampleClaims) :
    sampleStore.Bound ticket.claims sampleContext ∧
      (ticket.claims.issuedAtUnix ≤ sampleContext.nowUnix ∧
        sampleContext.nowUnix < ticket.claims.expiresAtUnix) ∧
      currentRevocationEpoch (issuedDatabase ticket) = .ok ticket.claims.revocationEpoch := by
  rw [given]
  exact ⟨by decide, by decide, rfl⟩

end Sample

section Theorems

variable {sha256 : Octets → Digest} {world : World}

/-- In every run, a ticket is consumed at most once, in time, with the bindings for which it was
issued, and neither after it was revoked nor after a new epoch. -/
theorem tickets_are_used_once (reachable : (machine sha256).Reachable .empty world)
    {after before : List Entry} {use : Use} (log : world.log = after ++ .consumed use :: before) :
    Justified sha256 use before := by
  have lawful : Sound sha256 world ∧ Lawful sha256 world.log := by
    refine reachable.invariant (fun world => Sound sha256 world ∧ Lawful sha256 world.log)
      ⟨sound_empty, fun after before use parts => ?_⟩ fun both taken => ?_
    · cases after <;> cases parts
    · have stepped := stepped_of_step taken
      exact ⟨both.1.step stepped, both.2.step both.1 stepped⟩
  exact lawful.2 after before use log

/-- The ticket of the sample is consumed, a second after it was issued. -/
theorem sample_is_used_once : ∃ (ticket : IssuedTicket) (use : Use), use.claims = sampleClaims ∧
    Justified sampleSha use [.issued ⟨sampleDraft, ticket⟩] := by
  obtain ⟨ticket, given, runs⟩ := sample_runs
  obtain ⟨bound, inTime, epoch⟩ := sample_is_bound given
  have sound : Sound sampleSha (issuedWorld ticket) := sound_of_reachable ⟨_, runs⟩
  obtain ⟨next, done⟩ := sound.accepts (List.mem_singleton_self _) rfl bound inTime epoch
    (by simp [issuedWorld]) (by simp [issuedWorld])
  let use : Use := ⟨sampleStore, ticket.token, sampleContext, ticket.claims⟩
  have uses : (machine sampleSha).run .empty
      (sampleEvents ++ [.consumes sampleStore ticket.token sampleContext]) =
        some ⟨next, [sampleStore], [], [.consumed use, .issued ⟨sampleDraft, ticket⟩]⟩ := by
    refine (machine sampleSha).run_append_eq_some.mpr ⟨issuedWorld ticket, runs, ?_⟩
    rw [Machine.run_singleton]
    have opened : use.store ∈ (issuedWorld ticket).opened := List.mem_singleton_self _
    exact step_consumes opened done
  have log : [Entry.consumed use, .issued ⟨sampleDraft, ticket⟩] =
      [] ++ .consumed use :: [.issued ⟨sampleDraft, ticket⟩] := rfl
  exact ⟨ticket, use, given, tickets_are_used_once ⟨_, uses⟩ log⟩

/-- In every run, a ticket which was issued is accepted from a store with its signing key exactly
when it is in time, its epoch is the current one, and it was neither consumed nor revoked. -/
theorem issued_tickets_are_accepted_iff (reachable : (machine sha256).Reachable .empty world)
    {issue : Issue} (issued : .issued issue ∈ world.log) {store : McpAccessTicketStore}
    (signer : store.signer = issue.draft.store.signer) {context : McpTicketVerificationContext}
    (bound : store.Bound issue.ticket.claims context) :
    (∃ database, store.consume sha256 issue.ticket.token context world.database =
      .ok (database, issue.ticket.claims)) ↔
    (issue.ticket.claims.issuedAtUnix ≤ context.nowUnix ∧
      context.nowUnix < issue.ticket.claims.expiresAtUnix) ∧
    currentRevocationEpoch world.database = .ok issue.ticket.claims.revocationEpoch ∧
    (∀ use, .consumed use ∈ world.log → use.claims.ticketId ≠ issue.ticket.claims.ticketId) ∧
    .revoked issue.ticket.claims.ticketId ∉ world.log := by
  have sound := sound_of_reachable reachable
  constructor
  · rintro ⟨database, done⟩
    obtain ⟨_, inTime, _, _, consumes⟩ := consume_eq_ok.mp done
    obtain ⟨epoch, _⟩ := consumeRow_eq_ok.mp consumes
    let use : Use := ⟨store, issue.ticket.token, context, issue.ticket.claims⟩
    have uses : use.store.consume sha256 use.token use.context world.database =
        .ok (database, use.claims) := done
    obtain ⟨justified, _⟩ := sound.consumed uses
    exact ⟨inTime, epoch, justified.first, justified.unrevoked⟩
  · rintro ⟨inTime, epoch, unused, unrevoked⟩
    exact sound.accepts issued signer bound inTime epoch unused unrevoked

/-- The ticket of the sample is accepted, a second after it was issued. -/
theorem sample_is_accepted : ∃ (ticket : IssuedTicket) (next : McpTicketDatabase),
    ticket.claims = sampleClaims ∧ sampleStore.consume sampleSha ticket.token sampleContext
      (issuedDatabase ticket) = .ok (next, sampleClaims) := by
  obtain ⟨ticket, given, runs⟩ := sample_runs
  obtain ⟨bound, inTime, epoch⟩ := sample_is_bound given
  have reachable : (machine sampleSha).Reachable .empty (issuedWorld ticket) := ⟨_, runs⟩
  have issued : .issued ⟨sampleDraft, ticket⟩ ∈ (issuedWorld ticket).log :=
    List.mem_singleton_self _
  obtain ⟨next, done⟩ := (issued_tickets_are_accepted_iff reachable issued rfl bound).mpr
    ⟨inTime, epoch, by simp [issuedWorld], by simp [issuedWorld]⟩
  exact ⟨ticket, next, given, given ▸ done⟩

end Theorems

end LawyerAssistance.Privacy.McpTickets
