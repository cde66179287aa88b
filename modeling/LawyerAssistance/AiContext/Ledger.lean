import LawyerAssistance.FileIngest.PlainText
import LawyerAssistance.Std.Amounts
import LawyerAssistance.Std.Machine
import Mathlib.Algebra.Order.BigOperators.Group.List
import Mathlib.Algebra.Order.Group.Nat

/-!
# The ledger of a context

`ai_context.rs`: the input limit of a model is charged for what a context takes up. A page or a
segment is reserved before it is read, and its reservation is committed or dropped. Every operation
holds the lock of the ledger from its beginning to its end, so threads interleave whole operations.

A reservation is kept under a key which ends in the number of reservations there were. When another
one was dropped in between, a new reservation can get the key of one which is alive.
-/

namespace LawyerAssistance.AiContext

open FileIngest

/-! ## Amounts -/

/-- `usize::MAX`. -/
def usizeMax : Nat := 2 ^ 64 - 1

/-- `usize::saturating_add`. -/
def saturatingAdd (first second : Nat) : Nat := min (first + second) usizeMax

/-- `estimate_text_tokens`. -/
def estimateTextTokens (text : Text) : Nat := Text.byteLength text

/-- `estimate_image_tokens`. -/
def estimateImageTokens (imageBytes : Nat) : Nat := max 1024 (saturatingAdd imageBytes (64 - 1) / 64)

/-! ## The state of a budget -/

/-- The codes of errors of a ledger. -/
inductive ContextError where
  | contextBudgetExceeded
  | contextBudgetReservationInvalid
deriving DecidableEq

/-- The code of an error. -/
def ContextError.code : ContextError → String
  | .contextBudgetExceeded => "context_budget_exceeded"
  | .contextBudgetReservationInvalid => "context_budget_reservation_invalid"

/-- What a range is charged to: the kind and the identifier of its source, the variant of the
material, and the place in it. -/
structure LedgerIdentity where
  sourceKind : Text
  sourceId : Text
  source : Option Text
  locator : Text
deriving DecidableEq

/-- `BudgetState`. -/
structure BudgetState where
  inputLimit : Nat
  used : Nat
  pending : AList fun _ : Text => Nat
  ranges : AList fun _ : LedgerIdentity => Nat

/-- The sum of the pending amounts. A limit is a `u32`, so it does not overflow. -/
def BudgetState.pendingTotal (state : BudgetState) : Nat := Amounts.total id state.pending

/-- `ContextBudgetReservation`. -/
structure ContextBudgetReservation where
  key : Option Text
  identity : LedgerIdentity
deriving DecidableEq

/-- A character in the text which `Debug` writes. Whether a character is printed as it is depends on
the tables of Unicode. -/
def escapeDebug (graphic : Char → Bool) (character : Char) : Text :=
  match character with
  | '\x00' => ['\\', '0']
  | '\t' => ['\\', 't']
  | '\r' => ['\\', 'r']
  | '\n' => ['\\', 'n']
  | '"' => ['\\', '"']
  | '\\' => ['\\', '\\']
  | character =>
      if graphic character then [character]
      else "\\u\x7b".toList ++ Nat.toDigits 16 character.toNat ++ ['\x7d']

/-- The variant of a material, as `Debug` writes it. -/
def debugSource (graphic : Char → Bool) : Option Text → Text
  | none => "None".toList
  | some source => "Some(\"".toList ++ source.flatMap (escapeDebug graphic) ++ "\")".toList

section Ledger

variable (graphic : Char → Bool)

/-- The key of a reservation, when there are so many. -/
def pendingKey (identity : LedgerIdentity) (count : Nat) : Text :=
  identity.sourceKind ++ ':' :: (identity.sourceId ++ ':' :: (debugSource graphic identity.source ++
    ':' :: (identity.locator ++ ':' :: Nat.toDigits 10 count)))

/-- `ContextExtractionPlan::reserve`. -/
def BudgetState.reserve (state : BudgetState) (identity : LedgerIdentity) (tokens : Nat) :
    Except ContextError (BudgetState × ContextBudgetReservation) :=
  if state.inputLimit < saturatingAdd (saturatingAdd state.used state.pendingTotal) tokens then
    .error .contextBudgetExceeded
  else
    let key := pendingKey graphic identity state.pending.entries.length
    .ok ({ state with pending := state.pending.insert key tokens }, ⟨some key, identity⟩)

/-- `ContextExtractionPlan::charge_fixed`. -/
def BudgetState.chargeFixed (state : BudgetState) (tokens : Nat) :
    Except ContextError BudgetState :=
  if state.inputLimit < saturatingAdd (saturatingAdd state.used state.pendingTotal) tokens then
    .error .contextBudgetExceeded
  else .ok { state with used := saturatingAdd state.used tokens }

/-- What a range has been charged. -/
def chargeRange (ranges : AList fun _ : LedgerIdentity => Nat) (identity : LedgerIdentity)
    (tokens : Nat) : AList fun _ : LedgerIdentity => Nat :=
  ranges.insert identity (match ranges.lookup identity with
    | some total => saturatingAdd total tokens
    | none => tokens)

/-- `ContextBudgetReservation::commit`: the state and the reservation behind it, and its result. -/
def ContextBudgetReservation.commit (reservation : ContextBudgetReservation) (state : BudgetState)
    (actualTokens : Nat) : BudgetState × ContextBudgetReservation × Except ContextError Unit :=
  match reservation.key with
  | none => (state, reservation, .error .contextBudgetReservationInvalid)
  | some key =>
      let taken := { reservation with key := none }
      match state.pending.lookup key with
      | none => (state, taken, .error .contextBudgetReservationInvalid)
      | some reserved =>
          let released := { state with pending := state.pending.erase key }
          let tokens := max actualTokens reserved
          if state.inputLimit < saturatingAdd state.used tokens then
            (released, taken, .error .contextBudgetExceeded)
          else
            ({ released with
                used := saturatingAdd state.used tokens
                ranges := chargeRange state.ranges reservation.identity tokens }, taken, .ok ())

/-- `ContextBudgetReservation::drop`. -/
def ContextBudgetReservation.drop (reservation : ContextBudgetReservation) (state : BudgetState) :
    BudgetState :=
  match reservation.key with
  | none => state
  | some key => { state with pending := state.pending.erase key }

/-- `record_ocr_result` and `record_text_result`: the reservation is committed, and dropped. -/
def ContextBudgetReservation.record (reservation : ContextBudgetReservation) (state : BudgetState)
    (actualTokens : Nat) : BudgetState × Except ContextError Unit :=
  let committed := reservation.commit state actualTokens
  (committed.2.1.drop committed.1, committed.2.2)

/-! ## Threads -/

/-- A reservation which is alive, and what was reserved. -/
structure Alive where
  reservation : ContextBudgetReservation
  tokens : Nat

/-- A ledger and the reservations which its threads hold, by their numbers, with the history of what
was charged. -/
structure Session where
  state : BudgetState
  alive : AList fun _ : Nat => Alive
  opened : Nat
  committed : List (LedgerIdentity × Nat)
  fixed : List Nat

/-- An operation of some thread. -/
inductive Event where
  | reserveOcrPage (identity : LedgerIdentity) (estimatedTokens imageBytes : Nat)
  | reserveTextSegment (identity : LedgerIdentity) (text : Text)
  | chargeFixed (tokens : Nat)
  | record (handle : Nat) (actualTokens : Nat)
  | drop (handle : Nat)

/-- A new plan. -/
def Session.initial (inputLimit : UInt32) : Session where
  state := ⟨inputLimit.toNat, 0, ∅, ∅⟩
  alive := ∅
  opened := 0
  committed := []
  fixed := []

/-- A thread holds a reservation which it gets. -/
def Session.reserve (session : Session) (identity : LedgerIdentity) (tokens : Nat) : Session :=
  match session.state.reserve graphic identity tokens with
  | .error _ => session
  | .ok (state, reservation) => { session with
      state
      alive := session.alive.insert session.opened ⟨reservation, tokens⟩
      opened := session.opened + 1 }

/-- An operation, all of it under the lock. A reservation is moved into the operation which ends it,
so nobody ends one which is not alive. -/
def Session.step (session : Session) : Event → Option Session
  | .reserveOcrPage identity estimatedTokens imageBytes =>
      some (session.reserve graphic identity (max estimatedTokens (estimateImageTokens imageBytes)))
  | .reserveTextSegment identity text =>
      some (session.reserve graphic identity (estimateTextTokens text))
  | .chargeFixed tokens =>
      match session.state.chargeFixed tokens with
      | .error _ => some session
      | .ok state => some { session with state, fixed := session.fixed ++ [tokens] }
  | .record handle actualTokens => do
      let alive ← session.alive.lookup handle
      let recorded := alive.reservation.record session.state actualTokens
      some { session with
        state := recorded.1
        alive := session.alive.erase handle
        committed := match recorded.2 with
          | .ok _ => session.committed ++
              [(alive.reservation.identity, max actualTokens alive.tokens)]
          | .error _ => session.committed }
  | .drop handle => do
      let alive ← session.alive.lookup handle
      some { session with
        state := alive.reservation.drop session.state
        alive := session.alive.erase handle }

/-- The ledger, as a machine. -/
def ledgerMachine : Machine Session Event := ⟨Session.step graphic⟩

end Ledger

/-! ## What a ledger keeps -/

/-- What was charged to a range. -/
def chargedTo (committed : List (LedgerIdentity × Nat)) (identity : LedgerIdentity) : Nat :=
  ((committed.filter fun entry => decide (entry.1 = identity)).map Prod.snd).sum

/-- A ledger is exact: what is used is what was charged, to the ranges and without one, what is
pending is what is reserved, and both are within the limit. -/
structure Session.Exact (session : Session) : Prop where
  used : session.state.used = (session.committed.map Prod.snd).sum + session.fixed.sum
  ranges : ∀ identity,
    Amounts.under id session.state.ranges identity = chargedTo session.committed identity
  pending : session.state.pendingTotal = Amounts.total Alive.tokens session.alive
  limited : session.state.used + session.state.pendingTotal ≤ session.state.inputLimit

/-- The reservation which an operation ends. -/
def Event.ends (event : Event) (handle : Nat) : Prop :=
  (∃ actualTokens, event = .record handle actualTokens) ∨ event = .drop handle

/-- What a step does to an exact ledger: it stays exact, an operation releases what its own
reservation has reserved, and every other reservation keeps its amount. -/
structure LedgerStep (before : Session) (event : Event) (after : Session) : Prop where
  exact : after.Exact
  releases : ∀ handle alive, event.ends handle → before.alive.lookup handle = some alive →
    after.state.pendingTotal + alive.tokens = before.state.pendingTotal
  drops : ∀ handle, event = .drop handle → after.state.used = before.state.used ∧
    after.state.ranges = before.state.ranges
  others : ∀ handle alive, ¬ event.ends handle → before.alive.lookup handle = some alive →
    after.alive.lookup handle = some alive ∧ ∃ key, alive.reservation.key = some key ∧
      after.state.pending.lookup key = some alive.tokens

/-- A reservation is refused, or its key is not that of a reservation which is alive. -/
def Session.Opens (graphic : Char → Bool) (session : Session) (identity : LedgerIdentity)
    (tokens : Nat) : Prop :=
  session.state.inputLimit < session.state.used + session.state.pendingTotal + tokens ∨
    ∀ handle alive, session.alive.lookup handle = some alive → alive.reservation.key ≠
      some (pendingKey graphic identity session.state.pending.entries.length)

/-- When an operation keeps a ledger exact. A reservation gets a key which no other has, and what is
recorded leaves room for what the others have reserved, or is refused. -/
def Event.Fits (graphic : Char → Bool) (session : Session) : Event → Prop
  | .reserveOcrPage identity estimatedTokens imageBytes =>
      session.Opens graphic identity (max estimatedTokens (estimateImageTokens imageBytes))
  | .reserveTextSegment identity text =>
      session.Opens graphic identity (estimateTextTokens text)
  | .record handle actualTokens => ∀ alive, session.alive.lookup handle = some alive →
      session.state.inputLimit < session.state.used + max actualTokens alive.tokens ∨
        session.state.used + max actualTokens alive.tokens +
          (session.state.pendingTotal - alive.tokens) ≤ session.state.inputLimit
  | _ => True

/-- The reservations which are alive are those which are pending, each under a key of its own. -/
structure Session.Held (session : Session) : Prop where
  numbered : ∀ handle alive, session.alive.lookup handle = some alive → handle < session.opened
  reserved : ∀ handle alive, session.alive.lookup handle = some alive →
    ∃ key, alive.reservation.key = some key ∧ session.state.pending.lookup key = some alive.tokens
  distinct : ∀ handle alive handle' alive', session.alive.lookup handle = some alive →
    session.alive.lookup handle' = some alive' → alive.reservation.key = alive'.reservation.key →
      handle = handle'
  kept : ∀ key, key ∈ session.state.pending →
    ∃ handle alive, session.alive.lookup handle = some alive ∧ alive.reservation.key = some key

/-- What holds of every ledger between operations. -/
structure Session.Sound (session : Session) : Prop where
  exact : session.Exact
  held : session.Held
  bounded : session.state.inputLimit < usizeMax

/-! ## Additions -/

/-- An addition which does not exceed a limit below the greatest number is exact. -/
theorem saturatingAdd_exceeds {limit first second : Nat} (bounded : limit < usizeMax) :
    limit < saturatingAdd first second ↔ limit < first + second := by
  rw [saturatingAdd, Nat.lt_min]
  exact and_iff_left bounded

theorem saturatingAdd_exceeds_twice {limit first second third : Nat} (bounded : limit < usizeMax) :
    limit < saturatingAdd (saturatingAdd first second) third ↔ limit < first + second + third := by
  rw [saturatingAdd_exceeds bounded, saturatingAdd]
  omega

theorem saturatingAdd_eq {limit first second : Nat} (bounded : limit < usizeMax)
    (within : first + second ≤ limit) : saturatingAdd first second = first + second :=
  min_eq_left (by omega)

/-! ## Ranges -/

theorem chargedTo_append (committed : List (LedgerIdentity × Nat)) (identity other : LedgerIdentity)
    (tokens : Nat) : chargedTo (committed ++ [(identity, tokens)]) other =
      chargedTo committed other + if identity = other then tokens else 0 := by
  rw [chargedTo, List.filter_append, List.map_append, List.sum_append, ← chargedTo]
  congr 1
  by_cases same : identity = other
  · simp [same]
  · simp [same]

/-- What was charged to one range is a part of what was charged. -/
theorem chargedTo_le (committed : List (LedgerIdentity × Nat)) (identity : LedgerIdentity) :
    chargedTo committed identity ≤ (committed.map Prod.snd).sum :=
  (List.filter_sublist.map Prod.snd).sum_le_sum fun _ _ => Nat.zero_le _

/-- A charge to a range is added to what it has been charged. -/
theorem under_chargeRange {ranges : AList fun _ : LedgerIdentity => Nat}
    {identity other : LedgerIdentity} {tokens limit : Nat} (bounded : limit < usizeMax)
    (within : Amounts.under id ranges identity + tokens ≤ limit) :
    Amounts.under id (chargeRange ranges identity tokens) other =
      Amounts.under id ranges other + if identity = other then tokens else 0 := by
  by_cases same : identity = other
  · subst same
    rw [chargeRange, Amounts.under_insert_self, if_pos rfl]
    cases found : ranges.lookup identity with
    | none =>
        rw [Amounts.under_of_absent found, Nat.zero_add]
        rfl
    | some total =>
        rw [Amounts.under_of_lookup found] at within ⊢
        exact saturatingAdd_eq bounded within
  · rw [chargeRange, Amounts.under_insert_other fun equal => same equal.symm, if_neg same,
      Nat.add_zero]

/-! ## Operations -/

section Operations

variable {graphic : Char → Bool} {state : BudgetState} {identity : LedgerIdentity} {key : Text}
  {reservation : ContextBudgetReservation} {tokens actualTokens handle : Nat}
  {session next : Session} {alive : Alive}

/-- What a commit does to a ledger in which its reservation is pending. -/
theorem record_of_pending (holds : reservation.key = some key)
    (found : state.pending.lookup key = some tokens) :
    reservation.record state actualTokens =
      if state.inputLimit < saturatingAdd state.used (max actualTokens tokens) then
        ({ state with pending := state.pending.erase key }, .error .contextBudgetExceeded)
      else
        ({ state with
            pending := state.pending.erase key
            used := saturatingAdd state.used (max actualTokens tokens)
            ranges := chargeRange state.ranges reservation.identity (max actualTokens tokens) },
          .ok ()) := by
  rw [ContextBudgetReservation.record, ContextBudgetReservation.commit]
  simp only [holds, found]
  split_ifs <;> rfl

/-- A reservation which ends takes its own key out of the pending ones. -/
theorem Session.Held.release (held : session.Held)
    (found : session.alive.lookup handle = some alive) (holds : alive.reservation.key = some key)
    (pending : next.state.pending = session.state.pending.erase key)
    (others : next.alive = session.alive.erase handle) (opened : next.opened = session.opened) :
    next.Held ∧ ∀ handle' alive', handle' ≠ handle →
      session.alive.lookup handle' = some alive' → next.alive.lookup handle' = some alive' ∧
        ∃ key', alive'.reservation.key = some key' ∧
          next.state.pending.lookup key' = some alive'.tokens := by
  have among : ∀ handle' alive', next.alive.lookup handle' = some alive' →
      handle' ≠ handle ∧ session.alive.lookup handle' = some alive' := by
    intro handle' alive' found'
    rw [others] at found'
    by_cases same : handle' = handle
    · rw [same, AList.lookup_erase] at found'
      cases found'
    · exact ⟨same, by rwa [AList.lookup_erase_ne same] at found'⟩
  have remains : ∀ handle' alive', handle' ≠ handle →
      session.alive.lookup handle' = some alive' → next.alive.lookup handle' = some alive' ∧
        ∃ key', alive'.reservation.key = some key' ∧
          next.state.pending.lookup key' = some alive'.tokens := by
    intro handle' alive' different found'
    obtain ⟨key', holds', pending'⟩ := held.reserved handle' alive' found'
    have apart : key' ≠ key := by
      rintro rfl
      exact different (held.distinct _ _ _ _ found' found (holds'.trans holds.symm))
    refine ⟨by rw [others, AList.lookup_erase_ne different, found'], key', holds', ?_⟩
    rw [pending, AList.lookup_erase_ne apart, pending']
  refine ⟨⟨?_, ?_, ?_, ?_⟩, remains⟩
  · intro handle' alive' found'
    rw [opened]
    exact held.numbered handle' alive' (among _ _ found').2
  · intro handle' alive' found'
    obtain ⟨different, found'⟩ := among _ _ found'
    exact (remains handle' alive' different found').2
  · intro first firstAlive second secondAlive found' found'' same
    exact held.distinct _ _ _ _ (among _ _ found').2 (among _ _ found'').2 same
  · intro key' pending'
    rw [pending, AList.mem_erase] at pending'
    obtain ⟨handle', alive', found', holds'⟩ := held.kept key' pending'.2
    have different : handle' ≠ handle := by
      rintro rfl
      cases found.symm.trans found'
      exact pending'.1 (Option.some.inj (holds'.symm.trans holds))
    exact ⟨handle', alive', (remains handle' alive' different found').1, holds'⟩

/-- A reservation which ends releases what it has reserved. -/
theorem Session.Sound.released (sound : session.Sound)
    (found : session.alive.lookup handle = some alive)
    (pending : session.state.pending.lookup key = some alive.tokens) :
    Amounts.total id (session.state.pending.erase key) + alive.tokens =
        session.state.pendingTotal ∧
      Amounts.total id (session.state.pending.erase key) =
        Amounts.total Alive.tokens (session.alive.erase handle) := by
  have amounts : Amounts.total id (session.state.pending.erase key) +
      Amounts.under id session.state.pending key = session.state.pendingTotal := Amounts.total_erase
  have tokens : Amounts.total Alive.tokens (session.alive.erase handle) +
      Amounts.under Alive.tokens session.alive handle =
        Amounts.total Alive.tokens session.alive := Amounts.total_erase
  rw [Amounts.under_of_lookup pending, id_eq] at amounts
  rw [Amounts.under_of_lookup found, ← sound.exact.pending] at tokens
  omega

/-- A reservation under a key which no other has keeps a ledger exact. -/
theorem Session.Sound.reserve (sound : session.Sound)
    (opens : session.Opens graphic identity tokens) :
    (session.reserve graphic identity tokens).Sound ∧ ∀ handle' alive',
      session.alive.lookup handle' = some alive' →
        (session.reserve graphic identity tokens).alive.lookup handle' = some alive' ∧
          ∃ key', alive'.reservation.key = some key' ∧
            (session.reserve graphic identity tokens).state.pending.lookup key' =
              some alive'.tokens := by
  rw [Session.reserve, BudgetState.reserve]
  split_ifs with exceeds
  · refine ⟨sound, fun handle' alive' found => ⟨found, sound.held.reserved handle' alive' found⟩⟩
  rw [saturatingAdd_exceeds_twice sound.bounded] at exceeds
  have fresh := opens.resolve_left exceeds
  dsimp only
  set key := pendingKey graphic identity session.state.pending.entries.length with keyIs
  have absent : session.state.pending.lookup key = none := by
    rw [AList.lookup_eq_none]
    intro among
    obtain ⟨handle', alive', found, holds⟩ := sound.held.kept key among
    exact fresh handle' alive' found holds
  have unused : session.alive.lookup session.opened = none := by
    cases found : session.alive.lookup session.opened with
    | none => rfl
    | some alive' => exact absurd (sound.held.numbered _ _ found) (lt_irrefl _)
  have pendingTotal : Amounts.total id (session.state.pending.insert key tokens) =
      session.state.pendingTotal + tokens := Amounts.total_insert_of_absent absent
  have aliveTotal : Amounts.total Alive.tokens
      (session.alive.insert session.opened ⟨⟨some key, identity⟩, tokens⟩) =
      Amounts.total Alive.tokens session.alive + tokens := Amounts.total_insert_of_absent unused
  have remains : ∀ handle' alive', session.alive.lookup handle' = some alive' →
      (session.alive.insert session.opened ⟨⟨some key, identity⟩, tokens⟩).lookup handle' =
          some alive' ∧
        ∃ key', alive'.reservation.key = some key' ∧
          (session.state.pending.insert key tokens).lookup key' = some alive'.tokens := by
    intro handle' alive' found
    obtain ⟨key', holds, pending⟩ := sound.held.reserved handle' alive' found
    have older : handle' ≠ session.opened := by
      rintro rfl
      rw [unused] at found
      cases found
    have apart : key' ≠ key := by
      rintro rfl
      exact fresh handle' alive' found holds
    exact ⟨by rw [AList.lookup_insert_ne older, found], key', holds,
      by rw [AList.lookup_insert_ne apart, pending]⟩
  have among : ∀ handle' alive',
      (session.alive.insert session.opened ⟨⟨some key, identity⟩, tokens⟩).lookup handle' =
          some alive' →
        (handle' = session.opened ∧ alive' = ⟨⟨some key, identity⟩, tokens⟩) ∨
          session.alive.lookup handle' = some alive' := by
    intro handle' alive' found
    by_cases same : handle' = session.opened
    · rw [same, AList.lookup_insert, Option.some_inj] at found
      exact .inl ⟨same, found.symm⟩
    · rw [AList.lookup_insert_ne same] at found
      exact .inr found
  refine ⟨⟨⟨sound.exact.used, sound.exact.ranges, ?_, ?_⟩, ⟨?_, ?_, ?_, ?_⟩, sound.bounded⟩,
    remains⟩
  · exact pendingTotal.trans (aliveTotal.trans (by rw [sound.exact.pending])).symm
  · change session.state.used + Amounts.total id (session.state.pending.insert key tokens) ≤ _
    rw [pendingTotal]
    dsimp only
    omega
  · intro handle' alive' found
    rcases among handle' alive' found with ⟨rfl, _⟩ | found
    · exact Nat.lt_succ_self _
    · exact Nat.lt_succ_of_lt (sound.held.numbered handle' alive' found)
  · intro handle' alive' found
    rcases among handle' alive' found with ⟨_, rfl⟩ | found
    · exact ⟨key, rfl, AList.lookup_insert _⟩
    · exact (remains handle' alive' found).2
  · intro first firstAlive second secondAlive found found' same
    rcases among _ _ found with ⟨rfl, rfl⟩ | found <;>
      rcases among _ _ found' with ⟨rfl, rfl⟩ | found'
    · rfl
    · exact absurd same.symm (fresh second secondAlive found')
    · exact absurd same (fresh first firstAlive found)
    · exact sound.held.distinct _ _ _ _ found found' same
  · intro key' member
    rcases (AList.mem_insert _).mp member with rfl | member
    · exact ⟨session.opened, _, AList.lookup_insert _, rfl⟩
    · obtain ⟨handle', alive', found, holds⟩ := sound.held.kept key' member
      exact ⟨handle', alive', (remains handle' alive' found).1, holds⟩

/-- A fixed charge which is within the limit keeps a ledger exact. -/
theorem Session.Sound.chargeFixed (sound : session.Sound)
    (within : session.state.used + session.state.pendingTotal + tokens ≤
      session.state.inputLimit) :
    { session with
      state := { session.state with used := saturatingAdd session.state.used tokens }
      fixed := session.fixed ++ [tokens] : Session }.Sound := by
  have used : saturatingAdd session.state.used tokens = session.state.used + tokens :=
    saturatingAdd_eq sound.bounded (by omega)
  refine ⟨⟨?_, sound.exact.ranges, sound.exact.pending, ?_⟩,
    ⟨sound.held.numbered, sound.held.reserved, sound.held.distinct, sound.held.kept⟩,
    sound.bounded⟩
  · dsimp only
    rw [used, sound.exact.used, List.sum_append, List.sum_singleton]
    omega
  · change saturatingAdd session.state.used tokens + session.state.pendingTotal ≤
      session.state.inputLimit
    omega

/-- A commit which leaves room for the other reservations, or is refused, keeps a ledger exact. -/
theorem Session.Sound.record (sound : session.Sound)
    (found : session.alive.lookup handle = some alive) (holds : alive.reservation.key = some key)
    (pending : session.state.pending.lookup key = some alive.tokens)
    (fits : session.state.inputLimit < session.state.used + max actualTokens alive.tokens ∨
      session.state.used + max actualTokens alive.tokens +
        (session.state.pendingTotal - alive.tokens) ≤ session.state.inputLimit)
    (stepped : session.step graphic (.record handle actualTokens) = some next) :
    next.Exact ∧ next.state.pending = session.state.pending.erase key ∧
      next.alive = session.alive.erase handle ∧ next.opened = session.opened ∧
      next.state.inputLimit = session.state.inputLimit := by
  obtain ⟨released, remaining⟩ := sound.released found pending
  rw [Session.step, found, Option.bind_eq_bind, Option.bind_some,
    record_of_pending holds pending] at stepped
  split_ifs at stepped with exceeds
  · cases stepped
    refine ⟨⟨sound.exact.used, sound.exact.ranges, remaining, ?_⟩, rfl, rfl, rfl, rfl⟩
    have limited := sound.exact.limited
    change session.state.used + Amounts.total id (session.state.pending.erase key) ≤ _
    dsimp only
    omega
  · rw [saturatingAdd_exceeds sound.bounded] at exceeds
    have room := fits.resolve_left exceeds
    have used : saturatingAdd session.state.used (max actualTokens alive.tokens) =
        session.state.used + max actualTokens alive.tokens :=
      saturatingAdd_eq sound.bounded (by omega)
    cases stepped
    refine ⟨⟨?_, fun identity => ?_, remaining, ?_⟩, rfl, rfl, rfl, rfl⟩
    · dsimp only
      rw [used, sound.exact.used, List.map_append, List.sum_append, List.map_singleton,
        List.sum_singleton]
      omega
    · dsimp only
      have charged := chargedTo_le session.committed alive.reservation.identity
      rw [← sound.exact.ranges] at charged
      have total := sound.exact.used
      have within : Amounts.under id session.state.ranges alive.reservation.identity +
          max actualTokens alive.tokens ≤ session.state.inputLimit := by omega
      rw [under_chargeRange sound.bounded within, chargedTo_append, sound.exact.ranges]
    · change saturatingAdd session.state.used (max actualTokens alive.tokens) +
        Amounts.total id (session.state.pending.erase key) ≤ _
      rw [used]
      dsimp only
      omega

/-- A reservation which is dropped keeps a ledger exact. -/
theorem Session.Sound.drop (sound : session.Sound)
    (found : session.alive.lookup handle = some alive) (holds : alive.reservation.key = some key)
    (pending : session.state.pending.lookup key = some alive.tokens)
    (stepped : session.step graphic (.drop handle) = some next) :
    next.Exact ∧ next.state.pending = session.state.pending.erase key ∧
      next.alive = session.alive.erase handle ∧ next.opened = session.opened ∧
      next.state.inputLimit = session.state.inputLimit ∧
      next.state.used = session.state.used ∧ next.state.ranges = session.state.ranges := by
  obtain ⟨released, remaining⟩ := sound.released found pending
  have limited := sound.exact.limited
  rw [Session.step, found, Option.bind_eq_bind, Option.bind_some, ContextBudgetReservation.drop,
    holds] at stepped
  cases stepped
  refine ⟨⟨sound.exact.used, sound.exact.ranges, remaining, ?_⟩, rfl, rfl, rfl, rfl, rfl, rfl⟩
  change session.state.used + Amounts.total id (session.state.pending.erase key) ≤
    session.state.inputLimit
  omega

/-- An operation which fits keeps a ledger sound, and does to the reservations what it should. -/
theorem Session.Sound.step {event : Event} (sound : session.Sound)
    (fits : event.Fits graphic session)
    (stepped : (ledgerMachine graphic).step session event = some next) :
    next.Sound ∧ LedgerStep session event next := by
  cases event with
  | reserveOcrPage identity estimatedTokens imageBytes =>
      cases stepped
      obtain ⟨sound, remains⟩ := sound.reserve fits
      have goesOn : ∀ handle,
          ¬ Event.ends (.reserveOcrPage identity estimatedTokens imageBytes) handle := by
        rintro _ (⟨_, other⟩ | other) <;> cases other
      exact ⟨sound, sound.exact, fun handle _ ends => absurd ends (goesOn handle), nofun,
        fun handle alive _ => remains handle alive⟩
  | reserveTextSegment identity text =>
      cases stepped
      obtain ⟨sound, remains⟩ := sound.reserve fits
      have goesOn : ∀ handle, ¬ Event.ends (.reserveTextSegment identity text) handle := by
        rintro _ (⟨_, other⟩ | other) <;> cases other
      exact ⟨sound, sound.exact, fun handle _ ends => absurd ends (goesOn handle), nofun,
        fun handle alive _ => remains handle alive⟩
  | chargeFixed tokens =>
      have kept : next.Sound ∧ next.alive = session.alive ∧
          next.state.pending = session.state.pending := by
        change (match session.state.chargeFixed tokens with
          | .error _ => some session
          | .ok state => some { session with state, fixed := session.fixed ++ [tokens] }) =
            some next at stepped
        rw [BudgetState.chargeFixed] at stepped
        split_ifs at stepped with exceeds
        · cases stepped
          exact ⟨sound, rfl, rfl⟩
        · rw [saturatingAdd_exceeds_twice sound.bounded] at exceeds
          cases stepped
          exact ⟨sound.chargeFixed (Nat.le_of_not_lt exceeds), rfl, rfl⟩
      obtain ⟨soundNext, others, pending⟩ := kept
      have goesOn : ∀ handle, ¬ Event.ends (.chargeFixed tokens) handle := by
        rintro _ (⟨_, other⟩ | other) <;> cases other
      refine ⟨soundNext, soundNext.exact, fun handle _ ends => absurd ends (goesOn handle), nofun,
        fun handle alive _ found => ?_⟩
      rw [others, pending]
      exact ⟨found, sound.held.reserved handle alive found⟩
  | record handle actualTokens =>
      obtain ⟨alive, found, _⟩ := Option.bind_eq_some_iff.mp stepped
      obtain ⟨key, holds, pending⟩ := sound.held.reserved handle alive found
      obtain ⟨exactNext, erased, others, opened, limit⟩ :=
        sound.record found holds pending (fits alive found)
          (show session.step graphic (.record handle actualTokens) = some next from stepped)
      obtain ⟨heldNext, remains⟩ := sound.held.release found holds erased others opened
      refine ⟨⟨exactNext, heldNext, limit ▸ sound.bounded⟩, exactNext, ?_, nofun, ?_⟩
      · rintro handle' alive' (⟨_, same⟩ | same) found'
        · cases same
          cases found.symm.trans found'
          rw [BudgetState.pendingTotal, erased]
          exact (sound.released found pending).1
        · cases same
      · intro handle' alive' other found'
        exact remains handle' alive' (fun same => other (.inl ⟨actualTokens, same ▸ rfl⟩)) found'
  | drop handle =>
      obtain ⟨alive, found, _⟩ := Option.bind_eq_some_iff.mp stepped
      obtain ⟨key, holds, pending⟩ := sound.held.reserved handle alive found
      obtain ⟨exactNext, erased, others, opened, limit, used, ranges⟩ :=
        sound.drop found holds pending
          (show session.step graphic (.drop handle) = some next from stepped)
      obtain ⟨heldNext, remains⟩ := sound.held.release found holds erased others opened
      refine ⟨⟨exactNext, heldNext, limit ▸ sound.bounded⟩, exactNext, ?_,
        fun _ _ => ⟨used, ranges⟩, ?_⟩
      · rintro handle' alive' (⟨_, same⟩ | same) found'
        · cases same
        · cases same
          cases found.symm.trans found'
          rw [BudgetState.pendingTotal, erased]
          exact (sound.released found pending).1
      · intro handle' alive' other found'
        exact remains handle' alive' (fun same => other (.inr (same ▸ rfl))) found'

end Operations

/-! ## Runs -/

/-- A new plan is sound: a `u32` is below the greatest `usize`. -/
theorem sound_initial (inputLimit : UInt32) : (Session.initial inputLimit).Sound where
  exact := ⟨rfl, fun _ => rfl, rfl, Nat.zero_le _⟩
  held := ⟨nofun, nofun, nofun, nofun⟩
  bounded := lt_of_lt_of_le inputLimit.toNat_lt (by decide)

/-- A ledger stays exact along every run of operations each of which fits: a new reservation gets a
key which no other has, and what is recorded leaves room for what the others have reserved. -/
theorem context_ledger_is_exact (graphic : Char → Bool) (inputLimit : UInt32) (events : List Event)
    (fits : (ledgerMachine graphic).Along (fun session event _ => event.Fits graphic session)
      (Session.initial inputLimit) events) :
    (Session.initial inputLimit).Exact ∧
      (ledgerMachine graphic).Along LedgerStep (Session.initial inputLimit) events := by
  refine ⟨(sound_initial inputLimit).exact, ?_⟩
  have sound := sound_initial inputLimit
  revert fits sound
  generalize Session.initial inputLimit = session
  intro fits sound
  induction events generalizing session with
  | nil => trivial
  | cons event rest inductionHypothesis =>
      intro next stepped
      obtain ⟨here, behind⟩ := fits next stepped
      obtain ⟨soundNext, step⟩ := sound.step here stepped
      exact ⟨step, inductionHypothesis next behind soundNext⟩

/-- A paragraph of a material. -/
def paragraph : LedgerIdentity :=
  ⟨"material".toList, "m1".toList, none, "paragraph:1".toList⟩

/-- A page is reserved, committed, and reserved again. -/
theorem context_ledger_is_exact_recorded : (Session.initial 100).Exact ∧
    (ledgerMachine fun _ => true).Along LedgerStep (Session.initial 100)
      [.reserveTextSegment paragraph "evidence".toList, .record 0 8] := by
  refine context_ledger_is_exact (fun _ => true) 100 _ fun next stepped => ?_
  cases stepped
  refine ⟨.inr nofun, fun next' stepped' => ⟨?_, trivial⟩⟩
  rintro alive found
  cases found
  exact .inr (by decide)

/-- Two paragraphs are reserved, the first one is dropped, and a third one is reserved: it takes the
key of the second, and what is pending is not what is reserved. -/
theorem dropped_reservations_give_keys_again :
    ¬ ∀ (graphic : Char → Bool) (inputLimit : UInt32) (events : List Event),
      (Session.initial inputLimit).Exact ∧
        (ledgerMachine graphic).Along LedgerStep (Session.initial inputLimit) events := by
  intro always
  obtain ⟨_, along⟩ := always (fun _ => true) 100
    [.reserveTextSegment paragraph "evidence".toList,
      .reserveTextSegment paragraph "evidence".toList, .drop 0,
      .reserveTextSegment paragraph "evidence".toList]
  obtain ⟨_, along⟩ := along _ rfl
  obtain ⟨_, along⟩ := along _ rfl
  obtain ⟨_, along⟩ := along _ rfl
  obtain ⟨step, _⟩ := along _ rfl
  exact absurd step.exact.pending (by decide)

end LawyerAssistance.AiContext
