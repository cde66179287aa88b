import Mathlib.Data.List.Dedup
import Mathlib.Data.List.Nodup

/-!
# Calls and answers

In a history some messages make calls, by their identifiers, and some messages answer one
call. `Dialogue.pendingAfter` reads a history and keeps the calls which wait for an answer. A
history is well formed when every call is answered once before the next message which is no
answer, and every answer is for a call which waits. `Dialogue.repair` answers the calls which
an interruption left open.
-/

namespace LawyerAssistance

universe u v

/-- How the messages of a history make and answer calls. -/
structure Dialogue (μ : Type u) (ι : Type v) where
  /-- The calls of a message which may make some. -/
  calls : μ → Option (List ι)
  /-- Whether a message is an answer. -/
  isAnswer : μ → Bool
  /-- The call which a message names. -/
  answered : μ → Option ι
  /-- The answer for a call whose result is lost. -/
  lost : ι → μ

namespace Dialogue

variable {μ : Type u} {ι : Type v} [DecidableEq ι]

/-- A caller is no answer, and a lost answer answers its call and makes none. -/
structure Lawful (dialogue : Dialogue μ ι) : Prop where
  caller : ∀ {message ids}, dialogue.calls message = some ids → dialogue.isAnswer message = false
  lostCalls : ∀ id, dialogue.calls (dialogue.lost id) = none
  lostIsAnswer : ∀ id, dialogue.isAnswer (dialogue.lost id) = true
  lostAnswered : ∀ id, dialogue.answered (dialogue.lost id) = some id

variable (dialogue : Dialogue μ ι)

/-- The calls which wait for an answer behind a history, when some wait before it. An answer for a
call which does not wait, and a message which is no answer while a call waits, end the history
with `none`. -/
@[grind =] def pendingAfter (pending : List ι) : List μ → Option (List ι)
  | [] => some pending
  | message :: rest =>
      if dialogue.isAnswer message then
        match dialogue.answered message with
        | none => none
        | some id => if id ∈ pending then pendingAfter (pending.erase id) rest else none
      else if pending = [] then pendingAfter ((dialogue.calls message).getD []).dedup rest
      else none

/-- Every call is answered exactly once before the next message which is no answer, and no answer
is for an unknown call. -/
def WellFormed (history : List μ) : Prop := dialogue.pendingAfter [] history = some []

instance (history : List μ) : Decidable (dialogue.WellFormed history) :=
  inferInstanceAs (Decidable (_ = _))

/-- The calls of every message are distinct. -/
def Distinct (history : List μ) : Prop :=
  ∀ message ∈ history, ∀ ids ∈ dialogue.calls message, ids.Nodup

/-- A well formed history up to answers which are missing at its end. -/
def Resumable (history : List μ) : Prop :=
  (∃ pending, dialogue.pendingAfter [] history = some pending) ∧ dialogue.Distinct history

/-- The calls of the last message which may make some, and the messages behind it. -/
@[grind =] def lastCalls : List μ → Option (List ι × List μ)
  | [] => none
  | message :: rest =>
      match lastCalls rest with
      | some found => some found
      | none => (dialogue.calls message).map fun ids => (ids, rest)

/-- The last calls which no message behind them names. -/
def missing (history : List μ) : List ι :=
  match dialogue.lastCalls history with
  | none => []
  | some (ids, rest) => ids.filter fun id => id ∉ rest.filterMap dialogue.answered

/-- Answer the last calls which have no answer. -/
def repair (history : List μ) : List μ := history ++ (dialogue.missing history).map dialogue.lost

variable {dialogue} {history : List μ} {pending : List ι}

/-! ## Reading a history -/

/-- What waits behind two parts of a history. -/
theorem pendingAfter_append (first second : List μ) :
    dialogue.pendingAfter pending (first ++ second) =
      (dialogue.pendingAfter pending first).bind fun waiting =>
        dialogue.pendingAfter waiting second := by
  induction first generalizing pending with
  | nil => rfl
  | cons message rest inductionHypothesis =>
      simp only [List.cons_append, pendingAfter]
      split_ifs
      · split
        · rfl
        · split_ifs
          · exact inductionHypothesis
          · rfl
      · exact inductionHypothesis
      · rfl

theorem pendingAfter_call {message : μ} {ids : List ι}
    (quiet : dialogue.pendingAfter pending history = some [])
    (calls : dialogue.calls message = some ids) (notAnswer : dialogue.isAnswer message = false) :
    dialogue.pendingAfter pending (history ++ [message]) = some ids.dedup := by
  rw [pendingAfter_append, quiet, Option.bind_some]
  simp [pendingAfter, notAnswer, calls]

theorem pendingAfter_other {message : μ}
    (quiet : dialogue.pendingAfter pending history = some [])
    (calls : dialogue.calls message = none) (notAnswer : dialogue.isAnswer message = false) :
    dialogue.pendingAfter pending (history ++ [message]) = some [] := by
  rw [pendingAfter_append, quiet, Option.bind_some]
  simp [pendingAfter, notAnswer, calls]

theorem pendingAfter_answer {message : μ} {id : ι} {waiting : List ι}
    (waits : dialogue.pendingAfter pending history = some (id :: waiting))
    (isAnswer : dialogue.isAnswer message = true) (answers : dialogue.answered message = some id) :
    dialogue.pendingAfter pending (history ++ [message]) = some waiting := by
  rw [pendingAfter_append, waits, Option.bind_some]
  simp [pendingAfter, isAnswer, answers]

/-- Answers of all calls which wait, in order. -/
theorem pendingAfter_lost (lawful : dialogue.Lawful) (waiting : List ι) :
    dialogue.pendingAfter waiting (waiting.map dialogue.lost) = some [] := by
  induction waiting with
  | nil => rfl
  | cons id rest inductionHypothesis =>
      simp only [List.map_cons, pendingAfter, lawful.lostIsAnswer, lawful.lostAnswered, if_true,
        List.mem_cons_self, List.erase_cons_head]
      exact inductionHypothesis

/-- Messages without calls leave nothing waiting when nothing waits before them. -/
theorem pendingAfter_nil_of_no_calls {waiting : List ι}
    (noCalls : ∀ message ∈ history, dialogue.calls message = none)
    (reads : dialogue.pendingAfter [] history = some waiting) : waiting = [] := by
  induction history with
  | nil => exact (Option.some.inj reads).symm
  | cons message rest inductionHypothesis =>
      obtain ⟨first, others⟩ := List.forall_mem_cons.mp noCalls
      rw [pendingAfter] at reads
      split_ifs at reads
      · split at reads
        · cases reads
        · simp at reads
      · rw [first] at reads
        exact inductionHypothesis others reads

/-- Behind distinct calls, those wait which no message names. -/
theorem pendingAfter_eq_filter {waiting : List ι}
    (noCalls : ∀ message ∈ history, dialogue.calls message = none) (distinct : pending.Nodup)
    (reads : dialogue.pendingAfter pending history = some waiting) :
    waiting = pending.filter fun id => id ∉ history.filterMap dialogue.answered := by
  induction history generalizing pending with
  | nil =>
      cases reads
      simp
  | cons message rest inductionHypothesis =>
      obtain ⟨first, others⟩ := List.forall_mem_cons.mp noCalls
      rw [pendingAfter] at reads
      split_ifs at reads with isAnswer quiet
      · cases answers : dialogue.answered message with
        | none => simp [answers] at reads
        | some id =>
            simp only [answers] at reads
            split_ifs at reads
            rw [inductionHypothesis others (distinct.erase id) reads, distinct.erase_eq_filter,
              List.filter_filter, List.filterMap_cons_some answers]
            refine List.filter_congr fun other _ => ?_
            rw [Bool.eq_iff_iff, Bool.and_eq_true, decide_eq_true_eq, decide_eq_true_eq,
              bne_iff_ne, List.mem_cons, not_or]
            exact And.comm
      · subst quiet
        rw [first] at reads
        rw [pendingAfter_nil_of_no_calls others reads]
        rfl

/-- The answers up to the next message which is no answer are those which wait. -/
theorem answers_of_pendingAfter (settles : dialogue.pendingAfter pending history = some []) :
    ((history.takeWhile dialogue.isAnswer).map dialogue.answered).Perm (pending.map some) := by
  induction history generalizing pending with
  | nil =>
      cases settles
      exact .refl _
  | cons message rest inductionHypothesis =>
      rw [pendingAfter] at settles
      split_ifs at settles with isAnswer quiet
      · split at settles
        · cases settles
        · next id answers =>
            split_ifs at settles with waits
            rw [List.takeWhile_cons_of_pos isAnswer, List.map_cons, answers]
            have others := (inductionHypothesis settles).cons (some id)
            exact others.trans ((List.perm_cons_erase waits).symm.map some)
      · rw [List.takeWhile_cons_of_neg isAnswer, quiet]
        exact .refl _

/-- In a well formed history, the answers directly behind a message which is no answer are those
of its calls, each once. -/
theorem WellFormed.answers {front rest : List μ} {message : μ}
    (wellFormed : dialogue.WellFormed (front ++ message :: rest))
    (notAnswer : dialogue.isAnswer message = false) :
    ((rest.takeWhile dialogue.isAnswer).map dialogue.answered).Perm
      (((dialogue.calls message).getD []).dedup.map some) := by
  rw [WellFormed, pendingAfter_append] at wellFormed
  obtain ⟨waiting, _, reads⟩ := Option.bind_eq_some_iff.mp wellFormed
  rw [pendingAfter, notAnswer, if_neg Bool.false_ne_true] at reads
  split_ifs at reads
  exact answers_of_pendingAfter reads

theorem WellFormed.noAnswerFirst (wellFormed : dialogue.WellFormed history) :
    history.takeWhile dialogue.isAnswer = [] :=
  List.map_eq_nil_iff.mp (answers_of_pendingAfter wellFormed).eq_nil

/-! ## Repair -/

omit [DecidableEq ι] in
/-- Without a message which makes calls there are no last calls. -/
theorem lastCalls_eq_none (absent : dialogue.lastCalls history = none) :
    ∀ message ∈ history, dialogue.calls message = none := by
  induction history with
  | nil => exact fun _ member => nomatch member
  | cons message rest inductionHypothesis =>
      rw [lastCalls] at absent
      split at absent
      · cases absent
      · next later =>
          exact List.forall_mem_cons.mpr ⟨Option.map_eq_none_iff.mp absent, inductionHypothesis later⟩

omit [DecidableEq ι] in
/-- Where the last calls are. -/
theorem lastCalls_eq_some {ids : List ι} {rest : List μ}
    (last : dialogue.lastCalls history = some (ids, rest)) :
    ∃ front message, history = front ++ message :: rest ∧ dialogue.calls message = some ids ∧
      ∀ later ∈ rest, dialogue.calls later = none := by
  induction history with
  | nil => cases last
  | cons message others inductionHypothesis =>
      rw [lastCalls] at last
      split at last
      · next found later =>
          cases last
          obtain ⟨front, caller, rfl, calls, quiet⟩ := inductionHypothesis later
          exact ⟨message :: front, caller, rfl, calls, quiet⟩
      · next absent =>
          obtain ⟨_, calls, same⟩ := Option.map_eq_some_iff.mp last
          cases same
          exact ⟨[], message, rfl, calls, lastCalls_eq_none absent⟩

omit [DecidableEq ι] in
/-- Messages without calls at the end keep the last calls. -/
theorem lastCalls_append {tail : List μ} (noCalls : ∀ message ∈ tail, dialogue.calls message = none) :
    dialogue.lastCalls (history ++ tail) =
      (dialogue.lastCalls history).map fun found => (found.1, found.2 ++ tail) := by
  induction history with
  | nil =>
      rw [List.nil_append, lastCalls, Option.map_none]
      cases last : dialogue.lastCalls tail with
      | none => rfl
      | some found =>
          obtain ⟨front, message, rfl, calls, _⟩ := lastCalls_eq_some last
          rw [noCalls message (List.mem_append_right _ List.mem_cons_self)] at calls
          cases calls
  | cons message rest inductionHypothesis =>
      rw [List.cons_append, lastCalls, lastCalls, inductionHypothesis]
      cases dialogue.lastCalls rest with
      | none => simp [Option.map_map, Function.comp_def]
      | some found => rfl

/-- A repaired history misses no answer. -/
theorem missing_repair (lawful : dialogue.Lawful) : dialogue.missing (dialogue.repair history) = [] := by
  have noCalls : ∀ message ∈ (dialogue.missing history).map dialogue.lost,
      dialogue.calls message = none := by
    intro message member
    obtain ⟨id, _, rfl⟩ := List.mem_map.mp member
    exact lawful.lostCalls id
  rw [missing, repair, lastCalls_append noCalls]
  cases last : dialogue.lastCalls history with
  | none => rfl
  | some found =>
      obtain ⟨ids, rest⟩ := found
      simp only [Option.map_some, missing, last]
      rw [List.filter_eq_nil_iff]
      intro id called
      rw [decide_eq_true_eq, not_not, List.filterMap_append, List.mem_append]
      by_cases before : id ∈ rest.filterMap dialogue.answered
      · exact .inl before
      · refine .inr (List.mem_filterMap.mpr ⟨dialogue.lost id, ?_, lawful.lostAnswered id⟩)
        exact List.mem_map_of_mem (List.mem_filter.mpr ⟨called, by simpa using before⟩)

theorem repair_repair (lawful : dialogue.Lawful) :
    dialogue.repair (dialogue.repair history) = dialogue.repair history := by
  rw [repair, missing_repair lawful, List.map_nil, List.append_nil]

/-- Of the calls which wait and those which are answered, no call is lost. -/
theorem mem_pendingAfter_or_answered {waiting : List ι}
    (noCalls : ∀ message ∈ history, dialogue.calls message = none)
    (reads : dialogue.pendingAfter pending history = some waiting) {id : ι} (called : id ∈ pending) :
    id ∈ waiting ∨ id ∈ history.filterMap dialogue.answered := by
  induction history generalizing pending with
  | nil =>
      cases reads
      exact .inl called
  | cons message rest inductionHypothesis =>
      obtain ⟨_, others⟩ := List.forall_mem_cons.mp noCalls
      rw [pendingAfter] at reads
      split_ifs at reads with isAnswer quiet
      · cases answers : dialogue.answered message with
        | none => simp [answers] at reads
        | some named =>
            simp only [answers] at reads
            split_ifs at reads
            rw [List.filterMap_cons_some answers, List.mem_cons]
            by_cases same : id = named
            · exact .inr (.inl same)
            · exact (inductionHypothesis others reads ((List.mem_erase_of_ne same).mpr called)).imp_right
                .inr
      · rw [quiet] at called
        cases called

/-- A well formed history is repaired already. -/
theorem repair_eq_self (lawful : dialogue.Lawful) (wellFormed : dialogue.WellFormed history) :
    dialogue.repair history = history := by
  have complete : dialogue.missing history = [] := by
    rw [missing]
    split
    · rfl
    · next ids rest last =>
        obtain ⟨front, message, rfl, calls, noCalls⟩ := lastCalls_eq_some last
        rw [WellFormed, pendingAfter_append] at wellFormed
        obtain ⟨waiting, _, reads⟩ := Option.bind_eq_some_iff.mp wellFormed
        rw [pendingAfter, lawful.caller calls, if_neg Bool.false_ne_true] at reads
        split_ifs at reads
        rw [calls, Option.getD_some] at reads
        rw [List.filter_eq_nil_iff]
        intro id called
        have answered := (mem_pendingAfter_or_answered noCalls reads
          (List.mem_dedup.mpr called)).resolve_left List.not_mem_nil
        simpa using answered
  rw [repair, complete, List.map_nil, List.append_nil]

/-- Repair keeps the calls distinct. -/
theorem Distinct.repair (lawful : dialogue.Lawful) (distinct : dialogue.Distinct history) :
    dialogue.Distinct (dialogue.repair history) := by
  intro message member ids calls
  obtain before | added := List.mem_append.mp member
  · exact distinct message before ids calls
  · obtain ⟨id, _, rfl⟩ := List.mem_map.mp added
    rw [lawful.lostCalls id] at calls
    cases calls

/-- Repair makes an interrupted history well formed. -/
theorem Resumable.repair (lawful : dialogue.Lawful) (resumable : dialogue.Resumable history) :
    dialogue.WellFormed (dialogue.repair history) := by
  obtain ⟨⟨waiting, reads⟩, distinct⟩ := resumable
  have waits : waiting = dialogue.missing history := by
    rw [missing]
    split
    · next absent => exact pendingAfter_nil_of_no_calls (lastCalls_eq_none absent) reads
    · next ids rest last =>
        obtain ⟨front, message, rfl, calls, noCalls⟩ := lastCalls_eq_some last
        have nodup := distinct message (by simp) ids calls
        rw [pendingAfter_append] at reads
        obtain ⟨_, _, reads⟩ := Option.bind_eq_some_iff.mp reads
        rw [pendingAfter, lawful.caller calls, if_neg Bool.false_ne_true] at reads
        split_ifs at reads
        rw [calls, Option.getD_some, nodup.dedup] at reads
        exact pendingAfter_eq_filter noCalls nodup reads
  rw [WellFormed, Dialogue.repair, pendingAfter_append, reads, Option.bind_some, ← waits]
  exact pendingAfter_lost lawful waiting

end Dialogue

end LawyerAssistance
