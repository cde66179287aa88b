import LawyerAssistance.Std.Fallible

/-!
# Programs which commit to a store

A program reads a store, commits batches to it one transaction at a time, sends
signals, and ends with a value or an error. `Program.Always` says what a program sends
and returns whatever it reads. `Program.Holds` is its weakest
precondition: every batch which the program commits satisfies a guarantee at the
state it is applied to, and a program which ends with a value satisfies a
postcondition. `Program.run` executes a program on a storage which may stop
accepting transactions, and `Program.Holds.run_invariant` and
`Program.Holds.run_relation` carry the guarantee to the state which is left then.
-/

namespace LawyerAssistance

/-- Programs over states `σ` with batches `β`, signals `κ` and errors `ε`. -/
inductive Program (σ β κ ε α : Type) where
  | done (result : α)
  | throw (error : ε)
  | inspect (next : σ → Program σ β κ ε α)
  | transact (batch : β) (next : Program σ β κ ε α)
  | emit (what : κ) (next : Program σ β κ ε α)

namespace Program

variable {σ β κ ε α γ : Type}

/-- Run one program after the other; an error ends both. -/
protected def bind (program : Program σ β κ ε α) (next : α → Program σ β κ ε γ) :
    Program σ β κ ε γ :=
  match program with
  | .done result => next result
  | .throw error => .throw error
  | .inspect first => .inspect fun state => (first state).bind next
  | .transact batch first => .transact batch (first.bind next)
  | .emit what first => .emit what (first.bind next)

instance : Monad (Program σ β κ ε) where
  pure := .done
  bind := .bind

/-- The current state. -/
def current : Program σ β κ ε σ := .inspect .done

/-- Commit one batch. -/
def commit (batch : β) : Program σ β κ ε Unit := .transact batch (.done ())

/-- Send one signal. -/
def send (what : κ) : Program σ β κ ε Unit := .emit what (.done ())

/-- A computation which touches nothing. -/
def lift : Except ε α → Program σ β κ ε α
  | .ok value => .done value
  | .error error => .throw error

/-- Stop with `error` when the condition holds. -/
def refuse (condition : Prop) [Decidable condition] (error : ε) : Program σ β κ ε Unit :=
  lift (refuseIf condition error)

theorem lift_ok_bind {value : α} {next : α → Program σ β κ ε γ} :
    (lift (.ok value) >>= next) = next value := rfl

theorem lift_error_bind {error : ε} {next : α → Program σ β κ ε γ} :
    (lift (.error error) >>= next) = .throw error := rfl

/-- Sequences of three programs. -/
theorem bind_assoc {δ : Type} {program : Program σ β κ ε α} {next : α → Program σ β κ ε γ}
    {last : γ → Program σ β κ ε δ} :
    ((program >>= next) >>= last) = program >>= fun value => next value >>= last := by
  change (program.bind next).bind last = program.bind fun value => (next value).bind last
  induction program with
  | done result => rfl
  | throw error => rfl
  | inspect first inductionHypothesis => exact congrArg _ (funext inductionHypothesis)
  | transact batch first inductionHypothesis => exact congrArg _ inductionHypothesis
  | emit what first inductionHypothesis => exact congrArg _ inductionHypothesis

/-! ## Weakest preconditions -/

variable (apply : σ → β → σ) (guarantee : σ → β → Prop)

/-- Every batch which the program commits from a state satisfies the guarantee, and
its value satisfies the postcondition. -/
@[grind =] def Holds (post : α → σ → Prop) : Program σ β κ ε α → σ → Prop
  | .done result, state => post result state
  | .throw _, _ => True
  | .inspect next, state => (next state).Holds post state
  | .transact batch next, state => guarantee state batch ∧ next.Holds post (apply state batch)
  | .emit _ next, state => next.Holds post state

variable {apply guarantee} {post : α → σ → Prop} {state : σ}

@[simp] theorem holds_pure {result : α} :
    (pure result : Program σ β κ ε α).Holds apply guarantee post state ↔ post result state :=
  Iff.rfl

@[simp] theorem holds_throw {error : ε} :
    (Program.throw error : Program σ β κ ε α).Holds apply guarantee post state ↔ True :=
  Iff.rfl

@[simp] theorem holds_current {after : σ → σ → Prop} :
    (current : Program σ β κ ε σ).Holds apply guarantee after state ↔ after state state :=
  Iff.rfl

@[simp] theorem holds_commit {batch : β} {after : Unit → σ → Prop} :
    (commit batch : Program σ β κ ε Unit).Holds apply guarantee after state ↔
      guarantee state batch ∧ after () (apply state batch) :=
  Iff.rfl

@[simp] theorem holds_send {what : κ} {after : Unit → σ → Prop} :
    (send what : Program σ β κ ε Unit).Holds apply guarantee after state ↔ after () state :=
  Iff.rfl

@[simp] theorem holds_lift {value : Except ε α} :
    (lift value : Program σ β κ ε α).Holds apply guarantee post state ↔
      ∀ result, value = .ok result → post result state := by
  cases value <;> simp [lift, Holds]

@[simp] theorem holds_refuse {condition : Prop} [Decidable condition] {error : ε}
    {after : Unit → σ → Prop} :
    (refuse condition error : Program σ β κ ε Unit).Holds apply guarantee after state ↔
      (¬ condition → after () state) := by
  by_cases holds : condition <;> simp only [refuse, refuseIf, holds, if_true, if_false, lift, Holds] <;>
    simp

/-- The precondition of a sequence is the precondition of its first part for the
precondition of its second part. -/
@[simp] theorem holds_bind {program : Program σ β κ ε α} {next : α → Program σ β κ ε γ}
    {after : γ → σ → Prop} :
    (program >>= next).Holds apply guarantee after state ↔
      program.Holds apply guarantee
        (fun result final => (next result).Holds apply guarantee after final) state := by
  change (program.bind next).Holds apply guarantee after state ↔ _
  induction program generalizing state with
  | done result => rfl
  | throw error => rfl
  | inspect first inductionHypothesis => exact inductionHypothesis state
  | transact batch first inductionHypothesis =>
      exact and_congr_right fun _ => inductionHypothesis
  | emit what first inductionHypothesis => exact inductionHypothesis

/-- A stronger guarantee and a stronger postcondition. -/
theorem Holds.imp {stronger : σ → β → Prop} {before : α → σ → Prop}
    {program : Program σ β κ ε α} (holds : program.Holds apply stronger before state)
    (guarantees : ∀ state batch, stronger state batch → guarantee state batch)
    (ensures : ∀ result state, before result state → post result state) :
    program.Holds apply guarantee post state := by
  induction program generalizing state with
  | done result => exact ensures result state holds
  | throw error => trivial
  | inspect next inductionHypothesis => exact inductionHypothesis state holds
  | transact batch next inductionHypothesis =>
      exact ⟨guarantees state batch holds.1, inductionHypothesis holds.2⟩
  | emit what next inductionHypothesis => exact inductionHypothesis holds

/-- A program which may commit nothing ends where it starts. -/
theorem Holds.unchanged {program : Program σ β κ ε α}
    (holds : program.Holds apply (fun _ _ => False) post state) :
    program.Holds apply (fun _ _ => False) (fun result final => final = state ∧ post result final)
      state := by
  induction program with
  | done result => exact ⟨rfl, holds⟩
  | throw error => trivial
  | inspect next inductionHypothesis => exact inductionHypothesis state holds
  | transact batch next inductionHypothesis => exact holds.1.elim
  | emit what next inductionHypothesis => exact inductionHypothesis holds

/-! ## Whatever the store answers -/

section Always

variable {sends : κ → Prop} {post : α → Prop}

/-- Whatever a program reads, the signals which it sends are admitted and its value
satisfies the postcondition. -/
@[grind =] def Always (sends : κ → Prop) (post : α → Prop) : Program σ β κ ε α → Prop
  | .done result => post result
  | .throw _ => True
  | .inspect next => ∀ state, (next state).Always sends post
  | .transact _ next => next.Always sends post
  | .emit what next => sends what ∧ next.Always sends post

@[simp] theorem always_pure {result : α} :
    (pure result : Program σ β κ ε α).Always sends post ↔ post result :=
  Iff.rfl

@[simp] theorem always_throw {error : ε} :
    (Program.throw error : Program σ β κ ε α).Always sends post ↔ True :=
  Iff.rfl

@[simp] theorem always_current {after : σ → Prop} :
    (current : Program σ β κ ε σ).Always sends after ↔ ∀ state, after state :=
  Iff.rfl

@[simp] theorem always_commit {batch : β} {after : Unit → Prop} :
    (commit batch : Program σ β κ ε Unit).Always sends after ↔ after () :=
  Iff.rfl

@[simp] theorem always_send {what : κ} {after : Unit → Prop} :
    (send what : Program σ β κ ε Unit).Always sends after ↔ sends what ∧ after () :=
  Iff.rfl

@[simp] theorem always_lift {value : Except ε α} :
    (lift value : Program σ β κ ε α).Always sends post ↔ ∀ result, value = .ok result → post result := by
  cases value <;> simp [lift, Always]

@[simp] theorem always_refuse {condition : Prop} [Decidable condition] {error : ε}
    {after : Unit → Prop} :
    (refuse condition error : Program σ β κ ε Unit).Always sends after ↔
      (¬ condition → after ()) := by
  by_cases holds : condition <;>
    simp only [refuse, refuseIf, holds, if_true, if_false, lift, Always] <;> simp

@[simp] theorem always_bind {program : Program σ β κ ε α} {next : α → Program σ β κ ε γ}
    {after : γ → Prop} :
    (program >>= next).Always sends after ↔
      program.Always sends fun result => (next result).Always sends after := by
  change (program.bind next).Always sends after ↔ _
  induction program with
  | done result => rfl
  | throw error => rfl
  | inspect first inductionHypothesis => exact forall_congr' inductionHypothesis
  | transact batch first inductionHypothesis => exact inductionHypothesis
  | emit what first inductionHypothesis => exact and_congr_right fun _ => inductionHypothesis

/-- Fewer signals and a stronger postcondition. -/
theorem Always.imp {fewer : κ → Prop} {before : α → Prop} {program : Program σ β κ ε α}
    (always : program.Always fewer before) (admits : ∀ what, fewer what → sends what)
    (ensures : ∀ result, before result → post result) : program.Always sends post := by
  induction program with
  | done result => exact ensures result always
  | throw error => trivial
  | inspect next inductionHypothesis => exact fun state => inductionHypothesis state (always state)
  | transact batch next inductionHypothesis => exact inductionHypothesis always
  | emit what next inductionHypothesis =>
      exact ⟨admits what always.1, inductionHypothesis always.2⟩

/-- What a program always returns it returns from every state. -/
theorem Always.holds {program : Program σ β κ ε α} (always : program.Always sends post)
    {apply : σ → β → σ} (state : σ) :
    program.Holds apply (fun _ _ => True) (fun result _ => post result) state := by
  induction program generalizing state with
  | done result => exact always
  | throw error => trivial
  | inspect next inductionHypothesis => exact inductionHypothesis state (always state) state
  | transact batch next inductionHypothesis => exact ⟨trivial, inductionHypothesis always _⟩
  | emit what next inductionHypothesis => exact inductionHypothesis always.2 state

/-- Whatever a program reads, it sends admitted signals only. -/
def Sends (sends : κ → Prop) (program : Program σ β κ ε α) : Prop :=
  program.Always sends fun _ => True

theorem Sends.bind {first : Program σ β κ ε α} {rest : α → Program σ β κ ε γ}
    (sendsFirst : first.Sends sends) (sendsRest : ∀ value, (rest value).Sends sends) :
    (first >>= rest).Sends sends :=
  always_bind.mpr (sendsFirst.imp (fun _ sent => sent) fun value _ => sendsRest value)

theorem sends_pure (value : α) : (pure value : Program σ β κ ε α).Sends sends := trivial

theorem sends_throw (error : ε) : (Program.throw error : Program σ β κ ε α).Sends sends := trivial

theorem sends_lift (value : Except ε α) : (lift value : Program σ β κ ε α).Sends sends :=
  always_lift.mpr fun _ _ => trivial

theorem sends_refuse (condition : Prop) [Decidable condition] (error : ε) :
    (refuse condition error : Program σ β κ ε Unit).Sends sends :=
  sends_lift _

theorem sends_current : (current : Program σ β κ ε σ).Sends sends := fun _ => trivial

theorem sends_commit (batch : β) : (commit batch : Program σ β κ ε Unit).Sends sends := trivial

theorem sends_send {what : κ} (admitted : sends what) :
    (send what : Program σ β κ ε Unit).Sends sends :=
  ⟨admitted, trivial⟩

end Always

/-! ## What is sent from a state -/

section Emits

variable (apply : σ → β → σ) {sends : κ → Prop} {state : σ}

/-- From a state, a program sends admitted signals only. -/
@[grind =] def Emits (sends : κ → Prop) : Program σ β κ ε α → σ → Prop
  | .done _, _ => True
  | .throw _, _ => True
  | .inspect next, state => (next state).Emits sends state
  | .transact batch next, state => next.Emits sends (apply state batch)
  | .emit what next, state => sends what ∧ next.Emits sends state

variable {apply}

/-- What a sequence sends is sent by its first part, or by its second part where the first one
ends. -/
theorem emits_bind {program : Program σ β κ ε α} {next : α → Program σ β κ ε γ} :
    (program >>= next).Emits apply sends state ↔ program.Emits apply sends state ∧
      program.Holds apply (fun _ _ => True) (fun result final => (next result).Emits apply sends final)
        state := by
  change (program.bind next).Emits apply sends state ↔ _
  induction program generalizing state with
  | done result => exact (iff_of_eq (true_and _)).symm
  | throw error => exact (iff_of_eq (true_and _)).symm
  | inspect first inductionHypothesis => exact inductionHypothesis state
  | transact batch first inductionHypothesis =>
      refine inductionHypothesis.trans (and_congr_right fun _ => ?_)
      exact (iff_of_eq (true_and _)).symm
  | emit what first inductionHypothesis =>
      exact (and_congr_right fun _ => inductionHypothesis).trans and_assoc.symm

theorem emits_lift_bind {value : Except ε α} {next : α → Program σ β κ ε γ} :
    (lift value >>= next).Emits apply sends state ↔
      ∀ result, value = .ok result → (next result).Emits apply sends state := by
  cases value with
  | ok result => exact ⟨fun emits _ same => Except.ok.inj same ▸ emits, fun emits => emits _ rfl⟩
  | error error => exact ⟨fun _ _ same => (nomatch same), fun _ => trivial⟩

end Emits

/-! ## Execution on a storage which may fail -/

/-- What a program leaves behind. -/
structure Outcome (σ κ ε α : Type) where
  state : σ
  signals : List κ
  result : Except ε α

variable (apply)

/-- Execute a program. The storage accepts `allowed` transactions and then answers
`broken`; it never stops when `allowed` is `none`. -/
@[grind =] def run (broken : ε) : Program σ β κ ε α → σ → Option Nat → Outcome σ κ ε α
  | .done result, state, _ => ⟨state, [], .ok result⟩
  | .throw error, state, _ => ⟨state, [], .error error⟩
  | .inspect next, state, allowed => run broken (next state) state allowed
  | .transact _ _, state, some 0 => ⟨state, [], .error broken⟩
  | .transact batch next, state, some (allowed + 1) =>
      run broken next (apply state batch) (some allowed)
  | .transact batch next, state, none => run broken next (apply state batch) none
  | .emit what next, state, allowed =>
      let outcome := run broken next state allowed
      { outcome with signals := what :: outcome.signals }

variable {apply}

/-- A predicate which guaranteed batches preserve holds of the state which is left. -/
theorem Holds.run_invariant {broken : ε} (invariant : σ → Prop) {program : Program σ β κ ε α}
    (preserved : ∀ {state batch}, invariant state → guarantee state batch →
      invariant (apply state batch))
    (holds : program.Holds apply guarantee post state) (start : invariant state)
    (allowed : Option Nat) : invariant (program.run apply broken state allowed).state := by
  induction program generalizing state allowed with
  | done result => exact start
  | throw error => exact start
  | inspect next inductionHypothesis => exact inductionHypothesis state holds start allowed
  | transact batch next inductionHypothesis =>
      match allowed with
      | some 0 => exact start
      | some (count + 1) => exact inductionHypothesis holds.2 (preserved start holds.1) _
      | none => exact inductionHypothesis holds.2 (preserved start holds.1) _
  | emit what next inductionHypothesis => exact inductionHypothesis holds start allowed

/-- A reflexive and transitive relation which guaranteed batches satisfy relates the
state before a program to the state which is left. -/
theorem Holds.run_relation {broken : ε} {relation : σ → σ → Prop} {program : Program σ β κ ε α}
    (reflexive : ∀ state, relation state state)
    (transitive : ∀ {a b c}, relation a b → relation b c → relation a c)
    (committed : ∀ {state batch}, guarantee state batch → relation state (apply state batch))
    (holds : program.Holds apply guarantee post state) (allowed : Option Nat) :
    relation state (program.run apply broken state allowed).state := by
  have reached : program.Holds apply (fun now batch => relation now (apply now batch))
      (fun _ _ => True) state :=
    holds.imp (fun _ _ => committed) (fun _ _ _ => trivial)
  clear holds
  induction program generalizing state allowed with
  | done result => exact reflexive _
  | throw error => exact reflexive _
  | inspect next inductionHypothesis => exact inductionHypothesis state allowed reached
  | transact batch next inductionHypothesis =>
      match allowed with
      | some 0 => exact reflexive _
      | some (count + 1) => exact transitive reached.1 (inductionHypothesis _ reached.2)
      | none => exact transitive reached.1 (inductionHypothesis _ reached.2)
  | emit what next inductionHypothesis => exact inductionHypothesis allowed reached

/-- A program which ends with a value satisfies its postcondition. -/
theorem Holds.run_post {broken : ε} {program : Program σ β κ ε α}
    (holds : program.Holds apply guarantee post state) {allowed : Option Nat} {result : α}
    (ends : (program.run apply broken state allowed).result = .ok result) :
    post result (program.run apply broken state allowed).state := by
  induction program generalizing state allowed with
  | done value =>
      cases ends
      exact holds
  | throw error => cases ends
  | inspect next inductionHypothesis => exact inductionHypothesis state holds ends
  | transact batch next inductionHypothesis =>
      match allowed with
      | some 0 => cases ends
      | some (count + 1) => exact inductionHypothesis holds.2 ends
      | none => exact inductionHypothesis holds.2 ends
  | emit what next inductionHypothesis => exact inductionHypothesis holds ends

/-- An execution sends only signals which the program always sends. -/
theorem Always.run_signals {apply : σ → β → σ} {broken : ε} {sends : κ → Prop} {post : α → Prop}
    {program : Program σ β κ ε α} (always : program.Always sends post) {state : σ}
    {allowed : Option Nat} {what : κ}
    (sent : what ∈ (program.run apply broken state allowed).signals) : sends what := by
  induction program generalizing state allowed with
  | done value => cases sent
  | throw error => cases sent
  | inspect next inductionHypothesis => exact inductionHypothesis state (always state) sent
  | transact batch next inductionHypothesis =>
      match allowed with
      | some 0 => cases sent
      | some (count + 1) => exact inductionHypothesis always sent
      | none => exact inductionHypothesis always sent
  | emit first next inductionHypothesis =>
      rcases List.mem_cons.mp sent with rfl | later
      · exact always.1
      · exact inductionHypothesis always.2 later

/-- An execution sends only signals which the program sends from its state. -/
theorem Emits.run_signals {apply : σ → β → σ} {broken : ε} {sends : κ → Prop}
    {program : Program σ β κ ε α} {state : σ} (emits : program.Emits apply sends state)
    {allowed : Option Nat} {what : κ}
    (sent : what ∈ (program.run apply broken state allowed).signals) : sends what := by
  induction program generalizing state allowed with
  | done value => cases sent
  | throw error => cases sent
  | inspect next inductionHypothesis => exact inductionHypothesis state emits sent
  | transact batch next inductionHypothesis =>
      match allowed with
      | some 0 => cases sent
      | some (count + 1) => exact inductionHypothesis emits sent
      | none => exact inductionHypothesis emits sent
  | emit first next inductionHypothesis =>
      rcases List.mem_cons.mp sent with rfl | later
      · exact emits.1
      · exact inductionHypothesis emits.2 later

/-- An execution ends only with values which the program always returns. -/
theorem Always.run_post {apply : σ → β → σ} {broken : ε} {sends : κ → Prop} {post : α → Prop}
    {program : Program σ β κ ε α} (always : program.Always sends post) {state : σ}
    {allowed : Option Nat} {result : α}
    (ends : (program.run apply broken state allowed).result = .ok result) : post result := by
  induction program generalizing state allowed with
  | done value =>
      cases ends
      exact always
  | throw error => cases ends
  | inspect next inductionHypothesis => exact inductionHypothesis state (always state) ends
  | transact batch next inductionHypothesis =>
      match allowed with
      | some 0 => cases ends
      | some (count + 1) => exact inductionHypothesis always ends
      | none => exact inductionHypothesis always ends
  | emit first next inductionHypothesis => exact inductionHypothesis always.2 ends

end Program

end LawyerAssistance
