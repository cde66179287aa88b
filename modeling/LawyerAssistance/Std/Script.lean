import LawyerAssistance.Std.Fallible

/-!
# Scripts whose effects may fail

A script reads a state, attempts effects on it one at a time, learns of each whether it
succeeded, and ends with a value or an error, which another script may handle. An execution
follows a list of answers, one for each effect; where the answers end the script is interrupted.
`Script.Holds` is its weakest precondition when some effects may fail, `Script.Always` says what it
attempts whatever it reads, and `Script.complete` is the execution in which every effect succeeds.
-/

namespace LawyerAssistance

/-- Scripts over states `σ` with effects `β` and errors `ε`. -/
inductive Script (σ β ε α : Type) where
  | done (result : α)
  | throw (error : ε)
  | inspect (next : σ → Script σ β ε α)
  | attempt (effect : β) (next : Bool → Script σ β ε α)

namespace Script

variable {σ β ε δ α γ : Type}

/-- Run one script after the other; an error ends both. -/
protected def bind (script : Script σ β ε α) (next : α → Script σ β ε γ) : Script σ β ε γ :=
  match script with
  | .done result => next result
  | .throw error => .throw error
  | .inspect first => .inspect fun state => (first state).bind next
  | .attempt effect first => .attempt effect fun succeeded => (first succeeded).bind next

instance : Monad (Script σ β ε) where
  pure := .done
  bind := .bind

/-- The current state. -/
def current : Script σ β ε σ := .inspect .done

/-- A computation which touches nothing. -/
def lift : Except ε α → Script σ β ε α
  | .ok value => .done value
  | .error error => .throw error

/-- Stop with `error` when the condition holds. -/
def refuse (condition : Prop) [Decidable condition] (error : ε) : Script σ β ε Unit :=
  lift (refuseIf condition error)

/-- Attempt an effect, and stop with `error` when it fails. -/
def perform (effect : β) (error : ε) : Script σ β ε Unit :=
  .attempt effect fun succeeded => if succeeded then .done () else .throw error

/-- Attempt an effect, whatever comes of it. -/
def tryPerform (effect : β) : Script σ β ε Unit := .attempt effect fun _ => .done ()

/-- A script with its end as a value. -/
def settle : Script σ β ε α → Script σ β δ (Except ε α)
  | .done result => .done (.ok result)
  | .throw error => .done (.error error)
  | .inspect next => .inspect fun state => (next state).settle
  | .attempt effect next => .attempt effect fun succeeded => (next succeeded).settle

/-! ## Executions -/

/-- What a script leaves; it has no result when it was interrupted. -/
structure Outcome (σ ε α : Type) where
  state : σ
  result : Option (Except ε α)

variable (apply : σ → β → σ)

/-- Execute a script with the answers to its effects. An effect which fails changes nothing. -/
def run : Script σ β ε α → σ → List Bool → Outcome σ ε α
  | .done result, state, _ => ⟨state, some (.ok result)⟩
  | .throw error, state, _ => ⟨state, some (.error error)⟩
  | .inspect next, state, answers => (next state).run state answers
  | .attempt _ _, state, [] => ⟨state, none⟩
  | .attempt effect next, state, succeeded :: answers =>
      (next succeeded).run (if succeeded then apply state effect else state) answers

/-- Execute a script whose effects succeed. -/
def complete : Script σ β ε α → σ → σ × Except ε α
  | .done result, state => (state, .ok result)
  | .throw error, state => (state, .error error)
  | .inspect next, state => (next state).complete state
  | .attempt effect next, state => (next true).complete (apply state effect)

/-- An execution in which only effects which may fail do. -/
def Admits (mayFail : β → Prop) : Script σ β ε α → σ → List Bool → Prop
  | .done _, _, _ => True
  | .throw _, _, _ => True
  | .inspect next, state, answers => (next state).Admits mayFail state answers
  | .attempt _ _, _, [] => True
  | .attempt effect next, state, true :: answers =>
      (next true).Admits mayFail (apply state effect) answers
  | .attempt effect next, state, false :: answers =>
      mayFail effect ∧ (next false).Admits mayFail state answers

/-! ## Weakest preconditions -/

/-- Every effect which the script attempts satisfies the guarantee, and its end satisfies the
postcondition, when only effects which may fail do. -/
def Holds (mayFail : β → Prop) (guarantee : σ → β → Prop) (post : Except ε α → σ → Prop) :
    Script σ β ε α → σ → Prop
  | .done result, state => post (.ok result) state
  | .throw error, state => post (.error error) state
  | .inspect next, state => (next state).Holds mayFail guarantee post state
  | .attempt effect next, state => guarantee state effect ∧
      (next true).Holds mayFail guarantee post (apply state effect) ∧
      (mayFail effect → (next false).Holds mayFail guarantee post state)

section Holds

variable {apply} {mayFail : β → Prop} {guarantee : σ → β → Prop} {post : Except ε α → σ → Prop}
  {state : σ}

@[simp] theorem holds_pure {result : α} :
    (pure result : Script σ β ε α).Holds apply mayFail guarantee post state ↔
      post (.ok result) state :=
  Iff.rfl

@[simp] theorem holds_throw {error : ε} :
    (Script.throw error : Script σ β ε α).Holds apply mayFail guarantee post state ↔
      post (.error error) state :=
  Iff.rfl

@[simp] theorem holds_current {after : Except ε σ → σ → Prop} :
    (current : Script σ β ε σ).Holds apply mayFail guarantee after state ↔
      after (.ok state) state :=
  Iff.rfl

@[simp] theorem holds_lift {value : Except ε α} :
    (lift value : Script σ β ε α).Holds apply mayFail guarantee post state ↔ post value state := by
  cases value <;> rfl

@[simp] theorem holds_perform {effect : β} {error : ε} {after : Except ε Unit → σ → Prop} :
    (perform effect error : Script σ β ε Unit).Holds apply mayFail guarantee after state ↔
      guarantee state effect ∧ after (.ok ()) (apply state effect) ∧
        (mayFail effect → after (.error error) state) :=
  Iff.rfl

@[simp] theorem holds_tryPerform {effect : β} {after : Except ε Unit → σ → Prop} :
    (tryPerform effect : Script σ β ε Unit).Holds apply mayFail guarantee after state ↔
      guarantee state effect ∧ after (.ok ()) (apply state effect) ∧
        (mayFail effect → after (.ok ()) state) :=
  Iff.rfl

@[simp] theorem holds_refuse {condition : Prop} [Decidable condition] {error : ε}
    {after : Except ε Unit → σ → Prop} :
    (refuse condition error : Script σ β ε Unit).Holds apply mayFail guarantee after state ↔
      (condition → after (.error error) state) ∧ (¬ condition → after (.ok ()) state) := by
  rw [refuse, holds_lift, refuseIf]
  by_cases holds : condition <;> simp [holds]

/-- The precondition of a sequence is the precondition of its first part: an error ends the
sequence, and a value starts the second part. -/
@[simp] theorem holds_bind {script : Script σ β ε α} {next : α → Script σ β ε γ}
    {after : Except ε γ → σ → Prop} :
    (script >>= next).Holds apply mayFail guarantee after state ↔
      script.Holds apply mayFail guarantee (fun result final =>
        match result with
        | .ok value => (next value).Holds apply mayFail guarantee after final
        | .error error => after (.error error) final) state := by
  change (script.bind next).Holds apply mayFail guarantee after state ↔ _
  induction script generalizing state with
  | done result => rfl
  | throw error => rfl
  | inspect first inductionHypothesis => exact inductionHypothesis state
  | attempt effect first inductionHypothesis =>
      exact and_congr_right fun _ => and_congr (inductionHypothesis true)
        (imp_congr_right fun _ => inductionHypothesis false)

@[simp] theorem holds_settle {script : Script σ β ε α}
    {after : Except δ (Except ε α) → σ → Prop} :
    (script.settle : Script σ β δ (Except ε α)).Holds apply mayFail guarantee after state ↔
      script.Holds apply mayFail guarantee (fun result final => after (.ok result) final) state := by
  induction script generalizing state with
  | done result => rfl
  | throw error => rfl
  | inspect next inductionHypothesis => exact inductionHypothesis state
  | attempt effect next inductionHypothesis =>
      exact and_congr_right fun _ => and_congr (inductionHypothesis true)
        (imp_congr_right fun _ => inductionHypothesis false)

/-- A stronger guarantee and a stronger postcondition. -/
theorem Holds.imp {stronger : σ → β → Prop} {before : Except ε α → σ → Prop}
    {script : Script σ β ε α} (holds : script.Holds apply mayFail stronger before state)
    (guarantees : ∀ state effect, stronger state effect → guarantee state effect)
    (ensures : ∀ result state, before result state → post result state) :
    script.Holds apply mayFail guarantee post state := by
  induction script generalizing state with
  | done result => exact ensures _ state holds
  | throw error => exact ensures _ state holds
  | inspect next inductionHypothesis => exact inductionHypothesis state holds
  | attempt effect next inductionHypothesis =>
      exact ⟨guarantees state effect holds.1, inductionHypothesis true holds.2.1,
        fun fails => inductionHypothesis false (holds.2.2 fails)⟩

/-- Two postconditions. -/
theorem Holds.and {other : σ → β → Prop} {after : Except ε α → σ → Prop} {script : Script σ β ε α}
    (first : script.Holds apply mayFail guarantee post state)
    (second : script.Holds apply mayFail other after state) :
    script.Holds apply mayFail (fun state effect => guarantee state effect ∧ other state effect)
      (fun result final => post result final ∧ after result final) state := by
  induction script generalizing state with
  | done result => exact ⟨first, second⟩
  | throw error => exact ⟨first, second⟩
  | inspect next inductionHypothesis => exact inductionHypothesis state first second
  | attempt effect next inductionHypothesis =>
      exact ⟨⟨first.1, second.1⟩, inductionHypothesis true first.2.1 second.2.1,
        fun fails => inductionHypothesis false (first.2.2 fails) (second.2.2 fails)⟩

/-- What a script keeps at every effect which is guaranteed, an execution keeps, wherever it is
interrupted. -/
theorem Holds.run_invariant (invariant : σ → Prop) {script : Script σ β ε α}
    (preserved : ∀ {state effect}, invariant state → guarantee state effect →
      invariant (apply state effect))
    (holds : script.Holds apply mayFail guarantee post state) (start : invariant state)
    {answers : List Bool} (admitted : script.Admits apply mayFail state answers) :
    invariant (script.run apply state answers).state := by
  induction script generalizing state answers with
  | done result => exact start
  | throw error => exact start
  | inspect next inductionHypothesis => exact inductionHypothesis state holds start admitted
  | attempt effect next inductionHypothesis =>
      match answers with
      | [] => exact start
      | true :: rest => exact inductionHypothesis true holds.2.1 (preserved start holds.1) admitted
      | false :: rest =>
          exact inductionHypothesis false (holds.2.2 admitted.1) start admitted.2

/-- A script which is not interrupted satisfies its postcondition. -/
theorem Holds.run_post {script : Script σ β ε α}
    (holds : script.Holds apply mayFail guarantee post state) {answers : List Bool}
    (admitted : script.Admits apply mayFail state answers) {result : Except ε α}
    (ends : (script.run apply state answers).result = some result) :
    post result (script.run apply state answers).state := by
  induction script generalizing state answers with
  | done value =>
      cases ends
      exact holds
  | throw error =>
      cases ends
      exact holds
  | inspect next inductionHypothesis => exact inductionHypothesis state holds admitted ends
  | attempt effect next inductionHypothesis =>
      match answers with
      | [] => cases ends
      | true :: rest => exact inductionHypothesis true holds.2.1 admitted ends
      | false :: rest => exact inductionHypothesis false (holds.2.2 admitted.1) admitted.2 ends

/-- Every execution is admitted when every effect may fail. -/
theorem admits_of_mayFail (script : Script σ β ε α) (fails : ∀ effect, mayFail effect) (state : σ)
    (answers : List Bool) : script.Admits apply mayFail state answers := by
  induction script generalizing state answers with
  | done value => trivial
  | throw error => trivial
  | inspect next inductionHypothesis => exact inductionHypothesis state state answers
  | attempt effect next inductionHypothesis =>
      match answers with
      | [] => trivial
      | true :: rest => exact inductionHypothesis true _ rest
      | false :: rest => exact ⟨fails effect, inductionHypothesis false _ rest⟩

/-- An execution is admitted when none of its effects fails. -/
theorem admits_of_succeeds (script : Script σ β ε α) (state : σ) {answers : List Bool}
    (succeeds : false ∉ answers) : script.Admits apply mayFail state answers := by
  induction script generalizing state answers with
  | done value => trivial
  | throw error => trivial
  | inspect next inductionHypothesis => exact inductionHypothesis state state succeeds
  | attempt effect next inductionHypothesis =>
      match answers with
      | [] => trivial
      | true :: rest =>
          exact inductionHypothesis true _ fun among => succeeds (List.mem_cons_of_mem _ among)
      | false :: rest => exact absurd List.mem_cons_self succeeds

/-- A script whose effects succeed satisfies its postcondition. -/
theorem Holds.complete_post {script : Script σ β ε α}
    (holds : script.Holds apply mayFail guarantee post state) :
    post (script.complete apply state).2 (script.complete apply state).1 := by
  induction script generalizing state with
  | done value => exact holds
  | throw error => exact holds
  | inspect next inductionHypothesis => exact inductionHypothesis state holds
  | attempt effect next inductionHypothesis => exact inductionHypothesis true holds.2.1

end Holds

/-! ## Whatever is read and answered -/

section Always

variable {allowed : β → Prop}

/-- Whatever a script reads and however its effects are answered, it attempts allowed effects. -/
def Always (allowed : β → Prop) : Script σ β ε α → Prop
  | .done _ => True
  | .throw _ => True
  | .inspect next => ∀ state, (next state).Always allowed
  | .attempt effect next => allowed effect ∧ ∀ succeeded, (next succeeded).Always allowed

@[simp] theorem always_pure {result : α} : (pure result : Script σ β ε α).Always allowed := trivial

@[simp] theorem always_throw {error : ε} : (Script.throw error : Script σ β ε α).Always allowed :=
  trivial

@[simp] theorem always_current : (current : Script σ β ε σ).Always allowed := fun _ => trivial

@[simp] theorem always_lift {value : Except ε α} : (lift value : Script σ β ε α).Always allowed := by
  cases value <;> trivial

@[simp] theorem always_refuse {condition : Prop} [Decidable condition] {error : ε} :
    (refuse condition error : Script σ β ε Unit).Always allowed :=
  always_lift

@[simp] theorem always_perform {effect : β} {error : ε} :
    (perform effect error : Script σ β ε Unit).Always allowed ↔ allowed effect :=
  ⟨And.left, fun holds => ⟨holds, fun succeeded => by cases succeeded <;> trivial⟩⟩

@[simp] theorem always_tryPerform {effect : β} :
    (tryPerform effect : Script σ β ε Unit).Always allowed ↔ allowed effect :=
  ⟨And.left, fun holds => ⟨holds, fun _ => trivial⟩⟩

/-- Two parts attempt what the whole attempts. -/
theorem Always.bind {script : Script σ β ε α} {next : α → Script σ β ε γ}
    (first : script.Always allowed) (second : ∀ value, (next value).Always allowed) :
    (script >>= next).Always allowed := by
  change (script.bind next).Always allowed
  induction script with
  | done result => exact second result
  | throw error => trivial
  | inspect inside inductionHypothesis => exact fun state => inductionHypothesis state (first state)
  | attempt effect inside inductionHypothesis =>
      exact ⟨first.1, fun succeeded => inductionHypothesis succeeded (first.2 succeeded)⟩

/-- The second part may use what the computation is which the first one is. -/
theorem always_lift_bind {value : Except ε α} {next : α → Script σ β ε γ}
    (second : ∀ result, value = .ok result → (next result).Always allowed) :
    (lift value >>= next).Always allowed := by
  cases value with
  | ok result => exact second result rfl
  | error error => trivial

/-- A script with its end as a value attempts the same effects. -/
theorem Always.settle {script : Script σ β ε α} (always : script.Always allowed) :
    (script.settle : Script σ β δ (Except ε α)).Always allowed := by
  induction script with
  | done result => trivial
  | throw error => trivial
  | inspect next inductionHypothesis => exact fun state => inductionHypothesis state (always state)
  | attempt effect next inductionHypothesis =>
      exact ⟨always.1, fun succeeded => inductionHypothesis succeeded (always.2 succeeded)⟩

/-- A weaker permission. -/
theorem Always.imp {weaker : β → Prop} {script : Script σ β ε α} (always : script.Always allowed)
    (weakens : ∀ effect, allowed effect → weaker effect) : script.Always weaker := by
  induction script with
  | done result => trivial
  | throw error => trivial
  | inspect next inductionHypothesis => exact fun state => inductionHypothesis state (always state)
  | attempt effect next inductionHypothesis =>
      exact ⟨weakens effect always.1,
        fun succeeded => inductionHypothesis succeeded (always.2 succeeded)⟩

/-- What allowed effects preserve, an execution preserves, wherever it is interrupted. -/
theorem Always.run_invariant (invariant : σ → Prop) {script : Script σ β ε α}
    (always : script.Always allowed)
    (preserved : ∀ {state effect}, invariant state → allowed effect →
      invariant (apply state effect))
    {state : σ} (start : invariant state) (answers : List Bool) :
    invariant (script.run apply state answers).state := by
  induction script generalizing state answers with
  | done result => exact start
  | throw error => exact start
  | inspect next inductionHypothesis => exact inductionHypothesis state (always state) start answers
  | attempt effect next inductionHypothesis =>
      match answers with
      | [] => exact start
      | true :: rest =>
          exact inductionHypothesis true (always.2 true) (preserved start always.1) rest
      | false :: rest => exact inductionHypothesis false (always.2 false) start rest

end Always

/-! ## Invariants -/

section Keeps

variable {apply} {mayFail : β → Prop} {guarantee : σ → β → Prop} {invariant : σ → Prop}

/-- A script which starts in the invariant gives the guarantee and ends in the invariant, when only
effects which may fail do. -/
def Keeps (apply : σ → β → σ) (mayFail : β → Prop) (guarantee : σ → β → Prop)
    (invariant : σ → Prop) (script : Script σ β ε α) : Prop :=
  ∀ state, invariant state →
    script.Holds apply mayFail guarantee (fun _ final => invariant final) state

theorem keeps_pure {result : α} :
    (pure result : Script σ β ε α).Keeps apply mayFail guarantee invariant :=
  fun _ holds => holds

theorem keeps_throw {error : ε} :
    (Script.throw error : Script σ β ε α).Keeps apply mayFail guarantee invariant :=
  fun _ holds => holds

theorem keeps_current : (current : Script σ β ε σ).Keeps apply mayFail guarantee invariant :=
  fun _ holds => holds

theorem keeps_lift {value : Except ε α} :
    (lift value : Script σ β ε α).Keeps apply mayFail guarantee invariant :=
  fun _ holds => holds_lift.mpr holds

/-- What a script does behind one whose end is known. -/
theorem Holds.bind {script : Script σ β ε α} {next : α → Script σ β ε γ} {state : σ}
    {before : Except ε α → σ → Prop} {after : Except ε γ → σ → Prop}
    (first : script.Holds apply mayFail guarantee before state)
    (second : ∀ value final, before (.ok value) final →
      (next value).Holds apply mayFail guarantee after final)
    (fails : ∀ error final, before (.error error) final → after (.error error) final) :
    (script >>= next).Holds apply mayFail guarantee after state := by
  refine holds_bind.mpr (first.imp (fun _ _ given => given) ?_)
  intro result final ends
  cases result with
  | ok value => exact second value final ends
  | error error => exact fails error final ends

theorem Keeps.bind {script : Script σ β ε α} {next : α → Script σ β ε γ}
    (first : script.Keeps apply mayFail guarantee invariant)
    (second : ∀ value, (next value).Keeps apply mayFail guarantee invariant) :
    (script >>= next).Keeps apply mayFail guarantee invariant :=
  fun state holds => (first state holds).bind (fun value final kept => second value final kept)
    fun _ _ kept => kept

/-- The second part may use what the computation is which the first one is. -/
theorem keeps_lift_bind {value : Except ε α} {next : α → Script σ β ε γ}
    (second : ∀ result, value = .ok result →
      (next result).Keeps apply mayFail guarantee invariant) :
    (lift value >>= next).Keeps apply mayFail guarantee invariant := by
  cases value with
  | ok result => exact second result rfl
  | error error => exact fun _ holds => holds

theorem Keeps.settle {script : Script σ β ε α}
    (keeps : script.Keeps apply mayFail guarantee invariant) :
    (script.settle : Script σ β δ (Except ε α)).Keeps apply mayFail guarantee invariant :=
  fun state holds => holds_settle.mpr (keeps state holds)

/-- What every allowed effect keeps, the script keeps. -/
theorem Always.keeps {allowed : β → Prop} {script : Script σ β ε α}
    (always : script.Always allowed)
    (guaranteed : ∀ {state effect}, invariant state → allowed effect → guarantee state effect)
    (preserved : ∀ {state effect}, invariant state → allowed effect →
      invariant (apply state effect)) : script.Keeps apply mayFail guarantee invariant := by
  intro state holds
  induction script generalizing state with
  | done result => exact holds
  | throw error => exact holds
  | inspect next inductionHypothesis => exact inductionHypothesis state (always state) state holds
  | attempt effect next inductionHypothesis =>
      exact ⟨guaranteed holds always.1,
        inductionHypothesis true (always.2 true) _ (preserved holds always.1),
        fun _ => inductionHypothesis false (always.2 false) state holds⟩

/-- A script which is not interrupted ends in the invariant. -/
theorem Keeps.run_result {script : Script σ β ε α}
    (keeps : script.Keeps apply mayFail guarantee invariant)
    {state : σ} (start : invariant state) {answers : List Bool}
    (admitted : script.Admits apply mayFail state answers)
    (ends : (script.run apply state answers).result.isSome = true) :
    invariant (script.run apply state answers).state := by
  obtain ⟨result, found⟩ := Option.isSome_iff_exists.mp ends
  exact (keeps state start).run_post admitted found

/-- A script which guarantees the invariant behind every effect, whatever fails. -/
abbrev Maintains (apply : σ → β → σ) (invariant : σ → Prop) (script : Script σ β ε α) : Prop :=
  script.Keeps apply (fun _ => True) (fun state effect => invariant (apply state effect)) invariant

/-- Wherever a script is interrupted, the invariant which it maintains holds. -/
theorem Keeps.run_maintained {script : Script σ β ε α} (maintains : script.Maintains apply invariant)
    {state : σ} (start : invariant state) (answers : List Bool) :
    invariant (script.run apply state answers).state :=
  (maintains state start).run_invariant invariant (fun _ kept => kept) start
    (admits_of_mayFail script (fun _ => trivial) state answers)

theorem Always.maintains {allowed : β → Prop} {script : Script σ β ε α}
    (always : script.Always allowed)
    (preserved : ∀ {state effect}, invariant state → allowed effect →
      invariant (apply state effect)) : script.Maintains apply invariant :=
  always.keeps preserved preserved

end Keeps

/-! ## Results -/

section Ensures

variable {apply} {state : σ} {facts : α → σ → Prop}

/-- Whatever its effects do, some facts hold of the value with which a script ends. -/
structure Ensures (apply : σ → β → σ) (script : Script σ β ε α) (state : σ)
    (facts : α → σ → Prop) : Prop where
  holds : script.Holds apply (fun _ => True) (fun _ _ => True)
    (fun result final => ∀ value, result = .ok value → facts value final) state

theorem ensures_pure {value : α} (given : facts value state) :
    (pure value : Script σ β ε α).Ensures apply state facts := by
  refine ⟨holds_pure.mpr ?_⟩
  rintro _ ⟨⟩
  exact given

theorem ensures_throw {error : ε} : (Script.throw error : Script σ β ε α).Ensures apply state facts :=
  ⟨holds_throw.mpr nofun⟩

theorem ensures_lift {computed : Except ε α}
    (given : ∀ value, computed = .ok value → facts value state) :
    (lift computed : Script σ β ε α).Ensures apply state facts :=
  ⟨holds_lift.mpr given⟩

theorem ensures_perform {effect : β} {error : ε} {facts : Unit → σ → Prop}
    (given : facts () (apply state effect)) :
    (perform effect error : Script σ β ε Unit).Ensures apply state facts :=
  ⟨holds_perform.mpr ⟨trivial, fun _ _ => given, fun _ => nofun⟩⟩

theorem ensures_tryPerform {effect : β} {facts : Unit → σ → Prop}
    (succeeds : facts () (apply state effect)) (fails : facts () state) :
    (tryPerform effect : Script σ β ε Unit).Ensures apply state facts :=
  ⟨holds_tryPerform.mpr ⟨trivial, fun _ _ => succeeds, fun _ _ _ => fails⟩⟩

theorem Ensures.bind {script : Script σ β ε α} {next : α → Script σ β ε γ} {after : γ → σ → Prop}
    (first : script.Ensures apply state facts)
    (second : ∀ value final, facts value final → (next value).Ensures apply final after) :
    (script >>= next).Ensures apply state after :=
  ⟨Holds.bind first.holds (fun value final given => (second value final (given value rfl)).holds)
    fun _ _ _ => nofun⟩

theorem ensures_current_bind {next : σ → Script σ β ε γ} {after : γ → σ → Prop}
    (second : (next state).Ensures apply state after) :
    ((current : Script σ β ε σ) >>= next).Ensures apply state after := ⟨second.holds⟩

theorem ensures_lift_bind {computed : Except ε α} {next : α → Script σ β ε γ}
    {after : γ → σ → Prop}
    (second : ∀ value, computed = .ok value → (next value).Ensures apply state after) :
    (lift computed >>= next).Ensures apply state after := by
  cases computed with
  | ok value => exact second value rfl
  | error error => exact ensures_throw

theorem ensures_refuse_bind {condition : Prop} [Decidable condition] {error : ε}
    {next : Unit → Script σ β ε γ} {after : γ → σ → Prop}
    (second : ¬ condition → (next ()).Ensures apply state after) :
    (refuse condition error >>= next).Ensures apply state after :=
  ensures_lift_bind fun _ passed => second (refuseIf_eq_ok.mp passed)

/-- A first part which may have failed. -/
theorem Ensures.settle_bind {script : Script σ β ε α} {next : Except ε α → Script σ β δ γ}
    {after : γ → σ → Prop} (first : script.Ensures apply state facts)
    (succeeds : ∀ value final, facts value final → (next (.ok value)).Ensures apply final after)
    (fails : ∀ error final, (next (.error error)).Ensures apply final after) :
    (settle script >>= next).Ensures apply state after := by
  refine ⟨holds_bind.mpr (holds_settle.mpr (first.holds.imp (fun _ _ given => given) ?_))⟩
  intro result final given
  cases result with
  | ok value => exact (succeeds value final (given value rfl)).holds
  | error error => exact (fails error final).holds

theorem Ensures.imp {script : Script σ β ε α} {fewer : α → σ → Prop}
    (ensures : script.Ensures apply state facts)
    (weakens : ∀ value final, facts value final → fewer value final) :
    script.Ensures apply state fewer :=
  ⟨ensures.holds.imp (fun _ _ given => given)
    fun _ final given value ends => weakens value final (given value ends)⟩

theorem Ensures.and {script : Script σ β ε α} {others : α → σ → Prop}
    (first : script.Ensures apply state facts) (second : script.Ensures apply state others) :
    script.Ensures apply state fun value final => facts value final ∧ others value final :=
  ⟨(first.holds.and second.holds).imp (fun _ _ _ => trivial)
    fun _ _ given value ends => ⟨given.1 value ends, given.2 value ends⟩⟩

theorem Keeps.ensures {script : Script σ β ε α} {invariant : σ → Prop}
    (maintains : script.Maintains apply invariant) (start : invariant state) :
    script.Ensures apply state fun _ final => invariant final :=
  ⟨(maintains state start).imp (fun _ _ _ => trivial) fun _ _ kept _ _ => kept⟩

/-- Every script ensures nothing. -/
theorem ensures_true (script : Script σ β ε α) : script.Ensures apply state fun _ _ => True := by
  have always : script.Always fun _ : β => True := by
    induction script with
    | done result => trivial
    | throw error => trivial
    | inspect next inductionHypothesis => exact inductionHypothesis
    | attempt effect next inductionHypothesis => exact ⟨trivial, inductionHypothesis⟩
  have maintains : script.Maintains apply fun _ => True := always.maintains fun _ _ => trivial
  exact maintains.ensures trivial

/-- What a script ensures holds of the value with which an execution ends. -/
theorem Ensures.run {script : Script σ β ε α} (ensures : script.Ensures apply state facts)
    {answers : List Bool} {value : α}
    (ends : (script.run apply state answers).result = some (.ok value)) :
    facts value (script.run apply state answers).state :=
  ensures.holds.run_post (admits_of_mayFail script (fun _ => trivial) state answers) ends value rfl

end Ensures

/-! ## Failures which are told apart -/

section Tells

variable {apply} {mayFail marked : β → Prop} {state : σ} {clean : Prop}

/-- The postcondition of an execution in which only effects which may fail do, told whether it is
clean: whether it was, and no effect which is marked failed. -/
def Tells (apply : σ → β → σ) (mayFail marked : β → Prop)
    (post : Except ε α → σ → Prop → Prop) : Script σ β ε α → σ → Prop → Prop
  | .done result, state, clean => post (.ok result) state clean
  | .throw error, state, clean => post (.error error) state clean
  | .inspect next, state, clean => (next state).Tells apply mayFail marked post state clean
  | .attempt effect next, state, clean =>
      (next true).Tells apply mayFail marked post (apply state effect) clean ∧
      (mayFail effect →
        (next false).Tells apply mayFail marked post state (clean ∧ ¬ marked effect))

theorem tells_lift {value : Except ε α} {post : Except ε α → σ → Prop → Prop} :
    Tells apply mayFail marked post (lift value : Script σ β ε α) state clean ↔
      post value state clean := by
  cases value <;> rfl

theorem tells_refuse {condition : Prop} [Decidable condition] {error : ε}
    {post : Except ε Unit → σ → Prop → Prop} :
    Tells apply mayFail marked post (refuse condition error : Script σ β ε Unit) state clean ↔
      (condition → post (.error error) state clean) ∧ (¬ condition → post (.ok ()) state clean) := by
  rw [refuse, tells_lift, refuseIf]
  by_cases holds : condition <;> simp [holds]

theorem tells_current_bind {next : σ → Script σ β ε γ} {post : Except ε γ → σ → Prop → Prop} :
    Tells apply mayFail marked post ((current : Script σ β ε σ) >>= next) state clean ↔
      Tells apply mayFail marked post (next state) state clean :=
  Iff.rfl

theorem tells_perform {effect : β} {error : ε} {post : Except ε Unit → σ → Prop → Prop} :
    Tells apply mayFail marked post (perform effect error : Script σ β ε Unit) state clean ↔
      post (.ok ()) (apply state effect) clean ∧
        (mayFail effect → post (.error error) state (clean ∧ ¬ marked effect)) :=
  Iff.rfl

theorem tells_tryPerform {effect : β} {post : Except ε Unit → σ → Prop → Prop} :
    Tells apply mayFail marked post (tryPerform effect : Script σ β ε Unit) state clean ↔
      post (.ok ()) (apply state effect) clean ∧
        (mayFail effect → post (.ok ()) state (clean ∧ ¬ marked effect)) :=
  Iff.rfl

/-- The precondition of a sequence. -/
theorem tells_bind {script : Script σ β ε α} {next : α → Script σ β ε γ}
    {post : Except ε γ → σ → Prop → Prop} :
    Tells apply mayFail marked post (script >>= next) state clean ↔
      Tells apply mayFail marked (fun result final clean =>
        match result with
        | .ok value => Tells apply mayFail marked post (next value) final clean
        | .error error => post (.error error) final clean) script state clean := by
  change Tells apply mayFail marked post (script.bind next) state clean ↔ _
  induction script generalizing state clean with
  | done result => rfl
  | throw error => rfl
  | inspect first inductionHypothesis => exact inductionHypothesis state
  | attempt effect first inductionHypothesis =>
      exact and_congr (inductionHypothesis true)
        (imp_congr_right fun _ => inductionHypothesis false)

theorem tells_settle {script : Script σ β ε α}
    {post : Except δ (Except ε α) → σ → Prop → Prop} :
    Tells apply mayFail marked post (script.settle : Script σ β δ (Except ε α)) state clean ↔
      Tells apply mayFail marked (fun result final clean => post (.ok result) final clean) script
        state clean := by
  induction script generalizing state clean with
  | done result => rfl
  | throw error => rfl
  | inspect next inductionHypothesis => exact inductionHypothesis state
  | attempt effect next inductionHypothesis =>
      exact and_congr (inductionHypothesis true)
        (imp_congr_right fun _ => inductionHypothesis false)

/-- A stronger postcondition. -/
theorem Tells.imp {script : Script σ β ε α} {before post : Except ε α → σ → Prop → Prop}
    (tells : Tells apply mayFail marked before script state clean)
    (ensures : ∀ result final clean, before result final clean → post result final clean) :
    Tells apply mayFail marked post script state clean := by
  induction script generalizing state clean with
  | done result => exact ensures _ _ _ tells
  | throw error => exact ensures _ _ _ tells
  | inspect next inductionHypothesis => exact inductionHypothesis state tells
  | attempt effect next inductionHypothesis =>
      exact ⟨inductionHypothesis true tells.1, fun fails =>
        inductionHypothesis false (tells.2 fails)⟩

/-- Every execution of a script is admitted when each of its effects may fail. -/
theorem Always.admits {script : Script σ β ε α} (always : script.Always mayFail) (state : σ)
    (answers : List Bool) : script.Admits apply mayFail state answers := by
  induction script generalizing state answers with
  | done result => trivial
  | throw error => trivial
  | inspect next inductionHypothesis => exact inductionHypothesis state (always state) state answers
  | attempt effect next inductionHypothesis =>
      match answers with
      | [] => trivial
      | true :: rest => exact inductionHypothesis true (always.2 true) _ rest
      | false :: rest => exact ⟨always.1, inductionHypothesis false (always.2 false) _ rest⟩

/-- A script whose effects are not marked stays clean, and keeps what they keep. -/
theorem Always.tells {allowed : β → Prop} {invariant : σ → Prop} {script : Script σ β ε α}
    (always : script.Always allowed) (plain : ∀ {effect}, allowed effect → ¬ marked effect)
    (preserved : ∀ {state effect}, invariant state → allowed effect →
      invariant (apply state effect)) (start : invariant state) :
    Tells apply mayFail marked (fun _ final after => invariant final ∧ (after ↔ clean)) script
      state clean := by
  have kept : ∀ now : Prop, (now ↔ clean) →
      Tells apply mayFail marked (fun _ final after => invariant final ∧ (after ↔ clean)) script
        state now := by
    induction script generalizing state with
    | done result => exact fun _ same => ⟨start, same⟩
    | throw error => exact fun _ same => ⟨start, same⟩
    | inspect next inductionHypothesis => exact inductionHypothesis state (always state) start
    | attempt effect next inductionHypothesis =>
        refine fun now same => ⟨inductionHypothesis true (always.2 true)
          (preserved start always.1) now same, fun _ => ?_⟩
        refine inductionHypothesis false (always.2 false) start _ ?_
        rw [and_iff_left (plain always.1)]
        exact same
  exact kept clean Iff.rfl

/-- What a script tells holds of an execution which ends: it is clean when no effect which is
marked failed. -/
theorem Tells.run {script : Script σ β ε α} {post : Except ε α → σ → Prop → Prop}
    (tells : Tells apply mayFail marked post script state clean) {answers : List Bool}
    (admitted : script.Admits apply mayFail state answers) {result : Except ε α}
    (ends : (script.run apply state answers).result = some result) :
    post result (script.run apply state answers).state
      (clean ∧ script.Admits apply (fun effect => ¬ marked effect) state answers) := by
  induction script generalizing state answers clean with
  | done value =>
      cases ends
      rw [Admits, and_true]
      exact tells
  | throw error =>
      cases ends
      rw [Admits, and_true]
      exact tells
  | inspect next inductionHypothesis => exact inductionHypothesis state tells admitted ends
  | attempt effect next inductionHypothesis =>
      match answers with
      | [] => cases ends
      | true :: rest => exact inductionHypothesis true tells.1 admitted ends
      | false :: rest =>
          rw [Admits, ← and_assoc]
          exact inductionHypothesis false (tells.2 admitted.1) admitted.2 ends

end Tells

/-! ## Executions step by step -/

section Run

variable {apply} {state : σ} {answers : List Bool}

@[simp] theorem run_current_bind {next : σ → Script σ β ε α} :
    ((current : Script σ β ε σ) >>= next).run apply state answers =
      (next state).run apply state answers := rfl

theorem run_lift_bind {value : Except ε α} {next : α → Script σ β ε γ} :
    (lift value >>= next).run apply state answers =
      match value with
      | .ok result => (next result).run apply state answers
      | .error error => ⟨state, some (.error error)⟩ := by
  cases value <;> rfl

theorem run_refuse_bind {condition : Prop} [Decidable condition] {error : ε}
    {next : Unit → Script σ β ε γ} :
    (refuse condition error >>= next).run apply state answers =
      if condition then ⟨state, some (.error error)⟩ else (next ()).run apply state answers := by
  rw [refuse, refuseIf]
  split_ifs <;> rfl

theorem run_perform_bind {effect : β} {error : ε} {next : Unit → Script σ β ε γ} :
    (perform effect error >>= next).run apply state answers =
      match answers with
      | [] => ⟨state, none⟩
      | true :: rest => (next ()).run apply (apply state effect) rest
      | false :: _ => ⟨state, some (.error error)⟩ := by
  match answers with
  | [] => rfl
  | true :: rest => rfl
  | false :: rest => rfl

theorem run_settle_perform_bind {effect : β} {error : δ}
    {next : Except δ Unit → Script σ β ε γ} :
    (settle (perform effect error) >>= next).run apply state answers =
      match answers with
      | [] => ⟨state, none⟩
      | true :: rest => (next (.ok ())).run apply (apply state effect) rest
      | false :: rest => (next (.error error)).run apply state rest := by
  match answers with
  | [] => rfl
  | true :: rest => rfl
  | false :: rest => rfl

/-- A script with its end as a value leaves the same state. -/
theorem run_settle_state {script : Script σ β ε α} :
    ((script.settle : Script σ β δ (Except ε α)).run apply state answers).state =
      (script.run apply state answers).state := by
  induction script generalizing state answers with
  | done result => rfl
  | throw error => rfl
  | inspect next inductionHypothesis => exact inductionHypothesis state
  | attempt effect next inductionHypothesis =>
      match answers with
      | [] => rfl
      | succeeded :: rest => exact inductionHypothesis succeeded

/-- Three parts run in one order. -/
theorem bind_assoc (script : Script σ β ε α) {μ : Type} (next : α → Script σ β ε γ)
    (last : γ → Script σ β ε μ) :
    script >>= next >>= last = script >>= fun value => next value >>= last := by
  change (script.bind next).bind last = script.bind fun value => (next value).bind last
  induction script with
  | done result => rfl
  | throw error => rfl
  | inspect first inductionHypothesis => exact congrArg _ (funext inductionHypothesis)
  | attempt effect first inductionHypothesis => exact congrArg _ (funext inductionHypothesis)

/-- The answers which an execution leaves. -/
def rest (apply : σ → β → σ) : Script σ β ε α → σ → List Bool → List Bool
  | .done _, _, answers => answers
  | .throw _, _, answers => answers
  | .inspect next, state, answers => (next state).rest apply state answers
  | .attempt _ _, _, [] => []
  | .attempt effect next, state, succeeded :: answers =>
      (next succeeded).rest apply (if succeeded then apply state effect else state) answers

/-- A sequence runs its second part with the answers which the first one leaves. -/
theorem run_bind {script : Script σ β ε α} {next : α → Script σ β ε γ} :
    (script >>= next).run apply state answers =
      match (script.run apply state answers).result with
      | some (.ok value) => (next value).run apply (script.run apply state answers).state
          (script.rest apply state answers)
      | some (.error error) => ⟨(script.run apply state answers).state, some (.error error)⟩
      | none => ⟨(script.run apply state answers).state, none⟩ := by
  change (script.bind next).run apply state answers = _
  induction script generalizing state answers with
  | done result => rfl
  | throw error => rfl
  | inspect first inductionHypothesis => exact inductionHypothesis state
  | attempt effect first inductionHypothesis =>
      match answers with
      | [] => rfl
      | succeeded :: others => exact inductionHypothesis succeeded

/-- An execution of a sequence is admitted when those of its parts are. -/
theorem admits_bind {mayFail : β → Prop} {script : Script σ β ε α} {next : α → Script σ β ε γ} :
    (script >>= next).Admits apply mayFail state answers ↔
      script.Admits apply mayFail state answers ∧
      ∀ value, (script.run apply state answers).result = some (.ok value) →
        (next value).Admits apply mayFail (script.run apply state answers).state
          (script.rest apply state answers) := by
  change (script.bind next).Admits apply mayFail state answers ↔ _
  induction script generalizing state answers with
  | done result =>
      refine ⟨fun admitted => ⟨trivial, ?_⟩, fun both => both.2 result rfl⟩
      rintro _ ⟨⟩
      exact admitted
  | throw error => exact ⟨fun _ => ⟨trivial, nofun⟩, fun _ => trivial⟩
  | inspect first inductionHypothesis => exact inductionHypothesis state
  | attempt effect first inductionHypothesis =>
      match answers with
      | [] => exact ⟨fun _ => ⟨trivial, nofun⟩, fun _ => trivial⟩
      | true :: others => exact inductionHypothesis true
      | false :: others =>
          exact (and_congr_right fun _ => inductionHypothesis false).trans and_assoc.symm

/-- A script which attempts nothing ends where it starts, as its complete execution does. -/
theorem run_quiet {script : Script σ β ε α} (quiet : script.Always fun _ => False) :
    script.run apply state answers = ⟨state, some (script.complete apply state).2⟩ := by
  induction script generalizing state with
  | done result => rfl
  | throw error => rfl
  | inspect next inductionHypothesis => exact inductionHypothesis state (quiet state)
  | attempt effect next inductionHypothesis => exact quiet.1.elim

/-- A script behind one which attempts nothing. -/
theorem run_quiet_bind {script : Script σ β ε α} {next : α → Script σ β ε γ}
    (quiet : script.Always fun _ => False) :
    (script >>= next).run apply state answers =
      match (script.complete apply state).2 with
      | .ok value => (next value).run apply state answers
      | .error error => ⟨state, some (.error error)⟩ := by
  change (script.bind next).run apply state answers = _
  induction script generalizing state with
  | done result => rfl
  | throw error => rfl
  | inspect first inductionHypothesis => exact inductionHypothesis state (quiet state)
  | attempt effect first inductionHypothesis => exact quiet.1.elim

/-- A part which attempts nothing leaves what the part before it leaves. -/
theorem run_bind_quiet_state {script : Script σ β ε α} {next : α → Script σ β ε γ}
    (quiet : ∀ value, (next value).Always fun _ => False) :
    ((script >>= next).run apply state answers).state = (script.run apply state answers).state := by
  change ((script.bind next).run apply state answers).state = _
  induction script generalizing state answers with
  | done result => exact congrArg Outcome.state (run_quiet (quiet result))
  | throw error => rfl
  | inspect first inductionHypothesis => exact inductionHypothesis state
  | attempt effect first inductionHypothesis =>
      match answers with
      | [] => rfl
      | succeeded :: rest => exact inductionHypothesis succeeded

end Run

/-! ## Complete executions -/

section Complete

variable {apply} {script : Script σ β ε α} {state final : σ}

/-- An execution with enough successful answers is the complete one. -/
theorem exists_run_eq_complete (script : Script σ β ε α) (state : σ) :
    ∃ count, ∀ answers : List Bool, script.run apply state (List.replicate count true ++ answers) =
      ⟨(script.complete apply state).1, some (script.complete apply state).2⟩ := by
  induction script generalizing state with
  | done value => exact ⟨0, fun _ => rfl⟩
  | throw error => exact ⟨0, fun _ => rfl⟩
  | inspect next inductionHypothesis => exact inductionHypothesis state state
  | attempt effect next inductionHypothesis =>
      obtain ⟨count, runs⟩ := inductionHypothesis true (apply state effect)
      exact ⟨count + 1, runs⟩

@[simp] theorem complete_pure {result : α} :
    (pure result : Script σ β ε α).complete apply state = (state, .ok result) := rfl

@[simp] theorem complete_current :
    (current : Script σ β ε σ).complete apply state = (state, .ok state) := rfl

@[simp] theorem complete_lift {value : Except ε α} :
    (lift value : Script σ β ε α).complete apply state = (state, value) := by
  cases value <;> rfl

@[simp] theorem complete_refuse {condition : Prop} [Decidable condition] {error : ε} :
    (refuse condition error : Script σ β ε Unit).complete apply state =
      (state, refuseIf condition error) :=
  complete_lift

/-- A sequence goes on where its first part ends with a value. -/
theorem complete_bind {next : α → Script σ β ε γ} :
    (script >>= next).complete apply state =
      match script.complete apply state with
      | (middle, .ok value) => (next value).complete apply middle
      | (middle, .error error) => (middle, .error error) := by
  change (script.bind next).complete apply state = _
  induction script generalizing state with
  | done result => rfl
  | throw error => rfl
  | inspect first inductionHypothesis => exact inductionHypothesis state
  | attempt effect first inductionHypothesis => exact inductionHypothesis true

/-- A sequence goes on behind a first part which ends with a value. -/
theorem complete_bind_of_eq {middle : σ} {value : α} {next : α → Script σ β ε γ}
    (first : script.complete apply state = (middle, .ok value)) :
    (script >>= next).complete apply state = (next value).complete apply middle := by
  rw [complete_bind, first]

theorem complete_lift_bind {value : Except ε α} {result : α} {next : α → Script σ β ε γ}
    (computed : value = .ok result) :
    (lift value >>= next).complete apply state = (next result).complete apply state := by
  rw [computed]
  rfl

theorem complete_refuse_bind {condition : Prop} [Decidable condition] {error : ε}
    {next : Unit → Script σ β ε γ} (passes : ¬ condition) :
    (refuse condition error >>= next).complete apply state = (next ()).complete apply state :=
  complete_lift_bind (refuseIf_eq_ok.mpr passes)

@[simp] theorem complete_settle :
    (script.settle : Script σ β δ (Except ε α)).complete apply state =
      ((script.complete apply state).1, .ok (script.complete apply state).2) := by
  induction script generalizing state with
  | done result => rfl
  | throw error => rfl
  | inspect next inductionHypothesis => exact inductionHypothesis state
  | attempt effect next inductionHypothesis => exact inductionHypothesis true

end Complete

section Completes

variable {apply} {state : σ} {script : Script σ β ε α} {value : α} {facts : σ → Prop}

/-- A script whose effects succeed ends with a value, in a state of which some facts hold. -/
def Completes (apply : σ → β → σ) (script : Script σ β ε α) (state : σ) (value : α)
    (facts : σ → Prop) : Prop :=
  ∃ final, script.complete apply state = (final, .ok value) ∧ facts final

theorem completes_pure (holds : facts state) :
    (pure value : Script σ β ε α).Completes apply state value facts :=
  ⟨state, rfl, holds⟩

theorem completes_perform {effect : β} {error : ε} {facts : σ → Prop}
    (holds : facts (apply state effect)) :
    (perform effect error : Script σ β ε Unit).Completes apply state () facts :=
  ⟨_, rfl, holds⟩

theorem completes_lift {computed : Except ε α} (same : computed = .ok value)
    (holds : facts state) : (lift computed : Script σ β ε α).Completes apply state value facts :=
  ⟨state, by rw [complete_lift, same], holds⟩

theorem Completes.bind {next : α → Script σ β ε γ} {result : γ} {after : σ → Prop}
    (first : script.Completes apply state value facts)
    (second : ∀ final, facts final → (next value).Completes apply final result after) :
    (script >>= next).Completes apply state result after := by
  obtain ⟨middle, ends, holds⟩ := first
  obtain ⟨final, finishes, holds⟩ := second middle holds
  exact ⟨final, (complete_bind_of_eq ends).trans finishes, holds⟩

theorem completes_current_bind {next : σ → Script σ β ε γ} {result : γ} {after : σ → Prop}
    (second : (next state).Completes apply state result after) :
    ((current : Script σ β ε σ) >>= next).Completes apply state result after := second

theorem completes_lift_bind {computed : Except ε α} {next : α → Script σ β ε γ} {result : γ}
    {after : σ → Prop} (same : computed = .ok value)
    (second : (next value).Completes apply state result after) :
    (lift computed >>= next).Completes apply state result after := by
  obtain ⟨final, finishes, holds⟩ := second
  exact ⟨final, (complete_lift_bind same).trans finishes, holds⟩

theorem completes_refuse_bind {condition : Prop} [Decidable condition] {error : ε}
    {next : Unit → Script σ β ε γ} {result : γ} {after : σ → Prop} (passes : ¬ condition)
    (second : (next ()).Completes apply state result after) :
    (refuse condition error >>= next).Completes apply state result after :=
  completes_lift_bind (refuseIf_eq_ok.mpr passes) second

theorem Completes.settle (completes : script.Completes apply state value facts) :
    (script.settle : Script σ β δ (Except ε α)).Completes apply state (.ok value) facts := by
  obtain ⟨final, ends, holds⟩ := completes
  exact ⟨final, by rw [complete_settle, ends], holds⟩

theorem Completes.imp {fewer : σ → Prop} (completes : script.Completes apply state value facts)
    (weakens : ∀ final, facts final → fewer final) :
    script.Completes apply state value fewer := by
  obtain ⟨final, ends, holds⟩ := completes
  exact ⟨final, ends, weakens final holds⟩

/-- What a script ensures holds when it completes. -/
theorem Completes.and_ensures {others : α → σ → Prop}
    (completes : script.Completes apply state value facts)
    (ensures : script.Ensures apply state others) :
    script.Completes apply state value fun final => facts final ∧ others value final := by
  obtain ⟨final, ends, holds⟩ := completes
  have given := ensures.holds.complete_post
  rw [ends] at given
  exact ⟨final, ends, holds, given value rfl⟩

theorem Completes.exists_run (completes : script.Completes apply state value facts) :
    ∃ answers final, script.run apply state answers = ⟨final, some (.ok value)⟩ ∧ facts final := by
  obtain ⟨final, ends, holds⟩ := completes
  obtain ⟨count, runs⟩ := @exists_run_eq_complete _ _ _ _ apply script state
  refine ⟨List.replicate count true ++ [], final, ?_, holds⟩
  rw [runs, ends]

end Completes

end Script

end LawyerAssistance
