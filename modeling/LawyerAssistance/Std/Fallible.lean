import Mathlib.Data.List.Forall2

/-!
# Fallible computations

Inversion of `Except` programs which end in `ok`, and `gather`, the loop which
visits a list, stops at the first error and concatenates what every visit
returned.
-/

namespace LawyerAssistance

universe u v w

section Inversion

variable {ε : Type u} {α β : Type v}

theorem bind_eq_ok {first : Except ε α} {next : α → Except ε β} {result : β} :
    (first >>= next) = .ok result ↔
      ∃ value, first = .ok value ∧ next value = .ok result := by
  cases first <;> simp [bind, Except.bind]

theorem ok_bind {value : α} {next : α → Except ε β} :
    ((.ok value : Except ε α) >>= next) = next value := rfl

/-- Stop with `error` when the condition holds. -/
def refuseIf (condition : Prop) [Decidable condition] (error : ε) : Except ε Unit :=
  if condition then .error error else .ok ()

theorem refuseIf_eq_ok {condition : Prop} [Decidable condition] {error : ε} {result : Unit} :
    refuseIf condition error = .ok result ↔ ¬ condition := by
  by_cases holds : condition <;> simp [refuseIf, holds]

/-- A program which starts with a check. -/
theorem refuseIf_bind_eq_ok {γ : Type} {condition : Prop} [Decidable condition] {error : ε}
    {next : Unit → Except ε γ} {result : γ} :
    (refuseIf condition error >>= next) = .ok result ↔ ¬ condition ∧ next () = .ok result := by
  rw [bind_eq_ok]
  constructor
  · rintro ⟨value, passed, rest⟩
    exact ⟨refuseIf_eq_ok.mp passed, rest⟩
  · rintro ⟨passed, rest⟩
    exact ⟨(), refuseIf_eq_ok.mpr passed, rest⟩

/-- Read an optional value, or stop with `error`. -/
def presentOr {α : Type v} (value : Option α) (error : ε) : Except ε α :=
  match value with
  | some found => .ok found
  | none => .error error

@[simp] theorem presentOr_eq_ok {value : Option α} {error : ε} {found : α} :
    presentOr value error = .ok found ↔ value = some found := by
  cases value <;> simp [presentOr]

/-- A computation whose failures are given other names. -/
def mapError {δ : Type w} (rename : ε → δ) : Except ε α → Except δ α
  | .ok value => .ok value
  | .error error => .error (rename error)

@[simp] theorem mapError_eq_ok {δ : Type w} {rename : ε → δ} {computed : Except ε α} {value : α} :
    mapError rename computed = .ok value ↔ computed = .ok value := by
  cases computed with
  | ok other => exact ⟨fun same => by cases same; rfl, fun same => by cases same; rfl⟩
  | error error => exact ⟨nofun, nofun⟩

/-- A list of checks passes exactly when each of them does. -/
theorem forM_eq_ok {check : α → Except ε PUnit} {items : List α} :
    forM items check = .ok ⟨⟩ ↔ ∀ item ∈ items, check item = .ok ⟨⟩ := by
  induction items with
  | nil => simp [pure, Except.pure]
  | cons item rest inductionHypothesis =>
      rw [List.forM_cons, bind_eq_ok, List.forall_mem_cons, inductionHypothesis]
      constructor
      · rintro ⟨_, checked, others⟩
        exact ⟨checked, others⟩
      · rintro ⟨checked, others⟩
        exact ⟨⟨⟩, checked, others⟩

/-- Checks which fail with one error only pass or fail with it. -/
theorem forM_eq_ok_or {check : α → Except ε PUnit} {error : ε}
    (fails : ∀ item, check item = .ok ⟨⟩ ∨ check item = .error error) (items : List α) :
    forM items check = .ok ⟨⟩ ∨ forM items check = .error error := by
  induction items with
  | nil => exact .inl rfl
  | cons item rest inductionHypothesis =>
      rw [List.forM_cons]
      obtain passed | failed := fails item
      · rw [passed]
        exact inductionHypothesis
      · rw [failed]
        exact .inr rfl

/-- Checks which fail with one error only do not depend on the order of what is checked. -/
theorem forM_perm {check : α → Except ε PUnit} {items others : List α} {error : ε}
    (fails : ∀ item, check item = .ok ⟨⟩ ∨ check item = .error error) (perm : others.Perm items) :
    forM others check = forM items check := by
  have same : forM others check = .ok ⟨⟩ ↔ forM items check = .ok ⟨⟩ := by
    rw [forM_eq_ok, forM_eq_ok]
    exact forall_congr' fun _ => imp_congr_left perm.mem_iff
  obtain passed | failed := forM_eq_ok_or fails items
  · rw [passed, same.mpr passed]
  · obtain passed' | failed' := forM_eq_ok_or fails others
    · rw [passed', same.mp passed']
    · rw [failed, failed']

theorem any_toOption {test : α → Bool} {computed : Except ε α}
    (passes : computed.toOption.any test = true) :
    ∃ result, computed = .ok result ∧ test result = true := by
  cases computed with
  | error error => cases passes
  | ok result => exact ⟨result, rfl, passes⟩

/-- A fallible map which succeeds pairs every element with its result. -/
theorem mapM_eq_ok {compute : α → Except ε β} {items : List α} {results : List β}
    (done : items.mapM compute = .ok results) :
    List.Forall₂ (fun item result => compute item = .ok result) items results := by
  induction items generalizing results with
  | nil =>
      cases done
      exact .nil
  | cons item rest inductionHypothesis =>
      rw [List.mapM_cons] at done
      obtain ⟨result, computed, done⟩ := Iff.mp bind_eq_ok done
      obtain ⟨others, computedRest, done⟩ := Iff.mp bind_eq_ok done
      cases done
      exact .cons computed (inductionHypothesis computedRest)

/-- A loop over the items which items give is a loop in a loop. -/
theorem foldlM_flatMap {γ : Type w} {δ : Type v} {given : γ → List α} {items : List γ}
    {step : δ → α → Except ε δ} {start : δ} :
    (items.flatMap given).foldlM step start =
      items.foldlM (fun state item => (given item).foldlM step state) start := by
  induction items generalizing start with
  | nil => rfl
  | cons item rest inductionHypothesis =>
      rw [List.flatMap_cons, List.foldlM_append, List.foldlM_cons]
      exact congrArg _ (funext fun _ => inductionHypothesis)

/-- A fold whose steps add elements to a list adds those of all its steps. -/
theorem mem_foldlM {step : List β → α → Except ε (List β)} {items : List α}
    {start final : List β} (folded : items.foldlM step start = .ok final) {adds : α → β → Prop}
    (each : ∀ {collected item next}, step collected item = .ok next →
      ∀ value, value ∈ next ↔ value ∈ collected ∨ adds item value) (value : β) :
    value ∈ final ↔ value ∈ start ∨ ∃ item ∈ items, adds item value := by
  induction items generalizing start with
  | nil =>
      cases folded
      simp
  | cons item rest inductionHypothesis =>
      rw [List.foldlM_cons] at folded
      obtain ⟨next, stepped, folded⟩ := Iff.mp bind_eq_ok folded
      simp only [inductionHypothesis folded, each stepped, List.exists_mem_cons_iff, or_assoc]

end Inversion

section Failures

variable {ε : Type u} {α β : Type v} {error : ε}

/-- A computation which fails with one error only. -/
def FailsOnlyWith {γ : Type w} (error : ε) (computed : Except ε γ) : Prop :=
  ∀ other, computed = .error other → other = error

theorem FailsOnlyWith.ok {γ : Type w} (value : γ) : FailsOnlyWith error (.ok value) := nofun

/-- A sequence fails as its parts do. -/
theorem FailsOnlyWith.bind {first : Except ε α} {next : α → Except ε β}
    (here : FailsOnlyWith error first) (behind : ∀ value, FailsOnlyWith error (next value)) :
    FailsOnlyWith error (first >>= next) := by
  intro other failed
  cases computed : first with
  | error reason =>
      rw [computed] at failed
      cases failed
      exact here other computed
  | ok value =>
      rw [computed] at failed
      exact behind value other failed

theorem FailsOnlyWith.refuseIf (condition : Prop) [Decidable condition] :
    FailsOnlyWith error (LawyerAssistance.refuseIf condition error) := by
  intro other failed
  rw [LawyerAssistance.refuseIf] at failed
  split_ifs at failed
  cases failed
  rfl

theorem FailsOnlyWith.presentOr (value : Option α) :
    FailsOnlyWith error (LawyerAssistance.presentOr value error) := by
  intro other failed
  cases value with
  | none =>
      cases failed
      rfl
  | some _ => cases failed

/-- A fallible map fails as its steps do. -/
theorem FailsOnlyWith.mapM {compute : α → Except ε β}
    (each : ∀ item, FailsOnlyWith error (compute item)) (items : List α) :
    FailsOnlyWith error (items.mapM compute) := by
  induction items with
  | nil => exact .ok []
  | cons item rest inductionHypothesis =>
      rw [List.mapM_cons]
      exact (each item).bind fun _ => inductionHypothesis.bind fun _ => .ok _

end Failures

section Pairs

variable {α : Type u} {β : Type v} {related : α → β → Prop} {items : List α} {results : List β}

/-- Every element of the first list has a related one in the second. -/
theorem exists_of_forall₂_left (pairs : List.Forall₂ related items results) {item : α}
    (member : item ∈ items) : ∃ result ∈ results, related item result := by
  induction pairs with
  | nil => cases member
  | @cons head result rest others here _ inductionHypothesis =>
      obtain rfl | inRest := List.mem_cons.mp member
      · exact ⟨result, List.mem_cons_self, here⟩
      · obtain ⟨other, inOthers, found⟩ := inductionHypothesis inRest
        exact ⟨other, List.mem_cons_of_mem _ inOthers, found⟩

/-- Every element of the second list has a related one in the first. -/
theorem exists_of_forall₂_right (pairs : List.Forall₂ related items results) {result : β}
    (member : result ∈ results) : ∃ item ∈ items, related item result := by
  have flipped : List.Forall₂ (fun result item => related item result) results items := pairs.flip
  exact exists_of_forall₂_left flipped member

end Pairs

/-- Visit every element in order, stop at the first error, and concatenate the results. -/
@[grind =] def gather {ε : Type u} {α : Type v} {β : Type w} (visit : α → Except ε (List β)) :
    List α → Except ε (List β)
  | [] => .ok []
  | item :: rest =>
      match visit item with
      | .error error => .error error
      | .ok found =>
          match gather visit rest with
          | .error error => .error error
          | .ok others => .ok (found ++ others)

section Gather

variable {ε : Type u} {α : Type v} {β : Type w} {visit : α → Except ε (List β)}

/-- A gathered list comes from a successful head visit and a gathered tail. -/
theorem gather_cons_eq_ok {item : α} {rest : List α} {result : List β} :
    gather visit (item :: rest) = .ok result ↔
      ∃ found others, visit item = .ok found ∧ gather visit rest = .ok others ∧
        result = found ++ others := by
  simp only [gather]
  cases headCase : visit item with
  | error error => simp
  | ok found =>
      cases tailCase : gather visit rest with
      | error error => simp
      | ok others => simp [eq_comm]

/-- A property of lists which holds of the empty list, of every visit and of a
concatenation holds of the gathered list. -/
theorem gather_induction (property : List β → Prop) (empty : property [])
    (append : ∀ {first second}, property first → property second → property (first ++ second))
    {items : List α} {result : List β} (gathered : gather visit items = .ok result)
    (visited : ∀ item ∈ items, ∀ found, visit item = .ok found → property found) :
    property result := by
  induction items generalizing result with
  | nil =>
      cases gathered
      exact empty
  | cons item rest inductionHypothesis =>
      obtain ⟨found, others, headOk, tailOk, rfl⟩ := Iff.mp gather_cons_eq_ok gathered
      exact append (visited item List.mem_cons_self found headOk)
        (inductionHypothesis tailOk fun other member =>
          visited other (List.mem_cons_of_mem _ member))

/-- Everything gathered was returned by the visit of some element. -/
theorem mem_gather {items : List α} {result : List β} (gathered : gather visit items = .ok result)
    {value : β} (member : value ∈ result) :
    ∃ item ∈ items, ∃ found, visit item = .ok found ∧ value ∈ found := by
  induction items generalizing result with
  | nil =>
      cases gathered
      cases member
  | cons item rest inductionHypothesis =>
      obtain ⟨found, others, headOk, tailOk, rfl⟩ := Iff.mp gather_cons_eq_ok gathered
      rcases List.mem_append.mp member with inFound | inOthers
      · exact ⟨item, List.mem_cons_self, found, headOk, inFound⟩
      · obtain ⟨other, inRest, parts, ok, inParts⟩ := inductionHypothesis tailOk inOthers
        exact ⟨other, List.mem_cons_of_mem _ inRest, parts, ok, inParts⟩

/-- Every element was visited with success, and what its visit returned was gathered. -/
theorem gather_visits {items : List α} {result : List β}
    (gathered : gather visit items = .ok result) {item : α} (member : item ∈ items) :
    ∃ found, visit item = .ok found ∧ ∀ value ∈ found, value ∈ result := by
  induction items generalizing result with
  | nil => cases member
  | cons head rest inductionHypothesis =>
      obtain ⟨found, others, headOk, tailOk, rfl⟩ := Iff.mp gather_cons_eq_ok gathered
      rcases List.mem_cons.mp member with rfl | inRest
      · exact ⟨found, headOk, fun value inFound => List.mem_append_left _ inFound⟩
      · obtain ⟨parts, ok, all⟩ := inductionHypothesis tailOk inRest
        exact ⟨parts, ok, fun value inParts => List.mem_append_right _ (all value inParts)⟩

/-- A loop which computes a value for every element and lists what the values give. -/
theorem gather_bind_eq_ok {γ : Type w} [Inhabited γ] {compute : α → Except ε γ}
    {list : γ → List β} {items : List α} {result : List β} :
    gather (fun item => do
        let value ← compute item
        pure (list value)) items = .ok result ↔
      ∃ value : α → γ, (∀ item ∈ items, compute item = .ok (value item)) ∧
        result = items.flatMap fun item => list (value item) := by
  constructor
  · intro gathered
    let value : α → γ := fun item =>
      match compute item with
      | .error _ => default
      | .ok value => value
    refine ⟨value, ?_⟩
    induction items generalizing result with
    | nil =>
        cases gathered
        simp
    | cons item rest inductionHypothesis =>
        obtain ⟨found, others, visited, tailOk, rfl⟩ := Iff.mp gather_cons_eq_ok gathered
        obtain ⟨here, computed, listed⟩ := Iff.mp bind_eq_ok visited
        obtain ⟨each, rfl⟩ := inductionHypothesis tailOk
        cases listed
        have same : value item = here := by simp [value, computed]
        simp only [List.forall_mem_cons, List.flatMap_cons, same]
        exact ⟨⟨computed, each⟩, trivial⟩
  · rintro ⟨value, each, rfl⟩
    induction items with
    | nil => rfl
    | cons item rest inductionHypothesis =>
        rw [List.forall_mem_cons] at each
        exact Iff.mpr gather_cons_eq_ok ⟨_, _, Iff.mpr bind_eq_ok ⟨_, each.1, rfl⟩,
          inductionHypothesis each.2, rfl⟩

end Gather

end LawyerAssistance
