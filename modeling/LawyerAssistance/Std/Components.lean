import LawyerAssistance.Std.Disjoint
import LawyerAssistance.Std.Spans
import Mathlib.Logic.Relation

/-!
# Components are connected

The components which a sweep over ordered ranges finds are the connected components of the relation
between ranges which overlap: two ranges of different components do not overlap, and between two of
one component there is a chain of ranges, each of which overlaps the next.
-/

namespace LawyerAssistance

universe u

section Components

variable {α : Type u} (start stop : α → Nat)

/-- The order of ranges by their starts and then by their ends. -/
def Precedes (first second : α) : Prop :=
  start first < start second ∨ (start first = start second ∧ stop first < stop second)

/-- Ranges in their order, each one once, of which none ends before it starts. -/
structure Ranges (items : List α) : Prop where
  proper : ∀ item ∈ items, start item ≤ stop item
  ordered : items.Pairwise (Precedes start stop)

/-- A chain of items, each of which overlaps the next. -/
def Linked (items : List α) : α → α → Prop :=
  Relation.ReflTransGen fun first second =>
    first ∈ items ∧ second ∈ items ∧ Overlap start stop first second

/-- All items of a list are linked to each other. -/
def Joined (items : List α) : Prop :=
  ∀ first ∈ items, ∀ second ∈ items, Linked start stop items first second

/-- The ranges of one list end where those of another start, or before. -/
def Apart (first second : List α) : Prop :=
  ∀ before ∈ first, ∀ behind ∈ second, stop before ≤ start behind

instance (first second : α) : Decidable (Overlap start stop first second) :=
  inferInstanceAs (Decidable (_ ∧ _))

variable {start stop} {items component others : List α} {item first second : α} {farthest : Nat}

theorem Overlap.symm (overlap : Overlap start stop first second) :
    Overlap start stop second first :=
  And.symm overlap

/-- A range in front of one which starts before its end overlaps it. -/
theorem Precedes.overlap (before : Precedes start stop first second)
    (proper : start second ≤ stop second) (reaches : start second < stop first) :
    Overlap start stop first second := by
  refine ⟨?_, reaches⟩
  obtain earlier | ⟨same, shorter⟩ := before
  · exact earlier.trans_le proper
  · omega

theorem Precedes.start_le (before : Precedes start stop first second) : start first ≤ start second := by
  obtain earlier | ⟨same, -⟩ := before
  · exact earlier.le
  · exact same.le

theorem Linked.mono (linked : Linked start stop items first second) (more : items ⊆ others) :
    Linked start stop others first second :=
  Relation.ReflTransGen.mono (fun _ _ link => ⟨more link.1, more link.2.1, link.2.2⟩) _ _ linked

/-- An item which overlaps one of a joined list joins it. -/
theorem Joined.cons (joined : Joined start stop component) (among : first ∈ component)
    (overlap : Overlap start stop first item) : Joined start stop (item :: component) := by
  have toItem (other : α) (member : other ∈ component) :
      Linked start stop (item :: component) other item ∧
        Linked start stop (item :: component) item other := by
    have there := (joined other member first among).mono (List.subset_cons_self item component)
    have back := (joined first among other member).mono (List.subset_cons_self item component)
    have listed := List.mem_cons_of_mem item among
    exact ⟨there.tail ⟨listed, List.mem_cons_self, overlap⟩,
      back.head ⟨List.mem_cons_self, listed, overlap.symm⟩⟩
  intro left leftMember right rightMember
  obtain leftSame | leftMember := List.mem_cons.mp leftMember
  · obtain rightSame | rightMember := List.mem_cons.mp rightMember
    · rw [leftSame, rightSame]
      exact .refl
    · rw [leftSame]
      exact (toItem right rightMember).2
  · obtain rightSame | rightMember := List.mem_cons.mp rightMember
    · rw [rightSame]
      exact (toItem left leftMember).1
    · exact (joined left leftMember right rightMember).mono (List.subset_cons_self item component)

theorem Joined.reverse (joined : Joined start stop component) :
    Joined start stop component.reverse := fun first firstMember second secondMember =>
  (joined first (List.mem_reverse.mp firstMember) second (List.mem_reverse.mp secondMember)).mono
    fun _ => List.mem_reverse.mpr

/-- From a joined component which reaches a position on, the sweep finds joined components, each of
which ends before the next starts. -/
theorem sweep_spec (ranges : Ranges start stop (component.reverse ++ items))
    (joined : Joined start stop component) (reach : ∀ item ∈ component, stop item ≤ farthest)
    (last : ∃ item ∈ component, stop item = farthest) :
    (∀ part ∈ sweep start stop component farthest items, Joined start stop part) ∧
      (sweep start stop component farthest items).Pairwise (Apart start stop) := by
  induction items generalizing component farthest with
  | nil =>
      rw [sweep]
      exact ⟨fun part member => List.mem_singleton.mp member ▸ joined.reverse,
        List.pairwise_singleton _ _⟩
  | cons item rest inductionHypothesis =>
      obtain ⟨frontOrdered, backOrdered, across⟩ := List.pairwise_append.mp ranges.ordered
      have proper : start item ≤ stop item := ranges.proper item (by simp)
      rw [sweep]
      split_ifs with inside
      · obtain ⟨reaching, among, ends⟩ := last
        have before := across reaching (List.mem_reverse.mpr among) item List.mem_cons_self
        have overlap := before.overlap proper (by omega)
        refine inductionHypothesis ?_ (joined.cons among overlap) ?_ ?_
        · simpa using ranges
        · intro other member
          obtain rfl | member := List.mem_cons.mp member
          · exact Nat.le_max_right _ _
          · exact (reach other member).trans (Nat.le_max_left _ _)
        · obtain larger | smaller := Nat.le_total farthest (stop item)
          · exact ⟨item, List.mem_cons_self, (Nat.max_eq_right larger).symm⟩
          · exact ⟨reaching, List.mem_cons_of_mem _ among,
              ends.trans (Nat.max_eq_left smaller).symm⟩
      · have alone : Joined start stop [item] := by
          intro left leftMember right rightMember
          rw [List.mem_singleton.mp leftMember, List.mem_singleton.mp rightMember]
          exact .refl
        have restRanges : Ranges start stop ([item].reverse ++ rest) :=
          ⟨fun other member => ranges.proper other (List.mem_append_right _ member), backOrdered⟩
        obtain ⟨parts, apart⟩ := inductionHypothesis restRanges alone
          (fun other member => (congrArg stop (List.mem_singleton.mp member)).le)
          ⟨item, List.mem_singleton_self item, rfl⟩
        refine ⟨List.forall_mem_cons.mpr ⟨joined.reverse, parts⟩,
          List.pairwise_cons.mpr ⟨fun part member before beforeMember behind behindMember => ?_,
            apart⟩⟩
        have ends := reach before (List.mem_reverse.mp beforeMember)
        have listed : behind ∈ (sweep start stop [item] (stop item) rest).flatten :=
          List.mem_flatten.mpr ⟨part, member, behindMember⟩
        rw [flatten_sweep] at listed
        obtain rfl | listed := List.mem_cons.mp (show behind ∈ item :: rest from listed)
        · omega
        · have later := ((List.pairwise_cons.mp backOrdered).1 behind listed).start_le
          omega

/-- Components are joined, and each ends before the next starts. -/
theorem spans_spec (ranges : Ranges start stop items) :
    (∀ part ∈ spans start stop items, Joined start stop part) ∧
      (spans start stop items).Pairwise (Apart start stop) := by
  cases items with
  | nil => exact ⟨nofun, List.Pairwise.nil⟩
  | cons item rest =>
      refine sweep_spec ranges ?_
        (fun other member => (congrArg stop (List.mem_singleton.mp member)).le)
        ⟨item, List.mem_singleton_self item, rfl⟩
      intro left leftMember right rightMember
      rw [List.mem_singleton.mp leftMember, List.mem_singleton.mp rightMember]
      exact .refl

theorem mem_of_mem_spans {part : List α} (member : part ∈ spans start stop items)
    (among : item ∈ part) : item ∈ items := by
  rw [← flatten_spans start stop items]
  exact List.mem_flatten.mpr ⟨part, member, among⟩

/-- Two different components are apart. -/
theorem apart_of_ne {parts : List (List α)} (apart : parts.Pairwise (Apart start stop))
    {one other : List α} (first : one ∈ parts) (second : other ∈ parts) (different : one ≠ other) :
    Apart start stop one other ∨ Apart start stop other one := by
  have symmetric : Std.Symm fun one other : List α =>
      Apart start stop one other ∨ Apart start stop other one := ⟨fun _ _ => Or.symm⟩
  have either : parts.Pairwise fun one other =>
      Apart start stop one other ∨ Apart start stop other one := apart.imp Or.inl
  exact either.forall first second different

/-- The component of an item is what is linked with it. -/
theorem mem_component_iff (ranges : Ranges start stop items) {part : List α}
    (member : part ∈ spans start stop items) (among : first ∈ part) :
    second ∈ part ↔ Linked start stop items first second := by
  obtain ⟨joined, apart⟩ := spans_spec ranges
  constructor
  · intro other
    exact (joined part member first among second other).mono fun _ => mem_of_mem_spans member
  · intro linked
    induction linked with
    | refl => exact among
    | @tail middle last _ link inductionHypothesis =>
        obtain ⟨-, listed, overlap⟩ := link
        rw [← flatten_spans start stop items] at listed
        obtain ⟨other, otherMember, inOther⟩ := List.mem_flatten.mp listed
        -- Different components are apart, and what overlaps is not.
        by_cases same : part = other
        · exact same ▸ inOther
        · obtain behind | before := apart_of_ne apart member otherMember same
          · exact absurd (behind middle inductionHypothesis last inOther)
              (Nat.not_le.mpr overlap.2)
          · exact absurd (before last inOther middle inductionHypothesis)
              (Nat.not_le.mpr overlap.1)

end Components

end LawyerAssistance
