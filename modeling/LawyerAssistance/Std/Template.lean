import LawyerAssistance.Std.Slices

/-!
# Texts with holes

A template is a text with labelled holes. Two texts are the fillings of one template exactly when
one of them is the other with its holes replaced, all at once.
-/

namespace LawyerAssistance

universe u

/-- A part of a template. -/
inductive Segment (ι : Type u) where
  | text (part : List Char)
  | hole (label : ι)

namespace Segment

section Fill

variable {ι : Type u} (fill : ι → List Char)

/-- The text of a part. -/
def filled : Segment ι → List Char
  | .text part => part
  | .hole label => fill label

/-- The text of a template. -/
def render (template : List (Segment ι)) : List Char := template.flatMap (filled fill)

/-- Where the holes of a template are in its text, which begins at a position. -/
def places : Nat → List (Segment ι) → List (Nat × Nat × ι)
  | _, [] => []
  | position, .text part :: rest => places (position + Text.byteLength part) rest
  | position, .hole label :: rest =>
      (position, position + Text.byteLength (fill label), label) ::
        places (position + Text.byteLength (fill label)) rest

variable {fill} {first second : List (Segment ι)} {part : List Char} {label : ι}

@[simp] theorem render_nil : render fill [] = [] := rfl

@[simp] theorem render_append :
    render fill (first ++ second) = render fill first ++ render fill second :=
  List.flatMap_append

@[simp] theorem render_text : render fill [.text part] = part := by simp [render, filled]

@[simp] theorem render_hole : render fill [.hole label] = fill label := by simp [render, filled]

/-- The holes of two templates, one behind the other. -/
theorem places_append {position : Nat} : places fill position (first ++ second) =
    places fill position first ++
      places fill (position + Text.byteLength (render fill first)) second := by
  induction first generalizing position with
  | nil => rfl
  | cons segment first inductionHypothesis =>
      cases segment with
      | text part =>
          simp only [List.cons_append, places, inductionHypothesis, render, List.flatMap_cons,
            filled, Text.byteLength_append, Nat.add_assoc]
      | hole label =>
          simp only [List.cons_append, places, inductionHypothesis, render, List.flatMap_cons,
            filled, Text.byteLength_append, Nat.add_assoc]

end Fill

end Segment

end LawyerAssistance
