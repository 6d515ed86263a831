import Mathlib.Data.List.Basic
import PhpGate.Proofs.Token.Place

/-!
A text made from another one by rewriting parts of it. Segments tell apart what is copied and what is
put in the place of something else; where each rewriting keeps the number of line feeds, a character
that is copied stays on its line.
-/

namespace PhpGate.Text

inductive Segment where
  | copied (w : Text)
  | replaced (old new : Text)
  deriving Repr, DecidableEq

namespace Segment

def source : Segment → Text
  | copied w => w
  | replaced old _ => old

def target : Segment → Text
  | copied w => w
  | replaced _ new => new

def KeepsLines (s : Segment) : Prop :=
  s.target.newlines = s.source.newlines

theorem keepsLines_copied (w : Text) : (copied w).KeepsLines := rfl

end Segment

/-- The character at offset `i` of the source of some segments is copied to offset `j` of their
target. -/
def Copies (segments : List Segment) (i j : Nat) : Prop :=
  ∃ front u c v back, segments = front ++ .copied (u ++ c :: v) :: back ∧
    i = (front.flatMap Segment.source ++ u).length ∧
    j = (front.flatMap Segment.target ++ u).length

variable {segments : List Segment} {i j : Nat}

theorem newlines_target (keep : ∀ s ∈ segments, s.KeepsLines) :
    newlines (segments.flatMap Segment.target) = newlines (segments.flatMap Segment.source) := by
  induction segments with
  | nil => rfl
  | cons s segments ih =>
      obtain ⟨here, later⟩ := List.forall_mem_cons.mp keep
      rw [List.flatMap_cons, List.flatMap_cons, newlines_append, newlines_append, ih later, here]

/-- What is copied is the same character on both sides. -/
theorem Copies.getElem (copies : Copies segments i j) :
    ∃ c, (segments.flatMap Segment.source)[i]? = some c ∧
      (segments.flatMap Segment.target)[j]? = some c := by
  obtain ⟨front, u, c, v, back, rfl, rfl, rfl⟩ := copies
  refine ⟨c, ?_, ?_⟩ <;>
    simp [List.flatMap_append, Segment.source, Segment.target]

/-- As many line feeds stand in front of a copied character as before. -/
theorem Copies.newlines (copies : Copies segments i j) (keep : ∀ s ∈ segments, s.KeepsLines) :
    Text.newlines ((segments.flatMap Segment.target).take j)
      = Text.newlines ((segments.flatMap Segment.source).take i) := by
  obtain ⟨front, u, c, v, back, rfl, rfl, rfl⟩ := copies
  have before := newlines_target (List.forall_mem_append.mp keep).1
  have split (f : Segment → Text) (here : f (.copied (u ++ c :: v)) = u ++ c :: v) :
      ((front ++ .copied (u ++ c :: v) :: back).flatMap f).take (front.flatMap f ++ u).length
        = front.flatMap f ++ u := by
    rw [List.flatMap_append, List.flatMap_cons, here, ← List.append_assoc, ← List.append_assoc,
      List.append_assoc _ (c :: v), List.take_left]
  rw [split Segment.target rfl, split Segment.source rfl, newlines_append, newlines_append,
    before]

/-- Segments that turn one text into another; what they put in the place of a part of it is related
to that part. -/
structure Rewrites (replaces : Text → Text → Prop) (segments : List Segment) (old new : Text) :
    Prop where
  source : segments.flatMap Segment.source = old
  target : segments.flatMap Segment.target = new
  replaced : ∀ u v, .replaced u v ∈ segments → replaces u v

namespace Rewrites

variable {replaces : Text → Text → Prop} {old new : Text}

theorem keepsLines (rewrites : Rewrites replaces segments old new)
    (keep : ∀ u v, replaces u v → Text.newlines v = Text.newlines u) :
    ∀ s ∈ segments, s.KeepsLines := by
  intro s mem
  cases s with
  | copied w => exact Segment.keepsLines_copied w
  | replaced u v => exact keep u v (rewrites.replaced u v mem)

theorem copied (w : Text) : Rewrites replaces [.copied w] w w where
  source := List.append_nil w
  target := List.append_nil w
  replaced := by simp

theorem replaced_one {u v : Text} (here : replaces u v) : Rewrites replaces [.replaced u v] u v where
  source := List.append_nil u
  target := List.append_nil v
  replaced := by
    rintro u' v' mem
    cases List.mem_singleton.mp mem
    exact here

/-- Pieces of a text are rewritten one by one. -/
theorem flatMap {α : Type} {f g : α → Text} {segmentsOf : α → List Segment} {parts : List α}
    (each : ∀ part ∈ parts, Rewrites replaces (segmentsOf part) (f part) (g part)) :
    Rewrites replaces (parts.flatMap segmentsOf) (parts.flatMap f) (parts.flatMap g) where
  source := by
    rw [List.flatMap_assoc]
    exact List.flatMap_congr fun part mem => (each part mem).source
  target := by
    rw [List.flatMap_assoc]
    exact List.flatMap_congr fun part mem => (each part mem).target
  replaced := by
    intro u v mem
    obtain ⟨part, listed, here⟩ := List.mem_flatMap.mp mem
    exact (each part listed).replaced u v here

end Rewrites

end PhpGate.Text
