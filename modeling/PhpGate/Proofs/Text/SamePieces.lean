import PhpGate.Proofs.Text.LineEnding
import PhpGate.Proofs.Text.Pieces

/-!
Two texts that differ in their line endings only are cut alike by a pattern that does not tell line
endings apart, and stay such texts when its matches are replaced.
-/

namespace PhpGate.Text

variable {a b before before' : Text} {n m : Nat} {pattern : Pattern}

/-- Pieces of two texts with the same lines: what is kept and what is hit has the same lines. -/
inductive SamePieces : List Piece → List Piece → Prop
  | nil : SamePieces [] []
  | kept {c : Char} {p q : List Piece} (visible : c ≠ '\r') (rest : SamePieces p q) :
      SamePieces (.kept c :: p) (.kept c :: q)
  | pair {p q : List Piece} (rest : SamePieces p q) :
      SamePieces (.kept '\n' :: p) (.kept '\r' :: .kept '\n' :: q)
  | hit {c : Char} {w v : Text} {p q : List Piece} (visible : c ≠ '\r') (same : SameLines w v)
      (rest : SamePieces p q) : SamePieces (.hit (c :: w) :: p) (.hit (c :: v) :: q)

/-- A pattern that never starts at a line break and matches the same lines of two texts whose
fronts end in the same character. -/
structure Pattern.IgnoresLineEndings (pattern : Pattern) : Prop where
  breaks : ∀ before c r, c = '\n' ∨ c = '\r' → pattern before (c :: r) = none
  same : ∀ {before before' a b}, before.head? = before'.head? → SameLines a b →
    SameMatch a b (pattern before a) (pattern before' b)

theorem head_reverse_append_same {w v : Text} (same : SameLines w v)
    (context : before.head? = before'.head?) :
    (w.reverse ++ before).head? = (v.reverse ++ before').head? := by
  rw [List.head?_append, List.head?_append, List.head?_reverse, List.head?_reverse, same.getLast_eq,
    context]

theorem cutAfter_same (ignores : pattern.IgnoresLineEndings) (h : SameLines a b)
    (context : before.head? = before'.head?) :
    SamePieces (cutAfter pattern before 0 a) (cutAfter pattern before' 0 b) := by
  induction hn : a.length using Nat.strongRecOn generalizing a b before before' with
  | ind n ih =>
      subst hn
      cases h with
      | nil => exact .nil
      | @char c r r' visible rest =>
          have matched := ignores.same context (rest.char visible)
          have seen : (c :: before).head? = (c :: before').head? := rfl
          have kept := ih r.length (Nat.lt_succ_self _) rest seen rfl
          rw [cutAfter, cutAfter]
          generalize pattern before (c :: r) = o, pattern before' (c :: r') = o' at matched
          cases matched with
          | none => exact .kept visible kept
          | @some n m cut =>
              obtain ⟨front, back⟩ := cut
              cases n with
              | zero =>
                  cases m with
                  | zero => exact .kept visible kept
                  | succ m => cases front
              | succ n =>
                  cases m with
                  | zero => cases front
                  | succ m =>
                      have same : SameLines (r.take n) (r'.take m) := by
                        cases front with
                        | char _ same => exact same
                      dsimp only
                      rw [cutAfter_eq_drop, cutAfter_eq_drop (c :: before')]
                      refine .hit visible same (ih _ ?_ back (head_reverse_append_same same seen) rfl)
                      rw [List.length_drop, List.length_cons]
                      omega
      | @pair r r' rest =>
          have seen : ('\n' :: before).head? = ('\n' :: '\r' :: before').head? := rfl
          have kept := ih r.length (Nat.lt_succ_self _) rest seen rfl
          rw [cutAfter, cutAfter, cutAfter, ignores.breaks _ _ _ (.inl rfl),
            ignores.breaks _ _ _ (.inr rfl), ignores.breaks _ _ _ (.inl rfl)]
          exact .pair kept

theorem substitute_same (ignores : pattern.IgnoresLineEndings) (h : SameLines a b)
    {f : Text → Text} (keeps : ∀ c w v, c ≠ '\r' → SameLines w v →
      SameLines (f (c :: w)) (f (c :: v))) :
    SameLines (substitute pattern f a) (substitute pattern f b) := by
  have seen : ([] : Text).head? = ([] : Text).head? := rfl
  have pieces := cutAfter_same ignores h seen
  rw [substitute, substitute, cut, cut]
  generalize cutAfter pattern [] 0 a = p, cutAfter pattern [] 0 b = q at pieces
  induction pieces with
  | nil => exact .nil
  | kept visible _ ih => exact .char visible ih
  | pair _ ih => exact .pair ih
  | hit visible same _ ih => exact (keeps _ _ _ visible same).append ih

end PhpGate.Text
