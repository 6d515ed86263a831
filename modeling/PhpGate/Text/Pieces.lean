import PhpGate.Text.Basic

/-!
Cutting a text at the places where a pattern stands. A pattern is given by the length of what it
matches, seen from the text before (in reverse) and the text from there on. The scan goes from left
to right, takes each place where the pattern matches at least one character, and goes on after it.
-/

namespace PhpGate.Text

abbrev Pattern := (before text : Text) → Option Nat

inductive Piece where
  | kept (c : Char)
  | hit (t : Text)
  deriving Repr, DecidableEq

namespace Piece

def source : Piece → Text
  | kept c => [c]
  | hit t => t

/-- The text that a piece becomes when matches are substituted. -/
def substitute (f : Text → Text) : Piece → Text
  | kept c => [c]
  | hit t => f t

end Piece

/-- The pieces of a text whose next `skip` characters belong to a match already taken. -/
def cutAfter (pattern : Pattern) (before : Text) : (skip : Nat) → Text → List Piece
  | _, [] => []
  | skip + 1, c :: r => cutAfter pattern (c :: before) skip r
  | 0, c :: r =>
      match pattern before (c :: r) with
      | some (n + 1) => .hit (c :: r.take n) :: cutAfter pattern (c :: before) n r
      | _ => .kept c :: cutAfter pattern (c :: before) 0 r

def cut (pattern : Pattern) (t : Text) : List Piece :=
  cutAfter pattern [] 0 t

/-- Puts another text in place of every match of a pattern and keeps the rest. -/
def substitute (pattern : Pattern) (f : Text → Text) (t : Text) : Text :=
  (cut pattern t).flatMap (Piece.substitute f)

/-- The matches among pieces, each with the offset it starts at. -/
def hitsFrom (offset : Nat) : List Piece → List (Nat × Text)
  | [] => []
  | .kept _ :: ps => hitsFrom (offset + 1) ps
  | .hit t :: ps => (offset, t) :: hitsFrom (offset + t.length) ps

def hits (pattern : Pattern) (t : Text) : List (Nat × Text) :=
  hitsFrom 0 (cut pattern t)

end PhpGate.Text
