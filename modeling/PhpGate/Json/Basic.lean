import PhpGate.Number.Binary64

/-!
JSON values. Objects keep the order of their members; whole numbers and floating-point numbers are
told apart.
-/

namespace PhpGate

inductive Json where
  | null
  | bool (b : Bool)
  | int (n : Int)
  | float (x : Binary64)
  | string (t : Text)
  | array (items : List Json)
  | object (members : List (Text × Json))
  deriving Repr, Inhabited

/-- Sets a key of an association list, in its old place or at the end. -/
def insertKey {α : Type} (key : Text) (value : α) : List (Text × α) → List (Text × α)
  | [] => [(key, value)]
  | (k, v) :: r => if k = key then (k, value) :: r else (k, v) :: insertKey key value r

namespace Json

def field? (key : Text) : Json → Option Json
  | object members => members.lookup key
  | _ => none

end Json

/-- The order of texts by code points. -/
def Text.before (a b : Text) : Bool :=
  match a, b with
  | [], _ => true
  | _ :: _, [] => false
  | x :: xs, y :: ys => x.toNat < y.toNat || (x == y && Text.before xs ys)

/-- Members in the order of their keys, equal keys in their old order. -/
def sortKeys {α : Type} (members : List (Text × α)) : List (Text × α) :=
  members.mergeSort fun a b => Text.before a.1 b.1

end PhpGate
