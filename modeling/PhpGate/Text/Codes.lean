import PhpGate.Text.Quoted

/-!
Sequences of code points among which surrogates may stand. An escape can write a surrogate, but no
text can hold one: a pair of them stands for one character, and one alone for none.
-/

namespace PhpGate

abbrev Codes := List Nat

namespace Codes

def ofText (t : Text) : Codes :=
  t.map Char.toNat

def isSurrogate (n : Nat) : Bool :=
  0xd800 ≤ n && n ≤ 0xdfff

def isHighSurrogate (n : Nat) : Bool :=
  0xd800 ≤ n && n ≤ 0xdbff

def isLowSurrogate (n : Nat) : Bool :=
  0xdc00 ≤ n && n ≤ 0xdfff

/-- The text of some codes, if there is no surrogate among them. -/
def text? (c : Codes) : Option Text :=
  if c.any isSurrogate then none else some (c.map Char.ofNat)

/-- The text of some codes with pairs of surrogates joined and U+FFFD for each one alone. -/
def repaired : Codes → Text
  | [] => []
  | [n] => [single n]
  | n :: m :: r =>
      if isHighSurrogate n && isLowSurrogate m then
        Char.ofNat (0x10000 + (n - 0xd800) * 0x400 + (m - 0xdc00)) :: repaired r
      else single n :: repaired (m :: r)
where
  single (n : Nat) : Char :=
    if isSurrogate n then Text.replacement else Char.ofNat n

/-- Codes in quotes; a surrogate is escaped. -/
def quoted (c : Codes) : Text :=
  let quote := Text.quoteFor c.repaired
  let written (n : Nat) : Text :=
    if isSurrogate n then Text.escapeCode n else Text.escapeQuoted quote (Char.ofNat n)
  [quote] ++ c.flatMap written ++ [quote]

/-- The order of code points, in which codes also come before themselves. -/
def before : Codes → Codes → Bool
  | [], _ => true
  | _ :: _, [] => false
  | m :: a, n :: b => m < n || (m == n && before a b)

end Codes
end PhpGate
