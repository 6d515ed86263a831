import PhpGate.Text.Basic

/-!
UTF-8. Decoding takes one character or one ill-formed part at a time; an ill-formed part is as long
as it could have been the beginning of a character, and one byte at least. Reading a file repairs
each such part with U+FFFD, or refuses the file, and makes every line break a line feed.
-/

namespace PhpGate

abbrev Bytes := List UInt8

namespace Text

def encodeChar (c : Char) : Bytes :=
  let n := c.toNat
  let tail (shift : Nat) : UInt8 := (0x80 + n / Nat.pow 2 shift % 0x40).toUInt8
  if n < 0x80 then [n.toUInt8]
  else if n < 0x800 then [(0xc0 + n / 0x40).toUInt8, tail 0]
  else if n < 0x10000 then [(0xe0 + n / 0x1000).toUInt8, tail 6, tail 0]
  else [(0xf0 + n / 0x40000).toUInt8, tail 12, tail 6, tail 0]

def encode (t : Text) : Bytes :=
  t.flatMap encodeChar

/-- What the first byte of a character announces: the number of bytes to follow, the range of the
next one, and the bits it contributes. -/
structure Lead where
  following : Nat
  low : Nat
  high : Nat
  bits : Nat

def lead? (b : Nat) : Option Lead :=
  if b < 0x80 then some ⟨0, 0, 0, b⟩
  else if b < 0xc2 then none
  else if b < 0xe0 then some ⟨1, 0x80, 0xbf, b - 0xc0⟩
  else if b < 0xf0 then
    some ⟨2, if b = 0xe0 then 0xa0 else 0x80, if b = 0xed then 0x9f else 0xbf, b - 0xe0⟩
  else if b < 0xf5 then
    some ⟨3, if b = 0xf0 then 0x90 else 0x80, if b = 0xf4 then 0x8f else 0xbf, b - 0xf0⟩
  else none

/-- Reads the bytes that follow a first one. The answer is the code point, if it is complete, and
the number of bytes that fit. -/
def follow (lead : Lead) : Bytes → Option Nat × Nat
  | [] => (if lead.following = 0 then some lead.bits else none, 0)
  | b :: r =>
      if lead.following = 0 then (some lead.bits, 0)
      else if lead.low ≤ b.toNat ∧ b.toNat ≤ lead.high then
        let (code, n) :=
          follow ⟨lead.following - 1, 0x80, 0xbf, lead.bits * 0x40 + (b.toNat - 0x80)⟩ r
        (code, n + 1)
      else (none, 0)

/-- The character at the start of a text, or nothing where the bytes are ill-formed, and how many
bytes after the first belong to it. -/
def decodeFirst (b : UInt8) (r : Bytes) : Option Char × Nat :=
  match lead? b.toNat with
  | none => (none, 0)
  | some lead =>
      let (code, n) := follow lead r
      (code.map Char.ofNat, n)

/-- The characters of a text, with nothing in place of an ill-formed part. -/
def decodeParts : (skip : Nat) → Bytes → List (Option Char)
  | _, [] => []
  | skip + 1, _ :: r => decodeParts skip r
  | 0, b :: r =>
      let (c, n) := decodeFirst b r
      c :: decodeParts n r

def replacement : Char := Char.ofNat 0xfffd

def decodeRepaired (bytes : Bytes) : Text :=
  (decodeParts 0 bytes).map (·.getD replacement)

def decodeStrict? (bytes : Bytes) : Option Text :=
  (decodeParts 0 bytes).mapM id

/-- Every line break becomes a line feed. -/
def unifyLineBreaks : Text → Text
  | [] => []
  | '\r' :: '\n' :: r => '\n' :: unifyLineBreaks r
  | c :: r => (if c = '\r' then '\n' else c) :: unifyLineBreaks r

end Text
end PhpGate
