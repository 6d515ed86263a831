import PhpGate.Text.Digit
import PhpGate.Yaml.Cursor

/-!
The texts of scalars: in quotes, plain, and in blocks. A single line break between two lines is read
as a space, further ones stay. Double quotes alone can write surrogates, so quoted scalars are read
as code points.
-/

namespace PhpGate.Yaml

open Text

/-- A line break that is folded: lost before other breaks, a space where it stands alone. -/
def foldBreak (first : Char) (others : Text) : Text :=
  (if first ≠ '\n' then [first] else if others.isEmpty then [' '] else []) ++ others

/-- Blank lines inside quotes, and the indentation of the line after them. -/
def quotedBreaks : (fuel : Nat) → Text → Except Fault (Text × Text)
  | 0, _ => .error .malformed
  | fuel + 1, t =>
      if startsSeparator t then .error .malformed
      else
        match t.dropWhile isSpaceOrTab with
        | [] => .ok ([], [])
        | c :: r =>
            if isBreak c then do
              let (breaks, rest) ← quotedBreaks fuel r
              return (breakValue c :: breaks, rest)
            else .ok ([], c :: r)

def simpleEscapes : List (Char × Char) :=
  [('0', '\x00'), ('a', '\x07'), ('b', '\x08'), ('t', '\t'), ('\t', '\t'), ('n', '\n'),
   ('v', '\x0b'), ('f', '\x0c'), ('r', '\r'), ('e', '\x1b'), (' ', ' '), ('"', '"'),
   ('\\', '\\'), ('/', '/'), ('N', '\u0085'), ('_', '\u00a0'), ('L', '\u2028'), ('P', '\u2029')]

/-- A number of exactly `width` hexadecimal digits. -/
def hexCode? (width : Nat) (t : Text) : Option Nat :=
  if (t.take width).length = width then
    ((t.take width).mapM hexDigit?).map fun digits => digits.foldl (fun n d => 16 * n + d) 0
  else none

def escapeWidth? : Char → Option Nat
  | 'x' => some 2
  | 'u' => some 4
  | 'U' => some 8
  | _ => none

/-- A code that an escape gives; those beyond Unicode are refused, very large ones in their own
way. -/
def checkCode (n : Nat) : Except Fault Nat :=
  if n < 0x110000 then .ok n
  else if n < 0x80000000 then .error .unreadableNumber
  else .error .numberTooLarge

/-- What follows a backslash in double quotes. -/
def readEscape (t : Text) : Except Fault (Codes × Text) :=
  match t with
  | [] => .error .malformed
  | c :: r =>
      match simpleEscapes.lookup c with
      | some x => .ok ([x.toNat], r)
      | none =>
          match escapeWidth? c with
          | some width =>
              match hexCode? width r with
              | some n => do
                  let n ← checkCode n
                  return ([n], r.drop width)
              | none => .error .malformed
          | none =>
              if isBreak c then do
                let (breaks, rest) ← quotedBreaks (r.length + 1) r
                return (.ofText breaks, rest)
              else .error .malformed

/-- The rest of a quoted scalar after its opening quote. -/
def readQuoted (quote : Char) : (fuel : Nat) → Text → Except Fault (Codes × Text)
  | 0, _ | _ + 1, [] => .error .malformed
  | fuel + 1, c :: r => do
      let (part, rest) ←
        if c = quote then
          if quote = '\'' ∧ r.head? = some '\'' then pure ([c.toNat], r.drop 1) else return ([], r)
        else if quote = '"' ∧ c = '\\' then readEscape r
        else if isSpaceOrTab c || isBreak c then
          let blanks := (c :: r).takeWhile isSpaceOrTab
          match (c :: r).drop blanks.length with
          | [] => throw .malformed
          | b :: rest =>
              if isBreak b then do
                let (breaks, rest) ← quotedBreaks (rest.length + 1) rest
                pure (Codes.ofText (foldBreak (breakValue b) breaks), rest)
              else pure (Codes.ofText blanks, b :: rest)
        else pure ([c.toNat], r)
      let (value, rest) ← readQuoted quote fuel rest
      return (part ++ value, rest)

/-- Whether a plain scalar goes on with the first character of a text. -/
def continuesPlain (inFlow : Bool) : Text → Bool
  | [] => false
  | c :: r =>
      !(endsWord (some c)
        || (c == ':' && (endsWord r.head?
            || (inFlow && (r.head?.any fun x => ",[]\x7b\x7d".toList.contains x))))
        || (inFlow && ",?[]\x7b\x7d".toList.contains c))

/-- The characters of a plain scalar up to the next white space or indicator. -/
def plainRun (inFlow : Bool) : Text → Text
  | [] => []
  | c :: r => if continuesPlain inFlow (c :: r) then c :: plainRun inFlow r else []

/-- The line breaks between two lines of a plain scalar; none if a separator follows. -/
def plainBreaks : (fuel : Nat) → Cursor → Option Text × Cursor
  | 0, c => (none, c)
  | fuel + 1, c =>
      let c := c.skipSpaces
      match c.lineBreak? with
      | none => (some [], c)
      | some (b, after) =>
          if startsSeparator after.rest then (none, after)
          else
            let (breaks, last) := plainBreaks fuel after
            (breaks.map (b :: ·), last)

/-- What stands between two runs of a plain scalar, with whether a line ended there. Nothing is
answered where the scalar cannot go on. -/
def plainGap (c : Cursor) : Option Text × Cursor × Bool :=
  let spaces := c.rest.takeWhile (· == ' ')
  let c := c.skipSpaces
  match c.lineBreak? with
  | none => (if spaces.isEmpty then none else some spaces, c, false)
  | some (b, after) =>
      if startsSeparator after.rest then (none, after, true)
      else
        let (breaks, last) := plainBreaks (after.rest.length + 1) after
        (breaks.map (foldBreak b), last, true)

/-- A plain scalar and the place after it, with whether a line ended at last. Outside flow brackets
the scalar ends at a line that is indented less than `indent`. -/
def readPlain (inFlow : Bool) (indent : Int) :
    (fuel : Nat) → (gap : Text) → (crossed : Bool) → Cursor → Text × Cursor × Bool
  | 0, _, crossed, c => ([], c, crossed)
  | fuel + 1, gap, crossed, c =>
      if c.peek == some '#' then ([], c, crossed)
      else
        match plainRun inFlow c.rest with
        | [] => ([], c, crossed)
        | run =>
            let (next, after, lineEnded) := plainGap (c.advance run.length)
            match next with
            | some (g :: gs) =>
                if after.peek == some '#' || (!inFlow && (after.column : Int) < indent) then
                  (gap ++ run, after, lineEnded)
                else
                  let (more, last, ended) :=
                    readPlain inFlow indent fuel (g :: gs) lineEnded after
                  (gap ++ run ++ more, last, ended)
            | _ => (gap ++ run, after, lineEnded)

/-- What becomes of the line breaks at the end of a block. -/
inductive Chomping where
  | strip | clip | keep
  deriving Repr, DecidableEq

def chomping? : Option Char → Option Chomping
  | some '+' => some .keep
  | some '-' => some .strip
  | _ => none

/-- The indentation that a block scalar states; zero is refused. -/
def indentation? (c : Option Char) : Option Nat :=
  c.bind fun x => if x.isDigit then some (x.toNat - '0'.toNat) else none

/-- The indicators after the sign of a block scalar, in either order. -/
def readBlockHeader (c : Cursor) : Except Fault (Chomping × Option Nat × Cursor) := do
  let (chomping, c) := match chomping? c.peek with
    | some k => (some k, c.next)
    | none => (none, c)
  let (increment, c) := match indentation? c.peek with
    | some n => (some n, c.next)
    | none => (none, c)
  let (chomping, c) := match chomping, increment, chomping? c.peek with
    | none, some _, some k => (some k, c.next)
    | k, _, _ => (k, c)
  if increment = some 0 || !endsName c.peek then throw .malformed
  let c ← c.finishLine
  return (chomping.getD .clip, increment, c)

/-- Blank lines before the text of a block, and the widest indentation among them. -/
def blockIndentation : (fuel : Nat) → (widest : Nat) → Cursor → Text × Nat × Cursor
  | 0, widest, c => ([], widest, c)
  | fuel + 1, widest, c =>
      match c.peek with
      | some ' ' => blockIndentation fuel (max widest c.next.column) c.next
      | _ =>
          match c.lineBreak? with
          | some (b, after) =>
              let (breaks, widest, last) := blockIndentation fuel widest after
              (b :: breaks, widest, last)
          | none => ([], widest, c)

def skipIndent (indent : Nat) (c : Cursor) : Cursor :=
  c.advance (min (indent - c.column) (c.rest.takeWhile (· == ' ')).length)

/-- Blank lines inside a block, each with at most its indentation. -/
def blockBreaks (indent : Nat) : (fuel : Nat) → Cursor → Text × Cursor
  | 0, c => ([], c)
  | fuel + 1, c =>
      let c := skipIndent indent c
      match c.lineBreak? with
      | some (b, after) =>
          let (breaks, last) := blockBreaks indent fuel after
          (b :: breaks, last)
      | none => ([], c)

/-- The lines of a block from one that is indented; `breaks` are the blank lines before it. The
answer ends in the last line break and the blank lines after it, which the chomping decides on. -/
def blockLines (folded : Bool) (indent : Nat) :
    (fuel : Nat) → (breaks : Text) → Cursor → Text × Text × Text × Cursor
  | 0, breaks, c => ([], [], breaks, c)
  | fuel + 1, breaks, c =>
      if c.column ≠ indent ∨ c.rest.isEmpty then ([], [], breaks, c)
      else
        let line := c.rest.takeWhile fun x => !isBreak x
        let startsBlank := c.peek.any isSpaceOrTab
        let c := c.advance line.length
        let (lineBreak, c) := match c.lineBreak? with
          | some (b, after) => ([b], after)
          | none => (([] : Text), c)
        let (after, c) := blockBreaks indent (c.rest.length + 1) c
        if c.column = indent ∧ !c.rest.isEmpty then
          let joint : Text :=
            if folded && lineBreak == ['\n'] && !startsBlank && !c.peek.any isSpaceOrTab then
              if after.isEmpty then [' '] else []
            else lineBreak
          let (more, last, rest, c) := blockLines folded indent fuel after c
          (breaks ++ line ++ joint ++ more, last, rest, c)
        else (breaks ++ line, lineBreak, after, c)

/-- A block scalar after its sign, in a collection of the given indentation. -/
def readBlock (folded : Bool) (outer : Int) (c : Cursor) : Except Fault (Text × Cursor) := do
  let (chomping, increment, c) ← readBlockHeader c
  let least := max 1 (outer + 1).toNat
  let (breaks, indent, c) := match increment with
    | none =>
        let (breaks, widest, c) := blockIndentation (c.rest.length + 1) 0 c
        (breaks, max least widest, c)
    | some n =>
        let indent := least + n - 1
        let (breaks, c) := blockBreaks indent (c.rest.length + 1) c
        (breaks, indent, c)
  let (value, lineBreak, after, c) := blockLines folded indent (c.rest.length + 1) breaks c
  return (match chomping with
    | .strip => value
    | .clip => value ++ lineBreak
    | .keep => value ++ lineBreak ++ after, c)

end PhpGate.Yaml
