import PhpGate.Text.Basic

/-!
Paths. Repeated slashes and single dots vanish when a path is read, double dots stay. Two leading
slashes are kept, any other number of them is one.
-/

namespace PhpGate

namespace Text

/-- The parts of a text between separators; `current` is the part begun, in reverse. -/
def splitAfter (separator : Char) (current : Text) : Text → List Text
  | [] => [current.reverse]
  | c :: r =>
      if c = separator then current.reverse :: splitAfter separator [] r
      else splitAfter separator (c :: current) r

def split (separator : Char) (t : Text) : List Text :=
  splitAfter separator [] t

def joinWith (separator : Text) : List Text → Text
  | [] => []
  | [t] => t
  | t :: ts => t ++ separator ++ joinWith separator ts

end Text

structure Path where
  root : Text
  parts : List Text
  deriving Repr, DecidableEq

namespace Path

def of (t : Text) : Path :=
  let slashes := (t.takeWhile (· == '/')).length
  let root : Text := if slashes = 0 then [] else if slashes = 2 then "//".toList else ['/']
  ⟨root, (Text.split '/' t).filter fun part => part != [] && part != ['.']⟩

def text (p : Path) : Text :=
  if p.root.isEmpty && p.parts.isEmpty then ['.']
  else p.root ++ Text.joinWith ['/'] p.parts

/-- The last part; the root and the current directory have none. -/
def name (p : Path) : Text :=
  p.parts.getLast?.getD []

def isAbsolute (p : Path) : Bool :=
  !p.root.isEmpty

/-- Whether a NUL character makes this the path of no file. -/
def hasNull (p : Path) : Bool :=
  p.text.contains (Char.ofNat 0)

def parent (p : Path) : Path :=
  { p with parts := p.parts.dropLast }

def join (p : Path) (names : List Text) : Path :=
  { p with parts := p.parts ++ names }

end Path
end PhpGate
