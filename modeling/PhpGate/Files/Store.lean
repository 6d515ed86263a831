import PhpGate.Files.Path
import PhpGate.Text.Quoted

/-!
A store of files, directories and links, and what can be seen in it. A path is walked part by part
from the root or the working directory. Every part but the last has to be a directory, and a link on
the way is followed.
-/

namespace PhpGate

/-- The names on the way from the root. -/
abbrev Location := List Text

/-- What an entry of a directory refers to. -/
inductive Node where
  /-- A file by its number. Entries with one number are names of the same file. -/
  | file (id : Nat)
  | directory
  | link (target : Path)
  deriving Repr, DecidableEq

/-- A file, and whether it may be opened for reading and for writing. -/
structure FileData where
  content : Bytes := []
  readable : Bool := true
  writable : Bool := true
  deriving Repr, DecidableEq

structure Store where
  nodes : List (Location × Node)
  workingDirectory : Location := []
  /-- The files by their numbers; one that is not listed is empty. -/
  contents : List (Nat × FileData) := []
  deriving Repr, DecidableEq

inductive FileFault where
  | notFound | permissionDenied | alreadyExists | notDirectory | isDirectory | nameTooLong
  | tooManyLinks
  deriving Repr, DecidableEq

namespace FileFault

def number : FileFault → Nat
  | notFound => 2
  | permissionDenied => 13
  | alreadyExists => 17
  | notDirectory => 20
  | isDirectory => 21
  | nameTooLong => 36
  | tooManyLinks => 40

def description : FileFault → Text
  | notFound => "No such file or directory".toList
  | permissionDenied => "Permission denied".toList
  | alreadyExists => "File exists".toList
  | notDirectory => "Not a directory".toList
  | isDirectory => "Is a directory".toList
  | nameTooLong => "File name too long".toList
  | tooManyLinks => "Too many levels of symbolic links".toList

end FileFault

/-- Why an operation on files failed, with the paths it was about. -/
inductive FileError where
  | fault (fault : FileFault) (path : Text) (target : Option Text)
  /-- Access was refused, for a reason given as text. -/
  | denied (reason : Text)
  /-- A path with a NUL character is no path. -/
  | embeddedNull
  deriving Repr, DecidableEq

namespace FileError

def message : FileError → Text
  | fault f path target =>
      "[Errno ".toList ++ Text.ofNat f.number ++ "] ".toList ++ f.description ++ ": ".toList
        ++ Text.quoted path ++ target.elim [] fun t => " -> ".toList ++ Text.quoted t
  | denied reason => reason
  | embeddedNull => "embedded null byte".toList

end FileError

/-- What stands at a location. -/
inductive Entry where
  | file (data : FileData)
  | directory
  | link (target : Path)
  deriving Repr, DecidableEq

/-- Where a part of a path leads from a directory. -/
def Location.step (l : Location) (part : Text) : Location :=
  if part = "..".toList then l.dropLast else if part = ['.'] then l else l ++ [part]

namespace Store

def node? (s : Store) (l : Location) : Option Node :=
  if l.isEmpty then some .directory else s.nodes.lookup l

def data (s : Store) (id : Nat) : FileData :=
  (s.contents.lookup id).getD {}

def stored? (s : Store) (l : Location) : Option Entry :=
  (s.node? l).map fun
    | .file id => .file (s.data id)
    | .directory => .directory
    | .link target => .link target

/-- The target of the link at a location, if one stands there. -/
def link? (s : Store) (l : Location) : Option Path :=
  match s.node? l with
  | some (.link target) => some target
  | _ => none

def longestName : Nat := 255
def longestPath : Nat := 4095

/-- How many links a path may lead through. -/
def mostLinks : Nat := 40

/-- Goes from a directory along some parts. The last one need not exist. At a link `jump` goes on,
along the target of the link and the parts that are left; a link at the end is only followed on
request. -/
def walkBy (s : Store) (jump : Location → List Text → Except FileFault Location) (follow : Bool)
    (l : Location) : List Text → Except FileFault Location
  | [] => .ok l
  | part :: rest =>
      match s.node? l with
      | none => .error .notFound
      | some .directory =>
          if (Text.encode part).length > longestName then .error .nameTooLong
          else
            match s.link? (l.step part) with
            | none => s.walkBy jump follow (l.step part) rest
            | some target =>
                if follow || !rest.isEmpty then
                  jump (if target.isAbsolute then [] else l) (target.parts ++ rest)
                else .ok (l.step part)
      | some _ => .error .notDirectory

/-- Goes from a directory along some parts, and through as many links as are allowed. -/
def walk (s : Store) (follow : Bool) :
    (links : Nat) → Location → List Text → Except FileFault Location
  | 0 => s.walkBy (fun _ _ => .error .tooManyLinks) follow
  | links + 1 => s.walkBy (s.walk follow links) follow

def start (s : Store) (p : Path) : Location :=
  if p.isAbsolute then [] else s.workingDirectory

def locateBy (s : Store) (follow : Bool) (p : Path) : Except FileError Location :=
  if p.hasNull then .error .embeddedNull
  else if (Text.encode p.text).length > longestPath then
    .error (.fault .nameTooLong p.text none)
  else (s.walk follow mostLinks (s.start p) p.parts).mapError fun f => .fault f p.text none

/-- The location of a path, or the error of an operation on it. -/
def locate (s : Store) (p : Path) : Except FileError Location :=
  s.locateBy true p

/-- The location of the entry that a path names, be it a link. -/
def locateEntry (s : Store) (p : Path) : Except FileError Location :=
  s.locateBy false p

/-- What stands at a path. -/
def find (s : Store) (p : Path) : Except FileError Entry := do
  let l ← s.locate p
  match s.stored? l with
  | some e => .ok e
  | none => .error (.fault .notFound p.text none)

/-- What stands at a path, if anything; only a name that is too long remains an error. -/
def find? (s : Store) (p : Path) : Except FileError (Option Entry) :=
  match s.find p with
  | .ok e => .ok (some e)
  | .error (.fault .nameTooLong path target) => .error (.fault .nameTooLong path target)
  | .error _ => .ok none

def read (s : Store) (p : Path) : Except FileError Bytes := do
  match ← s.find p with
  | .file data =>
      if data.readable then .ok data.content else .error (.fault .permissionDenied p.text none)
  | .directory => .error (.fault .isDirectory p.text none)
  | .link _ => .error (.fault .tooManyLinks p.text none)

/-- A file as text: ill-formed UTF-8 is repaired and line breaks are made line feeds. -/
def readText (s : Store) (p : Path) : Except FileError Text :=
  (s.read p).map fun content => Text.unifyLineBreaks (Text.decodeRepaired content)

/-- The names that lead from a directory to what stands below it at any depth, in no particular
order. No link is followed. -/
def namesBelow (s : Store) (l : Location) : List (List Text) :=
  s.nodes.filterMap fun (m, _) =>
    if l.isPrefixOf m && m != l then some (m.drop l.length) else none

/-- The path from the root to the location that a path names, whatever stands on the way: double
dots take back the name in front of them. -/
def absolute (s : Store) (p : Path) : Path :=
  ⟨if p.isAbsolute then p.root else ['/'], p.parts.foldl Location.step (s.start p)⟩

/-- The text of the path from the root to a location. -/
def textOf (l : Location) : Text :=
  '/' :: Text.joinWith ['/'] l

/-- Goes along some parts, whatever stands on the way. At a link `jump` tells where it leads; when
it cannot tell, the parts that are left are taken as they are. -/
def resolveBy (s : Store) (jump : Location → Location → Path → Location × Bool) (l : Location) :
    List Text → Location × Bool
  | [] => (l, true)
  | part :: rest =>
      let next := l.step part
      -- nothing can be seen at a path that is too long
      let target? := (s.link? next).filter fun _ =>
        (Text.encode (textOf next)).length ≤ longestPath
      match target? with
      | none => s.resolveBy jump next rest
      | some target =>
          match jump next l target with
          | (m, true) => s.resolveBy jump m rest
          | (m, false) => (rest.foldl Location.step m, false)

/-- Goes along some parts and follows each link, unless it is one of those that led to it. -/
def resolve (s : Store) :
    (depth : Nat) → (pending : List Location) → Location → List Text → Location × Bool
  | 0, _ => s.resolveBy fun next _ _ => (next, false)
  | depth + 1, pending => s.resolveBy fun next l target =>
      if pending.contains next then (next, false)
      else s.resolve depth (next :: pending) (if target.isAbsolute then [] else l) target.parts

/-- The text of a path without links, as far as they can be followed. Every name on the way is
looked at, also one that is taken back. -/
def realPath (s : Store) (p : Path) : Except FileError Text :=
  if p.hasNull then .error .embeddedNull
  else .ok (textOf (s.resolve s.nodes.length [] (s.start p) p.parts).1)

end Store
end PhpGate
