import PhpGate.Files.Store

/-!
The changes of a store that a program can ask for. Each ends in a new store or in the error an
operating system gives. What is written goes to the file that a link leads to; what is made, removed
or moved is the entry itself.
-/

namespace PhpGate

/-- Whether two entries are names of one file. -/
def Node.isSameFile : Node → Node → Bool
  | .file i, .file j => i == j
  | _, _ => false

namespace Store

def setNode (s : Store) (l : Location) (n : Node) : Store :=
  { s with nodes := (s.nodes.filter (·.1 != l)) ++ [(l, n)] }

def removeNode (s : Store) (l : Location) : Store :=
  { s with nodes := s.nodes.filter (·.1 != l) }

def setData (s : Store) (id : Nat) (data : FileData) : Store :=
  { s with contents := (s.contents.filter (·.1 != id)) ++ [(id, data)] }

/-- The numbers of files that occur. -/
def usedIds (s : Store) : List Nat :=
  s.contents.map Prod.fst ++ s.nodes.filterMap fun
    | (_, .file id) => some id
    | _ => none

/-- A number that no file has. -/
def freshId (s : Store) : Nat :=
  s.usedIds.foldr max 0 + 1

/-- Puts a new file at a location. -/
def addFile (s : Store) (l : Location) (content : Bytes) : Store :=
  (s.setNode l (.file s.freshId)).setData s.freshId { content }

/-- Writes a file, which is made if it is missing. -/
def write (s : Store) (p : Path) (content : Bytes) : Except FileError Store := do
  let l ← s.locate p
  match s.node? l with
  | none => .ok (s.addFile l content)
  | some (.file id) =>
      if (s.data id).writable then .ok (s.setData id { s.data id with content })
      else .error (.fault .permissionDenied p.text none)
  | some .directory => .error (.fault .isDirectory p.text none)
  | some (.link _) => .error (.fault .tooManyLinks p.text none)

/-- Makes an empty file where nothing stands. -/
def create (s : Store) (p : Path) : Except FileError Store := do
  let l ← s.locateEntry p
  match s.node? l with
  | some _ => .error (.fault .alreadyExists p.text none)
  | none => .ok (s.addFile l [])

/-- Removes a file or a link; one that is not there is no error. -/
def remove (s : Store) (p : Path) : Except FileError Store :=
  match s.locateEntry p with
  | .error (.fault .notFound _ _) => .ok s
  | .error e => .error e
  | .ok l =>
      match s.node? l with
      | none => .ok s
      | some .directory => .error (.fault .isDirectory p.text none)
      | some _ => .ok (s.removeNode l)

def makeDirectory (s : Store) (p : Path) : Except FileError Store := do
  let l ← s.locateEntry p
  match s.node? l with
  | some _ => .error (.fault .alreadyExists p.text none)
  | none => .ok (s.setNode l .directory)

/-- Makes a directory unless it is there already. -/
def tryDirectory (s : Store) (p : Path) : Except FileError Unit × Store :=
  match s.makeDirectory p with
  | .ok made => (.ok (), made)
  | .error e =>
      match s.find? p with
      | .ok (some .directory) => (.ok (), s)
      | .ok _ => (.error e, s)
      | .error e => (.error e, s)

/-- Makes a directory and those above it that are missing, as far as it can; `depth` bounds how many.
What has been made stays there after an error. -/
def makeDirectories (s : Store) (p : Path) : (depth : Nat) → Except FileError Unit × Store
  | 0 => s.tryDirectory p
  | depth + 1 =>
      match s.makeDirectory p with
      | .error (.fault .notFound path target) =>
          if p.parts.isEmpty then (.error (.fault .notFound path target), s)
          else match s.makeDirectories p.parent depth with
            | (.ok (), made) => made.tryDirectory p
            | (.error e, made) => (.error e, made)
      | _ => s.tryDirectory p

def ensureDirectories (s : Store) (p : Path) (depth : Nat) : Except FileError Store :=
  match s.makeDirectories p depth with
  | (.ok (), made) => .ok made
  | (.error e, _) => .error e

/-- Puts a file at a path together with the directories above it, if it can stand there. -/
def put (s : Store) (p : Path) (content : Bytes) : Store :=
  match s.ensureDirectories p.parent p.parts.length with
  | .error _ => s
  | .ok made => (made.write p content).toOption.getD made

/-- Moves a file or a link over another path. Nothing happens when both are names of one file. -/
def replace (s : Store) (source target : Path) : Except FileError Store :=
  let fault (f : FileFault) : FileError := .fault f source.text (some target.text)
  let about (e : FileError) : FileError :=
    match e with
    | .fault f _ _ => fault f
    | e => e
  do
    let l ← (s.locateEntry source).mapError about
    let m ← (s.locateEntry target).mapError about
    match s.node? l, s.node? m with
    | none, _ => .error (fault .notFound)
    | some .directory, _ | _, some .directory => .error (fault .isDirectory)
    | some n, other =>
        if other.any n.isSameFile then .ok s else .ok ((s.removeNode l).setNode m n)

end Store
end PhpGate
