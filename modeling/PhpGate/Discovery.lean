import PhpGate.Digest.Sha256
import PhpGate.Files.Store
import PhpGate.Json.Basic
import PhpGate.Text.Glob

/-!
Finding the files to check. A file is found by its own path, whatever it is called; a directory
gives the files at any depth below it whose name matches a pattern, in the order of their paths. A
link is taken for the file that it leads to, and one to a directory is not searched. Each file comes
with the digest of its content.
-/

namespace PhpGate

structure Candidate where
  path : Path
  fingerprint : Text
  deriving Repr, DecidableEq

namespace Candidate

/-- The candidate at a path. A file that cannot be read counts as empty. -/
def ofPath (files : Store) (path : Path) : Candidate :=
  ⟨path, Sha256.hexDigest ((files.read path).toOption.getD [])⟩

def matchesAny (patterns : List Text) (name : Text) : Bool :=
  patterns.any fun pattern => Glob.matchesName pattern name

/-- What a path below a directory gives: a candidate if it leads to a file and its name matches. A
path that is too long is an error, whatever stands there. -/
def ofEntry (files : Store) (patterns : List Text) (path : Path) :
    Except FileError (Option Candidate) := do
  match ← files.find? path with
  | some (.file _) => return if matchesAny patterns path.name then some (ofPath files path) else none
  | _ => return none

/-- The files below a directory whose names match. `root` is the path the directory was named by. -/
def below (files : Store) (root : Path) (l : Location) (patterns : List Text) :
    Except FileError (List Candidate) := do
  let entries ← (files.namesBelow l).mapM fun names => ofEntry files patterns (root.join names)
  return entries.filterMap id

def inOrder (candidates : List Candidate) : List Candidate :=
  candidates.mergeSort fun a b => Text.before a.path.text b.path.text

/-- What there is to check at a path. A path at which nothing stands gives nothing. -/
def discover (files : Store) (root : Path) (patterns : List Text) :
    Except FileError (List Candidate) := do
  match ← files.find? root with
  | some (.file _) => return [ofPath files root]
  | some .directory =>
      let l ← files.locate root
      return inOrder (← below files root l patterns)
  | _ => return []

end Candidate
end PhpGate
