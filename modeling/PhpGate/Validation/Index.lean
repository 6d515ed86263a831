import PhpGate.Digest.Sha256
import PhpGate.Files.Change
import PhpGate.Json.Writing
import PhpGate.Validation.Result

/-!
The index of validation results: one entry a path, totals, and a digest of the content. The digest
is taken of the canonical text without the build time and the digest itself. The index file is
written beside its place first and then moved there, so that it is never seen half written.
-/

namespace PhpGate

structure Index where
  builtAt : Text
  /-- The results by path, in the order of paths. -/
  files : List (Text × ValidationResult)
  valid : Nat
  invalid : Nat
  /-- How many invalid results there are of each kind, in the order of names. -/
  kinds : List (Text × Nat)
  deriving Repr, DecidableEq

namespace Index

def unknownKind : Text := "UNKNOWN".toList

/-- The kind a result is counted under. -/
def kindOf (r : ValidationResult) : Text :=
  match r.kind with
  | none | some [] => unknownKind
  | some kind => kind

/-- How often each text occurs, in the order of first occurrence. -/
def tally (names : List Text) : List (Text × Nat) :=
  names.foldl (fun counts name => insertKey name ((counts.lookup name).getD 0 + 1) counts) []

def sorted (results : List ValidationResult) : List ValidationResult :=
  results.mergeSort fun a b => Text.before a.path b.path

/-- The index of some results. Of several results with one path the last is the entry; all of them
count in the totals. -/
def ofResults (builtAt : Text) (results : List ValidationResult) : Index :=
  let results := sorted results
  let rejected := results.filter (!·.isValid)
  { builtAt
    files := results.foldl (fun entries r => insertKey r.path r entries) []
    valid := (results.filter (·.isValid)).length
    invalid := rejected.length
    kinds := sortKeys (tally (rejected.map kindOf)) }

def entry (r : ValidationResult) : Json :=
  .object [("status".toList, .string r.status.name),
    ("kind".toList, r.kind.elim .null .string),
    ("message".toList, r.message.elim .null .string),
    ("line".toList, r.line.elim .null .int),
    ("fingerprint".toList, .string r.fingerprint)]

def builtAtKey : Text := "index_built_at".toList
def hashKey : Text := "content_hash".toList

/-- The index as a value, without its digest. -/
def body (index : Index) : List (Text × Json) :=
  [(builtAtKey, .string index.builtAt),
    ("total_files".toList, .int index.files.length),
    ("total_valid".toList, .int index.valid),
    ("total_invalid".toList, .int index.invalid),
    ("kinds".toList, .object (index.kinds.map fun (name, n) => (name, .int n))),
    ("files".toList, .object (index.files.map fun (path, r) => (path, entry r)))]

/-- The text that the digest of an object is taken of. -/
def hashedText (members : List (Text × Json)) : Text :=
  (Json.object (members.filter fun (key, _) => key ≠ builtAtKey ∧ key ≠ hashKey)).canonical

def contentHash (members : List (Text × Json)) : Text :=
  Sha256.hexDigest (Text.encode (hashedText members))

/-- The index as a value. -/
def payload (index : Index) : Json :=
  .object (index.body ++ [(hashKey, .string (contentHash index.body))])

/-- The text of the index file. -/
def text (index : Index) : Text :=
  index.payload.document

def fileName : Text := "index.json".toList

def place (directory : Path) : Path :=
  directory.join [fileName]

def stagingPlace (directory : Path) : Path :=
  directory.join [fileName ++ ".tmp".toList]

/-- What goes wrong while the index is written, apart from what the files themselves bring about: the
content is cut off after so many bytes, or the staging file may not be moved or removed. -/
structure Interference where
  write : Option (Nat × FileError) := none
  move : Option FileError := none
  removal : Option FileError := none
  deriving Repr, DecidableEq

/-- Removes a staging file after an error; an error of the removal takes its place. -/
def discard (i : Interference) (files : Store) (staging : Path) (e : FileError) :
    Except FileError Path × Store :=
  match i.removal.elim (files.remove staging) .error with
  | .ok files => (.error e, files)
  | .error e => (.error e, files)

/-- Writes the staging file, or as much of it as there is room for. -/
def stage (i : Interference) (files : Store) (staging : Path) (content : Bytes) :
    Except FileError Unit × Store :=
  match i.write with
  | none =>
      match files.write staging content with
      | .ok written => (.ok (), written)
      | .error e => (.error e, files)
  | some (n, e) =>
      match files.write staging (content.take n) with
      | .ok written => (.error e, written)
      | .error e => (.error e, files)

/-- Writes the index file into a directory, which is made if it is missing. -/
def writeUnder (i : Interference) (index : Index) (files : Store) (directory : Path) :
    Except FileError Path × Store :=
  match files.makeDirectories directory directory.parts.length with
  | (.error e, made) => (.error e, made)
  | (.ok (), made) =>
      let staging := stagingPlace directory
      match stage i made staging (Text.encode index.text) with
      | (.error e, staged) => discard i staged staging e
      | (.ok (), staged) =>
          match i.move.elim (staged.replace staging (place directory)) .error with
          | .error e => discard i staged staging e
          | .ok done => (.ok (place directory), done)

/-- Writes the index file on a system that interferes with nothing. -/
def write (index : Index) (files : Store) (directory : Path) : Except FileError Path × Store :=
  index.writeUnder {} files directory

end Index
end PhpGate
