import PhpGate.Text.Basic

/-!
What a rejected source is told: a kind, a one-message diagnostic with file and line, and what the
rejection was raised from.
-/

namespace PhpGate

inductive ErrorKind where
  | openTag | buffer | parse | compile
  deriving Repr, DecidableEq

namespace ErrorKind

def name : ErrorKind → Text
  | openTag => "TAG".toList
  | buffer => "BUFFER".toList
  | parse => "PARSE".toList
  | compile => "COMPILE_ERROR".toList

/-- The number that PHP gives to errors of this kind. -/
def code : ErrorKind → Nat
  | openTag => 2048
  | buffer => 2
  | parse => 4
  | compile => 64

end ErrorKind

/-- The label of a source: its file, or a stand-in for text that has none. -/
def fileLabel : Option Text → Text
  | none | some [] => "<string>".toList
  | some file => file

structure Diagnostic where
  kind : ErrorKind
  message : Text
  file : Text
  line : Nat
  deriving Repr, DecidableEq

/-- Messages lose the white space around them; a negative line counts as 0. -/
def Diagnostic.of (kind : ErrorKind) (message : Text) (file : Option Text) (line : Int) :
    Diagnostic :=
  ⟨kind, message.trim, fileLabel file, line.toNat⟩

/-- What a rejection was raised from, if anything. -/
inductive Cause where
  | compileFailure | timeout
  deriving Repr, DecidableEq

structure Rejection where
  diagnostic : Diagnostic
  timedOut : Bool := false
  cause : Option Cause := none
  deriving Repr, DecidableEq

namespace Rejection

def of (kind : ErrorKind) (message : Text) (file : Option Text) (line : Int) : Rejection :=
  { diagnostic := Diagnostic.of kind message file line }

def text (r : Rejection) : Text :=
  r.diagnostic.message ++ " in ".toList ++ r.diagnostic.file ++ " on line ".toList
    ++ Text.ofNat r.diagnostic.line

end Rejection
end PhpGate
