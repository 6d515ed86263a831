import PhpGate.Grammar.Compile
import PhpGate.Source.Declaration
import PhpGate.Source.Filter

/-!
The check that needs no interpreter: the source is put into a branch that is never taken, and the
result is compiled. Declarations, which may not stand in a branch, are neutralised first.
-/

namespace PhpGate

open Text

namespace Source

def endsInOpenTag (t : Text) : Bool :=
  beginsWith "<?php".toList (t.drop (t.length - 5)) || endsWith "<?=".toList t

/-- Whether a text leaves PHP: its last token is markup that no open tag ends. A text that does not
lex is judged by its last characters. -/
def endsInMarkup (t : Text) : Bool :=
  let lexing := Lexing.of t
  if lexing.complete then
    match lexing.tokens.getLast? with
    | some token => token.terminal == .inlineHtml && !endsInOpenTag token.text
    | none => false
  else endsWith closeTag (trimEnd t)

def wrapperHead : Text := "<?php return true; if (0) \x7b ?>".toList
def wrapperTail : Text := "\x7d;".toList

def neutralize (t : Text) : Text :=
  stripLeadingDeclare (neutralizeDeclarations t)

def wrap (t : Text) : Text :=
  let neutral := neutralize t
  let reopen := if endsInMarkup neutral then "<?php\n".toList else []
  wrapperHead ++ neutral ++ ['\n'] ++ reopen ++ wrapperTail

end Source

def selfCheck (t : Text) (file : Option Text) : Except Rejection Unit :=
  match compile (Source.wrap t) with
  | .ok () => .ok ()
  | .error failure =>
      .error { Rejection.of .parse failure.fault.message file failure.line with
        cause := some .compileFailure }

end PhpGate
