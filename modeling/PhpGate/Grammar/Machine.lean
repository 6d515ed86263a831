import PhpGate.Token.Basic

/-!
The statement structure of PHP as a stack machine over terminals. A sequence is summed up by the
kind of token it ends with; open brackets are kept on a stack. A statement block and the file itself
end in neutral position, the other brackets close after anything but a binary operator.
-/

namespace PhpGate

/-- How a sequence of tokens ends. The empty sequence is neutral. -/
inductive Ending where
  | neutral | operand | name | binary | postfixed
  deriving Repr, DecidableEq

namespace Ending

/-- A terminator or a closing bracket may follow. -/
def isClosed : Ending → Bool
  | binary => false
  | _ => true

/-- An operand or a name may follow. -/
def admitsOperand : Ending → Bool
  | operand => false
  | _ => true

end Ending

/-- Brackets that may be open. A match expression opens two in turn. -/
inductive Bracket where
  | paren | square | braced | block | matchSubject | matchArms
  deriving Repr, DecidableEq

namespace Bracket

def closer : Bracket → Terminal
  | paren | matchSubject => .closeParen
  | square => .closeBracket
  | braced | block | matchArms => .closeBrace

/-- Whether the bracket may close after a sequence with this ending. -/
def closesAfter : Bracket → Ending → Bool
  | block, e => e == .neutral
  | _, e => e.isClosed

end Bracket

/-- What the machine stands before. -/
inductive Focus where
  /-- Nothing has been read; the open tag is due. -/
  | start
  | sequence (ending : Ending)
  /-- After a class keyword: the name is due. -/
  | classHead
  /-- After `match`: the parenthesis is due. -/
  | matchHead
  /-- After the subject of a match: the brace of its arms is due. -/
  | matchBody
  deriving Repr, DecidableEq

structure Machine where
  focus : Focus
  brackets : List Bracket
  deriving Repr, DecidableEq

namespace Machine

def initial : Machine := ⟨.start, []⟩

def opening? : Terminal → Option Bracket
  | .openParen => some .paren
  | .openBracket | .attributeBracket => some .square
  | .expressionBrace => some .braced
  | .openBrace => some .block
  | _ => none

/-- Where the machine stands after a bracket has closed. -/
def afterClosing : Bracket → Focus
  | .matchSubject => .matchBody
  | .matchArms => .sequence .operand
  | _ => .sequence .neutral

/-- One terminal inside a sequence, brackets apart: what the sequence ends with after it. -/
def extend (e : Ending) : Terminal → Option Focus
  | .variableName | .number | .singleQuoted | .doubleQuoted | .backtick | .heredoc =>
      if e.admitsOperand then some (.sequence .operand) else none
  | .matchKeyword => if e.admitsOperand then some .matchHead else none
  | .name | .anonymousClass => if e.admitsOperand then some (.sequence .name) else none
  | .classKeyword => if e.admitsOperand then some .classHead else none
  | .operator | .keywordOperator => some (.sequence .binary)
  | .increment | .ellipsis => some (.sequence .postfixed)
  | .semicolon | .comma | .inlineHtml => if e.isClosed then some (.sequence .neutral) else none
  | .colon => some (.sequence .neutral)
  | _ => none

/-- Closes the innermost bracket, if this is its closer and the sequence may end here. -/
def close? (e : Ending) (brackets : List Bracket) (t : Terminal) : Option Machine :=
  match brackets with
  | [] => none
  | b :: rest => if t = b.closer && b.closesAfter e then some ⟨afterClosing b, rest⟩ else none

def step? (m : Machine) (t : Terminal) : Option Machine :=
  match m.focus with
  | .start => if t = .openTag then some ⟨.sequence .neutral, m.brackets⟩ else none
  | .classHead => if t = .name then some ⟨.sequence .name, m.brackets⟩ else none
  | .matchHead =>
      if t = .openParen then some ⟨.sequence .neutral, .matchSubject :: m.brackets⟩ else none
  | .matchBody =>
      if t = .openBrace then some ⟨.sequence .neutral, .matchArms :: m.brackets⟩ else none
  | .sequence e =>
      match opening? t with
      | some b => some ⟨.sequence .neutral, b :: m.brackets⟩
      | none =>
          match extend e t with
          | some focus => some ⟨focus, m.brackets⟩
          | none => close? e m.brackets t

/-- The input may end here. -/
def accepts (m : Machine) : Bool :=
  m.focus == .sequence .neutral && m.brackets.isEmpty

end Machine
end PhpGate
