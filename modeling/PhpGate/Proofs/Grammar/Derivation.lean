import PhpGate.Grammar.Machine

/-!
The statement structure of PHP as a grammar: productions over terminals, and derivability as an
inductive relation. Nothing here mentions the stack machine; that both describe the same sequences
is proved from the two definitions in `Acceptance`.
-/

namespace PhpGate

inductive Nonterminal where
  | start
  /-- Sequences whose last token is of one kind. -/
  | sequence (ending : Ending)
  /-- Sequences that may be followed by a terminator or a closing bracket. -/
  | closed
  /-- Sequences that may be followed by an operand or a name. -/
  | admitting
  | any
  | operand | matchExpression | name | classHead | binary | postfixed | group
  deriving Repr, DecidableEq

inductive GrammarSymbol where
  | terminal (t : Terminal)
  | nonterminal (n : Nonterminal)
  deriving Repr, DecidableEq

abbrev Form := List GrammarSymbol

instance : Coe Terminal GrammarSymbol := ⟨.terminal⟩
instance : Coe Nonterminal GrammarSymbol := ⟨.nonterminal⟩

namespace Nonterminal

/-- The right-hand sides of a nonterminal. -/
def productions : Nonterminal → List Form
  | start => [[Terminal.openTag, sequence .neutral]]
  | sequence .neutral =>
      [[], [closed, Terminal.semicolon], [closed, Terminal.comma], [closed, Terminal.inlineHtml],
       [any, Terminal.colon], [any, group]]
  | sequence .operand => [[admitting, operand]]
  | sequence .name => [[admitting, name]]
  | sequence .binary => [[any, binary]]
  | sequence .postfixed => [[any, postfixed]]
  | closed =>
      [[sequence .neutral], [sequence .operand], [sequence .name], [sequence .postfixed]]
  | admitting =>
      [[sequence .neutral], [sequence .name], [sequence .binary], [sequence .postfixed]]
  | any => [[closed], [sequence .binary]]
  | operand =>
      [[Terminal.variableName], [Terminal.number], [Terminal.singleQuoted],
       [Terminal.doubleQuoted], [Terminal.backtick], [Terminal.heredoc], [matchExpression]]
  | matchExpression =>
      [[Terminal.matchKeyword, Terminal.openParen, closed, Terminal.closeParen,
        Terminal.openBrace, closed, Terminal.closeBrace]]
  | name => [[Terminal.name], [Terminal.anonymousClass], [classHead]]
  | classHead => [[Terminal.classKeyword, Terminal.name]]
  | binary => [[Terminal.operator], [Terminal.keywordOperator]]
  | postfixed => [[Terminal.increment], [Terminal.ellipsis]]
  | group =>
      [[Terminal.openParen, closed, Terminal.closeParen],
       [Terminal.openBracket, closed, Terminal.closeBracket],
       [Terminal.attributeBracket, closed, Terminal.closeBracket],
       [Terminal.expressionBrace, closed, Terminal.closeBrace],
       [Terminal.openBrace, sequence .neutral, Terminal.closeBrace]]

end Nonterminal

/-- The terminals that a form derives. -/
inductive Derives : Form → List Terminal → Prop
  | done : Derives [] []
  | terminal {t : Terminal} {f : Form} {w : List Terminal} (rest : Derives f w) :
      Derives (.terminal t :: f) (t :: w)
  | production {n : Nonterminal} {r f : Form} {u w : List Terminal} (rule : r ∈ n.productions)
      (first : Derives r u) (rest : Derives f w) : Derives (.nonterminal n :: f) (u ++ w)

namespace Nonterminal

/-- The terminals that a nonterminal derives. -/
def Generates (n : Nonterminal) (w : List Terminal) : Prop :=
  ∃ r ∈ n.productions, Derives r w

variable {n a b : Nonterminal} {t o c : Terminal} {u v w : List Terminal}

theorem Generates.append {f : Form} (h : n.Generates u) (rest : Derives f w) :
    Derives (.nonterminal n :: f) (u ++ w) := by
  obtain ⟨r, rule, first⟩ := h
  exact .production rule first rest

theorem Generates.derives (h : n.Generates w) : Derives [.nonterminal n] w := by
  simpa using h.append .done

theorem generates_of_nonterminal (rule : [.nonterminal a] ∈ n.productions) (h : a.Generates w) :
    n.Generates w :=
  ⟨_, rule, h.derives⟩

theorem generates_of_terminal (rule : [.terminal t] ∈ n.productions) : n.Generates [t] :=
  ⟨_, rule, .terminal .done⟩

theorem generates_concat (rule : [.nonterminal a, .terminal t] ∈ n.productions)
    (h : a.Generates w) : n.Generates (w ++ [t]) :=
  ⟨_, rule, h.append (.terminal .done)⟩

theorem generates_append (rule : [.nonterminal a, .nonterminal b] ∈ n.productions)
    (ha : a.Generates u) (hb : b.Generates v) : n.Generates (u ++ v) :=
  ⟨_, rule, ha.append hb.derives⟩

theorem generates_enclosed (rule : [.terminal o, .nonterminal a, .terminal c] ∈ n.productions)
    (h : a.Generates w) : n.Generates (o :: (w ++ [c])) :=
  ⟨_, rule, .terminal (h.append (.terminal .done))⟩

end Nonterminal
end PhpGate
