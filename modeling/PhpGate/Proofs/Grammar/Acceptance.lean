import PhpGate.Grammar.Compile
import PhpGate.Proofs.Grammar.Derivation
import PhpGate.Proofs.Token.Scan

/-!
The machine accepts exactly what the grammar derives. One direction reads a machine configuration as
an unfinished derivation, which every step extends; the other follows a derivation and says what the
machine does on the terminals of each nonterminal, whatever brackets are open.
-/

namespace PhpGate

open Nonterminal

namespace Machine

/-- The configuration after some terminals, if the machine takes them all. -/
def feed (m : Machine) (w : List Terminal) : Option Machine :=
  w.foldlM step? m

@[simp] theorem feed_nil (m : Machine) : m.feed [] = some m := rfl

@[simp] theorem feed_cons (m : Machine) (t : Terminal) (w : List Terminal) :
    m.feed (t :: w) = (m.step? t).bind fun next => next.feed w := rfl

theorem feed_append (m : Machine) (u w : List Terminal) :
    m.feed (u ++ w) = (m.feed u).bind fun next => next.feed w :=
  List.foldlM_append

theorem run_eq_ok_iff (m m' : Machine) (ts : List Token) :
    m.run ts = .ok m' ↔ m.feed (ts.map fun token => token.terminal) = some m' := by
  induction ts generalizing m with
  | nil => simp [run]
  | cons token rest ih =>
      simp only [run, List.map_cons, feed_cons]
      cases m.step? token.terminal with
      | none => simp
      | some next => simpa using ih next

end Machine

/-- What has been read up to the innermost open bracket, this bracket included. -/
inductive Opened : List Bracket → List Terminal → Prop
  | file : Opened [] [.openTag]
  | bracket {e : Ending} {b : Bracket} {bs : List Bracket} {t : Terminal} {u v : List Terminal}
      (outer : Opened bs u) (h : (sequence e).Generates v) (opens : Machine.opening? t = some b) :
      Opened (b :: bs) (u ++ (v ++ [t]))
  | matchSubject {e : Ending} {bs : List Bracket} {u v : List Terminal} (outer : Opened bs u)
      (h : (sequence e).Generates v) (admits : e.admitsOperand = true) :
      Opened (.matchSubject :: bs) (u ++ (v ++ [.matchKeyword, .openParen]))
  | matchArms {e : Ending} {bs : List Bracket} {u v s : List Terminal} (outer : Opened bs u)
      (h : (sequence e).Generates v) (admits : e.admitsOperand = true)
      (subject : closed.Generates s) :
      Opened (.matchArms :: bs)
        (u ++ (v ++ ([.matchKeyword, .openParen] ++ (s ++ [.closeParen, .openBrace]))))

/-- The terminals that lead to a configuration, as an unfinished derivation. -/
def Machine.Reads (m : Machine) (w : List Terminal) : Prop :=
  match m.focus with
  | .start => m.brackets = [] ∧ w = []
  | .sequence e => ∃ u v, Opened m.brackets u ∧ (sequence e).Generates v ∧ w = u ++ v
  | .classHead =>
      ∃ u v, ∃ e : Ending, Opened m.brackets u ∧ (sequence e).Generates v ∧
        e.admitsOperand = true ∧ w = u ++ (v ++ [.classKeyword])
  | .matchHead =>
      ∃ u v, ∃ e : Ending, Opened m.brackets u ∧ (sequence e).Generates v ∧
        e.admitsOperand = true ∧ w = u ++ (v ++ [.matchKeyword])
  | .matchBody =>
      ∃ u v s, ∃ e : Ending, Opened m.brackets u ∧ (sequence e).Generates v ∧
        e.admitsOperand = true ∧ closed.Generates s ∧
        w = u ++ (v ++ ([.matchKeyword, .openParen] ++ (s ++ [.closeParen])))

namespace Nonterminal

variable {e : Ending} {t : Terminal} {v : List Terminal}

theorem generates_any (h : (sequence e).Generates v) : any.Generates v := by
  cases e with
  | binary => exact generates_of_nonterminal (by decide) h
  | neutral | operand | name | postfixed =>
      exact generates_of_nonterminal (a := closed) (by decide)
        (generates_of_nonterminal (by decide) h)

theorem generates_closed (h : (sequence e).Generates v) (he : e.isClosed = true) :
    closed.Generates v := by
  cases e with
  | binary => contradiction
  | neutral | operand | name | postfixed => exact generates_of_nonterminal (by decide) h

theorem generates_admitting (h : (sequence e).Generates v) (he : e.admitsOperand = true) :
    admitting.Generates v := by
  cases e with
  | operand => contradiction
  | neutral | name | binary | postfixed => exact generates_of_nonterminal (by decide) h

theorem generates_operand (h : (sequence e).Generates v) (he : e.admitsOperand = true)
    {u : List Terminal} (hu : operand.Generates u) : (sequence .operand).Generates (v ++ u) :=
  generates_append (by decide) (generates_admitting h he) hu

theorem generates_name (h : (sequence e).Generates v) (he : e.admitsOperand = true)
    {u : List Terminal} (hu : name.Generates u) : (sequence .name).Generates (v ++ u) :=
  generates_append (by decide) (generates_admitting h he) hu

theorem generates_group (h : (sequence e).Generates v) {u : List Terminal}
    (hu : group.Generates u) : (sequence .neutral).Generates (v ++ u) :=
  generates_append (by decide) (generates_any h) hu

end Nonterminal

namespace Machine

/-- A terminal inside a sequence, brackets apart, extends the derivation of that sequence. -/
theorem reads_extend {e : Ending} {bs : List Bracket} {w : List Terminal} {t : Terminal}
    {focus : Focus} (h : Reads ⟨.sequence e, bs⟩ w) (step : extend e t = some focus) :
    Reads ⟨focus, bs⟩ (w ++ [t]) := by
  obtain ⟨u, v, outer, seq, rfl⟩ := h
  simp only [List.append_assoc]
  cases t with
  | variableName | number | singleQuoted | doubleQuoted | backtick | heredoc =>
      simp only [extend, Option.ite_none_right_eq_some, Option.some.injEq] at step
      obtain ⟨admits, rfl⟩ := step
      exact ⟨u, _, outer, generates_operand seq admits (generates_of_terminal (by decide)), rfl⟩
  | name | anonymousClass =>
      simp only [extend, Option.ite_none_right_eq_some, Option.some.injEq] at step
      obtain ⟨admits, rfl⟩ := step
      exact ⟨u, _, outer, generates_name seq admits (generates_of_terminal (by decide)), rfl⟩
  | classKeyword | matchKeyword =>
      simp only [extend, Option.ite_none_right_eq_some, Option.some.injEq] at step
      obtain ⟨admits, rfl⟩ := step
      exact ⟨u, v, e, outer, seq, admits, rfl⟩
  | operator | keywordOperator =>
      simp only [extend, Option.some.injEq] at step
      subst step
      exact ⟨u, _, outer, generates_append (a := any) (b := binary) (by decide)
        (generates_any seq) (generates_of_terminal (by decide)), rfl⟩
  | increment | ellipsis =>
      simp only [extend, Option.some.injEq] at step
      subst step
      exact ⟨u, _, outer, generates_append (a := any) (b := postfixed) (by decide)
        (generates_any seq) (generates_of_terminal (by decide)), rfl⟩
  | semicolon | comma | inlineHtml =>
      simp only [extend, Option.ite_none_right_eq_some, Option.some.injEq] at step
      obtain ⟨isClosed, rfl⟩ := step
      exact ⟨u, _, outer, generates_concat (by decide) (generates_closed seq isClosed), rfl⟩
  | colon =>
      simp only [extend, Option.some.injEq] at step
      subst step
      exact ⟨u, _, outer, generates_concat (by decide) (generates_any seq), rfl⟩
  | openTag | lineComment | blockComment | expressionBrace | blank | attributeBracket | openBrace
  | openParen | openBracket | closeBrace | closeParen | closeBracket => simp [extend] at step

/-- A closing bracket completes the group or the match that its bracket began. -/
theorem reads_close {e : Ending} {bs : List Bracket} {w : List Terminal} {t : Terminal}
    {next : Machine} (h : Reads ⟨.sequence e, bs⟩ w) (step : close? e bs t = some next) :
    Reads next (w ++ [t]) := by
  obtain ⟨u, s, outer, seq, rfl⟩ := h
  cases outer with
  | file => simp [close?] at step
  | @bracket e' b bs t' u v outer before opens =>
      simp only [close?, Option.ite_none_right_eq_some, Option.some.injEq, Bool.and_eq_true,
        decide_eq_true_eq] at step
      obtain ⟨⟨rfl, closes⟩, rfl⟩ := step
      have inner : group.Generates (t' :: (s ++ [b.closer])) := by
        cases t' <;> simp only [opening?, Option.some.injEq, reduceCtorEq] at opens <;> subst opens
        case openBrace =>
          obtain rfl : e = .neutral := by simpa [Bracket.closesAfter] using closes
          exact generates_enclosed (by decide) seq
        all_goals exact generates_enclosed (by decide) (generates_closed seq closes)
      have focus : afterClosing b = .sequence .neutral := by
        cases t' <;> simp only [opening?, Option.some.injEq, reduceCtorEq] at opens <;>
          subst opens <;> rfl
      rw [focus]
      exact ⟨u, _, outer, generates_group before inner, by simp⟩
  | matchSubject outer before admits =>
      simp only [close?, Option.ite_none_right_eq_some, Option.some.injEq, Bool.and_eq_true,
        decide_eq_true_eq] at step
      obtain ⟨⟨rfl, closes⟩, rfl⟩ := step
      exact ⟨_, _, s, _, outer, before, admits, generates_closed seq closes,
        by simp [Bracket.closer]⟩
  | @matchArms e' bs u v subject outer before admits subjectSeq =>
      simp only [close?, Option.ite_none_right_eq_some, Option.some.injEq, Bool.and_eq_true,
        decide_eq_true_eq] at step
      obtain ⟨⟨rfl, closes⟩, rfl⟩ := step
      have whole : matchExpression.Generates
          ([.matchKeyword, .openParen] ++ (subject ++ ([.closeParen, .openBrace] ++
            (s ++ [.closeBrace])))) :=
        ⟨_, List.mem_singleton_self _, .terminal (.terminal (subjectSeq.append (.terminal (.terminal
          ((generates_closed seq closes).append (.terminal .done))))))⟩
      refine ⟨u, _, outer,
        generates_operand before admits (generates_of_nonterminal (by decide) whole), ?_⟩
      simp [Bracket.closer]

theorem reads_step {m next : Machine} {w : List Terminal} {t : Terminal} (h : m.Reads w)
    (step : m.step? t = some next) : next.Reads (w ++ [t]) := by
  obtain ⟨focus, bs⟩ := m
  cases focus with
  | start =>
      obtain ⟨rfl, rfl⟩ := h
      simp only [step?, Option.ite_none_right_eq_some, Option.some.injEq] at step
      obtain ⟨rfl, rfl⟩ := step
      exact ⟨_, [], .file, ⟨[], by decide, .done⟩, rfl⟩
  | classHead =>
      obtain ⟨u, v, e, outer, seq, admits, rfl⟩ := h
      simp only [step?, Option.ite_none_right_eq_some, Option.some.injEq] at step
      obtain ⟨rfl, rfl⟩ := step
      have head : classHead.Generates [.classKeyword, .name] :=
        ⟨_, List.mem_singleton_self _, .terminal (.terminal .done)⟩
      exact ⟨u, _, outer, generates_name seq admits (generates_of_nonterminal (by decide) head),
        by simp⟩
  | matchHead =>
      obtain ⟨u, v, e, outer, seq, admits, rfl⟩ := h
      simp only [step?, Option.ite_none_right_eq_some, Option.some.injEq] at step
      obtain ⟨rfl, rfl⟩ := step
      exact ⟨_, [], .matchSubject outer seq admits, ⟨[], by decide, .done⟩, by simp⟩
  | matchBody =>
      obtain ⟨u, v, s, e, outer, seq, admits, subject, rfl⟩ := h
      simp only [step?, Option.ite_none_right_eq_some, Option.some.injEq] at step
      obtain ⟨rfl, rfl⟩ := step
      exact ⟨_, [], .matchArms outer seq admits subject, ⟨[], by decide, .done⟩, by simp⟩
  | sequence e =>
      simp only [step?] at step
      split at step
      · rename_i b opens
        cases step
        obtain ⟨u, v, outer, seq, rfl⟩ := h
        exact ⟨_, [], .bracket outer seq opens, ⟨[], by decide, .done⟩, by simp⟩
      · split at step
        · rename_i focus extends_
          cases step
          exact reads_extend h extends_
        · exact reads_close h step

theorem reads_feed {m m' : Machine} {u w : List Terminal} (h : m.Reads u)
    (run : m.feed w = some m') : m'.Reads (u ++ w) := by
  induction w generalizing m u with
  | nil =>
      cases run
      simpa using h
  | cons t w ih =>
      obtain ⟨next, step, rest⟩ := Option.bind_eq_some_iff.mp run
      simpa using ih (reads_step h step) rest

theorem reads_initial : initial.Reads [] :=
  ⟨rfl, rfl⟩

/-- A configuration in which the input may end has read a derivable sequence. -/
theorem generates_of_accepts {m : Machine} {w : List Terminal} (h : m.Reads w)
    (ends : m.accepts = true) : start.Generates w := by
  obtain ⟨focus, bs⟩ := m
  simp only [accepts, Bool.and_eq_true, beq_iff_eq, List.isEmpty_iff] at ends
  obtain ⟨rfl, rfl⟩ := ends
  obtain ⟨u, v, outer, seq, rfl⟩ := h
  cases outer
  exact ⟨_, List.mem_singleton_self _, .terminal seq.derives⟩

end Machine

/-- On these terminals a sequence that ends in `e` comes to end in `e'`, whatever brackets are
open. -/
def Leads (e e' : Ending) (w : List Terminal) : Prop :=
  ∀ bs, Machine.feed ⟨.sequence e, bs⟩ w = some ⟨.sequence e', bs⟩

/-- What the machine does on the terminals of a nonterminal. -/
def Nonterminal.Effect (w : List Terminal) : Nonterminal → Prop
  | start => Machine.initial.feed w = some ⟨.sequence .neutral, []⟩
  | sequence e => Leads .neutral e w
  | closed => ∃ e, e.isClosed = true ∧ Leads .neutral e w
  | admitting => ∃ e, e.admitsOperand = true ∧ Leads .neutral e w
  | any => ∃ e, Leads .neutral e w
  | operand | matchExpression => ∀ e, e.admitsOperand = true → Leads e .operand w
  | name | classHead => ∀ e, e.admitsOperand = true → Leads e .name w
  | binary => ∀ e, Leads e .binary w
  | postfixed => ∀ e, Leads e .postfixed w
  | group => ∀ e, Leads e .neutral w

/-- The terminals of a form, cut into those of its symbols. -/
def Form.Effect : Form → List Terminal → Prop
  | [], w => w = []
  | .terminal t :: f, w => ∃ v, w = t :: v ∧ Form.Effect f v
  | .nonterminal n :: f, w => ∃ u v, w = u ++ v ∧ n.Effect u ∧ Form.Effect f v

namespace Form

variable {a b : Nonterminal} {t o c : Terminal} {w : List Terminal}

theorem effect_terminal : Form.Effect [.terminal t] w ↔ w = [t] := by
  simp [Effect]

theorem effect_nonterminal : Form.Effect [.nonterminal a] w ↔ a.Effect w := by
  simp [Effect]

theorem effect_concat :
    Form.Effect [.nonterminal a, .terminal t] w ↔ ∃ u, w = u ++ [t] ∧ a.Effect u := by
  simp [Effect]

theorem effect_append :
    Form.Effect [.nonterminal a, .nonterminal b] w ↔
      ∃ u v, w = u ++ v ∧ a.Effect u ∧ b.Effect v := by
  simp [Effect]

theorem effect_enclosed :
    Form.Effect [.terminal o, .nonterminal a, .terminal c] w ↔
      ∃ u, w = o :: (u ++ [c]) ∧ a.Effect u := by
  constructor
  · rintro ⟨_, rfl, u, _, rfl, effect, _, rfl, rfl⟩
    exact ⟨u, rfl, effect⟩
  · rintro ⟨u, rfl, effect⟩
    exact ⟨_, rfl, u, _, rfl, effect, _, rfl, rfl⟩

end Form

namespace Leads

variable {e e' e'' : Ending} {u w : List Terminal}

theorem empty (e : Ending) : Leads e e [] := fun _ => rfl

theorem append (h : Leads e e' u) (h' : Leads e' e'' w) : Leads e e'' (u ++ w) := by
  intro bs
  simp [Machine.feed_append, h bs, h' bs]

theorem of_extend {t : Terminal} (opens : Machine.opening? t = none)
    (step : Machine.extend e t = some (.sequence e')) : Leads e e' [t] := by
  intro bs
  simp [Machine.step?, opens, step]

theorem enclosed {o c : Terminal} {b : Bracket} (opens : Machine.opening? o = some b)
    (closer : b.closer = c) (inner : Leads .neutral e' w) (closes : b.closesAfter e' = true)
    (after : Machine.afterClosing b = .sequence .neutral) : Leads e .neutral (o :: (w ++ [c])) := by
  subst closer
  intro bs
  have step : Machine.step? ⟨.sequence e', b :: bs⟩ b.closer
      = some ⟨.sequence .neutral, bs⟩ := by
    have opening : Machine.opening? b.closer = none := by cases b <;> rfl
    have extend : Machine.extend e' b.closer = none := by cases b <;> rfl
    simp [Machine.step?, opening, extend, Machine.close?, closes, after]
  have first : Machine.step? ⟨.sequence e, bs⟩ o = some ⟨.sequence .neutral, b :: bs⟩ := by
    simp [Machine.step?, opens]
  simp [Machine.feed_append, first, inner (b :: bs), step]

/-- The subject and the arms of a match stand in brackets of their own. -/
theorem matched {e₁ e₂ : Ending} {s a : List Terminal} (admits : e.admitsOperand = true)
    (closed₁ : e₁.isClosed = true) (subject : Leads .neutral e₁ s)
    (closed₂ : e₂.isClosed = true) (arms : Leads .neutral e₂ a) :
    Leads e .operand (.matchKeyword :: .openParen ::
      (s ++ (.closeParen :: .openBrace :: (a ++ [.closeBrace])))) := by
  intro bs
  have step₁ : Machine.step? ⟨.sequence e₁, .matchSubject :: bs⟩ .closeParen
      = some ⟨.matchBody, bs⟩ := by
    simp [Machine.step?, Machine.opening?, Machine.extend, Machine.close?, Bracket.closer,
      Bracket.closesAfter, closed₁, Machine.afterClosing]
  have step₂ : Machine.step? ⟨.sequence e₂, .matchArms :: bs⟩ .closeBrace
      = some ⟨.sequence .operand, bs⟩ := by
    simp [Machine.step?, Machine.opening?, Machine.extend, Machine.close?, Bracket.closer,
      Bracket.closesAfter, closed₂, Machine.afterClosing]
  have head : Machine.step? ⟨.sequence e, bs⟩ .matchKeyword = some ⟨.matchHead, bs⟩ := by
    simp [Machine.step?, Machine.opening?, Machine.extend, admits]
  have paren : Machine.step? ⟨.matchHead, bs⟩ .openParen
      = some ⟨.sequence .neutral, .matchSubject :: bs⟩ := rfl
  have brace : Machine.step? ⟨.matchBody, bs⟩ .openBrace
      = some ⟨.sequence .neutral, .matchArms :: bs⟩ := rfl
  simp [Machine.feed_append, head, paren, subject (.matchSubject :: bs), step₁, brace,
    arms (.matchArms :: bs), step₂]

end Leads

namespace Nonterminal

theorem effect_of_sequence {e : Ending} {r : Form} {w : List Terminal}
    (rule : r ∈ (sequence e).productions) (h : r.Effect w) : (sequence e).Effect w := by
  cases e with
  | neutral =>
      simp only [productions, List.mem_cons, List.not_mem_nil, or_false] at rule
      obtain rfl | rfl | rfl | rfl | rfl | rfl := rule
      · subst h
        exact .empty .neutral
      · obtain ⟨u, rfl, e, isClosed, seq⟩ := Form.effect_concat.mp h
        exact seq.append (.of_extend rfl (if_pos isClosed))
      · obtain ⟨u, rfl, e, isClosed, seq⟩ := Form.effect_concat.mp h
        exact seq.append (.of_extend rfl (if_pos isClosed))
      · obtain ⟨u, rfl, e, isClosed, seq⟩ := Form.effect_concat.mp h
        exact seq.append (.of_extend rfl (if_pos isClosed))
      · obtain ⟨u, rfl, e, seq⟩ := Form.effect_concat.mp h
        exact seq.append (.of_extend rfl rfl)
      · obtain ⟨u, v, rfl, ⟨e, seq⟩, group⟩ := Form.effect_append.mp h
        exact seq.append (group e)
  | operand | name =>
      obtain rfl := List.mem_singleton.mp rule
      obtain ⟨u, v, rfl, ⟨e, admits, seq⟩, last⟩ := Form.effect_append.mp h
      exact seq.append (last e admits)
  | binary | postfixed =>
      obtain rfl := List.mem_singleton.mp rule
      obtain ⟨u, v, rfl, ⟨e, seq⟩, last⟩ := Form.effect_append.mp h
      exact seq.append (last e)

theorem effect_of_group {r : Form} {w : List Terminal} (rule : r ∈ group.productions)
    (h : r.Effect w) : group.Effect w := by
  intro e
  simp only [productions, List.mem_cons, List.not_mem_nil, or_false] at rule
  obtain rfl | rfl | rfl | rfl | rfl := rule
  case inr.inr.inr.inr =>
    obtain ⟨u, rfl, seq⟩ := Form.effect_enclosed.mp h
    exact .enclosed rfl rfl seq rfl rfl
  all_goals
    obtain ⟨u, rfl, e', isClosed, seq⟩ := Form.effect_enclosed.mp h
    exact .enclosed rfl rfl seq isClosed rfl

/-- What the machine does on the symbols of a right-hand side is what it has to do on the
nonterminal. -/
theorem effect_of_production {n : Nonterminal} {r : Form} {w : List Terminal}
    (rule : r ∈ n.productions) (h : r.Effect w) : n.Effect w := by
  cases n with
  | start =>
      obtain rfl := List.mem_singleton.mp rule
      obtain ⟨v, rfl, seq⟩ := h
      exact (Form.effect_nonterminal.mp seq) []
  | sequence e => exact effect_of_sequence rule h
  | group => exact effect_of_group rule h
  | closed | admitting =>
      simp only [productions, List.mem_cons, List.not_mem_nil, or_false] at rule
      obtain rfl | rfl | rfl | rfl := rule <;>
        exact ⟨_, rfl, Form.effect_nonterminal.mp h⟩
  | any =>
      simp only [productions, List.mem_cons, List.not_mem_nil, or_false] at rule
      obtain rfl | rfl := rule
      · obtain ⟨e, -, seq⟩ := Form.effect_nonterminal.mp h
        exact ⟨e, seq⟩
      · exact ⟨.binary, Form.effect_nonterminal.mp h⟩
  | operand =>
      intro e admits
      simp only [productions, List.mem_cons, List.not_mem_nil, or_false] at rule
      obtain rfl | rfl | rfl | rfl | rfl | rfl | rfl := rule
      case inr.inr.inr.inr.inr.inr => exact Form.effect_nonterminal.mp h e admits
      all_goals
        obtain rfl := Form.effect_terminal.mp h
        exact .of_extend rfl (if_pos admits)
  | matchExpression =>
      obtain rfl := List.mem_singleton.mp rule
      obtain ⟨_, rfl, _, rfl, s, _, rfl, ⟨e₁, closed₁, subject⟩, _, rfl, _, rfl, a, _, rfl,
        ⟨e₂, closed₂, arms⟩, _, rfl, rfl⟩ := h
      exact fun e admits => Leads.matched admits closed₁ subject closed₂ arms
  | name =>
      intro e admits
      simp only [productions, List.mem_cons, List.not_mem_nil, or_false] at rule
      obtain rfl | rfl | rfl := rule
      case inr.inr => exact Form.effect_nonterminal.mp h e admits
      all_goals
        obtain rfl := Form.effect_terminal.mp h
        exact .of_extend rfl (if_pos admits)
  | classHead =>
      intro e admits bs
      obtain rfl := List.mem_singleton.mp rule
      obtain ⟨_, rfl, _, rfl, rfl⟩ := h
      simp [Machine.step?, Machine.opening?, Machine.extend, admits]
  | binary | postfixed =>
      intro e
      simp only [productions, List.mem_cons, List.not_mem_nil, or_false] at rule
      obtain rfl | rfl := rule <;>
      · obtain rfl := Form.effect_terminal.mp h
        exact .of_extend rfl rfl

theorem effect_of_derives {f : Form} {w : List Terminal} (h : Derives f w) : f.Effect w := by
  induction h with
  | done => rfl
  | terminal _ ih => exact ⟨_, rfl, ih⟩
  | production rule _ _ first rest => exact ⟨_, _, rfl, effect_of_production rule first, rest⟩

theorem effect_of_generates {n : Nonterminal} {w : List Terminal} (h : n.Generates w) :
    n.Effect w := by
  obtain ⟨r, rule, derives⟩ := h
  exact effect_of_production rule (effect_of_derives derives)

end Nonterminal

theorem Machine.accepts_iff {m : Machine} :
    m.accepts = true ↔ m = ⟨.sequence .neutral, []⟩ := by
  obtain ⟨focus, brackets⟩ := m
  simp [accepts]

/-- The machine ends where the input may end on exactly the derivable sequences. -/
theorem feed_initial_iff_generates (w : List Terminal) :
    Machine.initial.feed w = some ⟨.sequence .neutral, []⟩ ↔ start.Generates w := by
  constructor
  · intro run
    have read := Machine.reads_feed Machine.reads_initial run
    exact Machine.generates_of_accepts read rfl
  · exact effect_of_generates

/-- Compiling succeeds when nothing is left unread and the machine may end. -/
theorem compile_eq_ok_iff_feed (t : Text) :
    compile t = .ok () ↔
      (Lexing.of t).complete = true ∧
        Machine.initial.feed (terminals t) = some ⟨.sequence .neutral, []⟩ := by
  have complete_iff : (Lexing.of t).complete = true ↔ (Lexing.of t).stop? = none := by
    simp [Lexing.complete, Lexing.stop?]
  rw [complete_iff, terminals, tokens, ← Machine.run_eq_ok_iff, compile]
  cases run : Machine.initial.run (Lexing.of t).tokens with
  | error token => simp
  | ok m =>
      cases stop : (Lexing.of t).stop? with
      | some place => simp
      | none =>
          cases ends : m.accepts with
          | true => simp [← Machine.accepts_iff, ends]
          | false => simp [← Machine.accepts_iff, ends]

/-- Compiling accepts a text exactly when it lexes completely and its tokens are derivable. -/
theorem compile_eq_ok_iff_generates (t : Text) :
    compile t = .ok () ↔
      (Lexing.of t).complete = true ∧ Nonterminal.start.Generates (terminals t) := by
  rw [compile_eq_ok_iff_feed, feed_initial_iff_generates]

end PhpGate
