import Indentation.Token.Lexer

/-! The outline of a text is what the rules of indentation read: the code words by kind and line,
which lines are blank, and how brackets nest. It holds no offset, no column and no text, so moving a
line sideways does not change it. Brackets are matched by place, not by shape: a closing bracket
answers the innermost bracket still open, and one that finds none open is passed over.
Movement is over balanced expressions: a word that is no bracket, or a bracket group as a whole, named
by its first word. Walks stay at one level of nesting. -/
namespace Indentation
namespace Nesting

abbrev Stack := List Nat

def step (stack : Stack) (i : Nat) (k : Kind) : Stack :=
  if k.isClosing then stack.tail else if k.isOpening then i :: stack else stack

def openStacksFrom (stack : Stack) (i : Nat) : List Kind → List Stack
  | [] => [stack]
  | k :: ks => stack :: openStacksFrom (step stack i k) (i + 1) ks

def openStacks (kinds : List Kind) : List Stack := openStacksFrom [] 0 kinds

end Nesting

structure Word where
  kind : Kind
  /-- The length of an operator made of vertical bars only, and 0 for every other word. -/
  bars : Nat
  line : Nat
  lastLine : Nat
  deriving DecidableEq, Repr

def Token.toWord (t : Token) : Word where
  kind := t.kind
  bars := if t.kind = .operator ∧ t.text.all (· == '|') then t.text.length else 0
  line := t.line
  lastLine := t.lastLine

structure Outline where
  words : Array Word
  blanks : Array Bool
  nest : Array Nesting.Stack
  deriving DecidableEq, Repr

namespace Outline

def ofWords (words : List Word) (blanks : List Bool) : Outline where
  words := words.toArray
  blanks := blanks.toArray
  nest := (Nesting.openStacks (words.map Word.kind)).toArray

def size (o : Outline) : Nat := o.words.size

def kind? (o : Outline) (i : Nat) : Option Kind := (o.words[i]?).map Word.kind

def kindBefore? (o : Outline) : Nat → Option Kind
  | 0 => none
  | j + 1 => o.kind? j

def isOpening (o : Outline) (i : Nat) : Bool := (o.kind? i).any Kind.isOpening

def isClosing (o : Outline) (i : Nat) : Bool := (o.kind? i).any Kind.isClosing

def isKeyword (o : Outline) (i : Nat) (k : Keyword) : Bool := o.kind? i == some (.keyword k)

def isMark (o : Outline) (i : Nat) (m : Mark) : Bool := o.kind? i == some (.mark m)

def opens (o : Outline) (i : Nat) (b : Bracket) : Bool := o.kind? i == some (.opening b)

def lineOf (o : Outline) (i : Nat) : Nat := ((o.words[i]?).map Word.line).getD 0

def rankOfLine (o : Outline) (line : Nat) : Nat := o.words.countP fun w => w.line < line

def blankBetween (o : Outline) (before after : Nat) : Bool :=
  (List.range' (before + 1) (after - (before + 1))).any fun l => (o.blanks[l]?).getD false

def openAt (o : Outline) (i : Nat) : Nesting.Stack := (o.nest[i]?).getD []

def enclosing? (o : Outline) (i : Nat) : Option Nat := (o.openAt i).head?

def inGroup (o : Outline) (i : Nat) : Bool :=
  (o.enclosing? i).any fun b => o.opens b .paren || o.opens b .square

/-- The bracket that a closing bracket answers. It stands earlier: only indexes of earlier words
are ever open, so the comparison always succeeds. -/
def opener? (o : Outline) (i : Nat) : Option {s : Nat // s < i} :=
  if o.isClosing i then
    match o.enclosing? i with
    | some s => if h : s < i then some ⟨s, h⟩ else none
    | none => none
  else none

def closerFrom (o : Outline) (opener j : Nat) : Option Nat :=
  if j < o.size then
    if o.isClosing j && o.enclosing? j == some opener then some j
    else closerFrom o opener (j + 1)
  else none
termination_by o.size - j

def closer? (o : Outline) (i : Nat) : Option {c : Nat // i < c} :=
  if o.isOpening i then
    match o.closerFrom i (i + 1) with
    | some c => if h : i < c then some ⟨c, h⟩ else none
    | none => none
  else none

def partner? (o : Outline) (i : Nat) : Option Nat :=
  if o.isClosing i then (o.opener? i).map (·.1) else (o.closer? i).map (·.1)

def isLineHead (o : Outline) : Nat → Bool
  | 0 => true
  | j + 1 =>
    match o.words[j]?, o.words[j + 1]? with
    | some before, some word => before.lastLine < word.line
    | _, _ => true

def isCaseClause (o : Outline) (i : Nat) : Bool :=
  o.isKeyword i .case_ && !o.isKeyword (i + 1) .class_ && !o.isKeyword (i + 1) .object_

def expressionStart? (o : Outline) (i : Nat) : Option Nat :=
  if o.isClosing i then (o.opener? i).map (·.1) else some i

def before? (o : Outline) : (i : Nat) → Option {s : Nat // s < i}
  | 0 => none
  | j + 1 =>
    if o.isOpening j then none
    else if o.isClosing j then (o.opener? j).map fun s => ⟨s.1, Nat.lt_succ_of_lt s.2⟩
    else some ⟨j, Nat.lt_succ_self j⟩

def after? (o : Outline) (i : Nat) : Option {s : Nat // i < s} :=
  if o.isOpening i then (o.closer? i).map fun c => ⟨c.1 + 1, Nat.lt_succ_of_lt c.2⟩
  else some ⟨i + 1, Nat.lt_succ_self i⟩

def backward (o : Outline) (i : Nat) : List Nat :=
  match o.before? i with
  | none => []
  | some ⟨s, _⟩ => s :: backward o s
termination_by i

def forward (o : Outline) (i stop : Nat) : List Nat :=
  if _ : i < stop ∧ i < o.size then
    if o.isClosing i then []
    else i :: match o.after? i with
      | none => []
      | some ⟨s, _⟩ => forward o s stop
  else []
termination_by stop - i

/-- Back over whole expressions to the first one on a line. A group that spans lines is one step,
so the result may be on an earlier line. -/
def lineHeadBefore (o : Outline) (i : Nat) : Nat :=
  if o.isLineHead i then i
  else match o.before? i with
    | none => i
    | some ⟨s, _⟩ => lineHeadBefore o s
termination_by i

theorem lineHeadBeforeLe (o : Outline) (i : Nat) : o.lineHeadBefore i ≤ i := by
  induction i using Nat.strongRecOn with
  | ind i ih =>
    rw [lineHeadBefore]
    split
    · exact Nat.le_refl i
    · split
      · exact Nat.le_refl i
      next s below _ => exact Nat.le_trans (ih s below) (Nat.le_of_lt below)

def afterGroups? (o : Outline) (i : Nat) : Option Nat :=
  if _ : i < o.size ∧ (o.opens i .paren || o.opens i .square) then
    match o.closer? i with
    | none => none
    | some ⟨c, _⟩ => afterGroups? o (c + 1)
  else some i
termination_by o.size - i

end Outline
end Indentation
