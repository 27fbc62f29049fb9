import Indentation.Outline
import Indentation.Settings

/-! Run-on lines continue the statement of the line before. Which lines do is decided from the
words alone, by a list of tests whose reach grows with the strategy: keywords and reserved marks
first, then member selection, then operators, and at last every line that nothing speaks against.
Indentation is measured from anchors, which are found by way of the first line of a statement. -/
namespace Indentation
namespace Outline

/-- The arrow binds the parameters of a block rather than introducing a body: it is the first of
its brace's level, and neither a clause nor an equals sign stands before it. -/
def isBlockArrow (o : Outline) (arrow : Nat) : Bool :=
  match o.enclosing? arrow with
  | none => false
  | some b => o.opens b .brace && (o.forward (b + 1) arrow).all fun j =>
      !(o.isKeyword j .case_ || o.isMark j .arrow || o.isMark j .equals)

def bodyIntro? (o : Outline) : Nat → Option Nat
  | 0 => none
  | p + 1 =>
    match o.kind? p with
    | some (.mark .equals) => some p
    | some (.mark .arrow) => if o.isBlockArrow p then none else some p
    | some (.closing .paren) =>
      match o.opener? p with
      | some ⟨j + 1, _⟩ => if o.isKeyword j .if_ then some j else none
      | _ => none
    | _ => none

def continues (o : Outline) (groups : Bool) (s : Strategy) (i : Nat) (previous word : Word) : Bool :=
  if word.kind.isClosing then false
  else if o.blankBetween previous.lastLine word.line then false
  else if previous.kind.endsStatement then false
  else if s ≠ .keywordsOnly && o.inGroup i then true
  else if word.kind.startsStatement then false
  else if (o.bodyIntro? i).isSome then false
  else if s = .eager then true
  else if word.kind.continuesStatement then true
  else if previous.kind.needsContinuation then true
  else if word.kind = .opening .square then true
  else if word.kind = .opening .paren && groups then true
  else if s = .keywordsOnly then false
  else if word.kind = .mark .dot || previous.kind = .mark .dot then true
  else if s = .reluctant then false
  else word.kind = .operator || previous.kind = .operator

def continuesAt (o : Outline) (groups : Bool) (s : Strategy) : Nat → Bool
  | 0 => false
  | p + 1 =>
    match o.words[p]?, o.words[p + 1]? with
    | some previous, some word => o.continues groups s (p + 1) previous word
    | _, _ => false

/-- Groups in brackets from word `i` on are curried parameters: an equals sign, a brace or a
run-on follows them. The word that follows opens no group itself. -/
def groupsContinue (o : Outline) (s : Strategy) (i : Nat) : Bool :=
  match o.afterGroups? i with
  | none => false
  | some a => o.isMark a .equals || o.opens a .brace || o.continuesAt false s a

def isRunOn (o : Outline) (s : Strategy) (i : Nat) : Bool :=
  o.continuesAt (o.groupsContinue s i) s i

def runOnStart (o : Outline) (s : Strategy) (i : Nat) : Nat :=
  if o.isRunOn s i then
    match o.before? i with
    | none => i
    | some ⟨e, _⟩ => runOnStart o s (o.lineHeadBefore e)
  else i
termination_by i
decreasing_by exact Nat.lt_of_le_of_lt (o.lineHeadBeforeLe e) (by assumption)

end Outline

inductive Anchor where
  | word (i : Nat)
  | margin (line : Nat)
  deriving DecidableEq, Repr

/-- A distance from an anchor. One level is told apart from a distance that was reckoned, even when
both have the same size. -/
inductive Shift where
  | level
  | columns (n : Int)
  deriving DecidableEq, Repr

namespace Shift

def none : Shift := columns 0

def size (settings : Settings) : Shift → Int
  | level => settings.step
  | columns n => n

end Shift

namespace Outline

def rankOf (o : Outline) : Anchor → Nat
  | .word i => i
  | .margin line => o.rankOfLine line

def alignedAnchor (o : Outline) (settings : Settings) (i : Nat) : Anchor :=
  if o.lineHeadBefore i ≠ i || !settings.alignParameters then .margin (o.lineOf i) else .word i

def statementAnchor (o : Outline) (settings : Settings) (i : Nat) : Anchor :=
  let head := o.lineHeadBefore ((o.expressionStart? i).getD i)
  o.alignedAnchor settings (o.runOnStart .keywordsOnly head)

def valueLead (o : Outline) (settings : Settings) (begin_ end_ : Nat) : Shift :=
  if settings.leadValues then
    match (o.forward begin_ end_).dropWhile fun j => !o.isMark j .equals with
    | _ :: _ :: _ => .level
    | _ => .none
  else .none

end Outline
end Indentation
