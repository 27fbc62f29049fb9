import Indentation.Placement.Rules

/-! Questions about a source with signed numbers. A negative index counts from the end of its
table; a negative offset lies before the text, on a line numbered -1 that stands for the last
line. Widths may be set to any number here. -/
namespace Indentation

structure OutOfRange where
  deriving DecidableEq, Repr

structure Query where
  source : Source
  widths : Array Int

namespace Query

abbrev Answer := Except OutOfRange

def ofText (text : Text) : Query :=
  let source := Source.ofText text
  ⟨source, source.widths.map Int.ofNat⟩

def place (size : Nat) (i : Int) : Answer Nat :=
  match i with
  | .ofNat n => if n < size then .ok n else .error {}
  | .negSucc n => if n < size then .ok (size - 1 - n) else .error {}

theorem placeInside {n size : Nat} (inside : n < size) : place size n = .ok n := if_pos inside

def outline (q : Query) : Outline := q.source.outline

def word (q : Query) (i : Int) : Answer Nat := place q.outline.size i

def lineCount (q : Query) : Nat := q.source.lines.size

def line (q : Query) (n : Int) : Answer Line := (place q.lineCount n).map q.source.line

def lineOf (q : Query) : Int → Int
  | .ofNat p => q.source.lineOf p
  | .negSucc _ => -1

def lineStart (q : Query) (n : Int) : Answer Nat := (q.line n).map Line.start

def lineEnd (q : Query) (n : Int) : Answer Int :=
  if n + 1 < q.lineCount then (q.lineStart (n + 1)).map fun p => (p : Int) - 1
  else .ok q.source.text.length

def margin (q : Query) (n : Int) : Answer Nat := (q.line n).map Line.margin

def isBlank (q : Query) (n : Int) : Answer Bool := do
  let first ← q.margin n
  let last ← q.lineEnd n
  return (first : Int) == last

def indentation (q : Query) (n : Int) : Answer Int :=
  (place q.widths.size n).map fun k => (q.widths[k]?).getD 0

def setIndentation (q : Query) (n width : Int) : Answer Query :=
  (place q.widths.size n).map fun k => { q with widths := q.widths.setIfInBounds k width }

/-- The length of a text with its tabs expanded; a carriage return begins the columns anew. -/
def expandedLength (t : Text) : Nat :=
  (t.foldl (fun (length, column) c =>
    let next := Text.advance column c
    (length + (next - column), if c = '\r' then 0 else next)) (0, 0)).1

def column (q : Query) (pos : Int) : Answer Int := do
  let n := q.lineOf pos
  let l ← q.line n
  if pos < l.margin then
    let stop := if pos < 0 then (q.source.text.length + pos).toNat else pos.toNat
    return expandedLength ((q.source.text.take stop).drop l.start)
  else
    let width ← q.indentation n
    return width + (pos - l.margin)

def blankBetween (q : Query) (before after : Int) : Bool :=
  let begin_ := (q.lineOf before + 1).toNat
  (List.range' begin_ ((q.lineOf after).toNat - begin_)).any fun n => (q.source.line n).isBlank

def rank (q : Query) (pos : Int) : Nat := q.source.rank pos.toNat

def indexAt? (q : Query) (pos : Int) : Option Nat :=
  if pos < 0 then none else q.source.indexAt? pos.toNat

def previous? (q : Query) (pos : Int) : Option Nat := q.source.previous? pos.toNat

def next? (q : Query) (pos : Int) : Option Nat := q.source.next? pos.toNat

def kind? (q : Query) : Int → Option Kind
  | .ofNat i => q.outline.kind? i
  | .negSucc _ => none

def isCaseClause (q : Query) : Int → Bool
  | .ofNat i => q.outline.isCaseClause i
  | .negSucc _ => false

def covering? (q : Query) (pos : Int) : Option Token := q.source.covering? pos.toNat

def lineCode? (q : Query) (n : Int) : Answer (Option Nat) := do
  let first ← q.lineStart n
  match q.source.next? first with
  | none => return none
  | some i =>
    let last ← q.lineEnd n
    return if (q.source.startOf i : Int) ≤ last then some i else none

def isLineHead (q : Query) (i : Int) : Answer Bool := do
  if i = 0 then return true
  let before ← q.word (i - 1)
  let _ ← q.word i
  return q.outline.isLineHead (before + 1)

def partner? (q : Query) (i : Int) : Answer (Option Nat) := (q.word i).map q.outline.partner?

def enclosing? (q : Query) (pos : Int) : Option Nat := q.source.enclosing? pos.toNat

def depth (q : Query) (pos : Int) : Nat := q.source.depth pos.toNat

def breaksIgnored (q : Query) (pos : Int) : Bool := q.source.breaksIgnored pos.toNat

def expressionStart? (q : Query) (i : Int) : Answer (Option Int) := do
  let k ← q.word i
  return if q.outline.isClosing k then (q.outline.opener? k).map fun s => (s.1 : Int) else some i

/-- The head of the line for a word `k` that is asked for from the end. It keeps a negative index
until a group has been stepped over; before the first word there is none to compare with. -/
def lineHeadFromEnd (o : Outline) : (k : Nat) → Answer Int
  | 0 => .error {}
  | p + 1 =>
    let here : Int := (p + 1 : Nat) - o.size
    if o.isLineHead (p + 1) || o.isOpening p then .ok here
    else if o.isClosing p then
      match o.opener? p with
      | none => .ok here
      | some s => .ok (o.lineHeadBefore s.1)
    else lineHeadFromEnd o p

def lineHeadBefore (q : Query) (i : Int) : Answer Int := do
  if i = 0 then return 0
  let k ← q.word i
  if i < 0 then lineHeadFromEnd q.outline k else return q.outline.lineHeadBefore k

def backward (q : Query) (i : Int) : Answer (List Nat) :=
  if i ≤ 0 then .ok []
  else if i ≤ q.outline.size then .ok (q.outline.backward i.toNat)
  else .error {}

/-- The walk from word `k` asked for from the end: past the last word it begins again at the
first. -/
def forwardFromEnd (o : Outline) (k stop : Nat) : List Int :=
  if k < o.size ∧ k < stop then
    if o.isClosing k then []
    else ((k : Int) - o.size) ::
      if o.isOpening k then
        match o.closer? k with
        | none => []
        | some c => (o.forward (c.1 + 1) stop).map Int.ofNat
      else if k + 1 < o.size then forwardFromEnd o (k + 1) stop
      else (o.forward 0 stop).map Int.ofNat
  else []
termination_by o.size - k

def forward (q : Query) (i : Option Int) (stop : Int) : Answer (List Int) :=
  match i with
  | none => .ok []
  | some i =>
    if i < 0 then (q.word i).map fun k => forwardFromEnd q.outline k (q.rank stop)
    else .ok ((q.outline.forward i.toNat (q.rank stop)).map Int.ofNat)

def afterGroups? (q : Query) (i : Int) : Answer (Option Int) := do
  if q.outline.size ≤ i then return some i
  let k ← q.word i
  if q.outline.opens k .paren || q.outline.opens k .square then
    return (q.outline.afterGroups? k).map Int.ofNat
  else return some i

def isRunOn (q : Query) (pos : Int) (s : Strategy) : Bool :=
  (q.indexAt? pos).any fun i => q.outline.isRunOn s i

def bodyIntro? (q : Query) (pos : Int) : Option Nat := q.outline.bodyIntro? (q.rank pos)

def runOnStart (q : Query) (i : Int) (s : Strategy) : Answer Int :=
  (q.word i).map fun k => if i < 0 then i else q.outline.runOnStart s k

def alignedAnchor (q : Query) (settings : Settings) (i : Int) : Answer Nat := do
  let k ← q.word i
  let head ← q.lineHeadBefore i
  return q.source.locate <|
    if head ≠ i || !settings.alignParameters then .margin (q.outline.lineOf k) else .word k

def statementAnchor (q : Query) (settings : Settings) (i : Int) : Answer Nat := do
  let start ← q.expressionStart? i
  let head ← q.lineHeadBefore (start.getD i)
  let first ← q.runOnStart head .keywordsOnly
  q.alignedAnchor settings first

def valueLead (q : Query) (settings : Settings) (anchor stop : Int) : Shift :=
  q.outline.valueLead settings (q.rank anchor) (q.rank stop)

end Query
end Indentation
