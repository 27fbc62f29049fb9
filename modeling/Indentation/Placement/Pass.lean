import Indentation.Event
import Indentation.Placement.Rules

/-! Placing lines. Where a line goes is decided first, as a placement that mentions offsets only; the
widths in force turn a placement into a column. All lines of a text are placed from top to bottom with
one table of widths: each line is measured from lines that have their new width already. Columns are
counted without a limit; only a text that is written out has one. -/
namespace Indentation

inductive CapacityError where
  | beyondOffsets
  | beyondMemory
  deriving DecidableEq, Repr

def CapacityError.message : CapacityError → Text
  | beyondOffsets => "cannot fit 'int' into an index-sized integer".toList
  | beyondMemory => []

def offsetLimit : Nat := 9223372036854775808

/-- All rows of blanks that memory is trusted with are shorter. -/
def memoryLimit : Nat := 4294967296

def capacityError? (blanks : Nat) : Option CapacityError :=
  if offsetLimit ≤ blanks then some .beyondOffsets
  else if memoryLimit ≤ blanks then some .beyondMemory
  else none

structure Target where
  line : Nat
  start : Nat
  number : Nat
  deriving DecidableEq, Repr

inductive Placement where
  | kept
  | starred (comment : Nat)
  | anchored (rule : String) (anchor : Nat) (step : Int)
  | inconsistent (rule : String) (anchor : Nat)
  | flush
  deriving DecidableEq, Repr

namespace Source

def targetOfLine (s : Source) (n : Nat) : Target where
  line := n
  start := ((s.lineCode? n).map s.startOf).getD (s.line n).margin
  number := n + 1

/-- The line of an offset. One before the text stands for the margin of the last line, which
reports then number 0. -/
def target (s : Source) (pos : Int) : Target :=
  match pos with
  | .ofNat p => s.targetOfLine (s.lineOf p)
  | .negSucc _ => ⟨s.lastLine, (s.line s.lastLine).margin, 0⟩

def firstRule? (s : Source) (rules : List Rule) (settings : Settings) (strategy : Strategy)
    (site : Site) : Option (String × Nat × Shift) :=
  rules.findSome? fun rule =>
    (rule.resolve s settings strategy site).map fun found => (rule.name, found)

def placement (s : Source) (rules : List Rule) (settings : Settings) (strategy : Strategy)
    (t : Target) : Placement :=
  match s.covering? (s.line t.line).margin with
  | some token =>
    if token.isComment && (s.line t.line).fromMargin.head? == some '*' then .starred token.start
    else .kept
  | none =>
    match s.firstRule? rules settings strategy (s.site t.start) with
    | none => .flush
    | some (rule, anchor, step) =>
      if t.start ≤ anchor then .inconsistent rule anchor
      else .anchored rule anchor (step.size settings)

end Source

namespace Placement

def width (p : Placement) (s : Source) (widths : Widths) (t : Target) : Nat :=
  match p with
  | kept | inconsistent _ _ => (widths[t.line]?).getD 0
  | starred comment => s.column widths comment + 1
  | anchored _ anchor step => (s.column widths anchor + step).toNat
  | flush => 0

def events (p : Placement) (s : Source) (widths : Widths) (t : Target) : List Event :=
  match p with
  | anchored rule anchor step => [.placed t.number rule (s.column widths anchor) step]
  | inconsistent rule anchor => [.inconsistent t.number rule anchor t.start]
  | kept | starred _ | flush => []

end Placement

structure Pass where
  widths : Widths
  events : List Event
  deriving DecidableEq, Repr

def Pass.excess? (p : Pass) : Option (Nat × CapacityError) :=
  (List.range p.widths.size).findSome? fun n =>
    ((p.widths[n]?).bind capacityError?).map fun e => (n, e)

namespace Source

def isVerbatim (s : Source) (n : Nat) : Bool :=
  (s.covering? (s.line n).start).any fun t => t.kind == .string

def passLine (s : Source) (rules : List Rule) (settings : Settings) (strategy : Strategy)
    (pass : Pass) (n : Nat) : Pass :=
  if s.isVerbatim n then pass
  else if (s.line n).isBlank then { pass with widths := pass.widths.setIfInBounds n 0 }
  else
    let t := s.targetOfLine n
    let p := s.placement rules settings strategy t
    { widths := pass.widths.setIfInBounds n (p.width s pass.widths t)
      events := pass.events ++ p.events s pass.widths t }

def passTo (s : Source) (rules : List Rule) (settings : Settings) (strategy : Strategy)
    (count : Nat) : Pass :=
  (List.range count).foldl (s.passLine rules settings strategy) ⟨s.widths, []⟩

def pass (s : Source) (rules : List Rule) (settings : Settings) (strategy : Strategy) : Pass :=
  s.passTo rules settings strategy s.lines.size

def renderLine (s : Source) (widths : Widths) (n : Nat) : Text :=
  let l := s.line n
  if s.isVerbatim n then l.content
  else if l.isBlank then if l.endsWithReturn then ['\r'] else []
  else List.replicate ((widths[n]?).getD 0) ' ' ++ l.fromMargin

def render (s : Source) (widths : Widths) : Text :=
  Text.unlines ((List.range s.lines.size).map (s.renderLine widths))

end Source
end Indentation
