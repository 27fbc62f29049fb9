import Indentation.Event

/-! The strategy of an editing session. An override, while set, wins over the default. Running the
same command again flips the override between unset and the opposite of the default; any other
command clears it. -/
namespace Indentation

structure Session where
  default_ : Option Default := none
  override : Option Strategy := none
  lastCommand : Option String := none
  deriving DecidableEq, Repr

namespace Session

def base (s : Session) : Default := s.default_.getD (.named .eager)

def effective (s : Session) : Strategy := s.override.getD s.base.strategy

def opposite (s : Session) : Strategy :=
  if s.base.isWide then .reluctant else .eager

def start (s : Session) (command : Option String) : Session × List Event :=
  if command = s.lastCommand then
    let override := if s.override.isSome then none else some s.opposite
    ({ s with override, lastCommand := command }, [.repeated command override])
  else ({ s with override := none, lastCommand := command }, [])

def finish (s : Session) : Session := { s with override := none, lastCommand := none }

def following : Strategy → Strategy
  | .reluctant => .operators
  | .operators => .eager
  | .eager => .reluctant
  | .keywordsOnly => .reluctant

def rotate (s : Session) : Session × List Event :=
  let next := following s.base.ranked
  ({ default_ := some (.named next), override := none, lastCommand := some "rotate" },
    [.rotated next])

inductive Fault where
  | unordered
  | unlisted
  deriving DecidableEq, Repr

def startFault? (s : Session) (command : Option String) : Option Fault :=
  if command = s.lastCommand ∧ s.override = none ∧ s.default_ = some (.stray .unordered) then
    some .unordered
  else none

def rotateFault? (s : Session) : Option Fault :=
  match s.default_ with
  | some (.stray .unordered) => some .unordered
  | some (.stray (.number none _)) => some .unlisted
  | _ => none

end Session
end Indentation
