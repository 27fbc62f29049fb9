import Indentation.Strategy
import Indentation.Text.Numeral

/-! The log: what the indenter reports while it works, and how a report is written. -/
namespace Indentation

inductive Event where
  | placed (number : Nat) (rule : String) (column : Nat) (step : Int)
  | inconsistent (number : Nat) (rule : String) (anchor start : Nat)
  | unreadable (reason : String)
  | repeated (command : Option String) (override : Option Strategy)
  | rotated (strategy : Strategy)
  deriving DecidableEq, Repr

namespace Event

inductive Level where
  | debug | info | warning
  deriving DecidableEq, Repr

def Level.label : Level → String
  | debug => "DEBUG" | info => "INFO" | warning => "WARNING"

def level : Event → Level
  | placed .. | repeated .. => .debug
  | rotated _ => .info
  | inconsistent .. | unreadable _ => .warning

def origin : Event → String
  | placed .. | inconsistent .. | unreadable _ => "scalaindent.main"
  | repeated .. | rotated _ => "scalaindent.strategy"

def decimal (n : Int) : String := String.ofList (Text.ofInt n)

def message : Event → String
  | placed number rule column step =>
    "Line " ++ decimal number ++ ": " ++ rule ++ " anchor at column " ++ decimal column ++
      ", step " ++ decimal step
  | inconsistent number rule anchor start =>
    "Line " ++ decimal number ++ " left at its indentation: " ++ rule ++ " returned anchor " ++
      decimal anchor ++ " for line starting at " ++ decimal start
  | unreadable reason => "Cannot indent: " ++ reason
  | repeated command override =>
    "Repeated " ++ command.getD "None" ++ ", run-on strategy override: " ++
      (override.map Strategy.label).getD "unset"
  | rotated strategy => "Run-on strategy is now " ++ strategy.label

def numbers : Event → List Int
  | placed number _ column step => [number, column, step]
  | inconsistent number _ anchor start => [number, anchor, start]
  | unreadable _ | repeated .. | rotated _ => []

def isWritable (e : Event) : Bool := e.numbers.all Text.isWritable

def render (e : Event) : String := e.level.label ++ " " ++ e.origin ++ ": " ++ e.message

end Event
end Indentation
