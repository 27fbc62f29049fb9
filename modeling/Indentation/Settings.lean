import Indentation.Strategy
import Indentation.Text.Numeral
import Indentation.Text.Quoted

/-! Settings of the indenter, the named values they are given as, and the checks that make settings
of these. The strategy is checked before the step. -/
namespace Indentation

inductive Value where
  | null
  | bool (b : Bool)
  | int (n : Int)
  | float (x : Float)
  | text (t : Text)
  | list (items : List Value)
  | record (entries : List (Text × Value))

namespace Value

def isTrue : Value → Bool
  | null => false
  | bool b => b
  | int n => n != 0
  | float x => !(x == 0.0)
  | text t => !t.isEmpty
  | list items => !items.isEmpty
  | record entries => !entries.isEmpty

def int? : Value → Option Int
  | int n => some n
  | bool b => some (if b then 1 else 0)
  | _ => none

def stray (v : Value) : Stray :=
  match v.int?, v with
  | some n, _ => .number (Strategy.all.find? fun s => s.rank == n) (2 ≤ n)
  | none, float x => .number (Strategy.all.find? fun s => s.rank.toFloat == x) (2.0 ≤ x)
  | none, _ => .unordered

mutual

def render : Value → Text
  | null => "None".toList
  | bool b => (if b then "True" else "False").toList
  | int n => Text.ofInt n
  | float x => Decimal.ofFloat x
  | text t => Text.quote t
  | list items => '[' :: renderItems items ++ [']']
  | record entries => '{' :: renderEntries entries ++ ['}']

def renderItems : List Value → Text
  | [] => []
  | [v] => render v
  | v :: vs => render v ++ ',' :: ' ' :: renderItems vs

def renderEntries : List (Text × Value) → Text
  | [] => []
  | [(k, v)] => Text.quote k ++ ':' :: ' ' :: render v
  | (k, v) :: rest => Text.quote k ++ ':' :: ' ' :: render v ++ ',' :: ' ' :: renderEntries rest

end

end Value

structure Settings where
  step : Nat := 2
  alignForms : Bool := true
  leadValues : Bool := true
  alignParameters : Bool := true
  strategy : Option Default := some (.named .eager)
  stepPos : 0 < step := by decide
  deriving DecidableEq

structure Preferences where
  step : Value := .int 2
  alignForms : Value := .bool true
  leadValues : Value := .bool true
  alignParameters : Value := .bool true
  strategy : Value := .text "eager".toList

inductive PreferenceError where
  | unknownStrategy (name : Text)
  | badStep (value : Value)
  | unknownField (name : Text)

def PreferenceError.message : PreferenceError → Text
  | unknownStrategy name => "Unknown run-on strategy: ".toList ++ name.quote
  | badStep value => "step must be a positive integer, got ".toList ++ value.render
  | unknownField name => "unexpected field ".toList ++ name.quote

namespace Preferences

def set? (p : Preferences) (name : Text) (v : Value) : Option Preferences :=
  if name = "step".toList then some { p with step := v }
  else if name = "align_forms".toList then some { p with alignForms := v }
  else if name = "indent_value_expression".toList then some { p with leadValues := v }
  else if name = "align_parameters".toList then some { p with alignParameters := v }
  else if name = "run_on_strategy".toList then some { p with strategy := v }
  else none

def ofEntries (entries : List (Text × Value)) : Preferences :=
  entries.foldl (fun p entry =>
    match entry.2 with
    | .null => p
    | v => (p.set? (entry.1.map fun c => if c = '-' then '_' else c) v).getD p) {}

def ofFields (entries : List (Text × Value)) : Except PreferenceError Preferences :=
  entries.foldlM (fun p entry =>
    match p.set? entry.1 entry.2 with
    | some p => .ok p
    | none => .error (.unknownField entry.1)) {}

def strategy? (p : Preferences) : Except PreferenceError (Option Default) :=
  match p.strategy with
  | .text name =>
    match Strategy.ofName? name with
    | some s => .ok (some (.named s))
    | none => .error (.unknownStrategy name)
  | .null => .ok none
  | v => .ok (some (.stray v.stray))

def settings (p : Preferences) : Except PreferenceError Settings := do
  let strategy ← p.strategy?
  match p.step.int? with
  | some (.ofNat (n + 1)) =>
    .ok { step := n + 1
          alignForms := p.alignForms.isTrue
          leadValues := p.leadValues.isTrue
          alignParameters := p.alignParameters.isTrue
          strategy
          stepPos := Nat.succ_pos n }
  | _ => .error (.badStep p.step)

end Preferences
end Indentation
