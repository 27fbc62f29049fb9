import Indentation.Text.Basic

/-! Strategies for run-on lines, from the most restrictive to the most permissive: a line that
continues the statement before it under one strategy does so under every later one. -/
namespace Indentation

inductive Strategy where
  | keywordsOnly | reluctant | operators | eager
  deriving DecidableEq, Repr

namespace Strategy

def all : List Strategy := [keywordsOnly, reluctant, operators, eager]

def rank : Strategy → Nat
  | keywordsOnly => 0 | reluctant => 1 | operators => 2 | eager => 3

instance : LE Strategy := ⟨fun a b => a.rank ≤ b.rank⟩

instance (a b : Strategy) : Decidable (a ≤ b) := inferInstanceAs (Decidable (a.rank ≤ b.rank))

def name : Strategy → String
  | keywordsOnly => "KEYWORDS_ONLY" | reluctant => "RELUCTANT" | operators => "OPERATORS"
  | eager => "EAGER"

def label : Strategy → String
  | keywordsOnly => "keywords-only" | reluctant => "reluctant" | operators => "operators"
  | eager => "eager"

def capital (c : Char) : Text :=
  if c.toNat < 0x80 then [c.toUpper]
  else match c with
    | 'ß' => ['S', 'S'] | 'ı' => ['I'] | 'ſ' => ['S'] | 'ﬀ' => ['F', 'F'] | 'ﬁ' => ['F', 'I']
    | 'ﬂ' => ['F', 'L'] | 'ﬃ' => ['F', 'F', 'I'] | 'ﬄ' => ['F', 'F', 'L'] | 'ﬅ' => ['S', 'T']
    | 'ﬆ' => ['S', 'T'] | _ => [c]

def key (name : Text) : Text :=
  ((Text.trim Text.isSpace name).flatMap capital).map fun c => if c = '-' then '_' else c

def shortNames : List (String × Strategy) := [("OPERATOR", operators), ("KEYWORDS", keywordsOnly)]

def ofName? (name : Text) : Option Strategy :=
  let k := key name
  ((all.map fun s => (s.name, s)) ++ shortNames).findSome? fun entry =>
    if entry.1.toList = k then some entry.2 else none

def ofLabel? (label : Text) : Option Strategy := all.find? fun s => s.label.toList == label

end Strategy

inductive Stray where
  | number (equal : Option Strategy) (wide : Bool)
  | unordered
  deriving DecidableEq, Repr

inductive Default where
  | named (s : Strategy)
  | stray (v : Stray)
  deriving DecidableEq, Repr

namespace Default

/-- The strategy that is applied. A stray value gets the tests that all but the two narrow
strategies share. -/
def strategy : Default → Strategy
  | named s => s
  | stray _ => .operators

def isWide : Default → Bool
  | named s => Strategy.operators ≤ s
  | stray (.number _ wide) => wide
  | stray .unordered => false

def ranked : Default → Strategy
  | named s => s
  | stray (.number equal _) => equal.getD .operators
  | stray .unordered => .operators

end Default
end Indentation
