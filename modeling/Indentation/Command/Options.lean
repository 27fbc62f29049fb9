import Indentation.Settings
import Indentation.Text.Numeral

/-! The options of the command. Long options may be shortened as long as one option fits, a value
may be attached with an equals sign, short flags may be joined, and `--` ends the options. The
input file may be followed directly by an output file. -/
namespace Indentation.Command

def endMark : Text := ['-', '-']

/-- What an option was given. An end mark attached as a value is dropped, which leaves nothing. -/
inductive Operand (α : Type) where
  | value (a : α)
  | nothing
  deriving DecidableEq, Repr

namespace Operand

def read? {α : Type} (read : Text → Option α) (t : Text) : Option (Operand α) :=
  if t = endMark then some .nothing else (read t).map .value

def toValue {α : Type} (f : α → Value) : Operand α → Value
  | value a => f a
  | nothing => .list []

end Operand

structure Options where
  file : Text
  output : Option Text := none
  verbose : Bool := false
  stdout : Bool := false
  check : Bool := false
  line : Option (Operand Int) := none
  step : Operand Int := .value 2
  strategy : Operand Strategy := .value .eager
  alignForms : Bool := true
  leadValues : Bool := true
  alignParameters : Bool := true
  deriving DecidableEq, Repr

def Options.preferences (o : Options) : Preferences where
  step := o.step.toValue .int
  alignForms := .bool o.alignForms
  leadValues := .bool o.leadValues
  alignParameters := .bool o.alignParameters
  strategy := o.strategy.toValue fun s => .text s.label.toList

inductive Flag where
  | help | verbose | stdout | check | freeForms | plainValues | freeParameters
  deriving DecidableEq, Repr

inductive Field where
  | line | step | strategy
  deriving DecidableEq, Repr

inductive Switch where
  | flag (f : Flag)
  | field (f : Field)
  deriving DecidableEq, Repr

def switches : List (String × Switch) :=
  [("-h", .flag .help), ("--help", .flag .help), ("-v", .flag .verbose),
    ("--verbose", .flag .verbose), ("--stdout", .flag .stdout), ("--check", .flag .check),
    ("--line", .field .line), ("--step", .field .step), ("--strategy", .field .strategy),
    ("--no-align-forms", .flag .freeForms), ("--no-value-expression", .flag .plainValues),
    ("--no-align-parameters", .flag .freeParameters)]

def switch? (name : Text) : Option Switch :=
  (switches.find? fun entry => entry.1.toList == name).map Prod.snd

inductive Argument where
  | value (t : Text)
  | flags (fs : List Flag)
  | field (f : Field) (attached : Option Text)
  | malformed
  | unknown
  | separator
  deriving DecidableEq, Repr

structure Misuse where
  deriving DecidableEq, Repr

def splitValue (t : Text) : Text × Option Text :=
  let name := t.takeWhile (· != '=')
  match t.drop name.length with
  | [] => (name, none)
  | _ :: value => (name, some value)

def isNegativeNumber : Text → Bool
  | '-' :: cs =>
    let cs := if cs.getLast? == some '\n' then cs.dropLast else cs
    let whole := cs.takeWhile Text.isDigit
    match cs.drop whole.length with
    | [] => !whole.isEmpty
    | '.' :: fraction => !fraction.isEmpty && fraction.all Text.isDigit
    | _ => false
  | _ => false

def shortFlag? (c : Char) : Option Flag :=
  match switch? ['-', c] with
  | some (.flag f) => some f
  | _ => none

def joined (f : Flag) (letters : Text) : Argument :=
  match letters.mapM shortFlag? with
  | some (g :: gs) => .flags (f :: g :: gs)
  | _ => .malformed

def named (name : Text) (s : Switch) (attached : Option Text) : Argument :=
  match s, attached with
  | .field f, attached => .field f attached
  | .flag f, none => .flags [f]
  | .flag f, some letters => if name.length = 2 then joined f letters else .malformed

def unnamed (t : Text) : Argument :=
  if isNegativeNumber t || t.contains ' ' then .value t else .unknown

def shortened (t : Text) : Except Misuse Argument :=
  let (name, attached) := splitValue t
  match switches.filter fun entry => name.isPrefixOf entry.1.toList with
  | [] => .ok (unnamed t)
  | [(full, s)] => .ok (named full.toList s attached)
  | _ => .error {}

def classifyDashes (t : Text) : Except Misuse Argument :=
  match t with
  | '-' :: '-' :: _ => shortened t
  | '-' :: c :: cs =>
    match shortFlag? c with
    | none => .ok (unnamed t)
    | some f => .ok (joined f cs)
  | _ => .ok (.value t)

def classify (t : Text) : Except Misuse Argument :=
  match switch? t, splitValue t with
  | some s, _ => .ok (named t s none)
  | none, (name, some attached) =>
    match switch? name with
    | some s => .ok (named name s (some attached))
    | none => classifyDashes t
  | none, (_, none) => classifyDashes t

def classifyAll : List Text → Except Misuse (List Argument)
  | [] => .ok []
  | t :: ts => do
    if t = endMark then .ok (.separator :: ts.map .value)
    else
      let first ← classify t
      let rest ← classifyAll ts
      .ok (first :: rest)

inductive Stage where
  | input
  | output
  | mark
  | closed
  deriving DecidableEq, Repr

def Stage.afterOption : Stage → Stage
  | input => input
  | _ => closed

structure Progress where
  options : Options := { file := [] }
  stage : Stage := .input
  awaited : Option Field := none
  extra : Bool := false
  deriving DecidableEq, Repr

inductive Stop where
  | misuse | help
  deriving DecidableEq, Repr

def applyFlag (o : Options) : Flag → Except Stop Options
  | .help => .error .help
  | .verbose => .ok { o with verbose := true }
  | .stdout => .ok { o with stdout := true }
  | .check => .ok { o with check := true }
  | .freeForms => .ok { o with alignForms := false }
  | .plainValues => .ok { o with leadValues := false }
  | .freeParameters => .ok { o with alignParameters := false }

def applyField (o : Options) (f : Field) (value : Text) : Except Stop Options :=
  let set : Option Options :=
    match f with
    | .line => (Operand.read? Text.integer? value).map fun n => { o with line := some n }
    | .step => (Operand.read? Text.integer? value).map fun n => { o with step := n }
    | .strategy => (Operand.read? Strategy.ofLabel? value).map fun s => { o with strategy := s }
  match set with
  | some o => .ok o
  | none => .error .misuse

/-- A word that is no option names the next file. A second end mark in the place of the output
file names none. -/
def nameFile (p : Progress) (t : Text) : Progress :=
  match p.stage with
  | .input => { p with options := { p.options with file := t }, stage := .output }
  | .output =>
    { p with
      options := { p.options with output := if t = endMark then none else some t }
      stage := .mark }
  | .mark | .closed => { p with stage := .closed, extra := true }

def passSeparator (p : Progress) : Progress :=
  match p.stage with
  | .input | .output => p
  | .mark => { p with stage := .closed }
  | .closed => { p with extra := true }

def takeArgument (p : Progress) (a : Argument) : Except Stop Progress :=
  match p.awaited with
  | some f =>
    match a with
    | .value t => (applyField p.options f t).map fun options => { p with options, awaited := none }
    | _ => .error .misuse
  | none =>
    let after := { p with stage := p.stage.afterOption }
    match a with
    | .value t => .ok (nameFile p t)
    | .separator => .ok (passSeparator p)
    | .unknown => .ok { after with extra := true }
    | .malformed => .error .misuse
    | .field f none => .ok { after with awaited := some f }
    | .field f (some t) => (applyField p.options f t).map fun options => { after with options }
    | .flags fs => (fs.foldlM applyFlag p.options).map fun options => { after with options }

def finish (p : Progress) : Except Stop Options :=
  if p.extra || p.stage = .input || p.awaited.isSome then .error .misuse else .ok p.options

/-- The options of a command line. Leftover words are a fault only at the end, so a request for
help before the end hides them. -/
def Options.ofArguments (args : List Text) : Except Stop Options :=
  match classifyAll args with
  | .error _ => .error .misuse
  | .ok as => do finish (← as.foldlM takeArgument {})

end Indentation.Command
