import Indentation.Command.Options
import Indentation.Command.Store
import Indentation.Indenter

/-! Running the command on a store of files: the exit status, what is printed, what is reported,
and the files afterwards. -/
namespace Indentation.Command

structure Outcome where
  status : Nat
  output : Text
  log : List String
  store : Store

inductive Failure where
  | notFound (path : Text)
  | preference (e : PreferenceError)
  | unreadable (path : Text) (e : FileError)
  | undecodable (e : Text.Utf8Error)
  | lineOutOfRange (n : Int)
  | lineNotOrdered
  | columnTooLong
  | tooWide (e : CapacityError)
  | unwritable (path : Text) (e : FileError)

def Failure.message : Failure → Text
  | notFound path => "File '".toList ++ path ++ "' not found".toList
  | preference e => e.message
  | unreadable path e => e.message path
  | undecodable e => e.message
  | lineOutOfRange n => "Line ".toList ++ Text.ofInt n ++ " is out of range".toList
  | lineNotOrdered => "'<=' not supported between instances of 'int' and 'list'".toList
  | columnTooLong =>
    "Exceeds the limit (".toList ++ Text.ofNat Text.maxDigits ++
      (" digits) for integer string conversion; use sys.set_int_max_str_digits()" ++
        " to increase the limit").toList
  | tooWide e => e.message
  | unwritable path e => e.message path

def logFault : String := "--- Logging error ---"

def shown (o : Options) (events : List Event) : List String :=
  (events.filter fun e => o.verbose || e.level == .warning).map fun e =>
    if e.isWritable then e.render else logFault

def printed (t : Text) : Text := t ++ ['\n']

def failed (store : Store) (log : List String) (f : Failure) : Outcome :=
  ⟨1, printed ("Error: ".toList ++ f.message), log, store⟩

def showLine (o : Options) (ind : Indenter) (store : Store) (content : Text) :
    Operand Int → Outcome
  | .nothing => failed store [] .lineNotOrdered
  | .value n =>
    let s := Source.ofText content
    if 1 ≤ n ∧ n ≤ s.lines.size then
      let column := ind.calculate content (s.line (n - 1).toNat).start none
      let log := shown o column.events
      if Text.isWritable column.value then ⟨0, printed (Text.ofNat column.value), log, store⟩
      else failed store log .columnTooLong
    else failed store [] (.lineOutOfRange n)

def compare (o : Options) (store : Store) (log : List String) (content result : Text) : Outcome :=
  if result ≠ content then
    ⟨1, printed (o.file ++ " would be reindented".toList), log, store⟩
  else if o.verbose then
    ⟨0, printed (o.file ++ " is correctly indented".toList), log, store⟩
  else ⟨0, [], log, store⟩

def Options.target (o : Options) : Text :=
  match o.output with
  | some (c :: cs) => c :: cs
  | _ => o.file

def save (o : Options) (store : Store) (log : List String) (result : Text) : Outcome :=
  match store.write o.target result.encode with
  | .error e => failed store log (.unwritable o.target e)
  | .ok store => ⟨0, printed ("Saved reindented source to ".toList ++ o.target), log, store⟩

def load (o : Options) (store : Store) : Except Failure (Settings × Text) := do
  if !store.pathExists o.file then throw (.notFound o.file)
  let settings ← o.preferences.settings.mapError .preference
  let bytes ← (store.read o.file).mapError (.unreadable o.file)
  let text ← (Text.decode bytes).mapError .undecodable
  return (settings, text.normalizeLineEnds)

def indent (o : Options) (store : Store) : Outcome :=
  match load o store with
  | .error f => failed store [] f
  | .ok (settings, content) =>
    let ind := Indenter.new settings
    match o.line with
    | some n => showLine o ind store content n
    | none =>
      let result := (ind.tryReindent content none).2
      let log := shown o result.events
      match result.value with
      | .error e => failed store log (.tooWide e)
      | .ok text =>
        if o.check then compare o store log content text
        else if o.stdout then ⟨0, text, log, store⟩
        else save o store log text

def usage : String :=
  "usage: scala-indent [-h] [-v] [--stdout] [--check] [--line LINE] [--step STEP]\n" ++
  "                    [--strategy STRATEGY]\n" ++
  "                    [--no-align-forms] [--no-value-expression] [--no-align-parameters]\n" ++
  "                    scala_file [output_file]\n"

def run (store : Store) (args : List Text) : Outcome :=
  match Options.ofArguments args with
  | .error .misuse => ⟨2, [], [], store⟩
  | .error .help => ⟨0, usage.toList, [], store⟩
  | .ok o => indent o store

end Indentation.Command
