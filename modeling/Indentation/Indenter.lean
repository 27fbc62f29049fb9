import Indentation.Placement.Pass
import Indentation.Session

/-! The indenter of an editor: settings, a session, a lexer and a chain of rules. A lexer may
refuse a text; then nothing is changed and the indentation at hand is reported. -/
namespace Indentation

abbrev Lexing := Text → Except String (List Token)

structure Indenter where
  settings : Settings := {}
  session : Session := {}
  lexing : Lexing := fun t => .ok (tokenize t)
  rules : List Rule := Rule.builtin

structure Reported (α : Type) where
  value : α
  events : List Event
  deriving DecidableEq, Repr

structure Edited where
  text : Text
  cursor : Int
  deriving DecidableEq, Repr

namespace Text

def clamp (t : Text) (pos : Int) : Nat :=
  if pos < 0 then (t.length + pos).toNat else min pos.toNat t.length

def fromLineOf (t : Text) (pos : Int) : Text :=
  let p := t.clamp pos
  t.drop (p - ((t.take p).reverse.takeWhile (· != '\n')).length)

def currentWidth (t : Text) (pos : Int) : Nat := leadingWidth 0 (t.fromLineOf pos)

end Text

namespace Indenter

def new (settings : Settings) : Indenter :=
  { settings, session := { default_ := settings.strategy } }

def indentCommand : String := "indent-line"

def read (ind : Indenter) (text : Text) : Except Event Source :=
  match ind.lexing text with
  | .ok tokens => .ok (.ofTokens text tokens)
  | .error reason => .error (.unreadable reason)

def columnFor (ind : Indenter) (s : Source) (strategy : Strategy) (t : Target) : Reported Nat :=
  let p := s.placement ind.rules ind.settings strategy t
  ⟨p.width s s.widths t, p.events s s.widths t⟩

def calculate (ind : Indenter) (text : Text) (pos : Int) (strategy : Option Strategy) :
    Reported Nat :=
  match ind.read text with
  | .error e => ⟨text.currentWidth pos, [e]⟩
  | .ok s => ind.columnFor s (strategy.getD ind.session.effective) (s.target pos)

def moveLine (s : Source) (t : Target) (pos : Int) (width : Nat) : Edited :=
  let l := s.line t.line
  { text := s.text.take l.start ++ List.replicate width ' ' ++ s.text.drop l.margin
    cursor := if pos < l.margin then l.start + width else pos + width - (l.margin - l.start) }

def newColumn? (ind : Indenter) (s : Source) (strategy : Strategy) (t : Target) :
    Option (Reported Nat) :=
  if s.isVerbatim t.line then none else some (ind.columnFor s strategy t)

def indentLine (ind : Indenter) (text : Text) (pos : Int) (strategy : Option Strategy)
    (command : Option String) : Indenter × Reported Edited :=
  let (session, started) := ind.session.start command
  let unchanged := Edited.mk text pos
  let result : Reported Edited :=
    match ind.read text with
    | .error e => ⟨unchanged, [e]⟩
    | .ok s =>
      let t := s.target pos
      match ind.newColumn? s (strategy.getD session.effective) t with
      | none => ⟨unchanged, []⟩
      | some column => ⟨moveLine s t pos column.value, column.events⟩
  ({ ind with session }, { result with events := started ++ result.events })

def tryIndentLine (ind : Indenter) (text : Text) (pos : Int) (strategy : Option Strategy)
    (command : Option String) : Indenter × Reported (Except CapacityError Edited) :=
  let (session, started) := ind.session.start command
  let unchanged := Edited.mk text pos
  let result : Reported (Except CapacityError Edited) :=
    match ind.read text with
    | .error e => ⟨.ok unchanged, [e]⟩
    | .ok s =>
      let t := s.target pos
      match ind.newColumn? s (strategy.getD session.effective) t with
      | none => ⟨.ok unchanged, []⟩
      | some column =>
        match capacityError? column.value with
        | none => ⟨.ok (moveLine s t pos column.value), column.events⟩
        | some e => ⟨.error e, column.events⟩
  ({ ind with session }, { result with events := started ++ result.events })

def reindent (ind : Indenter) (text : Text) (strategy : Option Strategy) :
    Indenter × Reported Text :=
  let session := ind.session.finish
  let result : Reported Text :=
    match ind.read text with
    | .error e => ⟨text, [e]⟩
    | .ok s =>
      let p := s.pass ind.rules ind.settings (strategy.getD session.effective)
      ⟨s.render p.widths, p.events⟩
  ({ ind with session }, result)

/-- Indents every line when all their blanks can be made. The reports end with the first line that
has too many. -/
def tryReindent (ind : Indenter) (text : Text) (strategy : Option Strategy) :
    Indenter × Reported (Except CapacityError Text) :=
  let session := ind.session.finish
  let result : Reported (Except CapacityError Text) :=
    match ind.read text with
    | .error e => ⟨.ok text, [e]⟩
    | .ok s =>
      let effective := strategy.getD session.effective
      let p := s.pass ind.rules ind.settings effective
      match p.excess? with
      | none => ⟨.ok (s.render p.widths), p.events⟩
      | some (n, e) => ⟨.error e, (s.passTo ind.rules ind.settings effective (n + 1)).events⟩
  ({ ind with session }, result)

theorem tryReindentOk {ind : Indenter} {text : Text} {strategy : Option Strategy} {result : Text}
    (h : (ind.tryReindent text strategy).2.value = .ok result) :
    (ind.reindent text strategy).2.value = result := by
  unfold tryReindent at h
  unfold reindent
  cases hr : ind.read text with
  | error e => simp only [hr] at h ⊢; exact Except.ok.inj h
  | ok s =>
      simp only [hr] at h ⊢
      split at h
      · exact Except.ok.inj h
      · cases h

def rotate (ind : Indenter) : Indenter × Reported Strategy :=
  let (session, events) := ind.session.rotate
  ({ ind with session }, ⟨session.effective, events⟩)

end Indenter
end Indentation
