import Indentation.Indenter

/-! An editing buffer: an indenter at work on a text with a cursor. -/
namespace Indentation

structure Buffer where
  indenter : Indenter
  text : Text
  cursor : Int := 0

inductive BufferError where
  | capacity (e : CapacityError)
  | session (f : Session.Fault)
  deriving DecidableEq, Repr

namespace Buffer

def indentLine (b : Buffer) (strategy : Option Strategy) (command : Option String) :
    Reported (Buffer × Option BufferError) :=
  match b.indenter.session.startFault? command with
  | some f => ⟨(b, some (.session f)), []⟩
  | none =>
    let (indenter, result) := b.indenter.tryIndentLine b.text b.cursor strategy command
    let after := match result.value with
      | .ok edited => ({ indenter, text := edited.text, cursor := edited.cursor }, none)
      | .error e => ({ b with indenter }, some (.capacity e))
    ⟨after, result.events⟩

def reindent (b : Buffer) (strategy : Option Strategy) : Reported (Buffer × Option BufferError) :=
  let (indenter, result) := b.indenter.tryReindent b.text strategy
  let after := match result.value with
    | .ok text => ({ b with indenter, text }, none)
    | .error e => ({ b with indenter }, some (.capacity e))
  ⟨after, result.events⟩

def rotate (b : Buffer) : Reported (Buffer × Except BufferError Strategy) :=
  match b.indenter.session.rotateFault? with
  | some f => ⟨(b, .error (.session f)), []⟩
  | none =>
    let (indenter, result) := b.indenter.rotate
    ⟨({ b with indenter }, .ok result.value), result.events⟩

def insert (b : Buffer) (t : Text) : Buffer :=
  let p := b.text.clamp b.cursor
  { b with text := b.text.take p ++ t ++ b.text.drop p, cursor := b.cursor + t.length }

def endCommand (b : Buffer) : Buffer :=
  { b with indenter := { b.indenter with session := b.indenter.session.finish } }

end Buffer
end Indentation
