import Indentation.Outline
import Indentation.Text.Basic

/-! A text with everything read from it: tokens, lines and outline. Offsets are looked up here; the
widths of lines are a table of their own, so that lines can be moved without reading again. The margin
of a line is where its first character other than a space or a tab stands; a line that holds only
blanks and perhaps a carriage return ends at its margin. -/
namespace Indentation

structure Line where
  start : Nat
  content : Text
  deriving DecidableEq, Repr

namespace Line

def lead (l : Line) : Text := l.content.takeWhile Text.isIndent

def body (l : Line) : Text := l.content.dropWhile Text.isIndent

def marginLength (l : Line) : Nat :=
  if l.body = ['\r'] then l.content.length else l.lead.length

def margin (l : Line) : Nat := l.start + l.marginLength

def stop (l : Line) : Nat := l.start + l.content.length

def isBlank (l : Line) : Bool := l.margin == l.stop

def width (l : Line) : Nat := Text.width l.lead

def fromMargin (l : Line) : Text := l.content.drop l.marginLength

def endsWithReturn (l : Line) : Bool := l.content.getLast? == some '\r'

def placeFrom (start : Nat) : List Text → List Line
  | [] => []
  | t :: ts => ⟨start, t⟩ :: placeFrom (start + t.length + 1) ts

def ofText (t : Text) : List Line := placeFrom 0 (Text.lines t)

end Line

structure Source where
  text : Text
  tokens : Array Token
  code : Array Token
  lines : Array Line
  outline : Outline

abbrev Widths := Array Nat

namespace Source

def ofTokens (text : Text) (tokens : List Token) : Source :=
  let code := tokens.filter fun t => !t.isComment
  let lines := Line.ofText text
  { text
    tokens := tokens.toArray
    code := code.toArray
    lines := lines.toArray
    outline := .ofWords (code.map Token.toWord) (lines.map Line.isBlank) }

def ofText (text : Text) : Source := ofTokens text (tokenize text)

def widths (s : Source) : Widths := s.lines.map Line.width

def lastLine (s : Source) : Nat := s.lines.size - 1

def lineOf (s : Source) (pos : Nat) : Nat := (s.lines.countP fun l => l.start ≤ pos) - 1

def line (s : Source) (n : Nat) : Line := (s.lines[n]?).getD ⟨s.text.length, []⟩

def stop (s : Source) : Nat := (s.line s.lastLine).stop

def rank (s : Source) (pos : Nat) : Nat := s.code.countP fun t => t.start < pos

def indexAt? (s : Source) (pos : Nat) : Option Nat :=
  let i := s.rank pos
  if (s.code[i]?).any fun t => t.start == pos then some i else none

def previous? (s : Source) (pos : Nat) : Option Nat :=
  match s.rank pos with
  | 0 => none
  | i + 1 => some i

def next? (s : Source) (pos : Nat) : Option Nat :=
  let i := s.rank pos
  if i < s.code.size then some i else none

def covering? (s : Source) (pos : Nat) : Option Token := s.tokens.find? fun t => t.covers pos

def lineCode? (s : Source) (n : Nat) : Option Nat :=
  (s.next? (s.line n).start).filter fun i =>
    (s.code[i]?).any fun t => t.start ≤ (s.line n).stop

def startOf (s : Source) (i : Nat) : Nat := ((s.code[i]?).map Token.start).getD s.stop

def enclosing? (s : Source) (pos : Nat) : Option Nat := s.outline.enclosing? (s.rank pos)

def depth (s : Source) (pos : Nat) : Nat := (s.outline.openAt (s.rank pos)).length

def column (s : Source) (widths : Widths) (pos : Nat) : Nat :=
  let n := s.lineOf pos
  let l := s.line n
  if pos < l.margin then Text.width (l.content.take (pos - l.start))
  else (widths[n]?).getD 0 + (pos - l.margin)

def breaksIgnored (s : Source) (pos : Nat) : Bool :=
  (s.covering? pos).any (fun t => t.kind == .string) || s.outline.inGroup (s.rank pos)

end Source
end Indentation
