import Indentation.Text.Numeral
import Indentation.Text.WordChar
import Indentation.Token.Kind

/-! The lexer. A shape measures the lexeme of its kind at the front of a text: the result is the
number of characters it takes, and 0 where no such lexeme begins. Reading is total: at each place the
first shape that fits gives the next token, blanks between tokens are dropped and comments are kept. -/
namespace Indentation

abbrev Shape := Text → Nat

namespace Shape
open Text

def span (p : Char → Bool) (t : Text) : Nat := (t.takeWhile p).length

def through (mark : Text) : Text → Nat
  | [] => 0
  | c :: cs => if mark.isPrefixOf (c :: cs) then mark.length else 1 + through mark cs

def isWordStart (c : Char) : Bool := isAsciiLetter c || c == '_'

def word : Shape
  | [] => 0
  | c :: cs => if isWordStart c then 1 + span isWordChar cs else 0

def comment : Shape
  | '/' :: '/' :: cs => 2 + span (· != '\n') cs
  | '/' :: '*' :: cs => 2 + through ['*', '/'] cs
  | _ => 0

def tripleString (t : Text) : Nat :=
  match t.drop (word t) with
  | '"' :: '"' :: '"' :: cs => word t + 3 + through ['"', '"', '"'] cs
  | _ => 0

/-- The inside of a string up to and with its closing quote. A backslash protects the next
character. The string ends early before a line feed and before a backslash that has no character
of its line to protect. -/
def stringTail : Text → Nat
  | [] => 0
  | '"' :: _ => 1
  | '\n' :: _ => 0
  | ['\\'] => 0
  | '\\' :: c :: cs => if c = '\n' then 0 else 2 + stringTail cs
  | _ :: cs => 1 + stringTail cs

def string (t : Text) : Nat :=
  match t.drop (word t) with
  | '"' :: cs => word t + 1 + stringTail cs
  | _ => 0

def character : Shape
  | '\'' :: '\\' :: c :: '\'' :: _ => if c = '\n' then 0 else 4
  | '\'' :: c :: '\'' :: _ => if c = '\'' || c = '\\' || c = '\n' then 0 else 3
  | _ => 0

def symbol : Shape
  | '\'' :: cs => if word cs = 0 then 0 else 1 + word cs
  | _ => 0

def isHexDigit (c : Char) : Bool :=
  isAsciiDigit c || ('a' ≤ c && c ≤ 'f') || ('A' ≤ c && c ≤ 'F')

def hexadecimal : Shape
  | '0' :: x :: cs =>
    if (x = 'x' || x = 'X') && span isHexDigit cs ≠ 0 then 2 + span isHexDigit cs else 0
  | _ => 0

def fraction : Shape
  | '.' :: cs => if span isDigit cs = 0 then 0 else 1 + span isDigit cs
  | _ => 0

def sign : Shape
  | c :: _ => if c = '+' || c = '-' then 1 else 0
  | [] => 0

def exponent : Shape
  | c :: cs =>
    let digits := span isDigit (cs.drop (sign cs))
    if (c = 'e' || c = 'E') && digits ≠ 0 then 1 + sign cs + digits else 0
  | [] => 0

def decimal (t : Text) : Nat :=
  let whole := span isDigit t
  if whole = 0 then 0
  else
    let broken := whole + fraction (t.drop whole)
    broken + exponent (t.drop broken)

def typeLetter : Shape
  | c :: _ => if c ∈ ['l', 'L', 'f', 'F', 'd', 'D'] then 1 else 0
  | [] => 0

def number (t : Text) : Nat :=
  let plain := if hexadecimal t = 0 then decimal t else hexadecimal t
  if plain = 0 then 0 else plain + typeLetter (t.drop plain)

def quotedIdentifier : Shape
  | '\x60' :: cs =>
    let inside := span (fun c => c != '\x60' && c != '\n') cs
    match cs.drop inside with
    | '\x60' :: _ => inside + 2
    | _ => 0
  | _ => 0

def plainIdentifier : Shape
  | c :: cs =>
    if isWordStart c || c == '$' then 1 + span (fun d => isWordChar d || d == '$') cs else 0
  | [] => 0

def identifier (t : Text) : Nat :=
  if quotedIdentifier t = 0 then plainIdentifier t else quotedIdentifier t

def isOperatorChar (c : Char) : Bool :=
  c ∈ ['!', '#', '%', '&', '*', '+', '-', '/', ':', '<', '=', '>', '?', '@', '\\', '^', '|', '~']

def operator (t : Text) : Nat := span isOperatorChar t

def all : List (Kind × Shape) :=
  [(.comment, comment), (.string, tripleString), (.string, string), (.character, character),
    (.number, number), (.symbol, symbol), (.identifier, identifier), (.operator, operator)]

def first (t : Text) : Kind × Nat :=
  (all.findSome? fun entry => if entry.2 t = 0 then none else some (entry.1, entry.2 t)).getD
    (.unknown, 1)

end Shape

structure Token where
  kind : Kind
  text : Text
  start : Nat
  line : Nat
  deriving DecidableEq, Repr

namespace Token

def stop (t : Token) : Nat := t.start + t.text.length

def lastLine (t : Token) : Nat := t.line + t.text.dropLast.count '\n'

def isComment (t : Token) : Bool := t.kind.isComment

def covers (t : Token) (pos : Nat) : Bool := t.start < pos && pos < t.stop

end Token

def isBlank (c : Char) : Bool := c ∈ [' ', '\t', '\x0c', '\r', '\n']

def Kind.ofLexeme (shape : Kind) (t : Text) : Kind :=
  match shape with
  | .identifier | .operator | .unknown => (Kind.reserved? t).getD shape
  | _ => shape

namespace Lexer

def feeds (t : Text) : Nat := t.count '\n'

def tokensFrom (line start : Nat) : Text → List Token
  | [] => []
  | c :: cs =>
    if isBlank c then tokensFrom (line + feeds [c]) (start + 1) cs
    else
      let found := Shape.first (c :: cs)
      let text := c :: cs.take (found.2 - 1)
      ⟨Kind.ofLexeme found.1 text, text, start, line⟩ ::
        tokensFrom (line + feeds text) (start + text.length) (cs.drop (found.2 - 1))
termination_by t => t.length
decreasing_by all_goals simp only [List.length_cons, List.length_drop]; omega

end Lexer

def tokenize (t : Text) : List Token := Lexer.tokensFrom 0 0 t

end Indentation
