/-! Texts are lists of characters: offsets and lengths count code points. A tab reaches to the next
multiple of eight columns, every other character takes one. Only a line feed ends a line; what
follows the last one is a line too, so a text has at least one line and joining gives it back. -/
namespace Indentation

abbrev Text := List Char

namespace Text

abbrev Ranges := List (Nat × Nat)

def Ranges.contains (table : Ranges) (c : Char) : Bool :=
  table.any fun r => r.1 ≤ c.toNat && c.toNat ≤ r.2

def isAsciiLetter (c : Char) : Bool :=
  ('a' ≤ c && c ≤ 'z') || ('A' ≤ c && c ≤ 'Z')

def isAsciiDigit (c : Char) : Bool := '0' ≤ c && c ≤ '9'

def ofNat (n : Nat) : Text := Nat.toDigits 10 n

def ofInt : Int → Text
  | .ofNat n => ofNat n
  | .negSucc n => '-' :: ofNat (n + 1)

def hex (places n : Nat) : Text :=
  let digits := Nat.toDigits 16 n
  List.replicate (places - digits.length) '0' ++ digits

def tabWidth : Nat := 8

def advance (col : Nat) (c : Char) : Nat :=
  if c = '\t' then col + (tabWidth - col % tabWidth) else col + 1

def width (t : Text) : Nat := t.foldl advance 0

def isIndent (c : Char) : Bool := c == ' ' || c == '\t'

def leadingWidth (col : Nat) : Text → Nat
  | [] => col
  | c :: cs => if isIndent c then leadingWidth (advance col c) cs else col

def lines (t : Text) : List Text := t.splitOn '\n'

def unlines (ls : List Text) : Text := List.intercalate ['\n'] ls

theorem linesNeNil (t : Text) : lines t ≠ [] := List.splitOn_ne_nil '\n' t

theorem unlinesLines (t : Text) : unlines (lines t) = t := List.intercalate_splitOn '\n'

theorem linesUnlines {ls : List Text} (some : ls ≠ []) (feedless : ∀ l ∈ ls, '\n' ∉ l) :
    lines (unlines ls) = ls := List.splitOn_intercalate '\n' feedless some

def normalizeLineEnds : Text → Text
  | [] => []
  | '\r' :: '\n' :: cs => '\n' :: normalizeLineEnds cs
  | '\r' :: cs => '\n' :: normalizeLineEnds cs
  | c :: cs => c :: normalizeLineEnds cs

def isWideSpace (c : Char) : Bool :=
  Ranges.contains [(0x85, 0x85), (0xA0, 0xA0), (0x1680, 0x1680), (0x2000, 0x200A), (0x2028, 0x2029),
    (0x202F, 0x202F), (0x205F, 0x205F), (0x3000, 0x3000)] c

def isAsciiSpace (c : Char) : Bool := c == ' ' || (0x09 ≤ c.toNat && c.toNat ≤ 0x0D)

def isSpace (c : Char) : Bool :=
  isAsciiSpace c || (0x1C ≤ c.toNat && c.toNat ≤ 0x1F) || isWideSpace c

def trim (p : Char → Bool) (t : Text) : Text :=
  ((t.dropWhile p).reverse.dropWhile p).reverse

end Text
end Indentation
