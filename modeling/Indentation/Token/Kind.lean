import Indentation.Text.Basic

/-! Kinds of tokens. A keyword, a bracket or a reserved mark is recognised by its spelling alone;
the remaining kinds are classes of lexemes. What a kind says about the statement around it is listed
in classes of kinds. -/
namespace Indentation

inductive Keyword where
  | abstract_ | case_ | catch_ | class_ | def_ | do_ | else_ | extends_ | final_ | finally_ | for_
  | forSome_ | if_ | implicit_ | import_ | lazy_ | match_ | new_ | object_ | override_ | package_
  | private_ | protected_ | return_ | sealed_ | throw_ | trait_ | try_ | type_ | val_ | var_
  | while_ | with_ | yield_
  deriving DecidableEq, Repr

inductive Bracket where
  | paren | square | brace
  deriving DecidableEq, Repr

inductive Mark where
  | comma | semicolon | dot | colon | equals | arrow | leftArrow | subtype | supertype | viewBound
  | hash | at_
  deriving DecidableEq, Repr

inductive Kind where
  | comment | string | character | symbol | number | identifier | operator | unknown
  | keyword (k : Keyword)
  | opening (b : Bracket)
  | closing (b : Bracket)
  | mark (m : Mark)
  deriving DecidableEq, Repr

namespace Keyword

def spelling : Keyword → String
  | abstract_ => "abstract" | case_ => "case" | catch_ => "catch" | class_ => "class"
  | def_ => "def" | do_ => "do" | else_ => "else" | extends_ => "extends" | final_ => "final"
  | finally_ => "finally" | for_ => "for" | forSome_ => "forSome" | if_ => "if"
  | implicit_ => "implicit" | import_ => "import" | lazy_ => "lazy" | match_ => "match"
  | new_ => "new" | object_ => "object" | override_ => "override" | package_ => "package"
  | private_ => "private" | protected_ => "protected" | return_ => "return"
  | sealed_ => "sealed" | throw_ => "throw" | trait_ => "trait" | try_ => "try"
  | type_ => "type" | val_ => "val" | var_ => "var" | while_ => "while" | with_ => "with"
  | yield_ => "yield"

def all : List Keyword :=
  [abstract_, case_, catch_, class_, def_, do_, else_, extends_, final_, finally_, for_, forSome_,
    if_, implicit_, import_, lazy_, match_, new_, object_, override_, package_, private_,
    protected_, return_, sealed_, throw_, trait_, try_, type_, val_, var_, while_, with_, yield_]

def label (k : Keyword) : String := k.spelling.map Char.toUpper

end Keyword

namespace Bracket

def label : Bracket → String
  | paren => "PAREN" | square => "BRACKET" | brace => "BRACE"

end Bracket

namespace Mark

def label : Mark → String
  | comma => "COMMA" | semicolon => "SEMI" | dot => "DOT" | colon => "COLON" | equals => "EQUALS"
  | arrow => "ARROW" | leftArrow => "LARROW" | subtype => "SUBTYPE" | supertype => "SUPERTYPE"
  | viewBound => "VIEWBOUND" | hash => "HASH" | at_ => "AT"

end Mark

namespace Kind

def label : Kind → String
  | comment => "COMMENT" | string => "STRING" | character => "CHAR" | symbol => "SYMBOL_LIT"
  | number => "NUMBER" | identifier => "IDENT" | operator => "OPERATOR" | unknown => "UNKNOWN"
  | keyword k => k.label
  | opening b => "L" ++ b.label
  | closing b => "R" ++ b.label
  | mark m => m.label

def isComment (k : Kind) : Bool := k == comment

def isOpening : Kind → Bool
  | opening _ => true
  | _ => false

def isClosing : Kind → Bool
  | closing _ => true
  | _ => false

def markSpellings : List (Text × Kind) :=
  [(['('], opening .paren), ([')'], closing .paren), (['['], opening .square),
    ([']'], closing .square), (['{'], opening .brace), (['}'], closing .brace),
    ([','], mark .comma), ([';'], mark .semicolon), (['.'], mark .dot), ([':'], mark .colon),
    (['='], mark .equals), (['=', '>'], mark .arrow), (['⇒'], mark .arrow),
    (['<', '-'], mark .leftArrow), (['←'], mark .leftArrow), (['<', ':'], mark .subtype),
    (['>', ':'], mark .supertype), (['<', '%'], mark .viewBound), (['#'], mark .hash),
    (['@'], mark .at_)]

def reservedSpellings : List (Text × Kind) :=
  Keyword.all.map (fun k => (k.spelling.toList, keyword k)) ++ markSpellings

def reserved? (t : Text) : Option Kind :=
  (reservedSpellings.find? fun entry => entry.1 == t).map Prod.snd

def endsStatement : Kind → Bool
  | mark .comma | mark .semicolon | mark .arrow | mark .equals | opening _ => true
  | _ => false

def startsStatement : Kind → Bool
  | keyword .extends_ | keyword .forSome_ | keyword .match_ | keyword .with_ => false
  | keyword _ => true
  | _ => false

def bindsType : Kind → Bool
  | mark .colon | mark .subtype | mark .supertype | mark .viewBound => true
  | _ => false

def continuesStatement : Kind → Bool
  | keyword .extends_ | keyword .forSome_ | keyword .match_ | keyword .with_ => true
  | k => k.bindsType

def needsContinuation : Kind → Bool
  | mark .leftArrow | mark .hash | mark .at_ => true
  | keyword .with_ | keyword .extends_ | keyword .forSome_ | keyword .match_ => true
  | keyword .new_ | keyword .yield_ => true
  | k => k.bindsType

def takesDoubleStep : Kind → Bool
  | keyword .with_ | keyword .extends_ | keyword .forSome_ => true
  | k => k.bindsType

def definesNonValue : Kind → Bool
  | keyword .class_ | keyword .trait_ | keyword .object_ | keyword .def_ | keyword .new_ => true
  | keyword .package_ => true
  | _ => false

def isModifier : Kind → Bool
  | keyword .abstract_ | keyword .case_ | keyword .final_ | keyword .implicit_ => true
  | keyword .lazy_ | keyword .override_ | keyword .private_ | keyword .protected_ => true
  | keyword .sealed_ => true
  | _ => false

end Kind
end Indentation
