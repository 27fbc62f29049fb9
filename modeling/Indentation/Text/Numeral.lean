import Indentation.Text.Basic

/-! Numbers as they are typed and shown. Every script writes its ten digits in a row, so a table of
the zeros is enough. A floating-point number is shown as the shortest decimal that reads back as it:
it is `m * 2 ^ q`, the reals that round to it form an interval whose ends belong to it when `m` is
even, and of the decimals in the interval with fewest digits the nearest is taken. -/
namespace Indentation.Text

def wideZeros : List Nat := [
  0x660, 0x6F0, 0x7C0, 0x966, 0x9E6, 0xA66, 0xAE6, 0xB66, 0xBE6, 0xC66,
  0xCE6, 0xD66, 0xDE6, 0xE50, 0xED0, 0xF20, 0x1040, 0x1090, 0x17E0, 0x1810,
  0x1946, 0x19D0, 0x1A80, 0x1A90, 0x1B50, 0x1BB0, 0x1C40, 0x1C50, 0xA620, 0xA8D0,
  0xA900, 0xA9D0, 0xA9F0, 0xAA50, 0xABF0, 0xFF10, 0x104A0, 0x10D30, 0x11066, 0x110F0,
  0x11136, 0x111D0, 0x112F0, 0x11450, 0x114D0, 0x11650, 0x116C0, 0x11730, 0x118E0, 0x11950,
  0x11C50, 0x11D50, 0x11DA0, 0x16A60, 0x16AC0, 0x16B50, 0x1D7CE, 0x1D7D8, 0x1D7E2, 0x1D7EC,
  0x1D7F6, 0x1E140, 0x1E2F0, 0x1E950, 0x1FBF0]

def digitValue? (c : Char) : Option Nat :=
  if c.toNat < 0x80 then
    if isAsciiDigit c then some (c.toNat - '0'.toNat) else none
  else
    (wideZeros.find? fun z => z ≤ c.toNat && c.toNat < z + 10).map (c.toNat - ·)

def isDigit (c : Char) : Bool := (digitValue? c).isSome

def maxDigits : Nat := 4300

def isWritable (n : Int) : Bool := (ofNat n.natAbs).length ≤ maxDigits

def isNumeralSpace (c : Char) : Bool := isAsciiSpace c || isWideSpace c

def digitValues? : Text → Option (List Nat)
  | [] => none
  | [c] => (digitValue? c).map fun d => [d]
  | c :: '_' :: cs => do
    let d ← digitValue? c
    let ds ← digitValues? cs
    some (d :: ds)
  | c :: cs => do
    let d ← digitValue? c
    let ds ← digitValues? cs
    some (d :: ds)

def natural? (t : Text) : Option Nat := do
  let ds ← digitValues? t
  if ds.length ≤ maxDigits then some (ds.foldl (fun n d => 10 * n + d) 0) else none

def integer? (t : Text) : Option Int :=
  match trim isNumeralSpace t with
  | '+' :: cs => (natural? cs).map Int.ofNat
  | '-' :: cs => (natural? cs).map fun n => -Int.ofNat n
  | cs => (natural? cs).map Int.ofNat

end Indentation.Text

namespace Indentation.Decimal

def twoTo (k : Nat) : Nat := Nat.pow 2 k

def tenTo (k : Nat) : Nat := Nat.pow 10 k

/-- Fractions with one denominator: a value and the ends of the interval that rounds to it. -/
structure Rounding where
  low : Nat
  value : Nat
  high : Nat
  denominator : Nat
  closed : Bool
  deriving DecidableEq, Repr

structure Digits where
  digits : Text
  point : Int
  deriving DecidableEq, Repr

def Rounding.ofFields (exponent mantissa : Nat) : Rounding :=
  let m := if exponent = 0 then mantissa else mantissa + twoTo 52
  let up := twoTo (exponent - 1077)
  let below := if mantissa = 0 && 1 < exponent then 1 else 2
  { low := (4 * m - below) * up
    value := 4 * m * up
    high := (4 * m + 2) * up
    denominator := twoTo (1077 - max exponent 1)
    closed := m % 2 == 0 }

def Rounding.magnitude (r : Rounding) : Int :=
  let a := (Nat.toDigits 10 r.value).length
  let b := (Nat.toDigits 10 r.denominator).length
  if r.denominator * tenTo (a - b) ≤ r.value * tenTo (b - a) then (a : Int) - b + 1 else (a : Int) - b

def Rounding.grid? (r : Rounding) (magnitude : Int) (k : Nat) : Option Nat :=
  let place := magnitude - k
  let scale := tenTo (-place).toNat
  let unit := r.denominator * tenTo place.toNat
  let value := r.value * scale
  let low := value / unit
  let inside (d : Nat) : Bool :=
    if r.closed then r.low * scale ≤ d * unit && d * unit ≤ r.high * scale
    else r.low * scale < d * unit && d * unit < r.high * scale
  let excess := value - low * unit
  let lowFirst := excess * 2 < unit || (excess * 2 == unit && low % 2 == 0)
  let order := if lowFirst then [low, low + 1] else [low + 1, low]
  order.find? inside

def Rounding.shortest (r : Rounding) : Digits :=
  let magnitude := r.magnitude
  match (List.range' 1 17).findSome? fun k => (r.grid? magnitude k).map fun d => (k, d) with
  | some (k, d) =>
    let digits := Nat.toDigits 10 d
    { digits := (digits.reverse.dropWhile (· == '0')).reverse
      point := magnitude + (digits.length - k : Int) }
  | none => ⟨['0'], 1⟩

def exponentText (e : Int) : Text :=
  let digits := Text.ofNat e.natAbs
  (if e < 0 then '-' else '+') :: List.replicate (2 - digits.length) '0' ++ digits

def Digits.render (d : Digits) : Text :=
  let n := d.digits.length
  if -4 < d.point && d.point ≤ 16 then
    if d.point ≤ 0 then '0' :: '.' :: List.replicate d.point.natAbs '0' ++ d.digits
    else
      let p := d.point.toNat
      if n ≤ p then d.digits ++ List.replicate (p - n) '0' ++ ['.', '0']
      else d.digits.take p ++ '.' :: d.digits.drop p
  else
    let tail := d.digits.drop 1
    d.digits.take 1 ++ (if tail.isEmpty then [] else '.' :: tail) ++
      'e' :: exponentText (d.point - 1)

def ofFloat (x : Float) : Text :=
  let bits := x.toBits.toNat
  let exponent := bits / twoTo 52 % twoTo 11
  let mantissa := bits % twoTo 52
  if exponent = 2047 && mantissa ≠ 0 then "nan".toList
  else
    let magnitude :=
      if exponent = 2047 then "inf".toList
      else if exponent = 0 && mantissa = 0 then "0.0".toList
      else (Rounding.ofFields exponent mantissa).shortest.render
    if bits / twoTo 63 = 1 then '-' :: magnitude else magnitude

end Indentation.Decimal
