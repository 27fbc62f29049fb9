import Indentation.Text.Basic

/-! Texts as bytes. A sequence of bytes that is no text in UTF-8 is reported with the first bytes
that cannot be read. -/
namespace Indentation.Text

structure Utf8Error where
  lead : UInt8
  start : Nat
  stop : Nat
  reason : String
  deriving DecidableEq, Repr

namespace Utf8Error

def message (e : Utf8Error) : Text :=
  let place :=
    if e.stop = e.start + 1 then
      "byte 0x".toList ++ hex 2 e.lead.toNat ++ " in position ".toList ++ ofNat e.start
    else "bytes in position ".toList ++ ofNat e.start ++ '-' :: ofNat (e.stop - 1)
  "'utf-8' codec can't decode ".toList ++ place ++ ": ".toList ++ e.reason.toList

end Utf8Error

namespace Utf8

def following? (lead : UInt8) : Option (List (UInt8 × UInt8)) :=
  let any : UInt8 × UInt8 := (0x80, 0xBF)
  if lead < 0x80 then some []
  else if lead < 0xC2 then none
  else if lead < 0xE0 then some [any]
  else if lead = 0xE0 then some [(0xA0, 0xBF), any]
  else if lead = 0xED then some [(0x80, 0x9F), any]
  else if lead < 0xF0 then some [any, any]
  else if lead = 0xF0 then some [(0x90, 0xBF), any, any]
  else if lead < 0xF4 then some [any, any, any]
  else if lead = 0xF4 then some [(0x80, 0x8F), any, any]
  else none

def fit : List (UInt8 × UInt8) → List UInt8 → Nat × Option String
  | [], _ => (0, none)
  | _ :: _, [] => (0, some "unexpected end of data")
  | (low, high) :: ranges, b :: bs =>
    if low ≤ b && b ≤ high then
      let (n, reason) := fit ranges bs
      (n + 1, reason)
    else (0, some "invalid continuation byte")

def faultFrom? (start : Nat) : List UInt8 → Option Utf8Error
  | [] => none
  | b :: bs =>
    match following? b with
    | none => some ⟨b, start, start + 1, "invalid start byte"⟩
    | some ranges =>
      match fit ranges bs with
      | (n, some reason) => some ⟨b, start, start + 1 + n, reason⟩
      | (n, none) => faultFrom? (start + 1 + n) (bs.drop n)
termination_by bytes => bytes.length
decreasing_by simp only [List.length_cons, List.length_drop]; omega

end Utf8

def encode (t : Text) : ByteArray := (String.ofList t).toUTF8

def decode (bytes : ByteArray) : Except Utf8Error Text :=
  match String.fromUTF8? bytes with
  | some s => .ok s.toList
  | none => .error ((Utf8.faultFrom? 0 bytes.toList).getD ⟨0, 0, 1, "invalid start byte"⟩)

end Indentation.Text
