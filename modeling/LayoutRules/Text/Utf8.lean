import LayoutRules.Text.Basic

/-! The UTF-8 form of a text: one to four bytes for each character, the fewest
that hold its code point. Decoding accepts no longer form and no surrogate. -/
namespace LayoutRules

abbrev Bytes := List UInt8

namespace Utf8

def encodeChar (c : Char) : Bytes :=
  let n := c.toNat
  if n < 0x80 then [n.toUInt8]
  else if n < 0x800 then [(0xC0 + n / 64).toUInt8,(0x80 + n % 64).toUInt8]
  else if n < 0x10000 then
    [(0xE0 + n / 4096).toUInt8,(0x80 + n / 64 % 64).toUInt8,(0x80 + n % 64).toUInt8]
  else [(0xF0 + n / 262144).toUInt8,(0x80 + n / 4096 % 64).toUInt8,(0x80 + n / 64 % 64).toUInt8,
    (0x80 + n % 64).toUInt8]

def encode (text : Text) : Bytes := text.flatMap encodeChar

/-- The six bits that a continuation byte carries. -/
def tail? (byte : UInt8) : Option Nat :=
  if 0x80 ≤ byte.toNat ∧ byte.toNat < 0xC0 then some (byte.toNat - 0x80) else none

/-- The character of a code point, if the code point is at
least `least` and a Unicode scalar value. -/
def scalar? (least n : Nat) : Option Char :=
  if least ≤ n ∧ n.isValidChar then some (Char.ofNat n) else none

def decode : Bytes → Option Text
  | [] => some []
  | a :: rest =>
    if a.toNat < 0x80 then do
      let text ← decode rest
      return Char.ofNat a.toNat :: text
    else if a.toNat < 0xC0 then none
    else if a.toNat < 0xE0 then
      match rest with
      | b :: rest => do
        let c ← scalar? 0x80 ((a.toNat - 0xC0) * 64 + (← tail? b))
        let text ← decode rest
        return c :: text
      | [] => none
    else if a.toNat < 0xF0 then
      match rest with
      | b :: c :: rest => do
        let c ← scalar? 0x800 ((a.toNat - 0xE0) * 4096 + (← tail? b) * 64 + (← tail? c))
        let text ← decode rest
        return c :: text
      | _ => none
    else
      match rest with
      | b :: c :: d :: rest => do
        let c ← scalar? 0x10000
          ((a.toNat - 0xF0) * 262144 + (← tail? b) * 4096 + (← tail? c) * 64 + (← tail? d))
        let text ← decode rest
        return c :: text
      | _ => none

end Utf8
end LayoutRules
