/-! Base64, read leniently: characters outside the alphabet are passed over, and the text ends at
the padding that completes a group of four.

* `sixBits?` : the value of a character of the alphabet;
* `decode?` : the octets, or nothing when the last group stays incomplete. -/
namespace SerialAudit.Text.Base64
set_option autoImplicit false

def sixBits? (c : Char) : Option Nat :=
  if 'A' ≤ c ∧ c ≤ 'Z' then some (c.toNat - 0x41)
  else if 'a' ≤ c ∧ c ≤ 'z' then some (c.toNat - 0x61 + 26)
  else if '0' ≤ c ∧ c ≤ '9' then some (c.toNat - 0x30 + 52)
  else if c = '+' then some 62
  else if c = '/' then some 63
  else none

/-- Reads on inside a group of which `place` characters are known; `left` holds the bits that
belong to no octet yet and `pads` counts the padding since the last character of the alphabet. -/
def decodeFrom : Nat → Nat → Nat → List Char → Option (List UInt8)
  | place, _, _, [] => if place = 0 then some [] else none
  | place, left, pads, c :: cs =>
    if c = '=' then
      if 2 ≤ place ∧ 4 ≤ place + (pads + 1) then some []
      else decodeFrom place left (if 2 ≤ place then pads + 1 else pads) cs
    else
      match sixBits? c with
      | none => decodeFrom place left pads cs
      | some v =>
        match place with
        | 0 => decodeFrom 1 v 0 cs
        | 1 => (decodeFrom 2 (v % 16) 0 cs).map (UInt8.ofNat (left * 4 + v / 16) :: ·)
        | 2 => (decodeFrom 3 (v % 4) 0 cs).map (UInt8.ofNat (left * 16 + v / 4) :: ·)
        | _ => (decodeFrom 0 0 0 cs).map (UInt8.ofNat (left * 64 + v) :: ·)

def decode? (cs : List Char) : Option (List UInt8) := decodeFrom 0 0 0 cs

example : decode? "aGk=".toList = some [0x68, 0x69] ∧ decode? "aG k\n=".toList = some [0x68, 0x69] ∧
    decode? "aGk".toList = none ∧ decode? "".toList = some [] := by decide +kernel

end SerialAudit.Text.Base64
