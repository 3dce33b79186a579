/-! UTF-8. One octet at a time, the reader knows how many octets a character still owes and which
ones it may come with next; an octet that it cannot take ends the malformed part before it.

* `units` : the characters of a sequence of octets, and `none` for each malformed part;
* `decode?` : the text, if no part is malformed;
* `decodeLossy` : the text with U+FFFD in place of each malformed part;
* `feed?` : the text of some of the octets, and the character that they leave unfinished;
* `encode` : the octets of a text. -/
namespace SerialAudit.Text.Utf8
set_option autoImplicit false

/-- A character that has begun: what its octets gave so far, how many it still owes, and the
least and the greatest octet that may come next. -/
structure Pending where
  bits : Nat
  owed : Nat
  least : Nat
  greatest : Nat

/-- What an octet means between characters. -/
inductive Lead where
  | single (c : Char)
  | opens (p : Pending)
  | refused

/-- The octet that may begin a character. The second octet is bounded where the first one alone
would admit an overlong form, a surrogate or a code above U+10FFFF. -/
def lead (b : Nat) : Lead :=
  if b < 0x80 then .single (Char.ofNat b)
  else if b < 0xC2 then .refused
  else if b < 0xE0 then .opens ⟨b - 0xC0, 1, 0x80, 0xBF⟩
  else if b = 0xE0 then .opens ⟨0, 2, 0xA0, 0xBF⟩
  else if b = 0xED then .opens ⟨0xD, 2, 0x80, 0x9F⟩
  else if b < 0xF0 then .opens ⟨b - 0xE0, 2, 0x80, 0xBF⟩
  else if b = 0xF0 then .opens ⟨0, 3, 0x90, 0xBF⟩
  else if b < 0xF4 then .opens ⟨b - 0xF0, 3, 0x80, 0xBF⟩
  else if b = 0xF4 then .opens ⟨4, 3, 0x80, 0x8F⟩
  else .refused

def Pending.push (p : Pending) (b : Nat) : Pending :=
  ⟨p.bits * 0x40 + (b - 0x80), p.owed - 1, 0x80, 0xBF⟩

/-- The characters of the octets; `none` stands for a malformed part, which is as long as some
character begins with it. -/
def units : Option Pending → List UInt8 → List (Option Char)
  | none, [] => []
  | some _, [] => [none]
  | none, b :: bs =>
    match lead b.toNat with
    | .single c => some c :: units none bs
    | .opens p => units (some p) bs
    | .refused => none :: units none bs
  | some p, b :: bs =>
    if p.least ≤ b.toNat ∧ b.toNat ≤ p.greatest then
      let q := p.push b.toNat
      if q.owed = 0 then some (Char.ofNat q.bits) :: units none bs else units (some q) bs
    else
      match lead b.toNat with
      | .single c => none :: some c :: units none bs
      | .opens p => none :: units (some p) bs
      | .refused => none :: none :: units none bs

def decode? (bs : List UInt8) : Option (List Char) := (units none bs).mapM id

def decodeLossy (bs : List UInt8) : List Char := (units none bs).map (·.getD '\uFFFD')

/-- The text of octets of which more may follow, after a character that has begun, and the character
that is unfinished at their end. -/
def feed? : Option Pending → List UInt8 → Option (List Char × Option Pending)
  | p, [] => some ([], p)
  | none, b :: bs =>
    match lead b.toNat with
    | .single c => (feed? none bs).map fun r => (c :: r.1, r.2)
    | .opens p => feed? (some p) bs
    | .refused => none
  | some p, b :: bs =>
    if p.least ≤ b.toNat ∧ b.toNat ≤ p.greatest then
      let q := p.push b.toNat
      if q.owed = 0 then (feed? none bs).map fun r => (Char.ofNat q.bits :: r.1, r.2)
      else feed? (some q) bs
    else none

def encodeChar (c : Char) : List UInt8 :=
  let n := c.toNat
  let tail (k : Nat) : UInt8 := UInt8.ofNat (0x80 + (n >>> (6 * k)) % 0x40)
  if n < 0x80 then [UInt8.ofNat n]
  else if n < 0x800 then [UInt8.ofNat (0xC0 + n / 0x40), tail 0]
  else if n < 0x10000 then [UInt8.ofNat (0xE0 + n / 0x1000), tail 1, tail 0]
  else [UInt8.ofNat (0xF0 + n / 0x40000), tail 2, tail 1, tail 0]

def encode (cs : List Char) : List UInt8 := cs.flatMap encodeChar

example : decode? (encode "aé日😀".toList) = some "aé日😀".toList := by decide +kernel

example : decode? [0xED, 0xA0, 0x80] = none ∧ decode? [0xC3] = none ∧
    decodeLossy [0xED, 0xA0, 0x80] = ['\uFFFD', '\uFFFD', '\uFFFD'] ∧
    decodeLossy [0xC3, 0x28] = ['\uFFFD', '('] ∧ decodeLossy [0xE6, 0x97] = ['\uFFFD'] := by
  decide +kernel

end SerialAudit.Text.Utf8
