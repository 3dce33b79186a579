import SerialAudit.Document.Fault
import SerialAudit.Document.Source
import SerialAudit.Text.Utf8

/-! Files are read in pages. What a page holds is looked at only when the characters before it are
used up, so a fault in the text may be met before one in the octets that follow it. The octets
themselves are decoded in blocks, which have no common measure with the pages.

* `Source` : the characters that can be read, and what ends them;
* `Feed` : a file in the middle of being read;
* `Feed.decodeBlock`, `Feed.page` : the next block, and the next page;
* `Source.ofOctets` : the text of a file. -/
namespace SerialAudit.Document
set_option autoImplicit false

/-! ## Blocks -/

/-- A file in the middle of being read: the octets that are left, the character and the carriage
return that wait for what follows them, the characters that are ready, whether there are no more,
and how many octets made how many characters in the last block. -/
structure Feed where
  octets : List UInt8
  pending : Option Text.Utf8.Pending
  held : Bool
  ready : List Char
  finished : Bool
  density : Nat × Nat

namespace Feed

def pageSize : Nat := 4096

def blockSize : Nat := 8192

def ofOctets (octets : List UInt8) : Feed := ⟨octets, none, false, [], false, (1, 1)⟩

/-- The number of octets to decode for some characters, going by the last block. -/
def need (f : Feed) (wanted : Nat) : Nat :=
  if f.density.2 < f.density.1 then max blockSize (f.density.1 * wanted / f.density.2) else blockSize

/-- The file after one more block. A block without octets is the end, where nothing may wait. -/
def decodeBlock (f : Feed) (wanted : Nat) : Except Fault Feed :=
  let block := f.octets.take (f.need wanted)
  match Text.Utf8.feed? f.pending block with
  | none => .error .undecodable
  | some (cs, pending) =>
    if block.isEmpty && pending.isSome then .error .undecodable
    else
      let cs := if f.held && (block.isEmpty || !cs.isEmpty) then '\r' :: cs else cs
      let held := (f.held && cs.isEmpty) || (!block.isEmpty && cs.getLast? = some '\r')
      let cs := unifyBreaks (if held then cs.dropLast else cs)
      .ok ⟨f.octets.drop block.length, pending, held, f.ready ++ cs, block.isEmpty && cs.isEmpty,
        (block.length, if cs.isEmpty then block.length else cs.length)⟩

/-! ## Pages -/

/-- The next page, and the file after it. Every block but the last two takes octets. -/
def pageFrom : Nat → Feed → Except Fault (List Char × Feed)
  | 0, f => .ok (f.ready, { f with ready := [] })
  | fuel + 1, f =>
    if f.finished || pageSize ≤ f.ready.length then
      .ok (f.ready.take pageSize, { f with ready := f.ready.drop pageSize })
    else (f.decodeBlock (pageSize - f.ready.length)).bind (pageFrom fuel)

def page (f : Feed) : Except Fault (List Char × Feed) := pageFrom (f.octets.length + 3) f

/-- The pages up to an empty one or a fault. Every page but the last takes characters, and these take
octets. -/
def pagesFrom : Nat → Feed → List (Except Fault (List Char))
  | 0, _ => []
  | fuel + 1, f =>
    match f.page with
    | .error fault => [.error fault]
    | .ok ([], _) => []
    | .ok (cs, f) => .ok cs :: pagesFrom fuel f

def pages (octets : List UInt8) : List (Except Fault (List Char)) :=
  pagesFrom (octets.length + 1) (ofOctets octets)

end Feed

/-! ## Texts -/

/-- The characters that can be read, and the fault that ends them where it is not the end of the
file. -/
structure Source where
  chars : List Char
  ending : Option Fault
  deriving Repr

namespace Source

/-- The text of some pages. One with a character that a document may not hold is not shown at all. -/
def ofPages : List (Except Fault (List Char)) → Source
  | [] => ⟨[], none⟩
  | .error fault :: _ => ⟨[], some fault⟩
  | .ok cs :: pages =>
    if cs.all isAdmitted then
      let s := ofPages pages
      ⟨cs ++ s.chars, s.ending⟩
    else ⟨[], some .malformed⟩

/-- The text of a file, of which the first two pages are looked at together. -/
def ofOctets (octets : List UInt8) : Source :=
  match Feed.pages octets with
  | .ok first :: .ok second :: pages => ofPages (.ok (first ++ second) :: pages)
  | .ok _ :: .error fault :: _ => ⟨[], some fault⟩
  | pages => ofPages pages

def ofText (cs : List Char) : Source := ofPages [.ok cs]

end Source

example : (Source.ofOctets (Text.Utf8.encode "a\r\nb\rc".toList)).chars = "a\nb\nc".toList ∧
    (Source.ofOctets [0x61, 0xC3]).ending = some .undecodable ∧
    (Source.ofOctets [0x61, 0x07]).ending = some .malformed := by decide +kernel

end SerialAudit.Document
