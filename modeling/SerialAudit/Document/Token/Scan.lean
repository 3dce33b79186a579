import SerialAudit.Document.Pages
import SerialAudit.Document.Token
import SerialAudit.Document.Token.Block
import SerialAudit.Document.Token.Plain
import SerialAudit.Document.Token.Property
import SerialAudit.Document.Token.Quoted

/-! From the characters of a document to its tokens. Indentation opens and closes block collections.
That a node is the key of a mapping shows only at the colon after it, so the place of a node that
may be one is kept, and the tokens of the key are put in there afterwards. The tokens from such a
place on are held back until it is clear whether they are a key; where the text has a fault, those that
are held back are lost.

* `KeyPlace` : a place where a key may have begun;
* `Scanner` : the state between two tokens;
* `Scanner.next` : the state after the next token;
* `Scanner.free` : the number of tokens that are not held back;
* `Token.scan` : the tokens of a text. -/
namespace SerialAudit.Document
set_option autoImplicit false

/-- A place where a key may have begun: how many tokens stand before it and where it is. A key is
required where nothing else may begin a line. -/
structure KeyPlace where
  count : Nat
  required : Bool
  index : Nat
  line : Nat
  column : Nat

/-- The most characters that a key without an indicator of its own may have. -/
def keyLimit : Nat := 1024

/-- The state between two tokens: the position, the columns of the open block collections from the
innermost outwards, the place of a key in the innermost flow collection and those in the ones
around it, whether a key may begin here, the tokens so far in reverse and their number, and the fault
that ends the text. -/
structure Scanner where
  cursor : Cursor
  columns : List Nat
  place : Option KeyPlace
  outer : List (Option KeyPlace)
  keyAllowed : Bool
  tokens : List Token
  count : Nat
  ending : Option Fault

namespace Scanner

def start (source : Source) : Scanner :=
  ⟨Cursor.ofText source.chars, [], none, [], true, [], 0, source.ending⟩

def inFlow (s : Scanner) : Bool := !s.outer.isEmpty

def rest (s : Scanner) : List Char := s.cursor.rest

def emit (t : Token) (s : Scanner) : Scanner :=
  { s with tokens := t :: s.tokens, count := s.count + 1 }

def moveTo (rest : List Char) (s : Scanner) : Scanner := { s with cursor := s.cursor.moveTo rest }

def allowKey (allowed : Bool) (s : Scanner) : Scanner := { s with keyAllowed := allowed }

/-! ## Block collections -/

/-- The column from which on the lines of a scalar must stand. -/
def indent (s : Scanner) : Nat := (s.columns.head?.map (· + 1)).getD 0

def close (stays : Nat → Bool) (s : Scanner) : Scanner :=
  if s.inFlow then s
  else
    let closed := s.columns.takeWhile (!stays ·)
    { s with columns := s.columns.drop closed.length
             tokens := closed.map (fun _ => .blockEnd) ++ s.tokens
             count := s.count + closed.length }

/-- Puts a token before the last ones, so that `count` tokens stand before it. -/
def insert (count : Nat) (t : Token) (s : Scanner) : Scanner :=
  let after := s.count - count
  { s with tokens := s.tokens.take after ++ t :: s.tokens.drop after, count := s.count + 1 }

/-- Opens a block collection at a column if it lies inside the innermost one; its token is put in
after `count` tokens. -/
def openAt (t : Token) (column count : Nat) (s : Scanner) : Scanner :=
  if s.inFlow || !s.columns.head?.all (· < column) then s
  else ({ s with columns := column :: s.columns } : Scanner).insert count t

def openHere (t : Token) (s : Scanner) : Scanner := s.openAt t s.cursor.column s.count

/-! ## Places of keys -/

def isStale (s : Scanner) (p : KeyPlace) : Bool :=
  p.line ≠ s.cursor.line || p.index + keyLimit < s.cursor.index

/-- Forgets the places that are too far back; a required key must not be among them. -/
def dropStale (s : Scanner) : Except Fault Scanner :=
  let stale (p : Option KeyPlace) := p.filter s.isStale
  let fresh (p : Option KeyPlace) := p.filter fun k => !s.isStale k
  if (s.place :: s.outer).any fun p => (stale p).any (·.required) then .error .malformed
  else .ok { s with place := fresh s.place, outer := s.outer.map fresh }

/-- Forgets the place in the innermost collection; a required key must not be there. -/
def dropPlace (s : Scanner) : Except Fault Scanner :=
  if s.place.any (·.required) then .error .malformed else .ok { s with place := none }

def savePlace (s : Scanner) : Except Fault Scanner :=
  if s.keyAllowed then do
    let s ← s.dropPlace
    let p := s.cursor
    let required := !s.inFlow && s.columns.head? = some p.column
    .ok { s with place := some ⟨s.count, required, p.index, p.line, p.column⟩ }
  else .ok s

/-! ## Tokens -/

/-- A token of some characters at the position, which end any key before it. -/
def marker (t : Token) (width : Nat) (s : Scanner) : Except Fault Scanner := do
  let s ← (s.close fun _ => false).dropPlace
  .ok ((s.allowKey false).emit t |>.moveTo (s.rest.drop width))

def directive (s : Scanner) : Except Fault Scanner := do
  let s ← (s.close fun _ => false).dropPlace
  let (t, rest) ← Property.directive (s.rest.drop 1)
  .ok ((s.allowKey false).emit t |>.moveTo rest)

def flowStart (t : Token) (s : Scanner) : Except Fault Scanner := do
  let s ← s.savePlace
  .ok (({ s with place := none, outer := s.place :: s.outer, keyAllowed := true } : Scanner).emit t
    |>.moveTo (s.rest.drop 1))

def flowEnd (t : Token) (s : Scanner) : Except Fault Scanner := do
  let s ← s.dropPlace
  match s.outer with
  | [] => .error .malformed
  | p :: outer =>
    .ok (({ s with place := p, outer := outer, keyAllowed := false } : Scanner).emit t
      |>.moveTo (s.rest.drop 1))

def flowEntry (s : Scanner) : Except Fault Scanner := do
  let s ← (s.allowKey true).dropPlace
  .ok (s.emit .flowEntry |>.moveTo (s.rest.drop 1))

def blockEntry (s : Scanner) : Except Fault Scanner := do
  if !s.inFlow && !s.keyAllowed then .error .malformed
  else
    let s ← (s.openHere .blockSequenceStart |>.allowKey true).dropPlace
    .ok (s.emit .blockEntry |>.moveTo (s.rest.drop 1))

def explicitKey (s : Scanner) : Except Fault Scanner := do
  if !s.inFlow && !s.keyAllowed then .error .malformed
  else
    let s ← (s.openHere .blockMappingStart |>.allowKey !s.inFlow).dropPlace
    .ok (s.emit .key |>.moveTo (s.rest.drop 1))

/-- The colon before a value. What began at the kept place is the key; without one, the value
belongs to a key with an indicator, or to an empty one. -/
def value (s : Scanner) : Except Fault Scanner := do
  let s ← match s.place with
    | some p =>
      .ok (({ s with place := none } : Scanner).insert p.count .key
        |>.openAt .blockMappingStart p.column p.count |>.allowKey false)
    | none =>
      if !s.inFlow && !s.keyAllowed then .error .malformed
      else .ok (s.openHere .blockMappingStart |>.allowKey !s.inFlow)
  .ok (s.emit .value |>.moveTo (s.rest.drop 1))

/-- A token that may begin a key, read from the character after the next one on. -/
def property (read : List Char → Except Fault (Property.Found Token)) (s : Scanner) :
    Except Fault Scanner := do
  let s ← s.savePlace
  let (t, rest) ← read (s.rest.drop 1)
  .ok ((s.allowKey false).emit t |>.moveTo rest)

def quotedScalar (double : Bool) (s : Scanner) : Except Fault Scanner := do
  let s ← s.savePlace
  let (text, rest) ← Quoted.scan double .word (s.rest.drop 1)
  .ok ((s.allowKey false).emit (.scalar false (String.ofList text)) |>.moveTo rest)

def blockScalar (fold : Bool) (s : Scanner) : Except Fault Scanner := do
  let s ← (s.allowKey true).dropPlace
  let (text, rest) ← Block.scan fold (max 1 s.indent) (s.rest.drop 1)
  .ok (s.emit (.scalar false (String.ofList text)) |>.moveTo rest)

def plainScalar (s : Scanner) : Except Fault Scanner := do
  let s ← s.savePlace
  let (text, newLine, rest) := Plain.scan s.inFlow s.indent .none s.rest
  .ok ((s.allowKey newLine).emit (.scalar true (String.ofList text)) |>.moveTo rest)

def indicators : List Char := "-?:,[]\x7b\x7d#&*!|>'\"%@\x60".toList

/-- Whether a plain scalar may begin with a character, given what follows it. -/
def beginsPlain (flow : Bool) (c : Char) (cs : List Char) : Bool :=
  (!isGap c && !indicators.contains c) ||
    (!atGap cs && (c = '-' || (!flow && (c = '?' || c = ':'))))

def inLine (c : Char) (cs : List Char) (s : Scanner) : Except Fault Scanner :=
  if c = '[' then s.flowStart .flowSequenceStart
  else if c = '{' then s.flowStart .flowMappingStart
  else if c = ']' then s.flowEnd .flowSequenceEnd
  else if c = '}' then s.flowEnd .flowMappingEnd
  else if c = ',' then s.flowEntry
  else if c = '-' && atGap cs then s.blockEntry
  else if c = '?' && (s.inFlow || atGap cs) then s.explicitKey
  else if c = ':' && (s.inFlow || atGap cs) then s.value
  else if c = '*' then s.property fun cs => (Property.name cs).map fun r => (.alias r.1, r.2)
  else if c = '&' then s.property fun cs => (Property.name cs).map fun r => (.anchor r.1, r.2)
  else if c = '!' then s.property Property.tag
  else if c = '|' && !s.inFlow then s.blockScalar false
  else if c = '>' && !s.inFlow then s.blockScalar true
  else if c = '\'' then s.quotedScalar false
  else if c = '"' then s.quotedScalar true
  else if beginsPlain s.inFlow c cs then s.plainScalar
  else .error .malformed

/-- The state as it stands, if the text goes on far enough to see where its last token ends. -/
def settled (s : Scanner) : Except Fault Scanner :=
  match s.ending, s.rest with
  | some _, [] => .error .cutShort
  | some _, [_] => .error .cutShort
  | _, _ => .ok s

/-- The state at the next token: gaps are passed over and block collections that end before its
column are closed. A byte order mark may stand at the very beginning. -/
def atToken (s : Scanner) : Except Fault Scanner := do
  let text := if s.cursor.index = 0 && s.rest.head? = some '\uFEFF' then s.rest.drop 1 else s.rest
  let (newLine, rest) := skipGap false text
  if rest.isEmpty && s.ending.isSome then .error .cutShort
  else
    let s ← ((s.moveTo rest).allowKey (s.keyAllowed || (newLine && !s.inFlow))).dropStale
    .ok (s.close (· ≤ s.cursor.column))

def next (s : Scanner) : Except Fault Scanner := do
  let s ← s.atToken
  match s.rest with
  | [] => s.marker .finish 0
  | c :: cs =>
    if s.cursor.column = 0 && c = '%' then s.directive >>= settled
    else if s.cursor.column = 0 && atMarker (c :: cs) then
      s.marker (if c = '-' then .documentStart else .documentEnd) 3 >>= settled
    else s.inLine c cs >>= settled

def free (s : Scanner) : Nat :=
  ((s.place :: s.outer).filterMap (·.map (·.count))).foldl min s.count

/-- The first tokens, and a fault; where the text is cut short that is the fault of its end. -/
def broken (s : Scanner) (given : Nat) (fault : Fault) : List Token :=
  s.tokens.reverse.take given ++
    [.fault (if fault = .cutShort then s.ending.getD .malformed else fault)]

/-- The tokens from a state on, of which some are given already. The next token is looked for when
those that are not held back are used up. Each token takes a character at least, so the fuel suffices. -/
def run : Nat → Nat → Scanner → List Token
  | 0, _, s => s.tokens.reverse
  | fuel + 1, given, s =>
    match s.next with
    | .error fault => s.broken given fault
    | .ok s =>
      if s.tokens.head? = some .finish then s.tokens.reverse
      else
        match s.dropStale with
        | .error fault => s.broken given fault
        | .ok s => run fuel s.free s

end Scanner

def Token.scan (source : Source) : List Token :=
  (Scanner.start source).run (source.chars.length + 1) 0

example : Token.scan (.ofText "a: [b]".toList) =
    [.blockMappingStart, .key, .scalar true "a", .value, .flowSequenceStart, .scalar true "b",
     .flowSequenceEnd, .blockEnd, .finish] := by decide +kernel

example : Token.scan (.ofText "- x\n- 'y': 1".toList) =
    [.blockSequenceStart, .blockEntry, .scalar true "x", .blockEntry, .blockMappingStart, .key,
     .scalar false "y", .value, .scalar true "1", .blockEnd, .blockEnd, .finish] := by decide +kernel

example : Token.scan (.ofText "*x : \"\\U00110000\"".toList) =
    [.blockMappingStart, .key, .alias "x", .value, .fault .codeBeyondLast] := by decide +kernel

end SerialAudit.Document
