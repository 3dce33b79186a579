import SerialAudit.Document.Source
import SerialAudit.Document.Token
import SerialAudit.Text.Numeral
import SerialAudit.Text.Utf8

/-! The tokens in front of a node, and directives: names of anchors and aliases, tags, and the lines
that begin with a percent sign. Each reader starts right after the indicator.

* `name` : the name of an anchor or alias;
* `uri` : the characters of a tag, with its percent escapes resolved;
* `tag` : a tag, as its handle and the rest of it;
* `directive` : a directive. -/
namespace SerialAudit.Document.Property
set_option autoImplicit false

/-- What a reader finds at the head of a text, and the rest of the text. -/
abbrev Found (α : Type) := α × List Char

def refuse {α : Type} (rest : List Char) : Except Fault (Found α) := .error (.before rest)

def ended {α : Type} (found : α) (rest : List Char) : Except Fault (Found α) :=
  if atSpaceOrBreak rest then .ok (found, rest) else refuse rest

/-! ## Names -/

def isNameChar (c : Char) : Bool := c.isAlphanum || c = '-' || c = '_'

def word (cs : List Char) : Except Fault (Found String) :=
  let letters := cs.takeWhile isNameChar
  if letters.isEmpty then refuse cs else .ok (String.ofList letters, cs.dropWhile isNameChar)

def nameStops : List Char := ['?', ':', ',', ']', '}', '%', '@', '\x60']

/-- The name of an anchor or alias; a blank, a line break, an indicator or the end follows it. -/
def name (cs : List Char) : Except Fault (Found String) := do
  let (found, rest) ← word cs
  if endsOr (fun c => isGap c || nameStops.contains c) rest then .ok (found, rest) else refuse rest

/-! ## Tags -/

def isTagChar (c : Char) : Bool := c.isAlphanum || "-;/?:@&=+$,_.!~*'()[]".toList.contains c

def octet? (a b : Char) : Option UInt8 := do
  if 0x80 ≤ a.toNat ∨ 0x80 ≤ b.toNat then none
  else some (UInt8.ofNat ((← Text.valueIn? 16 a) * 16 + (← Text.valueIn? 16 b)))

/-- The characters of a tag; `held` are octets of escapes whose characters are not read yet. -/
def uriFrom (held : List UInt8) : List Char → Except Fault (Found (List Char))
  | '%' :: a :: b :: cs =>
    match octet? a b with
    | some o => uriFrom (held ++ [o]) cs
    | none => .error .malformed
  | cs =>
    match Text.Utf8.decode? held, cs with
    | none, _ => .error .malformed
    | some before, c :: cs =>
      if isTagChar c then (uriFrom [] cs).map fun r => (before ++ c :: r.1, r.2)
      else if c = '%' then .error (.before (cs.drop 1))
      else .ok (before, c :: cs)
    | some before, [] => .ok (before, [])

def uri (cs : List Char) : Except Fault (Found String) := do
  let (text, rest) ← uriFrom [] cs
  if text.isEmpty then refuse cs else .ok (String.ofList text, rest)

/-- A handle, which begins with an exclamation mark and ends with another one. -/
def handle : List Char → Except Fault (Found String)
  | '!' :: cs =>
    match cs.dropWhile isNameChar with
    | '!' :: rest => .ok (String.ofList ('!' :: cs.takeWhile isNameChar ++ ['!']), rest)
    | rest => refuse rest
  | cs => refuse cs

/-- The parts of a tag after its exclamation mark: verbatim, none at all, with a handle of its own,
or with the primary handle. -/
def tagParts : List Char → Except Fault (Found (Option String × String))
  | '<' :: cs => do
    match ← uri cs with
    | (suffix, '>' :: rest) => .ok ((none, suffix), rest)
    | (_, rest) => refuse rest
  | cs =>
    if atGap cs then .ok ((none, "!"), cs)
    else if (cs.takeWhile fun c => c ≠ ' ' && !isBreak c).contains '!' then do
      let (handle, rest) ← handle ('!' :: cs)
      let (suffix, rest) ← uri rest
      .ok ((some handle, suffix), rest)
    else (uri cs).map fun r => ((some "!", r.1), r.2)

def tag (cs : List Char) : Except Fault (Found Token) := do
  let ((handle, suffix), rest) ← tagParts cs
  ended (.tag handle suffix) rest

/-! ## Directives -/

/-- The digits at the head, at least one and not too many. -/
def number (cs : List Char) : Except Fault (Found Nat) :=
  let value? (c : Char) := if c.isDigit then Text.digitValue? c else none
  let (n, count, rest) := Text.leadingDigits value? 10 0 0 cs
  if count = 0 then refuse cs
  else if Text.digitLimit < count then .error .numberUnreadable
  else .ok (n, rest)

def version (cs : List Char) : Except Fault (Found Token) := do
  match ← number cs with
  | (major, '.' :: rest) =>
    let (_, rest) ← number rest
    ended (.version major) rest
  | (_, rest) => refuse rest

/-- The handle of a tag directive; a lone exclamation mark is one. -/
def declared : List Char → Except Fault (Found String)
  | '!' :: ' ' :: cs => .ok ("!", cs)
  | cs => do
    match ← handle cs with
    | (handle, ' ' :: rest) => .ok (handle, rest)
    | (_, rest) => refuse rest

def tagHandle (cs : List Char) : Except Fault (Found Token) := do
  let (handle, rest) ← declared cs
  let (expansion, rest) ← uri (rest.dropWhile (· = ' '))
  ended (.tagHandle handle expansion) rest

def directive (cs : List Char) : Except Fault (Found Token) := do
  let (name, rest) ← word cs
  let (_, rest) ← ended name rest
  let (token, rest) ←
    if name = "YAML" then version (rest.dropWhile (· = ' '))
    else if name = "TAG" then tagHandle (rest.dropWhile (· = ' '))
    else .ok (.otherDirective, rest.dropWhile (!isBreak ·))
  match restOfLine? rest with
  | some rest => .ok (token, rest)
  | none => .error .malformed

end SerialAudit.Document.Property
