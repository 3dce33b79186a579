import SerialAudit.Document.Tag
import SerialAudit.Document.Token

/-! From the tokens of a document to its nodes. Nodes are numbered in the order in which they begin,
and an alias is the number of the node with its anchor, so that a node may stand in several places and
even inside itself.

* `Node` : a node with its tag, and the numbers of the nodes that it consists of;
* `Builder`, `Building` : the nodes so far and the tokens that are left, and what is done with them;
* `Builder.read` : the number of the next node;
* `Document` : the nodes of a document, and the number of its root;
* `Document.ofTokens?` : the document that tokens make up, if there is one. -/
namespace SerialAudit.Document
set_option autoImplicit false

inductive Content where
  | scalar (text : String)
  | sequence (items : List Nat)
  | mapping (entries : List (Nat × Nat))
  deriving DecidableEq, Repr

structure Node where
  tag : Tag
  content : Content
  deriving DecidableEq, Repr

def Node.empty : Node := ⟨.null, .scalar ""⟩

/-- The tokens that are left, the nodes so far, and those of them that have anchors. -/
structure Builder where
  tokens : List Token
  nodes : Array Node
  anchors : List (String × Nat)

abbrev Building := StateT Builder (Except Fault)

namespace Builder

/-! ## Tokens and nodes -/

def head : Building Token := do
  match (← get).tokens with
  | .fault fault :: _ => throw fault
  | t :: _ => pure t
  | [] => throw .malformed

def advance : Building Unit := modify fun b => { b with tokens := b.tokens.drop 1 }

def refuse {α : Type} : Building α := do
  let _ ← head
  throw .malformed

/-- Adds a node; its anchor must be new. -/
def place (anchor : Option String) (n : Node) : Building Nat := do
  let b ← get
  if anchor.any fun a => (b.anchors.lookup a).isSome then throw .malformed
  else
    let number := b.nodes.size
    set { b with nodes := b.nodes.push n
                 anchors := (anchor.map (·, number)).toList ++ b.anchors }
    pure number

def fill (number : Nat) (content : Content) : Building Unit :=
  modify fun b => { b with nodes := b.nodes.modify number fun n => { n with content := content } }

def aliased (name : String) : Building Nat := do
  match (← get).anchors.lookup name with
  | some number => pure number
  | none => throw .malformed

/-! ## Properties -/

/-- What stands in front of a node: an anchor and a tag, the latter with its handle resolved. -/
structure Properties where
  anchor : Option String
  tag : Option String
  deriving Repr

/-- The full name of a tag; its handle must have a meaning. -/
def fullName (handles : List (String × String)) : Option String → String → Building String
  | none, suffix => pure suffix
  | some handle, suffix =>
    match handles.lookup handle with
    | some expansion => pure (expansion ++ suffix)
    | none => throw .malformed

def properties (handles : List (String × String)) : Building Properties := do
  match ← head with
  | .anchor a =>
    advance
    match ← head with
    | .tag handle suffix =>
      advance
      pure ⟨some a, some (← fullName handles handle suffix)⟩
    | _ => pure ⟨some a, none⟩
  | .tag handle suffix =>
    advance
    match ← head with
    | .anchor a =>
      advance
      pure ⟨some a, some (← fullName handles handle suffix)⟩
    | _ => pure ⟨none, some (← fullName handles handle suffix)⟩
  | _ => pure ⟨none, none⟩

/-- The tag of a node; the tag `!` stands for the usual one of its kind. -/
def Properties.tagOr (p : Properties) (usual : Tag) : Tag :=
  match p.tag with
  | some "!" => usual
  | some name => .ofName name
  | none => usual

/-- A scalar. Its text decides about its tag where it is plain, or is told to by the tag `!`. -/
def scalar (p : Properties) (plain : Bool) (text : String) : Building Nat :=
  place p.anchor
    ⟨p.tagOr (if plain || p.tag = some "!" then .ofText text.toList else .text), .scalar text⟩

/-- A node of which nothing but its properties is written. -/
def bare (p : Properties) : Building Nat :=
  match p with
  | ⟨none, none⟩ => refuse
  | p => place p.anchor ⟨p.tagOr .null, .scalar ""⟩

/-- A sequence, which is there before its items. -/
def sequence (p : Properties) (items : Building (List Nat)) : Building Nat := do
  let number ← place p.anchor ⟨p.tagOr .sequence, .sequence []⟩
  fill number (.sequence (← items))
  pure number

def mapping (p : Properties) (entries : Building (List (Nat × Nat))) : Building Nat := do
  let number ← place p.anchor ⟨p.tagOr .mapping, .mapping []⟩
  fill number (.mapping (← entries))
  pure number

/-! ## Collections -/

def empty : Building Nat := place none .empty

/-- Reads a node unless the next token says that it is left out. -/
def orEmpty (stops : List Token) (child : Building Nat) : Building Nat := do
  if stops.contains (← head) then empty else child

def blockItems (child : Building Nat) : Nat → Building (List Nat)
  | 0 => refuse
  | fuel + 1 => do
    match ← head with
    | .blockEntry =>
      advance
      let n ← orEmpty [.blockEntry, .blockEnd] child
      pure (n :: (← blockItems child fuel))
    | .blockEnd =>
      advance
      pure []
    | _ => refuse

/-- The items of a sequence that stands as far left as the mapping around it. -/
def looseItems (child : Building Nat) : Nat → Building (List Nat)
  | 0 => refuse
  | fuel + 1 => do
    match ← head with
    | .blockEntry =>
      advance
      let n ← orEmpty [.blockEntry, .key, .value, .blockEnd] child
      pure (n :: (← looseItems child fuel))
    | _ => pure []

/-- The value after a key, or the empty node. -/
def valueOrEmpty (stops : List Token) (child : Building Nat) : Building Nat := do
  match ← head with
  | .value =>
    advance
    orEmpty stops child
  | _ => empty

def entry (keyStops valueStops : List Token) (child : Building Nat) : Building (Nat × Nat) := do
  advance
  let k ← orEmpty keyStops child
  let v ← valueOrEmpty valueStops child
  pure (k, v)

/-- The entries of a block mapping. A value may lack its key. -/
def blockEntries (child : Building Nat) : Nat → Building (List (Nat × Nat))
  | 0 => refuse
  | fuel + 1 => do
    match ← head with
    | .key =>
      let e ← entry [.key, .value, .blockEnd] [.key, .value, .blockEnd] child
      pure (e :: (← blockEntries child fuel))
    | .blockEnd =>
      advance
      pure []
    | _ => refuse

def separated (first : Bool) : Building Unit := do
  if first then pure ()
  else
    match ← head with
    | .flowEntry => advance
    | _ => refuse

/-- A mapping of one entry in a flow sequence. -/
def single (child : Building Nat) : Building Nat :=
  mapping ⟨none, none⟩ do
    pure [← entry [.value, .flowEntry, .flowSequenceEnd] [.flowEntry, .flowSequenceEnd] child]

/-- The items of a flow sequence. An item may be a mapping of one entry. -/
def flowItems (child : Building Nat) : Nat → Bool → Building (List Nat)
  | 0, _ => refuse
  | fuel + 1, first => do
    if (← head) = .flowSequenceEnd then
      advance
      pure []
    else
      separated first
      match ← head with
      | .key =>
        let n ← single child
        pure (n :: (← flowItems child fuel false))
      | .flowSequenceEnd =>
        advance
        pure []
      | _ =>
        let n ← child
        pure (n :: (← flowItems child fuel false))

/-- The entries of a flow mapping. An entry may be a key alone. -/
def flowEntries (child : Building Nat) : Nat → Bool → Building (List (Nat × Nat))
  | 0, _ => refuse
  | fuel + 1, first => do
    if (← head) = .flowMappingEnd then
      advance
      pure []
    else
      separated first
      match ← head with
      | .key =>
        let e ← entry [.value, .flowEntry, .flowMappingEnd] [.flowEntry, .flowMappingEnd] child
        pure (e :: (← flowEntries child fuel false))
      | .flowMappingEnd =>
        advance
        pure []
      | _ =>
        let k ← child
        let _ ← head
        let v ← empty
        pure ((k, v) :: (← flowEntries child fuel false))

/-! ## Nodes -/

/-- Where a node stands: inside a flow collection, inside a block collection, or in a block mapping,
where the items of a sequence need not be indented. -/
inductive Context where
  | flow
  | block
  | entry
  deriving DecidableEq, Repr

/-- How many collections may stand inside one another. The number is no part of the format: it is the
nesting that one call stack of the usual size, entered from the tools, leaves to a reader that calls
itself for every collection. On another stack another number stands here. -/
def deepest : Nat := 488

/-- The number of the node at the head of the tokens, with so many levels of nesting left. Every item
takes a token, so the number of tokens is fuel enough for the items of any collection. -/
def read (handles : List (String × String)) (fuel : Nat) : Nat → Context → Building Nat
  | 0, _ => throw .nestedTooDeep
  | depth + 1, context => do
    match ← head with
    | .alias name =>
      advance
      aliased name
    | _ =>
      let p ← properties handles
      match context, ← head with
      | .entry, .blockEntry => sequence p (looseItems (read handles fuel depth .block) fuel)
      | _, .scalar plain text =>
        advance
        scalar p plain text
      | _, .flowSequenceStart =>
        sequence p do advance; flowItems (read handles fuel depth .flow) fuel true
      | _, .flowMappingStart =>
        mapping p do advance; flowEntries (read handles fuel depth .flow) fuel true
      | .flow, _ => bare p
      | _, .blockSequenceStart =>
        sequence p do advance; blockItems (read handles fuel depth .block) fuel
      | _, .blockMappingStart =>
        mapping p do advance; blockEntries (read handles fuel depth .entry) fuel
      | _, _ => bare p

/-! ## Documents -/

def usualHandles : List (String × String) := [("!", "!"), ("!!", Tag.coreNames)]

/-- The directives before a document: the handles that they declare, given whether there was a version
already and the handles so far. -/
def directives : Nat → Bool → List (String × String) → Building (List (String × String))
  | 0, _, _ => refuse
  | fuel + 1, versioned, handles => do
    match ← head with
    | .version major =>
      advance
      if versioned || major ≠ 1 then throw .malformed else directives fuel true handles
    | .tagHandle handle expansion =>
      advance
      if (handles.lookup handle).isSome then throw .malformed
      else directives fuel versioned ((handle, expansion) :: handles)
    | .otherDirective =>
      advance
      directives fuel versioned handles
    | _ => pure handles

/-- The root of a document that does not begin with its start, or the node after its directives and
its start, which is empty where nothing is written. -/
def root (fuel : Nat) : Building Nat := do
  let t ← head
  if t.isDirective || t = .documentStart then
    let handles ← directives fuel false []
    if (← head) ≠ .documentStart then throw .malformed
    else
      advance
      let t ← head
      if t.isDirective || [.documentStart, .documentEnd, .finish].contains t then empty
      else read (handles ++ usualHandles) fuel deepest .block
  else read usualHandles fuel deepest .block

/-- Nothing but ends may follow a document; whatever does is read up to where another one begins. -/
def close : Nat → Building Unit
  | 0 => refuse
  | fuel + 1 => do
    match ← head with
    | .documentEnd =>
      advance
      close fuel
    | .finish => pure ()
    | _ =>
      let _ ← directives (fuel + 1) false []
      refuse

end Builder
end Document

/-- A document: its nodes, and the number of its root. -/
structure Document where
  nodes : Array Document.Node
  root : Nat

namespace Document

/-- The document that tokens make up. Without any content there is none, which is no fault; a second
document is one. -/
def ofTokens? (ts : List Token) : Except Fault (Option Document) :=
  match ts with
  | [.finish] => .ok none
  | ts => do
    let fuel := ts.length + 1
    let build : Building Nat := do
      let root ← Builder.root fuel
      Builder.close fuel
      pure root
    let (root, b) ← build.run ⟨ts, #[], []⟩
    .ok (some ⟨b.nodes, root⟩)

end Document
end SerialAudit
