import SerialAudit.Datum
import SerialAudit.Document.Node
import SerialAudit.Document.Scalar
import SerialAudit.Document.Token.Scan

/-! From the nodes of a document to its value. A key with the merge tag stands for the entries of other
mappings; where it has been resolved, the mapping stays changed for everything that refers to it.

Collections are gone through in breadth: a scalar is read when its collection is, a collection
after all those that were met before it. That decides which fault of several is reported. Aliases
may make a document infinitely deep, so its value is taken down to a given depth.

* `Part`, `Evaluation`, `Evaluating` : what is known about the nodes, and what is done with it;
* `Evaluation.merge` : the resolution of the merge keys of a mapping;
* `Evaluation.meet`, `Evaluation.visit` : a node as it is met, and a collection as it is gone through;
* `Document.value` : the value of a document down to a depth;
* `Value.ofSource` : the value of a text. -/
namespace SerialAudit.Document
set_option autoImplicit false

/-! ## What is known -/

/-- What is known about a node that has been met: that it is to be gone through, its value, or the
nodes that it consists of. The members of a set are the keys of entries. -/
inductive Part where
  | waiting
  | scalar (v : Value)
  | items (ns : List Nat)
  | entries (es : List (Nat × Nat))
  | members (ns : List Nat)
  | pairs (es : List (Nat × Nat))
  deriving Repr

/-- The nodes as they are by now, what is known about each of them, and the collections that were met
since the last round, in reverse. -/
structure Evaluation where
  nodes : Array Node
  parts : Array (Option Part)
  met : List Nat

abbrev Evaluating := StateT Evaluation (Except Fault)

namespace Evaluation

def start (nodes : Array Node) : Evaluation := ⟨nodes, Array.replicate nodes.size none, []⟩

def node (n : Nat) : Evaluating Node := do pure ((← get).nodes[n]?.getD .empty)

def know (n : Nat) (part : Part) : Evaluating Unit :=
  modify fun e => { e with parts := e.parts.setIfInBounds n (some part) }

def entries (n : Nat) : Evaluating (List (Nat × Nat)) := do
  match (← node n).content with
  | .mapping es => pure es
  | _ => pure []

def setEntries (n : Nat) (es : List (Nat × Nat)) : Evaluating Unit :=
  modify fun e => { e with nodes := e.nodes.modify n fun old => { old with content := .mapping es } }

def setTag (n : Nat) (tag : Tag) : Evaluating Unit :=
  modify fun e => { e with nodes := e.nodes.modify n fun old => { old with tag := tag } }

/-! ## Merging -/

/-- A bound on the steps of merging. Every step passes over an entry or takes a merge key away. -/
def mergeSteps : Nat := 0x100000000

/-- Resolves the merge keys of a mapping from a position on. The entries that they bring in come before
all others in the end, so that the mapping's own ones win; those of several mappings come from the
last one on. A key that is an equals sign becomes a text. -/
def mergeFrom : Nat → Nat → Nat → List (Nat × Nat) → Evaluating Unit
  | 0, _, _, _ => throw .nestedTooDeep
  | fuel + 1, n, position, merged => do
    let es ← entries n
    match es[position]? with
    | none => if merged.isEmpty then pure () else setEntries n (merged ++ es)
    | some (k, v) =>
      match (← node k).tag with
      | .merge =>
        setEntries n (es.eraseIdx position)
        match (← node v).content with
        | .mapping _ =>
          mergeFrom fuel v 0 []
          mergeFrom fuel n position (merged ++ (← entries v))
        | .sequence sources =>
          let more ← sources.mapM fun m => do
            match (← node m).content with
            | .mapping _ =>
              mergeFrom fuel m 0 []
              entries m
            | _ => throw .malformed
          mergeFrom fuel n position (merged ++ more.reverse.flatten)
        | .scalar _ => throw .malformed
      | .value =>
        setTag k .text
        mergeFrom fuel n (position + 1) merged
      | _ => mergeFrom fuel n (position + 1) merged

def merge (n : Nat) : Evaluating (List (Nat × Nat)) := do
  mergeFrom mergeSteps n 0 []
  entries n

/-! ## Scalars -/

/-- The text of a node under a scalar tag. A mapping stands for the value of its key `=`. -/
def scalarText (nodes : Array Node) : Nat → Nat → Except Fault String
  | 0, _ => .error .nestedTooDeep
  | fuel + 1, n =>
    match (nodes[n]?.getD .empty).content with
    | .scalar text => .ok text
    | .sequence _ => .error .malformed
    | .mapping es =>
      match es.find? fun e => (nodes[e.1]?.getD .empty).tag = .value with
      | some e => scalarText nodes fuel e.2
      | none => .error .malformed

/-- The value of a node under a scalar tag. A moment has to have a text of its own. -/
def scalarValue (nodes : Array Node) (n : Nat) : Except Fault Value :=
  let ⟨tag, content⟩ := nodes[n]?.getD .empty
  if tag.isScalar then do
    let text ← scalarText nodes (nodes.size + 1) n
    match tag, content with
    | .moment, .mapping _ => .error .momentWithoutText
    | tag, _ => Value.ofScalar tag text
  else .error .malformed

/-! ## Collections -/

/-- A node as it is met: a scalar is read at once, a collection is left for the next round. -/
def meet (n : Nat) : Evaluating Unit := do
  let e ← get
  if (e.parts[n]?.bind id).isSome then pure ()
  else if (← node n).tag.isCollection then
    know n .waiting
    modify fun e => { e with met := n :: e.met }
  else
    match scalarValue e.nodes n with
    | .ok v => know n (.scalar v)
    | .error fault => throw fault

def meetEntry (e : Nat × Nat) : Evaluating Unit := do
  if (← node e.1).tag.isCollection then throw .malformed
  else
    meet e.1
    meet e.2

def meetPair (n : Nat) : Evaluating (Nat × Nat) := do
  match (← node n).content with
  | .mapping [e] =>
    meet e.1
    meet e.2
    pure e
  | _ => throw .malformed

def visit (n : Nat) : Evaluating Unit := do
  match ← node n with
  | ⟨.sequence, .sequence ns⟩ =>
    ns.forM meet
    know n (.items ns)
  | ⟨.mapping, .mapping _⟩ =>
    let es ← merge n
    es.forM meetEntry
    know n (.entries es)
  | ⟨.set, .mapping _⟩ =>
    let es ← merge n
    es.forM meetEntry
    know n (.members (es.map (·.1)))
  | ⟨.pairs, .sequence ns⟩ | ⟨.orderedMapping, .sequence ns⟩ => know n (.pairs (← ns.mapM meetPair))
  | _ => throw .malformed

/-- Goes through the collections that were met, round by round. Every collection is met once. -/
def rounds : Nat → List Nat → Evaluating Unit
  | 0, _ => pure ()
  | fuel + 1, ns => do
    ns.forM visit
    let next := (← get).met.reverse
    modify fun e => { e with met := [] }
    if next.isEmpty then pure () else rounds fuel next

/-- The value of a node down to a depth, below which everything is null. -/
def valueTo (parts : Array (Option Part)) : Nat → Nat → Value
  | 0, _ => .null
  | depth + 1, n =>
    match parts[n]?.bind id with
    | some (.scalar v) => v
    | some (.items ns) => .list (ns.map (valueTo parts depth))
    | some (.entries es) =>
      .map (es.map fun e => (valueTo parts depth e.1, valueTo parts depth e.2))
    | some (.members ns) => .set (ns.map (valueTo parts depth))
    | some (.pairs es) =>
      .list (es.map fun e => .list [valueTo parts depth e.1, valueTo parts depth e.2])
    | _ => .null

end Evaluation

/-! ## Documents -/

/-- The value of a document down to a depth, if it has no fault at any depth. -/
def value (doc : Document) (depth : Nat) : Except Fault Value := do
  let evaluate : Evaluating Unit := do
    Evaluation.meet doc.root
    let first := (← get).met
    modify fun e => { e with met := [] }
    Evaluation.rounds (doc.nodes.size + 1) first
  let (_, e) ← evaluate.run (Evaluation.start doc.nodes)
  .ok (Evaluation.valueTo e.parts depth doc.root)

namespace Value

/-- The value of a text down to a depth; a text without a document has the value null. -/
def ofSource (depth : Nat) (source : Source) : Except Fault Value := do
  match ← Document.ofTokens? (Token.scan source) with
  | some doc => doc.value depth
  | none => .ok .null

/-! ## Values as data -/

/-- Puts a value under a name; a value that is there already is replaced. -/
def putField (name : String) (d : Datum) : List (String × Datum) → List (String × Datum)
  | [] => [(name, d)]
  | f :: fs => if f.1 = name then (name, d) :: fs else f :: putField name d fs

/-- The fields of a record: the entries whose keys are texts, each with the last of its values. -/
def fields (es : List (Value × Datum)) : List (String × Datum) :=
  es.foldl (fun fs e =>
    match e.1 with
    | .text name => putField name e.2 fs
    | _ => fs) []

mutual

/-- A value as untyped data; moments and sets are foreign there. -/
def toDatum : Value → Datum
  | null => .null
  | bool b => .bool b
  | int n => .int n
  | float x => .float x
  | text s => .text s
  | bytes octets => .bytes octets
  | moment | set _ => .foreign
  | list items => .list (dataOf items)
  | map entries => .record (fields (entriesOf entries))

def dataOf : List Value → List Datum
  | [] => []
  | v :: vs => v.toDatum :: dataOf vs

def entriesOf : List (Value × Value) → List (Value × Datum)
  | [] => []
  | (k, v) :: es => (k, v.toDatum) :: entriesOf es

end

end Value
end SerialAudit.Document
