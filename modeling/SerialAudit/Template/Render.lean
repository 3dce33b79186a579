import SerialAudit.Template.Piece
import SerialAudit.Template.Shown

/-! Filling a template in. The names are known by their texts; what is put in is never read as a
template again.

* `lookUp` : what the path of a hole leads to;
* `Hole.fill` : the text of one hole;
* `render` : the text of a template, with one level of nested holes. -/
namespace SerialAudit.Template
set_option autoImplicit false

/-- The names that holes may use, with their texts. -/
abbrev Names := List (String × String)

def lookUp (names : Names) (path : List Char) : Except Fault Thing :=
  match head path with
  | .malformed => .error .malformed
  | .positional => .error .positional
  | .named n =>
    match names.lookup n with
    | none => .error (.unknownName n)
    | some s => (Thing.text s).followAll (steps path)

/-- The text of a hole; `expand` fills in the holes of its layout. -/
def Hole.fill (names : Names) (expand : List Char → Except Fault (List Char)) (h : Hole) :
    Except Fault (List Char) := do
  let found ← lookUp names h.name
  let converted ← found.convert h.conversion
  let layout ← if h.nested then expand h.layout else .ok h.layout
  converted.layOut layout

/-- The text of the pieces, up to the first fault from the left. -/
def fillAll (names : Names) (expand : List Char → Except Fault (List Char)) :
    List Piece → Except Fault (List Char)
  | [] => .ok []
  | .char c :: ps => do
    let rest ← fillAll names expand ps
    .ok (c :: rest)
  | .hole h :: ps => do
    let t ← h.fill names expand
    let rest ← fillAll names expand ps
    .ok (t ++ rest)
  | .malformed :: _ => .error .malformed

def renderTo (names : Names) : Nat → List Char → Except Fault (List Char)
  | 0, _ => .error .nestedTooDeep
  | depth + 1, cs => fillAll names (renderTo names depth) (pieces .plain cs)

/-- The text of a template; the layout of a hole may have holes, theirs may not. -/
def render (names : Names) (template : String) : Except Fault String :=
  (renderTo names 2 template.toList).map String.ofList

example : (render [("x", "ab")] "\x7bx:>\x7by\x7d\x7d").toOption = none ∧
    (render [("x", "ab"), ("y", "4")] "\x7bx:>\x7by\x7d\x7d\x7b\x7b").toOption = some "  ab\x7b" := by decide +kernel

end SerialAudit.Template
