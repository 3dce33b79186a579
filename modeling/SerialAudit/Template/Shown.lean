import SerialAudit.Template.Digits
import SerialAudit.Template.Thing
import SerialAudit.Text.Quoted

/-! How things are shown.

* `Thing.quoted` : a thing in its quoted form;
* `Thing.shown` : a thing as it is shown in a hole; only texts and tables differ from their quoted form;
* `Thing.convert` : a thing under the conversion of a hole;
* `Thing.layOut` : a thing, laid out. -/
namespace SerialAudit.Template
set_option autoImplicit false

def Kind.shown (k : Kind) : String := "<class '" ++ k.fullName ++ "'>"

/-- Where a thing is kept. This differs from run to run, and no place is known here. -/
def address : String := "0x000000000000"

def Item.quoted : Item → String
  | .text s => Text.quoted s
  | .number n => Text.decimal n
  | .kind k => k.shown

def Item.argument : Item → String
  | .kind k => k.name
  | i => i.quoted

def listed (texts : List String) : String := ", ".intercalate texts

def boundShown (kindOfSelf : Kind) (m : Member) : String :=
  let form := if m.access = .operation then "<method-wrapper '" ++ m.name ++ "'"
    else "<built-in method " ++ m.name
  form ++ " of " ++ kindOfSelf.fullName ++ " object at " ++ address ++ ">"

def Member.shown (owner : Kind) (m : Member) : String :=
  let ofOwner (what : String) :=
    "<" ++ what ++ " '" ++ m.name ++ "' of '" ++ owner.fullName ++ "' objects>"
  match m.access with
  | .operation => ofOwner "slot wrapper"
  | .method | .kindMethod => ofOwner "method"
  | .computed => ofOwner "attribute"
  | .stored => ofOwner "member"
  | .free => "<staticmethod(" ++ boundShown .kind m ++ ")>"
  | .maker => boundShown .kind m
  | .constant => (m.description.map Text.quoted).getD "None"

def Kind.tableShown (k : Kind) : String :=
  "\x7b" ++ listed (k.members.map fun m => Text.quoted m.name ++ ": " ++ m.shown k) ++ "\x7d"

namespace Thing

def quoted : Thing → String
  | item i => i.quoted
  | truth b => if b then "True" else "False"
  | nothing => "None"
  | tuple [i] => "(" ++ i.quoted ++ ",)"
  | tuple items => "(" ++ listed (items.map Item.quoted) ++ ")"
  | member owner m => m.shown owner
  | bound self _ m => boundShown self.kindOf m
  | view k => "mappingproxy(" ++ k.tableShown ++ ")"
  | generic origin argument => origin.name ++ "[" ++ argument.argument ++ "]"

def shown : Thing → String
  | item (.text s) => s
  | view k => k.tableShown
  | t => t.quoted

/-- The conversions: `s` to the text shown, `r` to its quoted form, `a` to that in ASCII. -/
def convert (t : Thing) : Option Char → Except Fault Thing
  | none => .ok t
  | some 's' => .ok (text t.shown)
  | some 'r' => .ok (text t.quoted)
  | some 'a' => .ok (text (Text.inAscii t.quoted))
  | some _ => .error .unknownConversion

/-- From this width on nothing is laid out. The number is no part of the notation: it stands for the
memory of one machine, where a text of a tebibyte cannot be allocated and shorter ones are not asked for. -/
def tooWide : Nat := 0x10000000000

def withLayout (l : Option Layout) (f : Layout → Except Fault (List Char)) :
    Except Fault (List Char) :=
  match l with
  | none => .error .unsuitableLayout
  | some l => if tooWide ≤ l.width then .error .tooWide else f l

/-- The text of a thing, laid out; only texts, whole numbers and truth values have layouts. -/
def layOut (t : Thing) (layout : List Char) : Except Fault (List Char) :=
  if layout.isEmpty then .ok t.shown.toList
  else
    match t with
    | item (.text s) => withLayout (Layout.ofText? layout) fun l => .ok (l.onText s.toList)
    | item (.number n) => withLayout (Layout.ofNumber? layout) (Layout.onNumber · n)
    | truth b => withLayout (Layout.ofNumber? layout) (Layout.onNumber · b.toNat)
    | _ => .error .notLaidOut

example : (tuple [.kind .anything]).shown = "(<class 'object'>,)" ∧
    (generic .kind (.text "a b")).shown = "type['a b']" ∧
    ((text "é").convert (some 'a')).toOption = some (text "'\\xe9'") := by decide +kernel

end Thing
end SerialAudit.Template
