/-! Regular patterns on texts. A pattern is matched character by character: what is left of it after
a character is a pattern again.

* `Pattern` : patterns, with `word`, `oneOf`, `between`, `maybe`, `repeated`, `chain` and `any` to build them;
* `Pattern.after` : what is left of a pattern after a character;
* `Pattern.accepts` : whether a pattern matches the whole of a text. -/
namespace SerialAudit.Text
set_option autoImplicit false

inductive Pattern where
  | never
  | blank
  | one (p : Char → Bool)
  | seq (p q : Pattern)
  | alt (p q : Pattern)
  | many (p : Pattern)

namespace Pattern

/-! ## Building -/

def chain : List Pattern → Pattern
  | [] => blank
  | [p] => p
  | p :: ps => seq p (chain ps)

def any : List Pattern → Pattern
  | [] => never
  | [p] => p
  | p :: ps => alt p (any ps)

/-- A text that matches itself only. -/
def word (s : String) : Pattern := chain (s.toList.map fun c => one (· = c))

def oneOf (s : String) : Pattern := one s.toList.contains

def between (first last : Char) : Pattern := one fun c => first ≤ c && c ≤ last

def maybe (p : Pattern) : Pattern := alt blank p

def repeated (p : Pattern) : Pattern := seq p (many p)

/-! ## Matching -/

def matchesNil : Pattern → Bool
  | never => false
  | blank => true
  | one _ => false
  | seq p q => p.matchesNil && q.matchesNil
  | alt p q => p.matchesNil || q.matchesNil
  | many _ => true

/-- One pattern after the other, where neither is superfluous. -/
def andThen : Pattern → Pattern → Pattern
  | never, _ => never
  | _, never => never
  | blank, q => q
  | p, q => seq p q

/-- Either of two patterns, where neither is superfluous. -/
def orElse : Pattern → Pattern → Pattern
  | never, q => q
  | p, never => p
  | p, q => alt p q

def after (c : Char) : Pattern → Pattern
  | never => never
  | blank => never
  | one p => if p c then blank else never
  | seq p q =>
    if p.matchesNil then ((p.after c).andThen q).orElse (q.after c) else (p.after c).andThen q
  | alt p q => (p.after c).orElse (q.after c)
  | many p => (p.after c).andThen (many p)

def accepts : Pattern → List Char → Bool
  | p, [] => p.matchesNil
  | never, _ => false
  | p, c :: cs => (p.after c).accepts cs

end Pattern
end SerialAudit.Text
