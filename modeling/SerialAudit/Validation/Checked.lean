import SerialAudit.Datum
import SerialAudit.Validation.Issue

/-! Reading with all findings. A reader turns a datum into a value or into the list of everything
that is wrong with it; readers of several parts run all of them and put their findings together in
the order of the parts.

* `Checked` : a value, or the findings;
* `Checked.under` : the findings seen from one step further out;
* `Reader` : a function from data to checked values;
* `elements`, `members` : readers of all items of a list and of all fields of a record;
* `required`, `optional` : readers of one field of a record;
* `recordOf` : the reader of a record of a model. -/
namespace SerialAudit
set_option autoImplicit false

inductive Checked (α : Type) where
  | ok (value : α)
  | bad (issues : List Issue)
  deriving DecidableEq, Repr

namespace Checked

variable {α β : Type}

def map (f : α → β) : Checked α → Checked β
  | ok a => ok (f a)
  | bad issues => bad issues

/-- Applies a checked function; the findings of both sides are kept, the left ones first. -/
def ap : Checked (α → β) → Checked α → Checked β
  | ok f, ok a => ok (f a)
  | ok _, bad issues => bad issues
  | bad issues, ok _ => bad issues
  | bad issues, bad more => bad (issues ++ more)

instance : Functor Checked where map := map

instance : Applicative Checked where
  pure := ok
  seq f x := ap f (x ())

def fail (cause : Issue.Cause) : Checked α := bad [Issue.here cause]

def under (step : Issue.Step) : Checked α → Checked α
  | ok a => ok a
  | bad issues => bad (issues.map (Issue.under step))

def toExcept (model : String) : Checked α → Except Rejection α
  | ok a => .ok a
  | bad issues => .error ⟨model, issues⟩

@[simp] theorem map_ok (f : α → β) (a : α) : f <$> (ok a : Checked α) = ok (f a) := rfl

@[simp] theorem map_bad (f : α → β) (issues : List Issue) :
    f <$> (bad issues : Checked α) = bad issues := rfl

@[simp] theorem seq_ok_ok (f : α → β) (a : α) :
    (ok f : Checked (α → β)) <*> (ok a : Checked α) = ok (f a) := rfl

@[simp] theorem seq_bad_bad (issues more : List Issue) :
    (bad issues : Checked (α → β)) <*> (bad more : Checked α) = bad (issues ++ more) := rfl

/-- Two parts together are accepted exactly when both are. -/
theorem seq_eq_ok_iff {f : Checked (α → β)} {x : Checked α} {b : β} :
    f <*> x = ok b ↔ ∃ g a, f = ok g ∧ x = ok a ∧ g a = b := by
  cases f <;> cases x <;> simp [Seq.seq, ap]

end Checked

abbrev Reader (α : Type) := Datum → Checked α

namespace Reader

variable {α : Type}

/-- All items of a list, each finding at its position, counted from `start`. -/
def elements (read : Reader α) (start : Nat) : List Datum → Checked (List α)
  | [] => .ok []
  | d :: ds => List.cons <$> (read d).under (.index start) <*> elements read (start + 1) ds

def members (read : Reader α) : List (String × Datum) → Checked (List (String × α))
  | [] => .ok []
  | (name, d) :: fields =>
    List.cons <$> ((read d).under (.key name)).map (name, ·) <*> members read fields

def required (fields : List (String × Datum)) (name : String) (read : Reader α) : Checked α :=
  match Datum.field? fields name with
  | some d => (read d).under (.key name)
  | none => (Checked.fail .missing : Checked α).under (.key name)

def optional (fields : List (String × Datum)) (name : String) (default : α) (read : Reader α) :
    Checked α :=
  match Datum.field? fields name with
  | some d => (read d).under (.key name)
  | none => .ok default

/-- The record of a model; anything that is no record is a finding of its own. -/
def recordOf (model : String) (read : List (String × Datum) → Checked α) : Reader α
  | .record fields => read fields
  | _ => .fail (.notRecord model)

end Reader
end SerialAudit
