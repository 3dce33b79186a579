/-! The registry of a run: which versions are taken under which id. Ids stand in the order of their
first registration; the versions of an id are ascending.

* `Registry` : the ids with their versions;
* `Registry.contains`, `Registry.register` : the question and the one change;
* `Registry.toPairs` : the registry as a list of pairs of an id and a version;
* `Registry.size` : how many pairs it holds;
* `Registry.sortedById` : the ids in ascending order. -/
namespace SerialAudit
set_option autoImplicit false

/-- Puts a number into its place in an ascending list, once. -/
def insertVersion (v : Int) : List Int → List Int
  | [] => [v]
  | w :: ws => if v = w then w :: ws else if v < w then v :: w :: ws else w :: insertVersion v ws

/-- The ids that hold versions, in the order of their first registration. -/
structure Registry where
  entries : List (String × List Int)
  deriving DecidableEq, Repr, Inhabited

namespace Registry

def empty : Registry := ⟨[]⟩

def versions (r : Registry) (id : String) : List Int := (r.entries.lookup id).getD []

def contains (r : Registry) (id : String) (v : Int) : Bool := (r.versions id).contains v

/-- Adds a version to the entry of its id; an id without an entry gets one at the end. -/
def insertInto (id : String) (v : Int) : List (String × List Int) → List (String × List Int)
  | [] => [(id, [v])]
  | (i, vs) :: rest =>
    if i = id then (i, insertVersion v vs) :: rest else (i, vs) :: insertInto id v rest

def register (r : Registry) (id : String) (v : Int) : Bool × Registry :=
  if r.contains id v then (false, r) else (true, ⟨insertInto id v r.entries⟩)

def toPairs (r : Registry) : List (String × Int) :=
  r.entries.flatMap fun e => e.2.map (e.1, ·)

def size (r : Registry) : Nat := r.entries.foldr (fun e n => e.2.length + n) 0

def insertById (e : String × List Int) : List (String × List Int) → List (String × List Int)
  | [] => [e]
  | f :: fs => if e.1 < f.1 then e :: f :: fs else f :: insertById e fs

/-- The entries with the ids in ascending order, for a run whose order of registration is open. -/
def sortedById (r : Registry) : List (String × List Int) := r.entries.foldr insertById []

/-! ## Laws -/

theorem mem_insertVersion (v w : Int) (ws : List Int) :
    w ∈ insertVersion v ws ↔ w = v ∨ w ∈ ws := by
  induction ws with
  | nil => simp [insertVersion]
  | cons x xs ih => grind [insertVersion]

@[simp] theorem toPairs_empty : empty.toPairs = [] := rfl

theorem size_eq_length_toPairs (r : Registry) : r.size = r.toPairs.length := by
  obtain ⟨entries⟩ := r
  induction entries with
  | nil => rfl
  | cons e es ih => simp_all [size, toPairs]

end Registry
end SerialAudit
