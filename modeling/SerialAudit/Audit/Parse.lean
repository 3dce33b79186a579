import SerialAudit.Model.Candidate

/-! Lists of candidates from untyped data.

* `Datum.items?` : what a datum consists of when it is gone through item by item;
* `InvalidCandidate` : the first item that is no candidate, and what is wrong with it;
* `Candidate.readAll` : all candidates, or the first item that is none. -/
namespace SerialAudit
set_option autoImplicit false

/-- The items of a datum: those of a list, the keys of a record, the characters of a text, the
numbers of octets. Other data have no items. -/
def Datum.items? : Datum → Option (List Datum)
  | .list items => some items
  | .record fields => some (fields.map fun p => .text p.1)
  | .text s => some (s.toList.map fun c => .text (String.ofList [c]))
  | .bytes octets => some (octets.map fun b => .int b.toNat)
  | _ => none

structure InvalidCandidate where
  index : Nat
  rejection : Rejection
  deriving DecidableEq, Repr

def InvalidCandidate.message (e : InvalidCandidate) : String :=
  "Invalid candidate at index " ++ Text.decimal e.index ++ ": " ++ e.rejection.report

/-- Reads items up to the first one that is no candidate; `start` is the position of the first. -/
def Candidate.readFrom (start : Nat) : List Datum → Except InvalidCandidate (List Candidate)
  | [] => .ok []
  | d :: ds =>
    match (Candidate.read d).toExcept Candidate.modelName with
    | .error rejection => .error ⟨start, rejection⟩
    | .ok c => (Candidate.readFrom (start + 1) ds).map (c :: ·)

def Candidate.readAll (items : List Datum) : Except InvalidCandidate (List Candidate) :=
  readFrom 0 items

end SerialAudit
