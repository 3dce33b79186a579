/-! Splitting a text at a character.

* `splitAll` : the parts between all occurrences;
* `splitFirst` : the parts before and after the first occurrence. -/
namespace SerialAudit.Text
set_option autoImplicit false

/-- There is one part at least. -/
def splitAll (sep : Char) : List Char → List (List Char)
  | [] => [[]]
  | c :: cs =>
    if c = sep then [] :: splitAll sep cs
    else
      match splitAll sep cs with
      | p :: ps => (c :: p) :: ps
      | [] => [[c]]

/-- The part before the first occurrence of a character, and the part after it; nothing is after
it where it does not occur. -/
def splitFirst (sep : Char) (cs : List Char) : List Char × List Char :=
  (cs.takeWhile (· ≠ sep), (cs.dropWhile (· ≠ sep)).drop 1)

example : splitAll '&' "a&&b".toList = ["a".toList, [], "b".toList] ∧
    splitFirst '=' "a=b=c".toList = ("a".toList, "b=c".toList) := by decide +kernel

end SerialAudit.Text
