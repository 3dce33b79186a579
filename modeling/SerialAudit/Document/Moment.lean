import SerialAudit.Document.Source
import SerialAudit.Text.Numeral

/-! Dates and times in scalars. Only whether a text denotes a moment matters, not which one.

* `Moment` : the numbers of a date, a time of day and an offset;
* `Moment.read?` : the numbers that a text consists of;
* `Moment.isPossible` : whether there is such a moment. -/
namespace SerialAudit.Document
set_option autoImplicit false

/-- A time of day; the offset is in minutes and without its sign. -/
structure TimeOfDay where
  hour : Nat
  minute : Nat
  second : Nat
  offset : Nat

structure Moment where
  year : Nat
  month : Nat
  day : Nat
  time : Option TimeOfDay

namespace Moment

/-! ## Reading -/

/-- The text ends, or only a line break is left of it. -/
def atEnd : List Char → Bool
  | [] | ['\n'] => true
  | _ => false

/-- A number of at least `least` and at most `most` digits. -/
def number? (least most : Nat) (cs : List Char) : Option (Nat × List Char) :=
  let ds := (cs.take most).takeWhile Char.isDigit
  if ds.length < least then none
  else some (ds.foldl (fun n d => n * 10 + (d.toNat - 0x30)) 0, cs.drop ds.length)

def numberAfter? (c : Char) (least most : Nat) : List Char → Option (Nat × List Char)
  | d :: cs => if d = c then number? least most cs else none
  | [] => none

/-- The offset after its sign, in minutes. -/
def offset? (cs : List Char) : Option (Nat × List Char) := do
  let (hours, cs) ← number? 1 2 cs
  match numberAfter? ':' 2 2 cs with
  | some (minutes, cs) => some (hours * 60 + minutes, cs)
  | none => some (hours * 60, cs)

def zone? (cs : List Char) : Option Nat :=
  match cs.dropWhile isBlank with
  | 'Z' :: rest => if atEnd rest then some 0 else none
  | c :: rest =>
    if c = '+' ∨ c = '-' then (offset? rest).bind fun r => if atEnd r.2 then some r.1 else none
    else if atEnd cs then some 0 else none
  | [] => if atEnd cs then some 0 else none

def dropFraction : List Char → List Char
  | '.' :: cs => cs.dropWhile Char.isDigit
  | cs => cs

def time? (cs : List Char) : Option TimeOfDay := do
  let (hour, cs) ← number? 1 2 cs
  let (minute, cs) ← numberAfter? ':' 2 2 cs
  let (second, cs) ← numberAfter? ':' 2 2 cs
  some ⟨hour, minute, second, ← zone? (dropFraction cs)⟩

def timeAfter? : List Char → Option TimeOfDay
  | c :: cs =>
    if c = 'T' ∨ c = 't' then time? cs
    else if isBlank c then time? (cs.dropWhile isBlank)
    else none
  | [] => none

def read? (cs : List Char) : Option Moment := do
  let (year, cs) ← number? 4 4 cs
  let (month, cs) ← numberAfter? '-' 1 2 cs
  let (day, cs) ← numberAfter? '-' 1 2 cs
  if atEnd cs then some ⟨year, month, day, none⟩
  else (timeAfter? cs).map fun t => ⟨year, month, day, some t⟩

/-! ## Calendar -/

def isLeap (year : Nat) : Bool := year % 4 = 0 && (year % 100 ≠ 0 || year % 400 = 0)

def daysIn (year month : Nat) : Nat :=
  if month = 2 then (if isLeap year then 29 else 28)
  else if month = 4 ∨ month = 6 ∨ month = 9 ∨ month = 11 then 30
  else 31

def TimeOfDay.isPossible (t : TimeOfDay) : Bool :=
  t.hour < 24 && t.minute < 60 && t.second < 60 && t.offset < 24 * 60

def isPossible (m : Moment) : Bool :=
  1 ≤ m.year && 1 ≤ m.month && m.month ≤ 12 && 1 ≤ m.day && m.day ≤ daysIn m.year m.month &&
    m.time.all TimeOfDay.isPossible

example : (read? "2024-02-29".toList).any isPossible ∧ !(read? "2023-02-29".toList).any isPossible ∧
    (read? "2001-12-14t21:59:43.10-05:00".toList).any isPossible ∧
    (read? "2001-12-14 9:5".toList).isNone := by decide +kernel

end Moment
end SerialAudit.Document
