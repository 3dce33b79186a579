/-! Log lines, as values that the steps of an analysis give back.

* `Log.Level` : the weight of a line, and the number it is compared by;
* `Log.Line` : a message with its weight;
* `Log.atLeast` : the lines of a least weight;
* `Log.threshold?` : the least weight that a name stands for. -/
namespace SerialAudit.Log
set_option autoImplicit false

inductive Level where
  | debug
  | info
  deriving DecidableEq, Repr

namespace Level

def name : Level → String
  | debug => "DEBUG"
  | info => "INFO"

def number : Level → Nat
  | debug => 10
  | info => 20

end Level

structure Line where
  level : Level
  message : String
  deriving DecidableEq, Repr

def debug (message : String) : Line := ⟨.debug, message⟩

def info (message : String) : Line := ⟨.info, message⟩

def atLeast (level : Level) (lines : List Line) : List Line :=
  lines.filter fun l => level.number ≤ l.level.number

/-- The names of thresholds, in upper case, with their numbers. -/
def thresholds : List (String × Nat) :=
  [("CRITICAL", 50), ("FATAL", 50), ("ERROR", 40), ("WARN", 30), ("WARNING", 30), ("INFO", 20),
   ("DEBUG", 10), ("NOTSET", 0)]

def threshold? (name : String) : Option Nat := thresholds.lookup name

end SerialAudit.Log
