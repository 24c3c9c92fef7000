/-!
# Journals

Reading and running write lines into a journal. A journal keeps the lines up to its verbosity and drops
the others, so that a message nobody wants is never put together.
-/

namespace Smali

/-- How important a line is, the most important first. -/
inductive Level where
  | error
  | info
  | debug
  | trace
  deriving Repr, DecidableEq, Inhabited

namespace Level

/-- The word in front of a line. -/
def text : Level → String
  | error => "ERROR"
  | info => "INFO"
  | debug => "DEBUG"
  | trace => "TRACE"

/-- The place in the order of importance. -/
def rank : Level → Nat
  | error => 0
  | info => 1
  | debug => 2
  | trace => 3

end Level

/-- The lines written so far, oldest first. -/
structure Journal where
  /-- Lines less important than this are dropped. -/
  verbosity : Level := .info
  lines : Array (Level × String) := #[]
  deriving Repr, DecidableEq, Inhabited

namespace Journal

/-- Whether a line of this level is kept. -/
def keeps (j : Journal) (level : Level) : Bool :=
  level.rank ≤ j.verbosity.rank

/-- Writes a line; the message is put together only if the line is kept. -/
@[inline] def write (j : Journal) (level : Level) (message : Unit → String) : Journal :=
  if j.keeps level then { j with lines := j.lines.push (level, message ()) } else j

@[simp] theorem verbosity_write (j : Journal) (level : Level) (message : Unit → String) :
    (j.write level message).verbosity = j.verbosity := by
  unfold write
  split <;> rfl

end Journal

end Smali
