import Smali.Machine.Fault
import Smali.Method

/-!
# The calls in progress

The methods that are running, innermost first. Their number is limited.
-/

namespace Smali.Machine

/-- The methods that are running, innermost first. -/
abbrev CallStack := List Method

namespace CallStack

/-- Records a call, of which no more than `limit` may be in progress. -/
def push (limit : Nat) (calls : CallStack) (m : Method) : Except Fault CallStack :=
  if calls.length < limit then .ok (m :: calls) else .error (.stackOverflow limit)

/-- Records the end of the innermost call. -/
def pop (calls : CallStack) : CallStack :=
  calls.tail

/-- A line of a stack trace. -/
def traceLine (m : Method) : String :=
  "\t" ++ m.className ++ "->" ++ m.signature

/-- The stack trace, innermost call first. -/
def trace (calls : CallStack) : List String :=
  calls.map traceLine

theorem length_push_le {limit : Nat} {calls calls' : CallStack} {m : Method}
    (h : push limit calls m = .ok calls') : calls'.length ≤ limit := by
  unfold push at h
  split at h
  · obtain rfl := Except.ok.inj h
    simpa using ‹_›
  · simp at h

end CallStack

end Smali.Machine
