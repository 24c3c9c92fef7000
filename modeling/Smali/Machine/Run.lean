import Smali.Machine.Library
import Smali.Machine.Step

/-!
# Runs

A run goes step by step until it is done or fails; it is given a number of steps, and running out of them
is an outcome of its own. `invoke` is the way in from outside: when a call fails, the calls in progress are
written into the journal and forgotten, so that the machine can be used again.
-/

namespace Smali.Machine

/-- What a run comes to. -/
inductive Outcome where
  | returned (state : State) (value? : Option Value)
  | failed (state : State) (fault : Fault)
  /-- More steps are needed. -/
  | unfinished (snapshot : Snapshot)
  deriving Repr, DecidableEq, Inhabited

/-- Runs so many steps at most. -/
def run (setup : Setup) : (steps : Nat) → Snapshot → Outcome
  | 0, m => .unfinished m
  | steps + 1, m =>
    match step setup m with
    | .more m => run setup steps m
    | .done s value? => .returned s value?
    | .fault s fault => .failed s fault

/-- Calls a method from within a run; a failure leaves the calls in progress as they are. -/
def invokeMethod (setup : Setup) (steps : Nat) (s : State) (method : Method)
    (receiver? : Option Value) (args : List Value) : Outcome :=
  run setup steps ⟨s, .call method receiver? args, []⟩

/-- Sets a class up unless that has been done; a failure leaves the calls in progress as they are. -/
def initClass (setup : Setup) (steps : Nat) (s : State) (className : String) : Outcome :=
  run setup steps ⟨s, .initClass className, []⟩

/-- Reports a failed call with the calls in progress, innermost first, and forgets them. -/
def reportFailure (s : State) (method : Method) (fault : Fault) : State :=
  let s := s.log .error fun _ => fault.message ++ " in " ++ method.text
  let s := s.calls.trace.foldl (fun s line => s.log .error fun _ => line) s
  { s with calls := [] }

/-- Calls a method from outside. -/
def invoke (setup : Setup) (steps : Nat) (s : State) (method : Method) (receiver? : Option Value)
    (args : List Value) : Outcome :=
  match invokeMethod setup steps s method receiver? args with
  | .failed s fault => .failed (reportFailure s method fault) fault
  | other => other

end Smali.Machine
