import Smali.Machine.Exec

/-!
# The machine

A run is a sequence of steps. The machine holds the state, the task at hand and the work that waits for
the task to be finished, innermost first. `step` never recurses: a call, a class that has to be set up or
a reply of the host becomes the next task, and what was going on waits.

The calls in progress stay recorded in the state when a step fails, so that they can be reported.
-/

namespace Smali.Machine

/-- What does not change during a run. -/
structure Setup where
  program : Program
  natives : Natives := .standard
  /-- The number of nested calls that are allowed. -/
  maxDepth : Nat := 128

/-- What the machine does next. -/
inductive Task where
  /-- Calls a method. -/
  | call (method : Method) (receiver? : Option Value) (args : List Value)
  /-- Sets a class up unless that has been done. -/
  | initClass (className : String)
  /-- Runs the next instruction of a call. -/
  | run (frame : Frame)
  /-- Hands the value of a finished task to the work that waits for it. -/
  | finished (value? : Option Value)
  /-- Walks up a superclass chain without end. -/
  | endless
  deriving Repr, DecidableEq, Inhabited

/-- Work that waits for a task to be finished. -/
inductive Waiting where
  /-- The call that made a call: it keeps the value and runs on. -/
  | caller (frame : Frame)
  /-- The call that needed a class to touch a field. -/
  | access (frame : Frame) (instruction : Instruction)
  /-- The call that needs the class of its receiver. -/
  | enter (method : Method) (receiver? : Option Value) (args : List Value)
  /-- The class whose initializer runs. -/
  | initializer (id : Nat)
  /-- The host method that has a method called in its place. -/
  | host (method : Method)
  /-- The host method that needed a class to read a field. -/
  | readField (method : Method) (owner : LoadedClass) (field : Field) (args : List Value)
  /-- The host method that needed a class to write a field. -/
  | writeField (method : Method) (owner : LoadedClass) (field : Field) (args : List Value)
      (value : Value)
  deriving Repr, DecidableEq, Inhabited

/-- A run between two steps. -/
structure Snapshot where
  state : State
  task : Task
  waiting : List Waiting := []
  deriving Repr, DecidableEq, Inhabited

/-- What a step comes to. -/
inductive Progress where
  | more (snapshot : Snapshot)
  | done (state : State) (value? : Option Value)
  | fault (state : State) (fault : Fault)
  deriving Repr, DecidableEq, Inhabited

/-! ## Calls -/

/-- Ends the innermost call with a value. -/
def leaveCall (s : State) (value? : Option Value) (waiting : List Waiting) : Progress :=
  .more ⟨{ s with calls := s.calls.pop }, .finished value?, waiting⟩

/-- Goes on as a host method wants. -/
def follow (s : State) (method : Method) (reply : Reply) (waiting : List Waiting) : Progress :=
  match reply with
  | .finish value? => leaveCall s value? waiting
  | .fail fault => .fault s fault
  | .call m receiver? args => .more ⟨s, .call m receiver? args, .host method :: waiting⟩
  | .readField owner field args =>
    .more ⟨s, .initClass owner.name, .readField method owner field args :: waiting⟩
  | .writeField owner field args v =>
    .more ⟨s, .initClass owner.name, .writeField method owner field args v :: waiting⟩

/-- Enters a call whose receiver's class is set up. -/
def enterCall (setup : Setup) (s : State) (method : Method) (receiver? : Option Value)
    (args : List Value) (waiting : List Waiting) : Progress :=
  match s.calls.push setup.maxDepth method with
  | .error e => .fault s e
  | .ok calls =>
    -- the line is indented by the calls around this one
    let s := s.log .debug fun _ =>
      "".pushn '\t' s.depth ++ "=> invoke_method " ++ method.text ++ " " ++
        Dump.option (receiver?.map s.heap.dump) ++ " " ++ Dump.list (args.map s.heap.dump)
    let s := { s with calls }
    match method.body with
    | .code code => .more ⟨s, .run (.enter method code receiver? args), waiting⟩
    | .native =>
      match setup.natives.find? method.className method.name method.params with
      | none => .fault s (.methodNotFound (.withoutHost method.text))
      | some host =>
        let (s, reply) := host setup.program ⟨receiver?, Value.splitAll args, s.depth⟩ s
        follow s method reply waiting

/-- Calls a method. A static method has no receiver; the class of an object that receives a call is set up
first. -/
def startCall (setup : Setup) (s : State) (method : Method) (receiver? : Option Value)
    (args : List Value) (waiting : List Waiting) : Progress :=
  if method.isAbstract then .fault s (.methodNotFound (.withoutBody method.text))
  else
    -- a receiver that is an array or null has no class to set up
    match if method.isStatic then none else receiver? with
    | some (.object r) =>
      match s.heap.object r with
      | .ok o =>
        .more ⟨s, .initClass o.className, .enter method (some (.object r)) args :: waiting⟩
      | .error e => .fault s e
    | receiver? => enterCall setup s method receiver? args waiting

/-! ## Classes -/

/-- Sets a class up: its static fields get their first values, then its initializer runs. -/
def startInit (setup : Setup) (s : State) (className : String) (waiting : List Waiting) : Progress :=
  match findClass setup.program className with
  | .error e => .fault s e
  | .ok c =>
    if s.classStatus c.id ≠ .uninitialized then .more ⟨s, .finished none, waiting⟩
    else
      let s := s.log .debug fun _ => "initialize class " ++ c.name
      let (s, fields) := s.initialStatics c.staticFields
      let s := s.installStatics c.id fields
      match c.initMethod? with
      | some m =>
        -- the initializer may use its own class, which counts as set up from here on
        .more ⟨s.setClassStatus c.id .initializing, .call m none [], .initializer c.id :: waiting⟩
      | none => .more ⟨s.setClassStatus c.id .initialized, .finished none, waiting⟩

/-! ## Instructions -/

/-- Goes on as an instruction says. -/
def carryOn (s : State) (flow : Except Fault Flow) (instruction : Instruction)
    (waiting : List Waiting) : Progress :=
  match flow with
  | .error e => .fault s e
  | .ok (.next f) => .more ⟨s, .run { f with pc := f.pc + 1 }, waiting⟩
  | .ok (.jump f pc) => .more ⟨s, .run { f with pc }, waiting⟩
  | .ok (.leave value?) => leaveCall s value? waiting
  | .ok (.call f m receiver? args) => .more ⟨s, .call m receiver? args, .caller f :: waiting⟩
  | .ok (.needClass f className) => .more ⟨s, .initClass className, .access f instruction :: waiting⟩
  | .ok .endless => .more ⟨s, .endless, waiting⟩

/-- Runs the next instruction of a call. Behind the last one a call ends if it has no value to return. -/
def runNext (setup : Setup) (s : State) (f : Frame) (waiting : List Waiting) : Progress :=
  match f.code.instructions[f.pc]? with
  | none =>
    if f.method.returnType = .void then leaveCall s none waiting
    else .fault s (.missingReturn f.method.text)
  | some i =>
    let s := s.log .trace fun _ => "".pushn '\t' s.depth ++ "exec " ++ i.dump
    let (s, flow) := exec setup.program s f i
    carryOn s flow i waiting

/-! ## Steps -/

/-- Hands a value to the work that has waited for it. -/
def resume (setup : Setup) (s : State) (value? : Option Value) (work : Waiting)
    (waiting : List Waiting) : Progress :=
  match work with
  | .caller f => .more ⟨{ s with lastReturn? := value? }, .run { f with pc := f.pc + 1 }, waiting⟩
  | .access f i =>
    let (s, flow) := access setup.program s f i
    carryOn s flow i waiting
  | .enter m receiver? args => enterCall setup s m receiver? args waiting
  | .initializer id => .more ⟨s.setClassStatus id .initialized, .finished none, waiting⟩
  -- the call that took the place of the host method leaves its value for it
  | .host _ => leaveCall s value? waiting
  | .readField m owner field args =>
    let (s, reply) := replyField s owner field args
    follow s m reply waiting
  | .writeField m owner field args v =>
    let (s, reply) := writeField s owner field args v
    follow s m reply waiting

/-- One step of a run. -/
def step (setup : Setup) (m : Snapshot) : Progress :=
  match m with
  | ⟨s, task, waiting⟩ =>
    match task with
    | .call method receiver? args => startCall setup s method receiver? args waiting
    | .initClass className => startInit setup s className waiting
    | .run f => runNext setup s f waiting
    | .finished value? =>
      match waiting with
      | [] => .done s value?
      | work :: rest => resume setup s value? work rest
    | .endless => .more ⟨s, .endless, waiting⟩

end Smali.Machine
