import Smali.Decimal.Shortest
import Smali.Machine.Run

/-!
# The command line

`smali [--entry METHOD] [--max-call-depth N] FILES... [-- ARGS...]` loads the files in order behind the
standard library, calls the entry method with the arguments and prints the result.

The whole program is one function over any monad in which files can be read; what it prints and its exit
code are its result.
-/

namespace Smali.CommandLine

open Machine

/-! ## Options -/

/-- What the arguments ask for. -/
structure Options where
  /-- The files to load, in order. -/
  files : List String := []
  entry? : Option String := none
  maxDepth? : Option Nat := none
  /-- The arguments for the entry method. -/
  args : List String := []
  deriving Repr, DecidableEq, Inhabited

namespace Options

/-- The method that is called unless another one is named. -/
def defaultEntry : String := "LMain;->main([Ljava/lang/String;)V"

/-- The number of nested calls that are allowed unless another one is given. -/
def defaultMaxDepth : Nat := 128

/-- The largest number that the machine's word holds. -/
def maxWord : Nat := 0xFFFFFFFFFFFFFFFF

/-- Sets the entry method, once. -/
def setEntry (o : Options) (value : String) : Option Options :=
  -- an option that is given twice makes no sense
  if o.entry?.isSome then none else some { o with entry? := some value }

/-- Sets the number of nested calls, once. -/
def setMaxDepth (o : Options) (value : String) : Option Options := do
  if o.maxDepth?.isSome then none
  else
    let n ← (Text.readUnsigned 10 value.toList).filter (· ≤ maxWord)
    return { o with maxDepth? := some n }

/-- Whether an argument is an option and not a file or a value. -/
def isOption (arg : String) : Bool :=
  match arg.toList with
  | '-' :: _ :: _ => true
  | _ => false

/-- Reads the arguments behind those that gave `o`; nothing if they make no sense. -/
def parseFrom (o : Options) : List String → Option Options
  | [] => some o
  | arg :: rest =>
    -- the rest belongs to the entry method, further dashes included
    if arg = "--" then some { o with args := rest }
    else if arg = "--entry" || arg = "--max-call-depth" then
      match rest with
      | value :: rest =>
        if isOption value then none
        else do (← if arg = "--entry" then o.setEntry value else o.setMaxDepth value).parseFrom rest
      | [] => none
    else
      match Text.afterStart? "--entry=".toList arg.toList,
        Text.afterStart? "--max-call-depth=".toList arg.toList with
      | some value, _ => do (← o.setEntry (String.ofList value)).parseFrom rest
      | none, some value => do (← o.setMaxDepth (String.ofList value)).parseFrom rest
      | none, none =>
        if isOption arg then none else { o with files := o.files ++ [arg] }.parseFrom rest

/-- Reads the arguments; there has to be a file. -/
def parse? (argv : List String) : Option Options :=
  (parseFrom {} argv).filter (!·.files.isEmpty)

end Options

/-! ## Arguments of the entry method -/

/-- Why arguments cannot be passed to the entry method. -/
inductive ArgumentError where
  /-- The text does not denote a value of the type. -/
  | invalid (text : String) (type : Descriptor)
  /-- Values of the type have no text. -/
  | unsupported (text : String) (type : Descriptor)
  | count (entry : String) (expected actual : Nat)
  deriving Repr, DecidableEq, Inhabited

/-- The wording of an argument error. -/
def ArgumentError.message : ArgumentError → String
  | invalid text type => s!"'{text}' is not a valid {type}"
  | unsupported text type => s!"can't pass '{text}' as {type}"
  | count entry expected actual => s!"{entry} takes {expected} arguments, got {actual}"

/-- A decimal integer with optional sign between two bounds. -/
def readInteger (low high : Int) (text : String) : Option Int :=
  (Text.readSigned text.toList).filter fun n => low ≤ n && n ≤ high

/-- The number that a text denotes as a value of a primitive type. -/
def readPrimitive? (type : Descriptor) (text : String) : Option Value :=
  match type with
  | .boolean => if text = "true" then some (.int 1) else if text = "false" then some (.int 0) else none
  | .long =>
    (readInteger Int64.minValue.toInt Int64.maxValue.toInt text).map fun n => .long (Int64.ofInt n)
  | .double => (Decimal.read .double text.toList).map .ofDoubleBits
  | .float => (Decimal.read .single text.toList).map fun bits => .int (Int32.ofNat bits)
  | _ => (readInteger Int32.minValue.toInt Int32.maxValue.toInt text).map fun n => .int (Int32.ofInt n)

/-- The value of a type that a text denotes; a string becomes a new object. -/
def readArgument (s : State) (type : Descriptor) (text : String) :
    State × Except ArgumentError Value :=
  match type with
  | .object name =>
    if name = stringClass then
      let (s, r) := s.newString text
      (s, .ok (.object r))
    else (s, .error (.unsupported text type))
  | .array _ | .void => (s, .error (.unsupported text type))
  | _ =>
    match readPrimitive? type text with
    | some v => (s, .ok v)
    | none => (s, .error (.invalid text type))

/-- The values that texts denote, one for each type. -/
def readArguments (s : State) : List (Descriptor × String) → State × Except ArgumentError (List Value)
  | [] => (s, .ok [])
  | (type, text) :: rest =>
    match readArgument s type text with
    | (s, .error e) => (s, .error e)
    | (s, .ok v) =>
      match readArguments s rest with
      | (s, .ok vs) => (s, .ok (v :: vs))
      | (s, .error e) => (s, .error e)

/-- New string objects with the texts. -/
def newStrings (s : State) : List String → State × List Value
  | [] => (s, [])
  | text :: rest =>
    let (s, r) := s.newString text
    let (s, vs) := newStrings s rest
    (s, .object r :: vs)

/-- The arguments of the entry method: an array of all texts if that is its only parameter, else one text
for each parameter. -/
def entryArguments (s : State) (entry : Method) (args : List String) :
    State × Except ArgumentError (List Value) :=
  if entry.params = [.array (.object stringClass)] then
    let (s, values) := newStrings s args
    let (s, r) := s.allocArray (.object stringClass) values.toArray
    (s, .ok [.array r])
  else if entry.params.length ≠ args.length then
    (s, .error (.count entry.text entry.params.length args.length))
  else readArguments s (entry.params.zip args)

/-- How a result of a type is printed. -/
def resultText (h : Heap) (type : Descriptor) (v : Value) : String :=
  match type, v with
  | .double, .long bits => Decimal.write .double bits.toUInt64.toNat
  | .float, .int bits => Decimal.write .single bits.toUInt32.toNat
  | .boolean, .int flag => if flag = 0 then "false" else "true"
  | _, v => h.shown v

/-! ## The program -/

/-- What the program leaves behind. -/
structure Exit where
  code : Nat
  stdout : String := ""
  stderr : String := ""
  deriving Repr, DecidableEq, Inhabited

/-- The end with a message. -/
def failure (code : Nat) (message : String) : Exit :=
  { code, stderr := message ++ "\n" }

/-- The end for arguments that make no sense. -/
def usage : Exit :=
  failure 2 ("error: the arguments make no sense\n\n" ++
    "Usage: smali [--entry METHOD] [--max-call-depth N] FILES... [-- ARGS...]")

/-- More steps than any run takes in practice. -/
def stepLimit : Nat := 1 <<< 62

/-- Calls the entry method of a program. -/
def callEntry (setup : Setup) (entry : Method) (args : List String) : Exit :=
  match entryArguments {} entry args with
  | (_, .error e) => failure 2 ("Error: " ++ e.message)
  | (s, .ok values) =>
    let (s, receiver) :=
      if entry.isStatic then (s, .ok none)
      else
        let (s, r) := newObject setup.program s entry.className
        (s, r.map fun r => some (.object r))
    match receiver with
    | .error e => failure 1 ("Error: " ++ e.message)
    | .ok receiver? =>
      match invoke setup stepLimit s entry receiver? values with
      | .returned s (some v) => { code := 0, stdout := resultText s.heap entry.returnType v ++ "\n" }
      | .returned _ none => { code := 0, stdout := "void\n" }
      | .failed _ e => failure 1 ("Error: " ++ e.message)
      | .unfinished _ => failure 1 "Error: too many steps"

/-- Loads the sources and calls the entry method. -/
def execute (o : Options) (sources : List String) : Exit :=
  match loadProgram sources with
  | .error e => failure 1 ("Error loading smali: " ++ e.message)
  | .ok program =>
    match lookupMethod program (o.entry?.getD Options.defaultEntry) with
    | .error e => failure 1 ("Error: " ++ e.message)
    | .ok entry =>
      callEntry { program, maxDepth := o.maxDepth?.getD Options.defaultMaxDepth } entry o.args

/-- Reads files in order up to the first that cannot be read. -/
def readFiles [Monad m] (readFile : String → m (Except String String)) :
    List String → m (Except Exit (List String))
  | [] => return .ok []
  | name :: rest => do
    match ← readFile name with
    | .error reason => return .error (failure 1 s!"Error reading file '{name}': {reason}")
    | .ok text =>
      match ← readFiles readFile rest with
      | .ok texts => return .ok (text :: texts)
      | .error e => return .error e

/-- The whole program. `readFile` gives the text of a file, or why it cannot be read. -/
def program [Monad m] (readFile : String → m (Except String String)) (argv : List String) : m Exit := do
  match Options.parse? argv with
  | none => return usage
  | some o =>
    match ← readFiles readFile o.files with
    | .ok sources => return execute o sources
    | .error e => return e

end Smali.CommandLine
