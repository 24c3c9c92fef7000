import Smali.Instruction.Decode
import Smali.Program
import Smali.Source.Constant

/-!
# Reading a source

A source is read line by line. The reader holds the classes finished so far, the class and the method
that are open, and the block it is in, if any. A line without its comment and without the blanks around
it is a directive, a label or an instruction; empty lines are passed over.

What a line does has two halves. A line that starts a class first puts the open class into the table
(`Reader.settle`), even if the line then turns out to be wrong; all else that a line does it does only if
it is right (`Reader.accept`). A failing source keeps the classes that it had put into the table.
-/

namespace Smali

/-- The block that the reader is in. -/
inductive Block where
  | none
  /-- Between `.packed-switch` and its end: the label that names the table, and the table so far. -/
  | switch (name : String) (table : SwitchTable)
  /-- Inside so many nested blocks of metadata. -/
  | metadata (depth : Nat)
  /-- Data that no program keeps, up to the line that ends it. -/
  | skipped (closing : List Char)
  deriving Repr, DecidableEq, Inhabited

/-- A method that is being read. -/
structure Draft where
  /-- The method as its first line declares it. -/
  method : Method
  code : Code := {}
  lastLabel? : Option String := none
  deriving Repr, DecidableEq, Inhabited

/-- What is known of a source after some of its lines. -/
structure Reader where
  classes : ClassTable
  journal : Journal
  class? : Option Class := none
  draft? : Option Draft := none
  block : Block := .none
  /-- The number of the line being read, from one on. -/
  line : Nat := 0
  deriving Repr, DecidableEq, Inhabited

namespace Reader

/-- The refusal of the current line. -/
def refuse (r : Reader) (cause : DirectiveError) : Except ReadError α :=
  .error (.directive r.line cause)

/-- Lets the open class be changed. -/
def withClass (r : Reader) (change : Class → Class) : Except ReadError Reader :=
  match r.class? with
  | some c => .ok { r with class? := some (change c) }
  | none => .error (.outsideOfClass r.line)

/-- Lets the open method be changed. -/
def withDraft (r : Reader) (change : Draft → Except ReadError Draft) : Except ReadError Reader :=
  match r.class?, r.draft? with
  | none, _ => .error (.outsideOfClass r.line)
  | some _, none => r.refuse .outsideOfMethod
  | some _, some d => return { r with draft? := some (← change d) }

/-- Lets the code of the open method be changed. -/
def withCode (r : Reader) (change : Code → Code) : Except ReadError Reader :=
  r.withDraft fun d => .ok { d with code := change d.code }

/-- Puts the open class into the table. -/
def commit (r : Reader) : Reader :=
  match r.class? with
  | some c =>
    let (classes, journal) := r.classes.add r.journal c
    { r with classes, journal, class? := none }
  | none => r

/-! ## Directives -/

/-- The last word, and the flags that the words in front of it name. -/
def lastWord? (s : List Char) : Option (Flags × List Char) :=
  let words := Text.words s
  words.getLast?.map fun last => (Flags.ofWords (words.dropLast.map String.ofList), last)

/-- `.class <flags> <name>` -/
def beginClass (r : Reader) (rest : List Char) : Except ReadError Reader := do
  if r.draft?.isSome then r.refuse .classInsideMethod
  else
    match lastWord? rest with
    | none => r.refuse .classNameMissing
    | some (flags, last) =>
      match ← Descriptor.parse last with
      | .object name =>
        return { r with
          class? := some { flags, name }
          journal := r.journal.write .debug fun _ => s!"reading class {name}" }
      | other => r.refuse (.notAClassName other.text)

/-- `.field <flags> <name>:<type> [= <value>]` -/
def readField (r : Reader) (rest : List Char) : Except ReadError Reader := do
  let (declaration, value?) :=
    match Text.cut [' ', '=', ' '] rest with
    | some (declaration, value) => (declaration, some (Text.trim value))
    | none => (rest, none)
  match lastWord? declaration with
  | none => r.refuse .fieldNameMissing
  | some (flags, member) =>
    match Text.cutWhere (· == ':') member with
    | none => r.refuse (.invalidField (String.ofList member))
    | some (name, type) =>
      let name := String.ofList name
      let type ← Descriptor.parse type
      let initial? ← value?.mapM fun value => Constant.parse value type
      r.withClass fun c => { c with fields := c.fields.insert name { flags, name, type, initial? } }

/-- `.method <flags> <signature>` -/
def beginMethod (r : Reader) (rest : List Char) : Except ReadError Reader := do
  if r.draft?.isSome then r.refuse .methodInsideMethod
  else
    match r.class?, lastWord? rest with
    | none, _ => .error (.outsideOfClass r.line)
    | some _, none => r.refuse .signatureMissing
    | some c, some (flags, signature) =>
      let id ← MethodId.parse (c.name.toList ++ '-' :: '>' :: signature)
      let body := if flags.contains .isNative then .native else .code {}
      let method : Method :=
        ⟨c.name, id.name, flags, id.params, id.returnType, body⟩
      return { r with draft? := some { method } }

/-- The method that a draft has become at its end. -/
def finishDraft (d : Draft) : Except ReadError Method :=
  if d.method.isNative then
    if d.code.instructions.isEmpty then .ok d.method else .error (.nativeWithBody d.method.text)
  else
    match d.code.undefinedLabel? with
    | some label => .error (.undefinedLabel d.method.text label)
    | none => .ok { d.method with body := .code d.code }

/-- `.end method` -/
def endMethod (r : Reader) : Except ReadError Reader := do
  match r.draft? with
  | none => r.refuse .endWithoutMethod
  | some d =>
    -- the labels can only be checked now: a branch may go forward
    let m ← finishDraft d
    { r with draft? := none }.withClass fun c => { c with methods := c.methods ++ [m] }

/-- `.registers <count>` and `.locals <count>`; there is always one register. -/
def readRegisters (r : Reader) (rest : List Char) : Except ReadError Reader := do
  let count := (← Literal.parse rest).toInt
  if 0 ≤ count && count ≤ Slot.maxIndex then
    r.withCode fun code => { code with registerCount := max count.toNat 1 }
  else r.refuse (.registerCount (String.ofList rest))

/-- `.packed-switch <first key>` -/
def beginSwitch (r : Reader) (rest : List Char) : Except ReadError Reader := do
  let start := (← Literal.parse rest).toInt
  if Int32.minValue.toInt ≤ start && start ≤ Int32.maxValue.toInt then
    match r.class?, r.draft? with
    | none, _ => .error (.outsideOfClass r.line)
    | some _, none => r.refuse .outsideOfMethod
    | some _, some d =>
      match d.lastLabel? with
      | none => r.refuse .switchWithoutLabel
      | some name => return { r with block := .switch name { start := Int32.ofInt start } }
  else r.refuse (.switchKey (String.ofList rest))

/-- Reads the text behind the dot of a directive. Unknown directives are passed over. -/
def readDirective (r : Reader) (directive : List Char) : Except ReadError Reader :=
  let (name, rest) := splitMnemonic directive
  match String.ofList name with
  | "class" => r.beginClass rest
  | "super" => do
    let name := (← Descriptor.parse rest).text
    r.withClass fun c => { c with superName? := some name }
  | "field" => r.readField rest
  | "method" => r.beginMethod rest
  | "registers" | "locals" => r.readRegisters rest
  | "packed-switch" => r.beginSwitch rest
  | "annotation" | "subannotation" => .ok { r with block := .metadata 1 }
  | "sparse-switch" => .ok { r with block := .skipped ".end sparse-switch".toList }
  | "array-data" => .ok { r with block := .skipped ".end array-data".toList }
  | other =>
    if other == "end" && rest = "method".toList then r.endMethod
    else
      .ok { r with
        journal := r.journal.write .trace fun _ => s!"ignoring directive .{String.ofList directive}" }

/-! ## Lines -/

/-- A line inside of a switch table. -/
def readSwitchLine (r : Reader) (name : String) (table : SwitchTable) (line : List Char) :
    Except ReadError Reader :=
  if line = ".end packed-switch".toList then
    { r with block := .none }.withCode fun code =>
      { code with switchTables := code.switchTables.insert name table }
  else
    match line with
    | ':' :: label =>
      .ok { r with
        block := .switch name { table with labels := table.labels ++ [String.ofList label] } }
    | _ => r.refuse (.switchLabelExpected (String.ofList line))

/-- A line inside of metadata. -/
def readMetadataLine (r : Reader) (depth : Nat) (line : List Char) : Reader :=
  if Text.startsWith ".annotation".toList line || Text.startsWith ".subannotation".toList line then
    { r with block := .metadata (depth + 1) }
  else if line = ".end annotation".toList || line = ".end subannotation".toList then
    { r with block := if depth ≤ 1 then .none else .metadata (depth - 1) }
  else r

/-- A label stands for the number of instructions in front of it. -/
def readLabel (r : Reader) (label : List Char) : Except ReadError Reader :=
  let label := String.ofList label
  r.withDraft fun d => .ok { d with
    code := { d.code with labels := d.code.labels.insert label d.code.instructions.size }
    lastLabel? := some label }

/-- An instruction goes behind those of the open method. -/
def readInstruction (r : Reader) (line : List Char) : Except ReadError Reader := do
  let i ← Instruction.ofLine line
  r.withCode fun code => { code with instructions := code.instructions.push i }

/-- What a trimmed line that is not empty adds. -/
def accept (r : Reader) (line : List Char) : Except ReadError Reader :=
  match r.block with
  | .switch name table => r.readSwitchLine name table line
  | .metadata depth => .ok (r.readMetadataLine depth line)
  | .skipped closing => .ok (if line = closing then { r with block := .none } else r)
  | .none =>
    match line with
    | '.' :: directive => r.readDirective directive
    | ':' :: label => r.readLabel label
    | _ => r.readInstruction line

/-- Whether the line starts a class where a class may start. -/
def startsClass (r : Reader) (line : List Char) : Bool :=
  match r.block, r.draft?, line with
  | .none, none, '.' :: directive => (splitMnemonic directive).1 = "class".toList
  | _, _, _ => false

/-- Puts the open class into the table when the line starts the next one. -/
def settle (r : Reader) (line : List Char) : Reader :=
  if r.startsClass line then r.commit else r

/-- Reads one line as it stands in the source. -/
def readLine (r : Reader) (line : List Char) : Reader × Option ReadError :=
  let r := { r with line := r.line + 1 }
  let line := Text.trim (stripComment line)
  if line.isEmpty then (r, none)
  else
    -- what the line settles stays even if the rest of it is refused
    let r := r.settle line
    match r.accept line with
    | .ok r' => (r', none)
    | .error e => (r, some e)

/-- Reads lines up to the first that is wrong. -/
def readLines (r : Reader) : List (List Char) → Reader × Option ReadError
  | [] => (r, none)
  | line :: rest =>
    match r.readLine line with
    | (r, none) => r.readLines rest
    | (r, some e) => (r, some e)

/-- The end of the source: nothing may be open but a class, which is put into the table. -/
def finish (r : Reader) : Reader × Option ReadError :=
  if r.draft?.isSome then (r, some (.directive r.line .unfinishedMethod))
  else if r.block ≠ .none then (r, some (.directive r.line .unfinishedBlock))
  else (r.commit, none)

end Reader

/-- What reading a source leaves behind. -/
structure ReadResult where
  classes : ClassTable
  journal : Journal
  error? : Option ReadError
  deriving Repr, DecidableEq, Inhabited

/-- Reads a source into a class table. -/
def ClassTable.readSource (t : ClassTable) (journal : Journal) (source : String) : ReadResult :=
  let (r, error?) :=
    match ({ classes := t, journal } : Reader).readLines (Text.lines source.toList) with
    | (r, none) => r.finish
    | (r, some e) => (r, some e)
  ⟨r.classes, r.journal, error?⟩

/-- Reads sources one after the other and stops at the first that is wrong. -/
def ClassTable.readSources (t : ClassTable) (journal : Journal) :
    List String → Except ReadError ClassTable
  | [] => .ok t
  | source :: rest =>
    match t.readSource journal source with
    | ⟨t, journal, none⟩ => readSources t journal rest
    | ⟨_, _, some e⟩ => .error e

end Smali
