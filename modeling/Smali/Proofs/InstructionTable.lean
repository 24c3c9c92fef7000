import Smali.Proofs.Mnemonics
import Smali.Proofs.StringLiterals

/-!
# The instruction table

The documented table of instructions has families of mnemonics that take the same operands. Decoding keeps
to it: a mnemonic outside of the table is unsupported whatever follows it, one of the table takes as many
operands as its family says, each of the shape that its place asks for, and whatever is refused is refused
for the number of operands or for one of them. No operand is ever asked for behind the last one.

An instruction has several spellings: an operation in place is the operation with its first operand written
twice, and a range of registers is the list of the registers in it.

## Key results

- `Form.build_agrees`: operands are refused if and only if one of them has not its shape
- `shapes_of_mem_families`, `mem_mnemonics_of_form`: the forms are those of the table
- `decode_table`: decoding covers the table, and equivalent spellings agree
-/

namespace Smali

/-! ## Operands -/

/-- What an instruction asks of an operand. -/
inductive Shape where
  | slot
  | literal
  | quoted
  | label
  | type
  | className
  | field
  | method
  /-- Slots, as a list or as a range, perhaps only so many. -/
  | slots (limit? : Option Nat)
  deriving Repr, DecidableEq

/-- The slots that a group in braces names. -/
def Token.slots? : Token → Option (List Slot)
  | .list items => items.mapM fun item => Slot.parse? item.toList
  | .range first last => Slot.parseRange? first.toList last.toList
  | .word _ => none

namespace Shape

/-- Whether a token has the shape. -/
def fits : Shape → Token → Bool
  | slot, .word word => (Slot.parse? word.toList).isSome
  | literal, .word word => (Literal.parse word.toList).isOk
  | quoted, .word word => (unescape word.toList).isOk
  | label, .word word => word.toList.head? = some ':' && 1 < word.toList.length
  | type, .word word => (Descriptor.parse word.toList).isOk
  | className, .word word => (Descriptor.parse word.toList).toOption.any fun
    | .object _ => true
    | _ => false
  | field, .word word => (FieldId.parse word.toList).isOk
  | method, .word word => (MethodId.parse word.toList).isOk
  | slots limit?, token => token.slots?.any fun slots => limit?.all (slots.length ≤ ·)
  | _, _ => false

/-- Refuses a token that has not the shape. -/
def check (mnemonic : String) (token : Token) : Shape → Except ReadError Unit
  | slot => (Operands.slot mnemonic token).map fun _ => ()
  | literal => (Operands.literal mnemonic token 0).map fun _ => ()
  | quoted => (Operands.text mnemonic token).map fun _ => ()
  | label => (Operands.label mnemonic token).map fun _ => ()
  | type => (Operands.descriptor mnemonic token).map fun _ => ()
  | className => (Operands.className mnemonic token).map fun _ => ()
  | field => (Operands.field mnemonic token).map fun _ => ()
  | method => (Operands.method mnemonic token).map fun _ => ()
  | slots limit? => do
    let slots ← Operands.slots mnemonic token
    if limit?.all (slots.length ≤ ·) then return ()
    else Operands.refuse mnemonic s!"{slots.length} registers"

end Shape

/-- The operands that a form takes. -/
def Form.shapes : Form → List Shape
  | nop | returnVoid => []
  | const _ | constWide _ => [.slot, .literal]
  | constString => [.slot, .quoted]
  | move _ | arrayLength | convert _ => [.slot, .slot]
  | moveResult _ | returnValue _ | monitorEnter | monitorExit => [.slot]
  | newInstance => [.slot, .className]
  | newArray => [.slot, .slot, .type]
  | checkCast => [.slot, .type]
  | goto => [.label]
  | packedSwitch | ifZero _ => [.slot, .label]
  | compareLong | compareDouble | arrayGet _ | arrayPut _ => [.slot, .slot, .slot]
  | staticGet _ | staticPut _ => [.slot, .field]
  | instanceGet _ | instancePut _ => [.slot, .slot, .field]
  | invoke _ ranged => [.slots (if ranged then none else some 5), .method]
  | ifTest _ => [.slot, .slot, .label]
  | literalArithmetic _ _ => [.slot, .slot, .literal]
  | arithmetic _ _ inPlace | doubleArithmetic _ inPlace =>
    if inPlace then [.slot, .slot] else [.slot, .slot, .slot]

/-! ## The documented table -/

/-- Each beginning with each ending. -/
def spellings (beginnings endings : List String) : List String :=
  beginnings.flatMap fun beginning => endings.map (beginning ++ ·)

/-- The endings of accessors. -/
def accessorEndings : List String :=
  ["", "-wide", "-object", "-boolean", "-byte", "-char", "-short"]

/-- Operations on integers in slots. -/
def integerGrid : List String :=
  spellings ["add", "sub", "mul", "div", "rem", "and", "or", "xor", "shl", "shr", "ushr"] ["-int", "-long"]

/-- Operations on doubles. -/
def doubleGrid : List String :=
  spellings ["add", "sub", "mul", "div", "rem"] ["-double"]

/-- The documented table of instructions: families of mnemonics with the operands that they take. -/
def families : List (List String × List Shape) :=
  [(["nop"], []),
    (["const/4", "const/16", "const", "const/high16"], [.slot, .literal]),
    (["const-wide/16", "const-wide/32", "const-wide", "const-wide/high16"], [.slot, .literal]),
    (["const-string", "const-string/jumbo"], [.slot, .quoted]),
    (spellings ["move", "move-object", "move-wide"] ["", "/from16", "/16"], [.slot, .slot]),
    (spellings ["move-result"] ["", "-wide", "-object"], [.slot]),
    (["return-void"], []),
    (spellings ["return"] ["", "-wide", "-object"], [.slot]),
    (spellings ["sget", "sput"] accessorEndings, [.slot, .field]),
    (spellings ["iget", "iput"] accessorEndings, [.slot, .slot, .field]),
    (["invoke-static", "invoke-direct", "invoke-virtual"], [.slots (some 5), .method]),
    (["invoke-static/range", "invoke-direct/range", "invoke-virtual/range"], [.slots none, .method]),
    (integerGrid, [.slot, .slot, .slot]),
    (spellings integerGrid ["/2addr"], [.slot, .slot]),
    (spellings ["add", "rsub", "mul", "div", "rem", "and", "or", "xor", "shl", "shr", "ushr"] ["-int/lit8"],
      [.slot, .slot, .literal]),
    (spellings ["add", "mul", "div", "rem", "and", "or", "xor"] ["-int/lit16"], [.slot, .slot, .literal]),
    (["rsub-int"], [.slot, .slot, .literal]),
    (doubleGrid, [.slot, .slot, .slot]),
    (spellings doubleGrid ["/2addr"], [.slot, .slot]),
    (["cmp-long", "cmpg-double"], [.slot, .slot, .slot]),
    (["long-to-int", "int-to-long", "int-to-short", "int-to-byte", "int-to-char"], [.slot, .slot]),
    (["if-eq", "if-ne", "if-lt", "if-ge", "if-gt", "if-le"], [.slot, .slot, .label]),
    (["if-eqz", "if-nez", "if-ltz", "if-gez", "if-gtz", "if-lez"], [.slot, .label]),
    (["goto", "goto/16", "goto/32"], [.label]),
    (["packed-switch"], [.slot, .label]),
    (["new-array"], [.slot, .slot, .type]),
    (spellings ["aput", "aget"] accessorEndings, [.slot, .slot, .slot]),
    (["array-length"], [.slot, .slot]),
    (["new-instance"], [.slot, .className]),
    (["monitor-enter", "monitor-exit"], [.slot]),
    (["check-cast"], [.slot, .type])]

/-- The mnemonics of the table. -/
def mnemonics : List String :=
  families.flatMap (·.1)

/-- A mnemonic of a family has a form that takes the operands of the family. -/
theorem shapes_of_mem_families : ∀ family ∈ families, ∀ mnemonic ∈ family.1,
    (Form.ofMnemonic? mnemonic).map Form.shapes = some family.2 := by
  decide +kernel

/-- The forms have no other mnemonics. -/
theorem mem_mnemonics_of_form : ∀ entry ∈ Form.table, entry.1 ∈ mnemonics := by
  decide +kernel

/-- The form of an operation in place, for an operation with three operands. -/
def Form.inPlace? : Form → Option Form
  | arithmetic op width false => some (arithmetic op width true)
  | doubleArithmetic op false => some (doubleArithmetic op true)
  | _ => none

/-- Each operation with three operands has a form in place, under its name with an ending. -/
theorem inPlace_of_mem_grid : ∀ name ∈ integerGrid ++ doubleGrid,
    (Form.ofMnemonic? name).bind Form.inPlace? = Form.ofMnemonic? (name ++ "/2addr") ∧
      (Form.ofMnemonic? (name ++ "/2addr")).isSome := by
  decide +kernel

/-! ## Operands that fit -/

/-- A computation succeeds just when it does without its result. -/
theorem isOk_iff_map {x : Except ReadError α} : x.isOk = true ↔ (x.map fun _ => ()) = .ok () := by
  cases x with
  | error e => simp [Except.isOk, Except.toBool, Except.map]
  | ok a => simp [Except.isOk, Except.toBool, Except.map]

/-- Reading the items of a list without the reasons for failures. -/
theorem toOption_mapM (f : α → Except ReadError β) (xs : List α) :
    (xs.mapM f).toOption = xs.mapM fun x => (f x).toOption := by
  -- the induction is on the items; the first failure decides on both sides
  induction xs with
  | nil => rfl
  | cons x xs ih =>
    rw [List.mapM_cons, List.mapM_cons, ← ih]
    cases f x with
    | error e => rfl
    | ok y => cases xs.mapM f <;> rfl

/-- The slots of a group, without the reason why it is refused. -/
theorem Operands.toOption_slots (mnemonic : String) (token : Token) :
    (slots mnemonic token).toOption = token.slots? := by
  cases token with
  | word text => rfl
  | range first last =>
    rw [slots, Token.slots?]
    cases Slot.parseRange? first.toList last.toList <;> rfl
  -- each item of a list is a slot, or the list is refused
  | list items =>
    rw [slots, Token.slots?, toOption_mapM]
    congr 1
    funext item
    cases Slot.parse? item.toList <;> rfl

/-- A word passes the check of a shape if and only if it has the shape. -/
theorem Shape.fits_word_iff {shape : Shape} {mnemonic word : String} (h : ∀ limit?, shape ≠ slots limit?) :
    shape.fits (.word word) = true ↔ shape.check mnemonic (.word word) = .ok () := by
  cases shape with
  | slots limit? => exact absurd rfl (h limit?)
  | quoted | type | field | method => exact isOk_iff_map
  | slot =>
    cases hslot : Slot.parse? word.toList <;>
      simp [fits, check, Operands.slot, Operands.word, Operands.refuse, hslot, bind, Except.bind, pure,
        Except.pure, Except.map]
  | literal =>
    cases hvalue : Literal.parse word.toList <;>
      simp [fits, check, Operands.literal, Operands.word, hvalue, bind, Except.bind, pure, Except.pure,
        Except.map, Except.isOk, Except.toBool]
  -- a colon alone is no label
  | label =>
    cases hword : word.toList with
    | nil =>
      simp [fits, check, Operands.label, Operands.word, Operands.refuse, hword, bind, Except.bind,
        Except.map]
    | cons first rest =>
      cases rest with
      | nil =>
        simp [fits, check, Operands.label, Operands.word, Operands.refuse, hword, bind, Except.bind,
          Except.map]
      | cons c name =>
        by_cases hfirst : first = ':' <;>
          simp [fits, check, Operands.label, Operands.word, Operands.refuse, hword, hfirst, bind,
            Except.bind, pure, Except.pure, Except.map]
  | className =>
    cases htype : Descriptor.parse word.toList with
    | error e =>
      simp [fits, check, Operands.className, Operands.descriptor, Operands.word, htype, bind, Except.bind,
        Except.map, Except.toOption]
    | ok type =>
      cases type <;>
        simp [fits, check, Operands.className, Operands.descriptor, Operands.word, Operands.refuse, htype,
          bind, Except.bind, pure, Except.pure, Except.map, Except.toOption]

/-- A token passes the check of a shape if and only if it has the shape. -/
theorem Shape.fits_iff {shape : Shape} {token : Token} (mnemonic : String) :
    shape.fits token = true ↔ shape.check mnemonic token = .ok () := by
  cases shape with
  -- the slots are read first, then they are counted
  | slots limit? =>
    rw [fits, check, ← Operands.toOption_slots mnemonic]
    cases Operands.slots mnemonic token with
    | error e => simp [Except.toOption, bind, Except.bind]
    | ok slots =>
      show limit?.all (slots.length ≤ ·) = true ↔ (if limit?.all (slots.length ≤ ·) then _ else _) = _
      split <;> simp_all [Operands.refuse, pure, Except.pure]
  | slot | literal | quoted | label | type | className | field | method =>
    cases token with
    | list items | range first last => exact ⟨fun h => (by cases h), fun h => (by cases h)⟩
    | word word => exact fits_word_iff (by simp)

/-! ## Reading operands -/

/-- Whether an instruction has a meaning. -/
def Instruction.isSupported : Instruction → Bool
  | unsupported _ => false
  | _ => true

/-- An instruction is read just when checks pass, and if one fails, for the reason of such a check. No
operand is missing. -/
def Agrees (x : Except OperandError Instruction) (checks : List (Except ReadError Unit)) : Prop :=
  match x with
  | .ok i => i.isSupported ∧ ∀ check ∈ checks, check = .ok ()
  | .error (.refused e) => .error e ∈ checks
  | .error (.missing _ _ _) => False

namespace Agrees

variable {x : Except OperandError Instruction} {k : α → Except OperandError Instruction}
  {check : Except ReadError Unit} {checks checks' : List (Except ReadError Unit)} {ops : Operands}
  {reader : String → Token → Except ReadError α} {index : Nat} {token : Token}

/-- Nothing is left to check of an instruction that has been read. -/
theorem pure {i : Instruction} (h : i.isSupported) : Agrees (.ok i) [] :=
  ⟨h, List.forall_mem_nil _⟩

/-- The right number of operands is no reason to refuse them. -/
theorem expect {k : Unit → Except OperandError Instruction} {count : Nat}
    (h : ops.tokens.length = count) (hk : Agrees (k ()) checks) : Agrees (ops.expect count >>= k) checks := by
  rw [Operands.expect, if_pos h]
  exact hk

/-- An operand that is there is taken by its reader or refused by it. -/
theorem of_read (htoken : ops.tokens[index]? = some token)
    (herror : ∀ e, reader ops.mnemonic token = .error e → .error e ∈ checks)
    (hok : ∀ a, reader ops.mnemonic token = .ok a → Agrees (k a) checks) :
    Agrees (ops.read reader index >>= k) checks := by
  -- the token is there, so nothing is missing
  rw [Operands.read, htoken]
  show Agrees ((reader ops.mnemonic token).mapError .refused >>= k) checks
  cases hread : reader ops.mnemonic token with
  | error e => exact herror e hread
  | ok a => exact hok a hread

/-- A check that passes changes nothing. -/
theorem cons (hcheck : check = .ok ()) (h : Agrees x checks) : Agrees x (check :: checks) := by
  cases x with
  | ok i => exact ⟨h.1, List.forall_mem_cons.2 ⟨hcheck, h.2⟩⟩
  | error e =>
    cases e with
    | refused e => exact List.mem_cons_of_mem _ h
    | missing mnemonic index count => exact h

/-- Reading one more operand is one more check. -/
theorem read (htoken : ops.tokens[index]? = some token)
    (hcheck : check = (reader ops.mnemonic token).map fun _ => ()) (hk : ∀ a, Agrees (k a) checks) :
    Agrees (ops.read reader index >>= k) (check :: checks) := by
  refine of_read htoken (fun e he => ?_) (fun a ha => ?_)
  · rw [hcheck, he]
    exact List.mem_cons_self
  · rw [ha] at hcheck
    exact cons hcheck (hk a)

/-- An operand that is read twice is checked once, since the second reading gives the same. -/
theorem readTwice {k : α → α → Except OperandError Instruction} (htoken : ops.tokens[index]? = some token)
    (hcheck : check = (reader ops.mnemonic token).map fun _ => ()) (hk : ∀ a, Agrees (k a a) checks) :
    Agrees (ops.read reader index >>= fun a => ops.read reader index >>= k a) (check :: checks) := by
  refine of_read htoken (fun e he => ?_) (fun a ha => of_read htoken (fun e he => ?_) (fun b hb => ?_))
  · rw [hcheck, he]
    exact List.mem_cons_self
  · rw [ha] at he
    cases he
  · obtain rfl : a = b := Except.ok.inj (ha.symm.trans hb)
    rw [ha] at hcheck
    exact cons hcheck (hk a)

/-- The order of the checks does not matter. -/
theorem perm (h : Agrees x checks) (hperm : checks.Perm checks') : Agrees x checks' := by
  cases x with
  | ok i => exact ⟨h.1, fun check hcheck => h.2 check (hperm.mem_iff.2 hcheck)⟩
  | error e =>
    cases e with
    | refused e => exact hperm.mem_iff.1 h
    | missing mnemonic index count => exact h

/-- An instruction is read if and only if all checks pass. -/
theorem ok_iff (h : Agrees x checks) : (∃ i, x = .ok i) ↔ ∀ check ∈ checks, check = .ok () := by
  cases x with
  | ok i => exact ⟨fun _ => h.2, fun _ => ⟨i, rfl⟩⟩
  | error e =>
    refine ⟨fun ⟨i, hi⟩ => ?_, fun hall => ?_⟩
    · cases hi
    · cases e with
      | refused e => cases hall _ h
      -- an operand is never missing
      | missing mnemonic index count => exact h.elim

end Agrees

namespace Form

variable {mnemonic : String} {form : Form} {ops : Operands}

/-- With a wrong number of operands nothing else happens. -/
theorem expect_bind {count : Nat} {k : Unit → Except OperandError Instruction}
    (h : ops.tokens.length ≠ count) :
    (ops.expect count >>= k) = .error (.refused (.operandCount ops.mnemonic count ops.tokens.length)) := by
  rw [Operands.expect, if_neg h]
  rfl

/-- A wrong number of operands is refused before any of them is looked at. -/
theorem build_count (ops : Operands) (h : ops.tokens.length ≠ form.shapes.length) :
    form.build ops =
      .error (.refused (.operandCount ops.mnemonic form.shapes.length ops.tokens.length)) := by
  cases form with
  -- how many operands an operation takes depends on whether it is in place
  | arithmetic op width inPlace | doubleArithmetic op inPlace =>
    cases inPlace <;> exact expect_bind h
  | _ => exact expect_bind h

/-- How wide the field for a literal is does not matter when it is read. -/
theorem check_literal {token : Token} (bits : Nat) : Shape.literal.check mnemonic token =
    (Operands.literal mnemonic token bits).map fun _ => () := by
  unfold Shape.check Operands.literal
  cases Operands.word mnemonic token with
  | error e => rfl
  | ok text =>
    show (Literal.parse text.toList >>= fun _ => _).map _ = (Literal.parse text.toList >>= fun _ => _).map _
    cases Literal.parse text.toList <;> rfl

/-- Slots are counted as they are read. -/
theorem check_slots {token : Token} (ranged : Bool) :
    (Shape.slots (if ranged then none else some 5)).check mnemonic token =
      (Operands.arguments ranged mnemonic token).map fun _ => () := by
  unfold Shape.check Operands.arguments
  cases Operands.slots mnemonic token with
  | error e => rfl
  | ok args =>
    -- the limit of a list is five, a range has none
    have hlimit : (if ranged then none else some 5).all (args.length ≤ ·) =
        !(!ranged && decide (args.length > maxListedRegisters)) := by
      rw [Bool.eq_iff_iff]
      cases ranged <;> simp [maxListedRegisters]
    simp only [bind, Except.bind, hlimit]
    cases !ranged && decide (args.length > maxListedRegisters) <;> rfl

/-- Operands are refused if and only if one of them has not its shape, and for that reason. The cases are
by the shapes that a form asks for. -/
theorem build_agrees (ops : Operands) (h : ops.tokens.length = form.shapes.length) :
    Agrees (form.build ops)
      ((form.shapes.zip ops.tokens).map fun operand => operand.1.check ops.mnemonic operand.2) := by
  obtain ⟨mnemonic, tokens⟩ := ops
  cases form with
  | nop | returnVoid =>
    obtain rfl := List.length_eq_zero_iff.1 h
    exact .expect rfl (.pure rfl)
  | moveResult kind | returnValue kind | monitorEnter | monitorExit | goto =>
    obtain ⟨a, rfl⟩ := List.length_eq_one_iff.1 h
    exact .expect rfl (.read rfl rfl fun _ => .pure rfl)
  | constString | move kind | arrayLength | checkCast | packedSwitch
  | convert conversion | staticGet kind | staticPut kind | ifZero cmp =>
    obtain ⟨a, b, rfl⟩ := List.length_eq_two.1 h
    exact .expect rfl (.read rfl rfl fun _ => .read rfl rfl fun _ => .pure rfl)
  | const bits | constWide bits =>
    obtain ⟨a, b, rfl⟩ := List.length_eq_two.1 h
    exact .expect rfl (.read rfl rfl fun _ => .read rfl (check_literal bits) fun _ => .pure rfl)
  | newArray | compareLong | compareDouble | instanceGet kind | instancePut kind | arrayGet kind
  | arrayPut kind | ifTest cmp =>
    obtain ⟨a, b, c, rfl⟩ := List.length_eq_three.1 h
    exact .expect rfl (.read rfl rfl fun _ => .read rfl rfl fun _ => .read rfl rfl fun _ => .pure rfl)
  | literalArithmetic op bits =>
    obtain ⟨a, b, c, rfl⟩ := List.length_eq_three.1 h
    exact .expect rfl (.read rfl rfl fun _ => .read rfl rfl fun _ =>
      .read rfl (check_literal bits) fun _ => .pure rfl)
  | invoke kind ranged =>
    obtain ⟨a, b, rfl⟩ := List.length_eq_two.1 h
    exact .expect rfl (.read rfl (check_slots ranged) fun _ => .read rfl rfl fun _ => .pure rfl)
  | newInstance =>
    -- the type of a new object is looked at first
    obtain ⟨a, b, rfl⟩ := List.length_eq_two.1 h
    exact .perm (.expect rfl (.read rfl rfl fun _ => .read rfl rfl fun _ => .pure rfl))
      (List.Perm.swap _ _ [])
  | arithmetic op width inPlace | doubleArithmetic op inPlace =>
    -- in place the first operand is the left one too
    cases inPlace with
    | true =>
      obtain ⟨a, b, rfl⟩ := List.length_eq_two.1 h
      exact .expect rfl (.readTwice rfl rfl fun _ => .read rfl rfl fun _ => .pure rfl)
    | false =>
      obtain ⟨a, b, c, rfl⟩ := List.length_eq_three.1 h
      exact .expect rfl (.read rfl rfl fun _ => .read rfl rfl fun _ => .read rfl rfl fun _ => .pure rfl)

end Form

/-! ## Errors of operands -/

/-- Whether an error is about the number of operands. -/
def ReadError.isCount : ReadError → Bool
  | operandCount _ _ _ => true
  | _ => false

/-- The outcome is no error about the number of operands. -/
def Uncounted (x : Except ReadError α) : Prop :=
  match x with
  | .ok _ => True
  | .error e => e.isCount = false

namespace Uncounted

variable {x : Except ReadError α}

/-- A sequence of computations that do not count operands. -/
theorem bind {k : α → Except ReadError β} (hx : Uncounted x) (hk : ∀ a, Uncounted (k a)) :
    Uncounted (x >>= k) := by
  cases x with
  | error e => exact hx
  | ok a => exact hk a

/-- A change of the result. -/
theorem map {f : α → β} (hx : Uncounted x) : Uncounted (x.map f) := by
  cases x with
  | error e => exact hx
  | ok a => trivial

/-- A computation for each item of a list. -/
theorem mapM {f : α → Except ReadError β} (hf : ∀ a, Uncounted (f a)) (as : List α) :
    Uncounted (as.mapM f) := by
  induction as with
  | nil => trivial
  | cons a as ih =>
    rw [List.mapM_cons]
    exact (hf a).bind fun _ => ih.bind fun _ => trivial

/-- An error of a literal. -/
theorem literal (s : List Char) : Uncounted (Literal.parse s) := by
  unfold Literal.parse
  split
  · trivial
  · rfl

/-- An error of a quoted text. -/
theorem unescape (s : List Char) : Uncounted (unescape s) := by
  unfold Smali.unescape
  split
  · trivial
  · rfl

/-- An error of a type in front of a text. -/
theorem readOne (s : List Char) : Uncounted (Descriptor.readOne s) := by
  fun_induction Descriptor.readOne s with
  -- an array type fails as its element type does
  | case14 rest e he ih => exact he ▸ ih
  | _ => trivial

/-- An error of a type. -/
theorem descriptor (s : List Char) : Uncounted (Descriptor.parse s) := by
  have h := readOne s
  unfold Descriptor.parse
  split
  · trivial
  · rfl
  · rwa [‹Descriptor.readOne s = _›] at h

/-- An error of a list of types. -/
theorem descriptors (s : List Char) : Uncounted (Descriptor.parseList s) := by
  fun_induction Descriptor.parseList s with
  | case1 => trivial
  | case2 c r e he =>
    have h := readOne (c :: r)
    rwa [he] at h
  | case3 => trivial
  | case4 c r d rest _ _ e he ih => exact he ▸ ih

/-- An error of a field identifier. -/
theorem field (s : List Char) : Uncounted (FieldId.parse s) := by
  unfold FieldId.parse
  split
  · rfl
  · exact (descriptor _).bind fun _ => trivial

/-- An error of a method identifier. -/
theorem method (s : List Char) : Uncounted (MethodId.parse s) := by
  unfold MethodId.parse
  split
  · rfl
  · exact (descriptors _).bind fun _ => (descriptor _).bind fun _ => trivial

/-- An error of an operand that is no word. -/
theorem word (mnemonic : String) (token : Token) : Uncounted (Operands.word mnemonic token) := by
  cases token with
  | word text => trivial
  | _ => rfl

/-- An error of a slot. -/
theorem slot (mnemonic : String) (token : Token) : Uncounted (Operands.slot mnemonic token) := by
  refine (word mnemonic token).bind fun text => ?_
  split
  · trivial
  · rfl

/-- An error of a label. -/
theorem label (mnemonic : String) (token : Token) : Uncounted (Operands.label mnemonic token) := by
  refine (word mnemonic token).bind fun text => ?_
  split
  · trivial
  · rfl

/-- An error of a group of slots. -/
theorem slots (mnemonic : String) (token : Token) : Uncounted (Operands.slots mnemonic token) := by
  unfold Operands.slots
  split
  · refine mapM (fun item => ?_) _
    split
    · trivial
    · rfl
  · split
    · trivial
    · rfl
  · rfl

end Uncounted

/-- The check of an operand is not about how many operands there are. -/
theorem Shape.uncounted_check (shape : Shape) (mnemonic : String) (token : Token) :
    Uncounted (shape.check mnemonic token) := by
  have hword := Uncounted.word mnemonic token
  cases shape with
  | slot => exact (Uncounted.slot mnemonic token).map
  | literal =>
    refine Uncounted.map (hword.bind fun text => ?_)
    exact (Uncounted.literal text.toList).bind fun _ => trivial
  | quoted => exact (hword.bind fun text => .unescape _).map
  | label => exact (Uncounted.label mnemonic token).map
  | type => exact (hword.bind fun text => .descriptor _).map
  -- a type that is read may still be no class name
  | className =>
    refine Uncounted.map ((hword.bind fun text => .descriptor _).bind fun type => ?_)
    cases type with
    | object name => trivial
    | _ => rfl
  | field => exact (hword.bind fun text => .field _).map
  | method => exact (hword.bind fun text => .method _).map
  | slots limit? =>
    refine (Uncounted.slots mnemonic token).bind fun slots => ?_
    split
    · trivial
    · rfl

/-! ## Decoding -/

namespace Instruction

variable {mnemonic : String} {tokens : List Token} {family : List String × List Shape}

/-- A mnemonic with a form is decoded by reading the operands of the form. -/
theorem decode_of_form {form : Form} (h : Form.ofMnemonic? mnemonic = some form) (tokens : List Token) :
    decode mnemonic tokens = form.build ⟨mnemonic, tokens⟩ := by
  rw [decode, h]

/-- A mnemonic of the table has a form that takes the operands of its family. -/
theorem exists_form (hfamily : family ∈ families) (hmem : mnemonic ∈ family.1) :
    ∃ form, Form.ofMnemonic? mnemonic = some form ∧ form.shapes = family.2 :=
  Option.map_eq_some_iff.1 (shapes_of_mem_families family hfamily mnemonic hmem)

/-- No text outside of the table is recognised. -/
theorem ofMnemonic?_eq_none (h : mnemonic ∉ mnemonics) : Form.ofMnemonic? mnemonic = none :=
  Option.eq_none_iff_forall_ne_some.2 fun _ hform =>
    h (mem_mnemonics_of_form _ (Form.mem_table_of_ofMnemonic? hform))

/-- A mnemonic outside of the table is unsupported, whatever the tokens. -/
theorem decode_outside (h : mnemonic ∉ mnemonics) (tokens : List Token) :
    decode mnemonic tokens = .ok (.unsupported mnemonic) := by
  rw [decode, ofMnemonic?_eq_none h]

/-- A wrong number of operands is refused with both numbers. -/
theorem decode_count (hfamily : family ∈ families) (hmem : mnemonic ∈ family.1)
    (hlength : tokens.length ≠ family.2.length) :
    decode mnemonic tokens =
      .error (.refused (.operandCount mnemonic family.2.length tokens.length)) := by
  obtain ⟨form, hform, hshapes⟩ := exists_form hfamily hmem
  rw [← hshapes] at hlength ⊢
  rw [decode_of_form hform]
  exact Form.build_count ⟨mnemonic, tokens⟩ hlength

/-- With the right number of operands, decoding is checking them. -/
theorem decode_agrees (hfamily : family ∈ families) (hmem : mnemonic ∈ family.1)
    (hlength : tokens.length = family.2.length) :
    Agrees (decode mnemonic tokens)
      ((family.2.zip tokens).map fun operand => operand.1.check mnemonic operand.2) := by
  obtain ⟨form, hform, hshapes⟩ := exists_form hfamily hmem
  rw [← hshapes] at hlength ⊢
  rw [decode_of_form hform]
  exact Form.build_agrees ⟨mnemonic, tokens⟩ hlength

/-- A mnemonic of the table is never unsupported. -/
theorem decode_inside (h : mnemonic ∈ mnemonics) (name : String) :
    decode mnemonic tokens ≠ .ok (.unsupported name) := by
  obtain ⟨family, hfamily, hmem⟩ := List.mem_flatMap.1 h
  intro hdecode
  -- the number of operands is right, and the instruction is supported, or it is refused
  by_cases hlength : tokens.length = family.2.length
  · have hagrees := decode_agrees hfamily hmem hlength
    rw [hdecode] at hagrees
    cases hagrees.1
  · rw [decode_count hfamily hmem hlength] at hdecode
    cases hdecode

/-- No operand is asked for behind the last one, whatever the mnemonic and the tokens. -/
theorem decode_ne_missing (mnemonic : String) (tokens : List Token) (m : String) (index count : Nat) :
    decode mnemonic tokens ≠ .error (.missing m index count) := by
  intro hdecode
  -- outside of the table no operand is asked for at all
  by_cases h : mnemonic ∈ mnemonics
  · obtain ⟨family, hfamily, hmem⟩ := List.mem_flatMap.1 h
    by_cases hlength : tokens.length = family.2.length
    · have hagrees := decode_agrees hfamily hmem hlength
      rw [hdecode] at hagrees
      exact hagrees
    · rw [decode_count hfamily hmem hlength] at hdecode
      cases hdecode
  · rw [decode_outside h] at hdecode
    cases hdecode

/-- A mnemonic of the table is decoded just when each of its operands has its shape. -/
theorem decode_ok_iff (hfamily : family ∈ families) (hmem : mnemonic ∈ family.1) :
    (∃ i, decode mnemonic tokens = .ok i) ↔
      tokens.length = family.2.length ∧ ∀ operand ∈ family.2.zip tokens, operand.1.fits operand.2 := by
  by_cases hlength : tokens.length = family.2.length
  · rw [(decode_agrees hfamily hmem hlength).ok_iff, List.forall_mem_map]
    simp only [hlength, Shape.fits_iff mnemonic, true_and]
  · rw [decode_count hfamily hmem hlength]
    simp [hlength]

/-- The number of operands is the reason just when it is wrong. -/
theorem decode_count_iff (hfamily : family ∈ families) (hmem : mnemonic ∈ family.1) {m : String}
    {n k : Nat} :
    decode mnemonic tokens = .error (.refused (.operandCount m n k)) ↔
      tokens.length ≠ family.2.length ∧ m = mnemonic ∧ n = family.2.length ∧ k = tokens.length := by
  by_cases hlength : tokens.length = family.2.length
  · refine ⟨fun hdecode => ?_, fun h => absurd hlength h.1⟩
    -- with the right number of operands the error is that of an operand
    have hagrees := decode_agrees hfamily hmem hlength
    rw [hdecode] at hagrees
    obtain ⟨operand, -, hcheck⟩ := List.mem_map.1 hagrees
    have huncounted := operand.1.uncounted_check mnemonic operand.2
    rw [hcheck] at huncounted
    cases huncounted
  · rw [decode_count hfamily hmem hlength]
    simp [hlength, eq_comm]

/-! ### Operations in place -/

/-- A word is read alike behind each mnemonic. -/
theorem word_eq_ok {m text : String} {token : Token} (h : Operands.word m token = .ok text)
    (m' : String) : Operands.word m' token = .ok text := by
  cases token with
  | list items | range first last => cases h
  | word word => exact h

/-- A slot is read alike behind each mnemonic. -/
theorem slot_eq_ok {m : String} {token : Token} {s : Slot} (h : Operands.slot m token = .ok s)
    (m' : String) : Operands.slot m' token = .ok s := by
  obtain ⟨text, hword, h⟩ := Machine.bind_eq_ok.1 h
  refine Machine.bind_eq_ok.2 ⟨text, word_eq_ok hword m', ?_⟩
  split at h
  · exact h
  · cases h

/-- One token is one slot, wherever it stands. -/
theorem read_slot_iff {ops ops' : Operands} {index index' : Nat} {token : Token}
    (h : ops.tokens[index]? = some token) (h' : ops'.tokens[index']? = some token) (s : Slot) :
    ops.read Operands.slot index = .ok s ↔ ops'.read Operands.slot index' = .ok s := by
  rw [Operands.read_eq_ok_iff, Operands.read_eq_ok_iff, h, h']
  exact exists_congr fun token => and_congr_right fun _ => ⟨(slot_eq_ok · _), (slot_eq_ok · _)⟩

/-- Steps that give the same results may be exchanged. -/
theorem bind_eq_ok_congr {x y : Except ε α} {k l : α → Except ε β} {b : β}
    (h : ∀ a, x = .ok a ↔ y = .ok a) (hk : ∀ a, k a = .ok b ↔ l a = .ok b) :
    (x >>= k) = .ok b ↔ (y >>= l) = .ok b := by
  rw [Machine.bind_eq_ok, Machine.bind_eq_ok]
  exact exists_congr fun a => and_congr (h a) (hk a)

/-- An operation in place reads its first operand twice, as the operation reads it when it is written
twice. -/
theorem build_inPlace_iff {form form' : Form} (h : form.inPlace? = some form') (m m' : String)
    (a b : Token) (i : Instruction) :
    form'.build ⟨m, [a, b]⟩ = .ok i ↔ form.build ⟨m', [a, a, b]⟩ = .ok i := by
  cases form with
  | arithmetic op width inPlace | doubleArithmetic op inPlace =>
    cases inPlace with
    | true => cases h
    | false =>
      obtain rfl := Option.some.inj h
      exact bind_eq_ok_congr (fun _ => Iff.rfl) fun _ => bind_eq_ok_congr (read_slot_iff rfl rfl) fun _ =>
        bind_eq_ok_congr (read_slot_iff rfl rfl) fun _ => bind_eq_ok_congr (read_slot_iff rfl rfl) fun _ =>
          Iff.rfl
  | _ => cases h

/-- An operation in place is the operation with its destination as left operand. -/
theorem decode_inPlace_iff {name : String} (h : name ∈ integerGrid ++ doubleGrid) (a b : Token)
    (i : Instruction) :
    decode (name ++ "/2addr") [a, b] = .ok i ↔ decode name [a, a, b] = .ok i := by
  obtain ⟨form', hform'⟩ := Option.isSome_iff_exists.1 (inPlace_of_mem_grid name h).2
  obtain ⟨form, hform, hinPlace⟩ := Option.bind_eq_some_iff.1 ((inPlace_of_mem_grid name h).1.trans hform')
  rw [decode_of_form hform, decode_of_form hform']
  exact build_inPlace_iff hinPlace _ _ a b i

/-! ### Ranges -/

/-- A slot that is read has an index in range. -/
theorem index_le_of_parse? {s : List Char} {slot : Slot} (h : Slot.parse? s = some slot) :
    slot.index ≤ Slot.maxIndex := by
  unfold Slot.parse? at h
  split at h
  · obtain ⟨i, hi, rfl⟩ := Option.map_eq_some_iff.1 h
    exact of_decide_eq_true (Option.filter_eq_some_iff.1 hi).2
  · obtain ⟨i, hi, rfl⟩ := Option.map_eq_some_iff.1 h
    exact of_decide_eq_true (Option.filter_eq_some_iff.1 hi).2
  · cases h

/-- Slots are read back from their texts. -/
theorem slots?_list {slots : List Slot} (h : ∀ slot ∈ slots, slot.index ≤ Slot.maxIndex) :
    (Token.list (slots.map Slot.text)).slots? = some slots := by
  -- the induction is on the slots, each read back from its text
  induction slots with
  | nil => rfl
  | cons slot slots ih =>
    obtain ⟨hslot, hslots⟩ := List.forall_mem_cons.1 h
    have ih : (slots.map Slot.text).mapM _ = some slots := ih hslots
    rw [Token.slots?, List.map_cons, List.mapM_cons, Slot.parse?_text hslot, ih]
    rfl

/-- A group that names slots is read as these slots. -/
theorem slots_eq_ok {token : Token} {slots : List Slot} (h : token.slots? = some slots) (m : String) :
    Operands.slots m token = .ok slots := by
  rw [← Operands.toOption_slots m] at h
  cases hslots : Operands.slots m token with
  | error e =>
    rw [hslots] at h
    cases h
  | ok slots' =>
    rw [hslots] at h
    exact congrArg _ (Option.some.inj h)

/-- A method is read alike behind each mnemonic. -/
theorem method_eq_ok {m : String} {token : Token} {id : MethodId} (h : Operands.method m token = .ok id)
    (m' : String) : Operands.method m' token = .ok id := by
  obtain ⟨text, hword, h⟩ := Machine.bind_eq_ok.1 h
  exact Machine.bind_eq_ok.2 ⟨text, word_eq_ok hword m', h⟩

/-- The mnemonics of calls, with a list and with a range. -/
theorem ofMnemonic?_invoke (kind : InvokeKind) :
    Form.ofMnemonic? ("invoke-" ++ kind.text) = some (.invoke kind false) ∧
      Form.ofMnemonic? ("invoke-" ++ kind.text ++ "/range") = some (.invoke kind true) := by
  cases kind <;> exact ⟨rfl, rfl⟩

/-- Slots that are not too many are the arguments of a call. -/
theorem arguments_eq_ok {ranged : Bool} {token : Token} {slots : List Slot}
    (hslots : token.slots? = some slots) (hlimit : ranged = true ∨ slots.length ≤ maxListedRegisters)
    (m : String) : Operands.arguments ranged m token = .ok slots := by
  have hfew : (!ranged && decide (slots.length > maxListedRegisters)) = false := by
    grind
  refine Machine.bind_eq_ok.2 ⟨slots, slots_eq_ok hslots m, ?_⟩
  rw [hfew]
  rfl

/-- A call reads its slots, and then its method. -/
theorem build_invoke_eq_ok {kind : InvokeKind} {ranged : Bool} {m : String} {token method : Token}
    {slots : List Slot} {i : Instruction} (hslots : token.slots? = some slots)
    (hlimit : ranged = true ∨ slots.length ≤ maxListedRegisters) :
    (Form.invoke kind ranged).build ⟨m, [token, method]⟩ = .ok i ↔
      ∃ id, Operands.method m method = .ok id ∧ i = .invoke kind slots id := by
  -- both operands are there, so the reads are those of the two tokens
  have hbuild : (Form.invoke kind ranged).build ⟨m, [token, method]⟩ =
      ((Operands.arguments ranged m token).mapError .refused >>= fun args =>
        (Operands.method m method).mapError .refused >>= fun id => .ok (.invoke kind args id)) := rfl
  rw [hbuild, arguments_eq_ok hslots hlimit m]
  show ((Operands.method m method).mapError OperandError.refused >>= fun id =>
    .ok (invoke kind slots id)) = .ok i ↔ _
  rw [Machine.bind_eq_ok]
  exact exists_congr fun id => and_congr mapError_eq_ok_iff
    ⟨fun h => (Except.ok.inj h).symm, fun h => congrArg _ h.symm⟩

section Range

variable {slot : Nat → Slot} {first last : String} {a b : Nat}

/-- A range stands for the slots from its first to its last. -/
theorem slots?_range (hslot : slot = .register ∨ slot = .parameter)
    (hfirst : Slot.parse? first.toList = some (slot a)) (hlast : Slot.parse? last.toList = some (slot b))
    (hle : a ≤ b) :
    (Token.range first last).slots? = some ((List.range' a (b + 1 - a)).map slot) := by
  rw [Token.slots?, Slot.parseRange?, hfirst, hlast]
  obtain rfl | rfl := hslot
  · exact if_pos hle
  · exact if_pos hle

/-- The slots of a range can be listed. -/
theorem slots?_listed (hslot : slot = .register ∨ slot = .parameter)
    (hlast : Slot.parse? last.toList = some (slot b)) :
    (Token.list ((List.range' a (b + 1 - a)).map fun i => (slot i).text)).slots? =
      some ((List.range' a (b + 1 - a)).map slot) := by
  have hindex : ∀ i, (slot i).index = i := by
    obtain rfl | rfl := hslot <;> exact fun i => rfl
  have hb := index_le_of_parse? hlast
  rw [hindex] at hb
  -- the texts are those of the slots of the range, and none is above the last
  have htexts : ((List.range' a (b + 1 - a)).map fun i => (slot i).text) =
      ((List.range' a (b + 1 - a)).map slot).map Slot.text := by
    rw [List.map_map]
    rfl
  rw [htexts]
  refine slots?_list (List.forall_mem_map.2 fun i hi => ?_)
  have := List.mem_range'_1.1 hi
  rw [hindex]
  omega

/-- A range is the list of its slots, for a mnemonic that takes so many. -/
theorem decode_range_iff (kind : InvokeKind) (hslot : slot = .register ∨ slot = .parameter)
    (hfirst : Slot.parse? first.toList = some (slot a)) (hlast : Slot.parse? last.toList = some (slot b))
    (hle : a ≤ b) (method : Token) (i : Instruction) {mnemonic : String}
    (hmnemonic : mnemonic = "invoke-" ++ kind.text ++ "/range" ∨
      mnemonic = "invoke-" ++ kind.text ∧ b + 1 - a ≤ 5) :
    decode ("invoke-" ++ kind.text ++ "/range") [.range first last, method] = .ok i ↔
      decode mnemonic [.list ((List.range' a (b + 1 - a)).map fun i => (slot i).text), method] = .ok i := by
  have hrange := slots?_range hslot hfirst hlast hle
  have hlist := slots?_listed (a := a) hslot hlast
  obtain ⟨hplain, hranged⟩ := ofMnemonic?_invoke kind
  rw [decode_of_form hranged, build_invoke_eq_ok hrange (.inl rfl)]
  -- the same mnemonic, or the one that takes five at most
  obtain rfl | ⟨rfl, hcount⟩ := hmnemonic
  · rw [decode_of_form hranged, build_invoke_eq_ok hlist (.inl rfl)]
  · rw [decode_of_form hplain, build_invoke_eq_ok hlist (.inr (by rwa [List.length_map, List.length_range']))]
    exact exists_congr fun id => and_congr_left fun _ =>
      ⟨fun h => method_eq_ok h _, fun h => method_eq_ok h _⟩

end Range

/-- Decoding covers the documented table. Whatever the mnemonic and the tokens, no operand is ever asked for
behind the last token. A mnemonic outside of the table is unsupported, whatever the tokens. A mnemonic of
the table is refused for its number of operands just when the number is wrong, and is decoded just when
each operand has its shape. An operation in place is the operation with its destination as left operand,
and a range is the list of its slots, also for the mnemonic that takes no more than five. -/
theorem decode_table :
    (∀ (mnemonic : String) (tokens : List Token),
      (∀ m index count, decode mnemonic tokens ≠ .error (.missing m index count)) ∧
      ((∃ name, decode mnemonic tokens = .ok (.unsupported name)) ↔ mnemonic ∉ mnemonics) ∧
      (mnemonic ∉ mnemonics → decode mnemonic tokens = .ok (.unsupported mnemonic)) ∧
      ∀ family ∈ families, mnemonic ∈ family.1 →
        (∀ m n k, decode mnemonic tokens = .error (.refused (.operandCount m n k)) ↔
          tokens.length ≠ family.2.length ∧ m = mnemonic ∧ n = family.2.length ∧ k = tokens.length) ∧
        ((∃ i, decode mnemonic tokens = .ok i) ↔
          tokens.length = family.2.length ∧ ∀ operand ∈ family.2.zip tokens, operand.1.fits operand.2)) ∧
    (∀ name ∈ integerGrid ++ doubleGrid, ∀ (a b : Token) (i : Instruction),
      decode (name ++ "/2addr") [a, b] = .ok i ↔ decode name [a, a, b] = .ok i) ∧
    ∀ (kind : InvokeKind) (slot : Nat → Slot) (first last : String) (a b : Nat) (method : Token)
      (i : Instruction), (slot = .register ∨ slot = .parameter) →
      Slot.parse? first.toList = some (slot a) → Slot.parse? last.toList = some (slot b) → a ≤ b →
      ∀ mnemonic, (mnemonic = "invoke-" ++ kind.text ++ "/range" ∨
          mnemonic = "invoke-" ++ kind.text ∧ b + 1 - a ≤ 5) →
        (decode ("invoke-" ++ kind.text ++ "/range") [.range first last, method] = .ok i ↔
          decode mnemonic
            [.list ((List.range' a (b + 1 - a)).map fun index => (slot index).text), method] = .ok i) := by
  refine ⟨fun mnemonic tokens => ⟨decode_ne_missing mnemonic tokens, ⟨?_, ?_⟩,
    fun h => decode_outside h tokens, ?_⟩, ?_, ?_⟩
  · rintro ⟨name, hdecode⟩ hmem
    exact decode_inside hmem name hdecode
  · exact fun h => ⟨mnemonic, decode_outside h tokens⟩
  · exact fun family hfamily hmem =>
      ⟨fun _ _ _ => decode_count_iff hfamily hmem, decode_ok_iff hfamily hmem⟩
  · exact fun name h a b i => decode_inPlace_iff h a b i
  · exact fun kind slot first last a b method i hslot hfirst hlast hle mnemonic hmnemonic =>
      decode_range_iff kind hslot hfirst hlast hle method i hmnemonic

-- Mnemonics that are made of parts of the table, but are not in it.
example : ["sub-int/lit8", "rsub-int/lit16", "shl-int/lit16", "rsub-long", "xor-double", "move/2addr"].all
    (· ∉ mnemonics) := by
  decide +kernel

end Instruction

end Smali
