import Smali.Instruction.Form

/-!
# Mnemonics

A mnemonic is recognised by its parts, and any text may come. Here all mnemonics are written down, family
by family as products of their parts, and recognition is shown to be the lookup in that table: what is
recognised is put together from parts of the table, and every text of the table is recognised as its form.

## Key results

- `Form.mem_table_of_ofMnemonic?`: a text that is recognised stands in the table with its form
- `Form.ofMnemonic?_eq_lookup`: recognising a text is looking it up
-/

namespace Smali

/-! ## The words of a mnemonic -/

/-- What is found by its text has that text. -/
theorem text_of_find? {f : α → String} {s : String} {all : List α} {a : α}
    (h : all.find? (f · == s) = some a) : f a = s :=
  eq_of_beq (List.find?_some (p := (f · == s)) h)

/-- Every kind of access is listed. -/
theorem AccessKind.mem_all (kind : AccessKind) : kind ∈ all := by
  cases kind <;> decide

/-- Every kind of call is listed. -/
theorem InvokeKind.mem_all (kind : InvokeKind) : kind ∈ all := by
  cases kind <;> decide

/-- Every comparison is listed. -/
theorem Comparison.mem_all (cmp : Comparison) : cmp ∈ all := by
  cases cmp <;> decide

/-- Every operator is listed. -/
theorem BinaryOp.mem_all (op : BinaryOp) : op ∈ all := by
  cases op <;> decide

namespace Form

/-! ## The table -/

/-- Mnemonics that stand alone. -/
def plain : List (String × Form) :=
  [("nop", nop), ("const/4", const 4), ("const/16", const 16), ("const", const 32),
    ("const/high16", const 32), ("const-wide/16", constWide 16), ("const-wide/32", constWide 32),
    ("const-wide", constWide 64), ("const-wide/high16", constWide 64), ("const-string", constString),
    ("const-string/jumbo", constString), ("return-void", returnVoid), ("new-instance", newInstance),
    ("new-array", newArray), ("array-length", arrayLength), ("monitor-enter", monitorEnter),
    ("monitor-exit", monitorExit), ("check-cast", checkCast), ("goto", goto), ("goto/16", goto),
    ("goto/32", goto), ("packed-switch", packedSwitch), ("cmp-long", compareLong),
    ("cmpg-double", compareDouble), ("long-to-int", convert .longToInt),
    ("int-to-long", convert .intToLong), ("int-to-short", convert .intToShort),
    ("int-to-byte", convert .intToByte), ("int-to-char", convert .intToChar),
    ("rsub-int", literalArithmetic .rsub 16)]

/-- Moves, results and returns, for each kind of value. -/
def moves : List (String × Form) :=
  [("", ValueKind.single), ("-wide", .wide), ("-object", .object)].flatMap fun (suffix, kind) =>
    [("move" ++ suffix, move kind), ("move" ++ suffix ++ "/from16", move kind),
      ("move" ++ suffix ++ "/16", move kind), ("move-result" ++ suffix, moveResult kind),
      ("return" ++ suffix, returnValue kind)]

/-- Accessors of fields and array elements, for each kind of access. -/
def accessors : List (String × Form) :=
  accessorBeginnings.flatMap fun (beginning, form) =>
    AccessKind.all.map fun kind => (beginning ++ kind.suffix, form kind)

/-- Calls, with registers listed or given as a range. -/
def invokes : List (String × Form) :=
  InvokeKind.all.flatMap fun kind =>
    [("invoke-" ++ kind.text, invoke kind false), ("invoke-" ++ kind.text ++ "/range", invoke kind true)]

/-- Conditional branches, against zero or between two slots. -/
def branches : List (String × Form) :=
  Comparison.all.flatMap fun cmp =>
    [("if-" ++ cmp.text ++ "z", ifZero cmp), ("if-" ++ cmp.text, ifTest cmp)]

/-- Operations on slots. There is no reversed subtraction of slots, and doubles have no bits. -/
def operations : List (String × Form) :=
  (BinaryOp.all.filter (· ≠ .rsub)).flatMap fun op =>
    [(op.text ++ "-int", arithmetic op .int false), (op.text ++ "-int/2addr", arithmetic op .int true),
      (op.text ++ "-long", arithmetic op .long false),
      (op.text ++ "-long/2addr", arithmetic op .long true)] ++
    if op.isDouble then
      [(op.text ++ "-double", doubleArithmetic op false),
        (op.text ++ "-double/2addr", doubleArithmetic op true)]
    else []

/-- Operations with a literal. Subtraction of a literal is written as an addition, and a shift distance
needs no more than eight bits. -/
def literalOperations : List (String × Form) :=
  (BinaryOp.all.filter (· ≠ .sub)).flatMap fun op =>
    (op.text ++ "-int/lit8", literalArithmetic op 8) ::
    if op.isShift || op == .rsub then [] else [(op.text ++ "-int/lit16", literalArithmetic op 16)]

/-- All mnemonics with their forms. -/
def table : List (String × Form) :=
  plain ++ moves ++ invokes ++ branches ++ accessors ++ operations ++ literalOperations

/-! ## What is recognised stands in the table -/

variable {mnemonic : String} {rest : List Char} {form : Form}

/-- A mnemonic that is known as a whole. The cases are those of the recognition, one for each text. -/
theorem mem_of_ofWhole? (h : ofWhole? mnemonic = some form) : (mnemonic, form) ∈ plain ++ moves := by
  unfold ofWhole? at h
  split at h
  all_goals first | (obtain rfl := Option.some.inj h; decide) | cases h

/-- An accessor is one of the beginnings with what a kind adds. -/
theorem mem_of_ofAccessor? (h : ofAccessor? mnemonic.toList = some form) :
    (mnemonic, form) ∈ accessors := by
  obtain ⟨⟨beginning, access⟩, hbeginning, h⟩ := List.exists_of_findSome?_eq_some h
  obtain ⟨suffix, hstart, h⟩ := Option.bind_eq_some_iff.1 h
  obtain ⟨kind, hkind, rfl⟩ := Option.map_eq_some_iff.1 h
  have htext : beginning ++ kind.suffix = mnemonic := by
    rw [text_of_find? (f := AccessKind.suffix) hkind, ← String.toList_inj, String.toList_append,
      String.toList_ofList, Text.afterStart?_eq_some_iff.1 hstart]
  exact List.mem_flatMap.2 ⟨_, hbeginning, List.mem_map.2 ⟨kind, kind.mem_all, by rw [htext]⟩⟩

/-- A call is a kind, perhaps with `/range`. -/
theorem mem_of_ofInvoke? (h : ofInvoke? rest = some form) :
    ("invoke-" ++ String.ofList rest, form) ∈ invokes := by
  unfold ofInvoke? at h
  split at h
  · rename_i kindText ending hcut
    obtain ⟨c, hc, rfl, -⟩ := Text.eq_append_of_cutWhere hcut
    obtain rfl := eq_of_beq hc
    split at h
    · rename_i hending
      obtain ⟨kind, hkind, rfl⟩ := Option.map_eq_some_iff.1 h
      have htext : String.ofList (kindText ++ '/' :: ending) = kind.text ++ "/range" := by
        rw [String.ofList_append, text_of_find? (f := InvokeKind.text) hkind, hending]
        rfl
      rw [htext, ← String.append_assoc]
      exact List.mem_flatMap.2 ⟨kind, kind.mem_all, by simp⟩
    · cases h
  · obtain ⟨kind, hkind, rfl⟩ := Option.map_eq_some_iff.1 h
    rw [← text_of_find? (f := InvokeKind.text) hkind]
    exact List.mem_flatMap.2 ⟨kind, kind.mem_all, by simp⟩

/-- A branch is a comparison, perhaps with `z`. -/
theorem mem_of_ofBranch? (h : ofBranch? rest = some form) :
    ("if-" ++ String.ofList rest, form) ∈ branches := by
  unfold ofBranch? at h
  split at h
  · rename_i hlast
    obtain ⟨cmp, hcmp, rfl⟩ := Option.map_eq_some_iff.1 h
    obtain ⟨start, rfl⟩ := List.getLast?_eq_some_iff.1 hlast
    rw [List.dropLast_concat] at hcmp
    rw [String.ofList_append, ← text_of_find? (f := Comparison.text) hcmp, ← String.append_assoc]
    exact List.mem_flatMap.2 ⟨cmp, cmp.mem_all, List.mem_cons_self⟩
  · obtain ⟨cmp, hcmp, rfl⟩ := Option.map_eq_some_iff.1 h
    rw [← text_of_find? (f := Comparison.text) hcmp]
    exact List.mem_flatMap.2 ⟨cmp, cmp.mem_all, by simp⟩

/-- The mnemonic of an operation with this operator, type and suffix. -/
def operationText (op : BinaryOp) (type : String) (suffix? : Option String) : String :=
  op.text ++ ("-" ++ type ++ suffix?.elim "" ("/" ++ ·))

/-- Of the operators, types and suffixes only those of the table make an operation together. -/
theorem mem_of_operation? {op : BinaryOp} {type : String} {suffix? : Option String}
    (h : operation? op type suffix? = some form) :
    (operationText op type suffix?, form) ∈ operations ++ literalOperations := by
  unfold operation? at h
  -- the cases are the branches of the definition, each with the literals that it asks for
  split at h
  · rename_i hlit8
    obtain ⟨rfl, rfl, hop⟩ := hlit8
    obtain rfl := Option.some.inj h
    refine List.mem_append_right _ (List.mem_flatMap.2 ⟨op, ?_, List.mem_cons_self⟩)
    exact List.mem_filter.2 ⟨op.mem_all, decide_eq_true hop⟩
  split at h
  · rename_i hlit16
    obtain ⟨rfl, rfl, hshift, hop, hrsub⟩ := hlit16
    obtain rfl := Option.some.inj h
    refine List.mem_append_right _ (List.mem_flatMap.2 ⟨op, ?_, ?_⟩)
    · exact List.mem_filter.2 ⟨op.mem_all, decide_eq_true hop⟩
    · have hboth : (op.isShift || op == .rsub) = false := by simpa [hrsub] using hshift
      rw [hboth]
      exact List.mem_cons_of_mem _ List.mem_cons_self
  split at h
  · cases h
  rename_i hrsub
  have hop : op ∈ BinaryOp.all.filter (· ≠ .rsub) := List.mem_filter.2 ⟨op.mem_all, decide_eq_true hrsub⟩
  split at h
  · rename_i hinteger
    obtain rfl := Option.some.inj h
    refine List.mem_append_left _ (List.mem_flatMap.2 ⟨op, hop, List.mem_append_left _ ?_⟩)
    obtain ⟨rfl | rfl, rfl | rfl⟩ := hinteger
    · exact List.mem_cons_self
    · exact List.mem_cons_of_mem _ List.mem_cons_self
    · exact List.mem_cons_of_mem _ (List.mem_cons_of_mem _ List.mem_cons_self)
    · exact List.mem_cons_of_mem _ (List.mem_cons_of_mem _ (List.mem_cons_of_mem _ List.mem_cons_self))
  split at h
  · rename_i hdouble
    obtain rfl := Option.some.inj h
    refine List.mem_append_left _ (List.mem_flatMap.2 ⟨op, hop, List.mem_append_right _ ?_⟩)
    obtain ⟨rfl, rfl | rfl, hisDouble⟩ := hdouble
    · rw [if_pos hisDouble]
      exact List.mem_cons_self
    · rw [if_pos hisDouble]
      exact List.mem_cons_of_mem _ List.mem_cons_self
  · cases h

/-- An operation is an operator, a hyphen, a type and perhaps a suffix behind a slash. -/
theorem mem_of_ofOperation? {name : List Char} {suffix? : Option (List Char)}
    (h : ofOperation? name suffix? = some form) :
    (String.ofList (name ++ suffix?.elim [] ('/' :: ·)), form) ∈ operations ++ literalOperations := by
  obtain ⟨⟨opText, type⟩, hcut, hparts⟩ := Option.bind_eq_some_iff.1 h
  obtain ⟨op, hop, hform⟩ := Option.bind_eq_some_iff.1 hparts
  obtain ⟨c, hc, rfl, -⟩ := Text.eq_append_of_cutWhere hcut
  obtain rfl := eq_of_beq hc
  have htext : String.ofList (opText ++ '-' :: type ++ suffix?.elim [] ('/' :: ·)) =
      operationText op (String.ofList type) (suffix?.map String.ofList) := by
    rw [operationText, text_of_find? (f := BinaryOp.text) hop]
    cases suffix? <;> simp [← String.toList_inj]
  exact htext ▸ mem_of_operation? hform

/-- A mnemonic that is made of parts is made of parts of the table. -/
theorem mem_of_ofParts? (h : ofParts? mnemonic.toList = some form) :
    (mnemonic, form) ∈ invokes ++ branches ++ accessors ++ (operations ++ literalOperations) := by
  have hmnemonic : String.ofList mnemonic.toList = mnemonic := String.ofList_toList
  unfold ofParts? at h
  split at h
  · rename_i hform
    obtain rfl := Option.some.inj h
    exact List.mem_append_left _ (List.mem_append_right _ (mem_of_ofAccessor? hform))
  · rename_i rest _ hstart
    rw [Text.afterStart?_eq_some_iff.1 hstart, String.ofList_append, String.ofList_toList] at hmnemonic
    rw [← hmnemonic]
    exact List.mem_append_left _ (List.mem_append_left _ (List.mem_append_left _ (mem_of_ofInvoke? h)))
  · rename_i rest _ _ hstart
    rw [Text.afterStart?_eq_some_iff.1 hstart, String.ofList_append, String.ofList_toList] at hmnemonic
    rw [← hmnemonic]
    exact List.mem_append_left _ (List.mem_append_left _ (List.mem_append_right _ (mem_of_ofBranch? h)))
  · refine List.mem_append_right _ ?_
    split at h
    · rename_i name suffix hcut
      obtain ⟨c, hc, hparts, -⟩ := Text.eq_append_of_cutWhere hcut
      obtain rfl := eq_of_beq hc
      rw [← hmnemonic, hparts]
      exact mem_of_ofOperation? h
    · rw [← hmnemonic, ← List.append_nil mnemonic.toList]
      exact mem_of_ofOperation? h

/-- A text that is recognised stands in the table with its form. -/
theorem mem_table_of_ofMnemonic? (h : ofMnemonic? mnemonic = some form) : (mnemonic, form) ∈ table := by
  rw [ofMnemonic?, Option.or_eq_some_iff] at h
  have htable : table = (plain ++ moves) ++
      (invokes ++ branches ++ accessors ++ (operations ++ literalOperations)) := by
    simp only [table, List.append_assoc]
  rw [htable]
  obtain h | ⟨-, h⟩ := h
  · exact List.mem_append_left _ (mem_of_ofWhole? h)
  · exact List.mem_append_right _ (mem_of_ofParts? h)

/-! ## What stands in the table is recognised -/

/-- Every text of the table is recognised as the form beside it. -/
theorem ofMnemonic?_of_mem_table : ∀ entry ∈ table, ofMnemonic? entry.1 = some entry.2 := by
  decide +kernel

/-- Recognising a text is looking it up in the table. -/
theorem ofMnemonic?_eq_lookup (mnemonic : String) : ofMnemonic? mnemonic = table.lookup mnemonic := by
  cases hlookup : table.lookup mnemonic with
  | some form =>
    obtain ⟨l, r, htable, -⟩ := List.lookup_eq_some_iff.1 hlookup
    exact ofMnemonic?_of_mem_table (mnemonic, form) (by simp [htable])
  | none =>
    -- a form would stand in the table, where nothing is found
    refine Option.eq_none_iff_forall_ne_some.2 fun form hform => ?_
    have := List.lookup_eq_none_iff.1 hlookup _ (mem_table_of_ofMnemonic? hform)
    simp at this

end Form

end Smali
