import Smali.Proofs.SourceOrder

/-!
# The methods that the host implements

The host keeps its methods under keys that are made of class, name and parameters. In a program whose
sources leave the classes of the standard library alone, a method of the host that is found belongs to one
of these classes, and what it replies is what the library declares: a value if the method has a result,
none if it is void. The one exception is `Method.invoke`, which has another method called in its place.

## Key results

- `owned_invariant`: a method carries the name of the class that has it
- `library_class`: the classes of the standard library are those that it was written with
- `standard_answers`: what the host methods of the standard library reply with
- `host_answers`: so a host method that is found replies as its method declares
-/

namespace Smali

/-! ## Whose methods they are -/

/-- The methods of the class carry its name. -/
def Class.Owns (c : Class) : Prop :=
  ∀ m ∈ c.methods, m.className = c.name

/-- The methods read so far carry the names of their classes, and so does the one that is open. -/
structure Reader.Owned (r : Reader) : Prop where
  table : ∀ c ∈ r.classes.values, c.Owns
  openClass : ∀ c, r.class? = some c → c.Owns
  draft : ∀ c d, r.class? = some c → r.draft? = some d → d.method.className = c.name

/-- At its end a method gets its body; all else is as its first line declared it. -/
theorem Reader.header_of_finishDraft {d : Draft} {m : Method} (h : Reader.finishDraft d = .ok m) :
    ∃ body, m = { d.method with body } := by
  unfold Reader.finishDraft at h
  split at h
  · split at h
    · exact ⟨d.method.body, (Except.ok.inj h).symm⟩
    · cases h
  · split at h
    · cases h
    · exact ⟨.code d.code, (Except.ok.inj h).symm⟩

/-- An edit keeps that methods carry the names of their classes. -/
theorem Edit.owned {c? c?' : Option Class} {d? d?' : Option Draft} (he : Edit c? d? c?' d?')
    (hclass : ∀ c, c? = some c → c.Owns)
    (hdraft : ∀ c d, c? = some c → d? = some d → d.method.className = c.name) :
    (∀ c, c?' = some c → c.Owns) ∧
      ∀ c d, c?' = some c → d?' = some d → d.method.className = c.name := by
  cases he with
  | keep => exact ⟨hclass, hdraft⟩
  | beginClass _ flags name =>
    refine ⟨?_, fun c d _ hd => by cases hd⟩
    rintro c ⟨⟩ m hm
    cases hm
  | setSuper c _ text type | addField c _ f =>
    refine ⟨?_, ?_⟩
    · rintro c' ⟨⟩
      exact hclass c rfl
    · rintro c' d ⟨⟩ hd
      exact hdraft c d rfl hd
  | beginMethod c m hname =>
    refine ⟨hclass, ?_⟩
    rintro c' d ⟨⟩ ⟨⟩
    exact hname
  | endMethod c d m hm =>
    refine ⟨?_, fun c' d' _ hd => by cases hd⟩
    rintro c' ⟨⟩ m' hm'
    rcases List.mem_append.1 hm' with hold | hnew
    · exact hclass c rfl m' hold
    -- the method that is finished has the class name of its first line
    · obtain ⟨body, rfl⟩ := Reader.header_of_finishDraft hm
      rw [List.mem_singleton.1 hnew]
      exact hdraft c d rfl rfl
  | setRegisters c d | addLabel c d | addTable c d | addInstruction c d =>
    refine ⟨hclass, ?_⟩
    rintro c' d' ⟨⟩ ⟨⟩
    exact hdraft c d rfl rfl

/-- Reading gives every method the name of its class. -/
theorem owned_invariant : ReadInvariant (fun t => ∀ c ∈ t.values, c.Owns) Reader.Owned where
  start _ _ h := ⟨h, fun _ hc => (by cases hc), fun _ _ hc => (by cases hc)⟩
  edit r r' h he := by
    obtain ⟨hclass, hdraft⟩ := he.2.owned h.openClass h.draft
    exact ⟨he.1 ▸ h.table, hclass, hdraft⟩
  commit r h := by
    unfold Reader.commit
    split
    · next c hc =>
      refine ⟨fun c' hc' => ?_, fun _ hc' => (by cases hc'), fun _ _ hc' => (by cases hc')⟩
      cases Table.mem_values_insert hc' with
      | inl hold => exact h.table c' hold
      | inr hnew => exact hnew ▸ h.openClass c hc
    · exact h
  table _ h := h.table

/-- Whether the method is the one that has the method behind a handle called in its place. -/
def Method.isReflective (m : Method) : Bool :=
  m.isNative && m.className == "Ljava/lang/reflect/Method;" && m.name == "invoke"

namespace Machine

/-- A method of a loaded program carries the name of its class. -/
theorem className_of_mem {sources : List String} {p : Program} (hp : loadProgram sources = .ok p)
    {c : LoadedClass} (hc : c ∈ p.classes) {m : Method} (hm : m ∈ c.methods) :
    m.className = c.name := by
  obtain ⟨t, ht, rfl⟩ := owned_invariant.loadProgram (fun c hc => by cases hc) hp
  -- a class of the program is one of the table, with numbers
  have hmem : c.toClass ∈ t.values := by
    rw [← ClassTable.map_toClass_freeze]
    exact List.mem_map.2 ⟨c, Array.mem_toList_iff.2 hc, rfl⟩
  exact ht c.toClass hmem m hm

/-! ## The classes of the standard library -/

/-- The source leaves the classes of the standard library alone. -/
def LeavesLibrary (source : String) : Prop :=
  (definedNames source).Disjoint (definedNames standardLibrary)

/-- The classes of the standard library. -/
theorem definedNames_standardLibrary : definedNames standardLibrary =
    ["Ljava/lang/Object;", "Ljavax/crypto/spec/IvParameterSpec;", "Ljava/lang/Math;",
    "Ljava/util/Random;", "Ljava/util/Timer;", "Ljava/util/TimerTask;", "Ljava/lang/String;",
    "Ljava/lang/Integer;", "Ljava/lang/Class;", "Ljava/lang/reflect/Field;",
    "Ljava/lang/reflect/Method;", "Landroid/util/Log;"] := by
  rw [definedNames_ofText libraryText.2]
  decide +kernel

/-- Where no source defines a class of the standard library, these classes are as they were written. -/
theorem library_class {sources : List String} {p : Program} (hp : loadProgram sources = .ok p)
    (hsources : ∀ source ∈ sources, LeavesLibrary source) {c : LoadedClass} (hc : c ∈ p.classes)
    (hname : c.name ∈ definedNames standardLibrary) :
    ∃ library, loadProgram [] = .ok library ∧ ∃ c₀ ∈ library.classes, c₀.toClass = c.toClass := by
  obtain ⟨t, ht, rfl⟩ := loadProgram_ok_iff.1 hp
  obtain ⟨hall, ht⟩ := ClassTable.readSources_ok_iff.1 ht
  have hlibrary : (sourceClasses? standardLibrary).isSome := hall _ List.mem_cons_self
  have hright (source : String) (hsource : source ∈ sources) : (sourceClasses? source).isSome :=
    hall source (List.mem_cons_of_mem _ hsource)
  rw [List.flatMap_cons, ClassTable.addAll_append] at ht
  rw [ht] at hp hc
  -- no class of the sources has the name
  have hnot : c.name ∉ (sources.flatMap sourceClasses).map (·.name) := by
    intro hmem
    obtain ⟨c', hc', hsame⟩ := List.mem_map.1 hmem
    obtain ⟨source, hsource, hc'⟩ := List.mem_flatMap.1 hc'
    refine hsources source hsource ?_ hname
    rw [mem_definedNames (hright source hsource)]
    exact List.mem_map.2 ⟨c', hc', hsame⟩
  -- the library by itself is read into the same table as before the sources
  have hload : loadProgram [] = .ok (ClassTable.addAll {} (sourceClasses standardLibrary)).freeze := by
    refine loadProgram_ok_iff.2 ⟨_, ClassTable.readSources_ok_iff.2 ⟨?_, rfl⟩, ?_⟩
    · exact List.forall_mem_cons.2 ⟨hlibrary, fun _ hmem => by cases hmem⟩
    · rw [List.flatMap_cons, List.flatMap_nil, List.append_nil]
  refine ⟨_, hload, ?_⟩
  have hnamed := ClassTable.named_addAll ClassTable.named_empty (sourceClasses standardLibrary)
  obtain ⟨t, htidy, hfreeze⟩ := loadProgram_tidy hp
  -- so the table with the sources has the same class under the name
  have hfind : ((ClassTable.addAll {} (sourceClasses standardLibrary)).freeze.find? c.name).map
      (·.toClass) = some c.toClass := by
    rw [ClassTable.toClass_find? hnamed, ← ClassTable.get?_addAll_of_not_mem _ hnot,
      ← ClassTable.toClass_find? (ClassTable.named_addAll hnamed _), hfreeze,
      htidy.find?_name (hfreeze ▸ hc), Option.map_some]
  obtain ⟨c₀, hc₀, hsame⟩ := Option.map_eq_some_iff.1 hfind
  exact ⟨c₀, Array.mem_of_find?_eq_some hc₀, hsame⟩

/-- So what holds of all methods of the standard library holds of the methods of these classes. -/
theorem library_method {sources : List String} {p : Program} (hp : loadProgram sources = .ok p)
    (hsources : ∀ source ∈ sources, LeavesLibrary source) {P : Method → Bool}
    (hall : (loadProgram []).toOption.any (fun library =>
      library.classes.all fun c => c.methods.all P) = true)
    {m : Method} (hm : p.HasMethod m) (hname : m.className ∈ definedNames standardLibrary) :
    P m = true := by
  obtain ⟨c, hc, hm⟩ := hm
  rw [className_of_mem hp hc hm] at hname
  obtain ⟨library, hload, c₀, hc₀, hsame⟩ := library_class hp hsources hc hname
  rw [hload] at hall
  have hmethods := Array.all_eq_true_iff_forall_mem.1 hall c₀ hc₀
  -- the class is as the library has it, methods included
  rw [hsame] at hmethods
  exact List.all_eq_true.1 hmethods m hm

/-! ## Replies -/

/-- What a method gives its caller. -/
inductive Answer where
  | nothing
  | value
  /-- What another method gives that is called in its place. -/
  | handedOn
  deriving DecidableEq

/-- What a method declares to give its caller. -/
def Answer.ofMethod (m : Method) : Answer :=
  if m.isReflective then .handedOn else if m.returnType = .void then .nothing else .value

/-- When a method declares to give nothing. -/
theorem Answer.ofMethod_eq_nothing {m : Method} :
    Answer.ofMethod m = .nothing ↔ m.isReflective = false ∧ m.returnType = .void := by
  cases hm : m.isReflective <;> simp [ofMethod, hm]

/-- When a method declares to give a value. -/
theorem Answer.ofMethod_eq_value {m : Method} :
    Answer.ofMethod m = .value ↔ m.isReflective = false ∧ m.returnType ≠ .void := by
  cases hm : m.isReflective <;> simp [ofMethod, hm]

/-- When a method declares to give what another one gives. -/
theorem Answer.ofMethod_eq_handedOn {m : Method} :
    Answer.ofMethod m = .handedOn ↔ m.isReflective = true := by
  by_cases hvoid : m.returnType = .void <;> simp [ofMethod, hvoid]

/-- The reply leads to such an answer, unless it is a failure. -/
inductive Reply.Suits : Answer → Reply → Prop
  | fail (answer e) : Suits answer (.fail e)
  | nothing : Suits .nothing (.finish none)
  | value (v) : Suits .value (.finish (some v))
  | call (method receiver? args) : Suits .handedOn (.call method receiver? args)
  | readField (owner field args) : Suits .value (.readField owner field args)
  | writeField (owner field args v) : Suits .nothing (.writeField owner field args v)

/-- The host method only has replies that lead to such an answer. -/
def HostMethod.Answers (host : HostMethod) (answer : Answer) : Prop :=
  ∀ (p : Program) (call : HostCall) (s : State), (host p call s).2.Suits answer

/-- What the computation gives, if it does not fail, has the property. -/
def Gives (P : α → Prop) (x : Except Fault α) : Prop :=
  ∀ a, x = .ok a → P a

/-- What is given has the property. -/
theorem gives_ok {P : α → Prop} {a : α} (h : P a) : Gives P (.ok a) := by
  rintro b ⟨⟩
  exact h

/-- A failure gives nothing. -/
theorem gives_error {P : α → Prop} {e : Fault} : Gives P (.error e) := by
  rintro b ⟨⟩

/-- What comes first in a sequence is not what it gives. -/
theorem gives_bind {P : β → Prop} {x : Except Fault α} {k : α → Except Fault β}
    (h : ∀ a, Gives P (k a)) : Gives P (x >>= k) := by
  intro b hb
  obtain ⟨a, -, hb⟩ := bind_eq_ok.1 hb
  exact h a b hb

/-- The answers of a host method that leaves the state alone. -/
theorem answers_reading {answer : Answer} {f : Program → HostCall → State → Except Fault Reply}
    (hf : ∀ p call s, Gives (Reply.Suits answer) (f p call s)) :
    (HostMethod.reading f).Answers answer := by
  intro p call s
  unfold HostMethod.reading Reply.ofExcept
  dsimp only
  split
  · next reply h => exact hf p call s reply h
  · exact .fail answer _

/-- The answers of a host method that changes the state. -/
theorem answers_writing {answer : Answer}
    {f : Program → HostCall → State → Except Fault (State × Reply)}
    (hf : ∀ p call s, Gives (fun result => result.2.Suits answer) (f p call s)) :
    (HostMethod.writing f).Answers answer := by
  intro p call s
  unfold HostMethod.writing
  split
  · next result h => exact hf p call s result h
  · exact .fail answer _

/-! ### Host methods -/

/-- The constructor of strings gives nothing. -/
theorem answers_stringInit : stringInit.Answers .nothing := by
  refine answers_writing fun p call s => ?_
  repeat refine gives_bind fun _ => ?_
  exact gives_ok .nothing

/-- `String.charAt(int)` gives a value. -/
theorem answers_stringCharAt : stringCharAt.Answers .value := by
  refine answers_reading fun p call s => ?_
  refine gives_bind fun text => gives_bind fun _ => gives_bind fun index => ?_
  split
  · exact gives_ok (.value _)
  · exact gives_error

/-- `Class.getDeclaredMethod` gives a value. -/
theorem answers_classGetDeclaredMethod : classGetDeclaredMethod.Answers .value := by
  refine answers_writing fun p call s => ?_
  refine gives_bind fun c => gives_bind fun _ => gives_bind fun name => ?_
  -- one method with the name, none, or several
  split
  · exact gives_ok (.value _)
  · exact gives_error
  · exact gives_error

/-- `Class.getDeclaredField` gives a value. -/
theorem answers_classGetDeclaredField : classGetDeclaredField.Answers .value := by
  refine answers_writing fun p call s => ?_
  refine gives_bind fun c => gives_bind fun _ => gives_bind fun name => ?_
  split
  · exact gives_ok (.value _)
  · exact gives_error

/-- `Field.set(Object, Object)` gives nothing. -/
theorem answers_fieldSet : fieldSet.Answers .nothing := by
  refine answers_reading fun p call s => ?_
  refine gives_bind fun place => gives_bind fun _ => gives_bind fun v => ?_
  split
  · exact gives_ok (.writeField _ _ _ _)
  · exact gives_error

/-- `Method.invoke(Object, Object[])` gives what the method gives that it calls. -/
theorem answers_methodInvoke : methodInvoke.Answers .handedOn := by
  refine answers_writing fun p call s => ?_
  refine gives_bind fun m => gives_bind fun target => gives_bind fun list => ?_
  -- wherever the arguments come from, the method behind the handle is called
  split
  · exact gives_bind fun array => gives_ok (.call _ _ _)
  · split
    · exact gives_ok (.call _ _ _)
    · exact gives_error

/-- The host methods that come to their value in one way. -/
theorem answers_value : stringLength.Answers .value ∧ stringOfInt.Answers .value ∧
    stringOfLong.Answers .value ∧ integerValueOf.Answers .value ∧ integerIntValue.Answers .value ∧
    classForName.Answers .value ∧ logDebug.Answers .value := by
  refine ⟨answers_reading fun p call s => ?_, answers_writing fun p call s => ?_,
    answers_writing fun p call s => ?_, answers_writing fun p call s => ?_,
    answers_reading fun p call s => ?_, answers_writing fun p call s => ?_,
    answers_writing fun p call s => ?_⟩
  all_goals
    repeat refine gives_bind fun _ => ?_
    exact gives_ok (.value _)

/-- `Field.get(Object)` gives a value. -/
theorem answers_fieldGet : fieldGet.Answers .value :=
  answers_reading fun _ _ _ => gives_bind fun _ => gives_ok (.readField _ _ _)

/-- A method that does nothing gives nothing. -/
theorem answers_doNothing : doNothing.Answers .nothing :=
  fun _ _ _ => .nothing

/-! ### Fields touched once the class is set up -/

/-- The reply with the value of a field is a value. -/
theorem replyField_suits (s : State) (owner : LoadedClass) (field : Field) (args : List Value) :
    (replyField s owner field args).2.Suits .value := by
  unfold replyField
  -- a fault, a 64-bit value that is refused, an integer, and anything else
  split
  · exact .fail _ _
  · exact .fail _ _
  · split
    · exact .value _
    · exact .value _
  · exact .value _

/-- The reply to a write of a field is nothing. -/
theorem writeField_suits (s : State) (owner : LoadedClass) (field : Field) (args : List Value)
    (v : Value) : (writeField s owner field args v).2.Suits .nothing := by
  unfold writeField
  split
  · exact .nothing
  · split
    · exact .nothing
    · exact .fail _ _

/-! ### The table of the standard library -/

/-- The keys of the host methods that give nothing. -/
def voidKeys : List String :=
  [Natives.key "Ljava/lang/String;" "<init>" "[III",
    Natives.key "Ljava/lang/reflect/Field;" "setAccessible" "Z",
    Natives.key "Ljava/lang/reflect/Field;" "set" "Ljava/lang/Object;Ljava/lang/Object;",
    Natives.key "Ljava/lang/reflect/Method;" "setAccessible" "Z"]

/-- The key of the host method that has another method called. -/
def reflectiveKey : String :=
  Natives.key "Ljava/lang/reflect/Method;" "invoke" "Ljava/lang/Object;[Ljava/lang/Object;"

/-- What the host method under a key gives. -/
def Answer.ofKey (key : String) : Answer :=
  if key = reflectiveKey then .handedOn else if key ∈ voidKeys then .nothing else .value

/-- The host methods of the standard library give what their keys say. -/
theorem standard_answers : ∀ entry ∈ Natives.standardMethods,
    entry.2.2.2.Answers (.ofKey (Natives.key entry.1 entry.2.1 entry.2.2.1)) := by
  have hcast {host : HostMethod} {answer answer' : Answer} (h : host.Answers answer)
      (hsame : answer' = answer) : host.Answers answer' := hsame ▸ h
  obtain ⟨hlength, hint, hlong, hbox, hunbox, hclass, hlog⟩ := answers_value
  simp only [Natives.standardMethods, List.forall_mem_cons, List.not_mem_nil, false_implies,
    implies_true, and_true]
  -- what each method gives is known, and its key is evaluated to the same
  refine ⟨hcast answers_stringInit ?_, hcast hlength ?_, hcast answers_stringCharAt ?_, hcast hint ?_,
    hcast hlong ?_, hcast hbox ?_, hcast hunbox ?_, hcast hclass ?_,
    hcast answers_classGetDeclaredMethod ?_, hcast answers_classGetDeclaredField ?_,
    hcast answers_doNothing ?_, hcast answers_fieldGet ?_, hcast answers_fieldSet ?_,
    hcast answers_doNothing ?_, hcast answers_methodInvoke ?_, hcast hlog ?_⟩
  all_goals decide +kernel

/-! ### Methods of the program -/

/-- The standard library declares what its host methods give, and that `Method.invoke` has a result. -/
theorem library_declares : (loadProgram []).toOption.any (fun library => library.classes.all fun c =>
    c.methods.all fun m => (!m.isNative || Answer.ofKey m.hostKey == Answer.ofMethod m) &&
      (!m.isReflective || m.returnType != .void)) = true := by
  rw [loadProgram_ofTexts (show [] = List.map String.ofList [] from rfl)]
  decide +kernel

/-- The characters of a key. -/
theorem toList_key (className name params : String) :
    (Natives.key className name params).toList =
      className.toList ++ '-' :: ('>' :: (name.toList ++ '(' :: (params.toList ++ [')']))) := by
  simp [Natives.key]

/-- A key in which the arrow stands once tells the class. -/
theorem className_of_key {className name params : String} (hclass : '-' ∉ className.toList)
    (hname : '-' ∉ name.toList) (hparams : '-' ∉ params.toList) {className' name' params' : String}
    (h : Natives.key className' name' params' = Natives.key className name params) :
    className' = className := by
  have hlists := congrArg String.toList h
  rw [toList_key, toList_key] at hlists
  -- behind the arrow of the known key there is no other
  have hbehind : '-' ∉ '>' :: (name.toList ++ '(' :: (params.toList ++ [')'])) := by
    simp [hname, hparams]
  obtain ⟨hsame, -, -⟩ := (List.append_cons_inj_of_notMem hclass hbehind).1 hlists.symm
  exact (String.toList_inj.1 hsame).symm

/-- The host methods of the standard library belong to its classes, and so does `Method.invoke`. -/
theorem standard_classes : ("Ljava/lang/reflect/Method;" :: Natives.standardMethods.map (·.1)).all
    (definedNames standardLibrary).contains = true := by
  rw [definedNames_standardLibrary]
  decide +kernel

/-- The arrow stands once in the keys of the standard library. -/
theorem standard_keys : (Natives.standardMethods.all fun entry =>
    '-' ∉ entry.1.toList ∧ '-' ∉ entry.2.1.toList ∧ '-' ∉ entry.2.2.1.toList) = true := by
  decide +kernel

/-- A host method that is found for a method of the program replies as the method declares. -/
theorem host_answers {sources : List String} {p : Program} (hp : loadProgram sources = .ok p)
    (hsources : ∀ source ∈ sources, LeavesLibrary source) {m : Method} (hm : p.HasMethod m)
    (hbody : m.body = .native) {host : HostMethod}
    (hhost : Natives.standard.find? m.className m.name m.params = some host) :
    host.Answers (.ofMethod m) := by
  cases find?_registered hhost with
  | inl h => cases h
  | inr h =>
    obtain ⟨entry, hmem, rfl, hkey⟩ := h
    obtain ⟨hclass, hname, hparams⟩ := of_decide_eq_true (List.all_eq_true.1 standard_keys entry hmem)
    -- the key names the class of the method, which is one of the library
    have hlibrary : m.className ∈ definedNames standardLibrary := by
      rw [className_of_key hclass hname hparams hkey]
      exact List.contains_iff_mem.1 (List.all_eq_true.1 standard_classes entry.1
        (List.mem_cons_of_mem _ (List.mem_map.2 ⟨entry, hmem, rfl⟩)))
    -- the library declares what the key says
    have hthis : Answer.ofKey m.hostKey = .ofMethod m := by
      have hdeclared := library_method hp hsources library_declares hm hlibrary
      rw [Bool.and_eq_true] at hdeclared
      simpa [Method.isNative, hbody] using hdeclared.1
    have hanswers := standard_answers entry hmem
    rwa [← hkey, show Natives.key m.className m.name _ = m.hostKey from rfl, hthis] at hanswers

/-- The method that has another one called in its place declares a result. -/
theorem returnType_of_isReflective {sources : List String} {p : Program}
    (hp : loadProgram sources = .ok p) (hsources : ∀ source ∈ sources, LeavesLibrary source)
    {m : Method} (hm : p.HasMethod m) (h : m.isReflective = true) : m.returnType ≠ .void := by
  have hclass : m.className = "Ljava/lang/reflect/Method;" := by
    simp only [Method.isReflective, Bool.and_eq_true, beq_iff_eq] at h
    exact h.1.2
  have hlibrary : m.className ∈ definedNames standardLibrary := by
    rw [hclass]
    exact List.contains_iff_mem.1 (List.all_eq_true.1 standard_classes _ List.mem_cons_self)
  have hdeclared := library_method hp hsources library_declares hm hlibrary
  rw [Bool.and_eq_true] at hdeclared
  simpa [h] using hdeclared.2

end Machine

end Smali
