import RegisterMachine.Proofs.Instruction.Canonical

/-! # Recognising mnemonics

The built-in mnemonics are the names that stand alone, a second spelling of three of them, and the
names built from registers. They can be recognised without the table, by taking a name apart: its
beginning is stripped, or it is cut at its first `2` or behind two bytes, and the parts are read as
registers and operators, one family after the other. This finds the form that the table has, so that
a name which only resembles a built-in mnemonic is kept with its operand, and a built-in mnemonic
makes instructions of that mnemonic and no others.
-/

namespace RegisterMachine

namespace Mnemonic

variable {name : String}

def standalone : List String :=
  ["copy2ip", "jmp", "jmpIfEqual", "jmpIfNotEqual", "jmpIfGreater", "jmpIfLess", "halt", "padding",
    "storeMem", "loadMem", "printMem", "clearMem", "push", "pop", "peek", "printStack", "mkdir",
    "cd", "ls", "write", "read", "rm", "magicstr", "biosInterrupt", "disableInterrupt"]

/-- The second spellings, each with the mnemonic that it stands for. -/
def secondSpellings : List (String × String) :=
  [("StoreMem", "storeMem"), ("LoadMem", "loadMem"), ("disableInterupt", "disableInterrupt")]

/-- The mnemonic that a name stands for: a second spelling for the first, any other for itself. -/
def spelling (name : String) : String := (secondSpellings.lookup name).getD name

inductive BuiltIn : String → Prop
  | alone {name : String} (member : name ∈ standalone) : BuiltIn name
  | second {name first : String} (member : (name, first) ∈ secondSpellings) : BuiltIn name
  | load (target : Target) : BuiltIn ("copy2" ++ target.name)
  | copy {source destination : Register} (different : source ≠ destination) :
      BuiltIn ("copy" ++ source.name ++ "2" ++ destination.name)
  | swap {left right : Register} (different : left ≠ right) :
      BuiltIn ("swap" ++ left.name ++ right.name)
  | arithmetic (operator : Operator) (register : Register) :
      BuiltIn (operator.name ++ "2" ++ register.name)
  | increment (target : Target) : BuiltIn ("inc" ++ target.name)
  | decrement (target : Target) : BuiltIn ("dec" ++ target.name)
  | compare (register : Register) : BuiltIn ("cmp" ++ register.name)
  | print (target : Target) : BuiltIn ("print" ++ target.name)

/-! ## The rows of the table -/

private theorem names_fixed : fixed.map Prod.fst = standalone := rfl

private theorem names_aliases : aliases.map Prod.fst = secondSpellings.map Prod.fst := rfl

/-- The table has a row for the built-in mnemonics and no other. -/
theorem builtIn_iff : BuiltIn name ↔ name ∈ table.map Prod.fst := by
  constructor
  · -- A name built from registers is the mnemonic of an instruction of its family.
    have family (instruction : Instruction) (canonical : instruction.Canonical) {form : Form}
        (known : instruction.form? = some form) : instruction.mnemonic ∈ table.map Prod.fst :=
      List.mem_map_of_mem (Instruction.mem_table_of_form? canonical known)
    intro builtIn
    cases builtIn with
    | alone member =>
      rw [table, List.map_append, List.map_append, names_fixed]
      exact List.mem_append_left _ (List.mem_append_left _ member)
    | second member =>
      rw [table, List.map_append, List.map_append, names_aliases]
      exact List.mem_append_left _ (List.mem_append_right _ (List.mem_map_of_mem member))
    | load target => exact family (.load target 0) trivial rfl
    | copy different => exact family (.copy _ _) different rfl
    | swap different => exact family (.swap _ _) different rfl
    | arithmetic operator register =>
      exact family (.arithmetic operator register 0) trivial rfl
    | increment target => exact family (.increment target) trivial rfl
    | decrement target => exact family (.decrement target) trivial rfl
    | compare register => exact family (.compare register 0) trivial rfl
    | print target => exact family (.print target) trivial rfl
  · rw [table, List.map_append, List.map_append, List.mem_append, List.mem_append, names_fixed,
      names_aliases]
    rintro ((alone | second) | family)
    · exact .alone alone
    · obtain ⟨entry, member, rfl⟩ := List.mem_map.mp second
      exact .second member
    · obtain ⟨row, member, rfl⟩ := List.mem_map.mp family
      rcases mem_families.mp member with ⟨target, rfl⟩ | ⟨source, destination, different, rfl⟩ |
        ⟨left, right, different, rfl⟩ | ⟨operator, register, rfl⟩ | ⟨target, rfl⟩ | ⟨target, rfl⟩ |
        ⟨register, rfl⟩ | ⟨target, rfl⟩
      · exact .load target
      · exact .copy different
      · exact .swap different
      · exact .arithmetic operator register
      · exact .increment target
      · exact .decrement target
      · exact .compare register
      · exact .print target

instance : DecidablePred BuiltIn := fun _ => decidable_of_iff _ builtIn_iff.symm

private theorem form?_eq_none_iff_not_builtIn : form? name = none ↔ ¬BuiltIn name := by
  rw [form?_eq_none_iff, builtIn_iff]

theorem exists_form?_of_builtIn (builtIn : BuiltIn name) : ∃ form, form? name = some form :=
  Option.ne_none_iff_exists'.mp fun unknown => form?_eq_none_iff_not_builtIn.mp unknown builtIn

/-- Only second spellings stand for another mnemonic. -/
theorem spelling_of_mem : ∀ row ∈ fixed ++ families, spelling row.1 = row.1 := by decide +kernel

/-- A row makes instructions of the mnemonic that its name stands for. -/
theorem table_spells {row : String × Form} (member : row ∈ table) :
    row.2.Makes fun instruction =>
      instruction.isOther = false ∧ instruction.mnemonic = spelling row.1 := by
  rcases List.mem_append.mp member with alone | family
  · have rows : ∀ row ∈ fixed ++ aliases, row.2.Makes fun instruction =>
        instruction.isOther = false ∧ instruction.mnemonic = spelling row.1 := by
      simp only [fixed, aliases, List.cons_append, List.nil_append, List.forall_mem_cons]
      simp [Form.Makes, Instruction.isOther, Instruction.mnemonic, Condition.mnemonic, spelling,
        secondSpellings, List.lookup_cons, List.lookup_nil]
    exact rows row alone
  · rw [spelling_of_mem row (List.mem_append_right _ family)]
    rcases mem_families.mp family with ⟨_, rfl⟩ | ⟨_, _, -, rfl⟩ | ⟨_, _, -, rfl⟩ |
      ⟨_, _, rfl⟩ | ⟨_, rfl⟩ | ⟨_, rfl⟩ | ⟨_, rfl⟩ | ⟨_, rfl⟩
    · exact fun _ => ⟨rfl, rfl⟩
    · exact ⟨rfl, rfl⟩
    · exact ⟨rfl, rfl⟩
    · exact fun _ => ⟨rfl, rfl⟩
    · exact ⟨rfl, rfl⟩
    · exact ⟨rfl, rfl⟩
    · exact fun _ => ⟨rfl, rfl⟩
    · exact ⟨rfl, rfl⟩

end Mnemonic

/-! ## Parts of a text -/

namespace Text

/-- What stands before and behind the first occurrence of a character. -/
def cutAt? (separator : Char) : List Char → Option (List Char × List Char)
  | [] => none
  | c :: rest =>
    if c = separator then some ([], rest)
    else (cutAt? separator rest).map fun (before, behind) => (c :: before, behind)

/-- The first so many bytes and what follows them, unless the text is shorter or a character lies
across the place where they end. -/
def cutBytes? (bytes : Nat) (text : List Char) : Option (List Char × List Char) :=
  if bytes = 0 then some ([], text)
  else
    match text with
    | [] => none
    | c :: rest =>
      if c.utf8Size ≤ bytes then
        (cutBytes? (bytes - c.utf8Size) rest).map fun (before, behind) => (c :: before, behind)
      else none

private theorem eq_of_cutAt? {separator : Char} {text before behind : List Char}
    (cut : cutAt? separator text = some (before, behind)) :
    text = before ++ separator :: behind := by
  induction text generalizing before with
  | nil => contradiction
  | cons c rest ih =>
    rw [cutAt?] at cut
    split at cut
    · next same =>
      cases cut
      rw [same, List.nil_append]
    · obtain ⟨⟨first, second⟩, later, same⟩ := Option.map_eq_some_iff.mp cut
      cases same
      rw [ih later, List.cons_append]

private theorem eq_of_cutBytes? {bytes : Nat} {text before behind : List Char}
    (cut : cutBytes? bytes text = some (before, behind)) : text = before ++ behind := by
  induction text generalizing bytes before with
  | nil =>
    rw [cutBytes?] at cut
    split at cut
    · cases cut
      rfl
    · contradiction
  | cons c rest ih =>
    rw [cutBytes?] at cut
    split at cut
    · cases cut
      rfl
    · split at cut
      · obtain ⟨⟨first, second⟩, later, same⟩ := Option.map_eq_some_iff.mp cut
        cases same
        rw [ih later, List.cons_append]
      · contradiction

end Text

/-! ## Names of registers and operators -/

def Operator.ofName? : String → Option Operator
  | "add" => some add
  | "sub" => some subtract
  | "mul" => some multiply
  | "div" => some divide
  | "mod" => some modulo
  | _ => none

theorem Register.name_of_ofName? {text : String} {register : Register}
    (read : Register.ofName? text = some register) : text = register.name := by
  unfold Register.ofName? at read
  split at read <;> cases read <;> rfl

private theorem Target.name_of_ofName? {text : String} {target : Target}
    (read : Target.ofName? text = some target) : text = target.name := by
  unfold Target.ofName? at read
  split at read
  · cases read
    rfl
  · obtain ⟨register, named, rfl⟩ := Option.map_eq_some_iff.mp read
    exact Register.name_of_ofName? named

private theorem Operator.name_of_ofName? {text : String} {operator : Operator}
    (read : Operator.ofName? text = some operator) : text = operator.name := by
  unfold Operator.ofName? at read
  split at read <;> cases read <;> rfl

/-! ## Taking a mnemonic apart -/

namespace Mnemonic

variable {form : Form}

/-- The value that is named behind a given beginning. -/
def readAfter {α : Type} (start : String) (ofName? : String → Option α) (text : List Char) :
    Option α :=
  (text.dropPrefix? start.toList).bind fun rest => ofName? (String.ofList rest)

/-- The values that are named before and behind the place where a text is cut. -/
def readBoth {α β : Type} (first? : String → Option α) (second? : String → Option β)
    (cut : Option (List Char × List Char)) : Option (α × β) := do
  let (before, behind) ← cut
  let first ← first? (String.ofList before)
  let second ← second? (String.ofList behind)
  return (first, second)

/-- Two registers, if they differ. -/
def readPair (cut : Option (List Char × List Char)) : Option (Register × Register) :=
  (readBoth Register.ofName? Register.ofName? cut).filter fun pair => pair.1 ≠ pair.2

/-- How the mnemonics built from register names are read, in the order in which this is tried. -/
def readers : List (List Char → Option Form) :=
  [fun text => (readAfter "copy2" Target.ofName? text).map fun target => .integer (.load target),
    fun text => (readPair ((text.dropPrefix? "copy".toList).bind (Text.cutAt? '2'))).map
      fun (source, destination) => .bare (.copy source destination),
    fun text => (readPair ((text.dropPrefix? "swap".toList).bind (Text.cutBytes? 2))).map
      fun (left, right) => .bare (.swap left right),
    fun text => (readBoth Operator.ofName? Register.ofName? (Text.cutAt? '2' text)).map
      fun (operator, register) => .integer (.arithmetic operator register),
    fun text => (readAfter "inc" Target.ofName? text).map fun target => .bare (.increment target),
    fun text => (readAfter "dec" Target.ofName? text).map fun target => .bare (.decrement target),
    fun text => (readAfter "cmp" Register.ofName? text).map
      fun register => .integer (.compare register),
    fun text => (readAfter "print" Target.ofName? text).map fun target => .bare (.print target)]

/-- The form of a mnemonic, found without a table of those built from register names. -/
def byParts? (name : String) : Option Form :=
  ((fixed ++ aliases).lookup name).or (readers.findSome? fun read => read name.toList)

private theorem eq_of_dropPrefix? {start : String} {rest : List Char}
    (dropped : name.toList.dropPrefix? start.toList = some rest) :
    name = start ++ String.ofList rest := by
  obtain ⟨same, split, equal⟩ := List.dropPrefix?_eq_some_iff.mp dropped
  apply String.toList_inj.mp
  rw [split, eq_of_beq equal, String.toList_append, String.toList_ofList]

private theorem eq_of_readAfter {α : Type} {start : String} {ofName? : String → Option α}
    {spell : α → String} (spells : ∀ {text value}, ofName? text = some value → text = spell value)
    {value : α} (read : readAfter start ofName? name.toList = some value) :
    name = start ++ spell value := by
  obtain ⟨rest, dropped, read⟩ := Option.bind_eq_some_iff.mp read
  rw [eq_of_dropPrefix? dropped, spells read]

private theorem exists_of_readBoth {α β : Type} {first? : String → Option α}
    {second? : String → Option β} {cut : Option (List Char × List Char)} {pair : α × β}
    (read : readBoth first? second? cut = some pair) :
    ∃ before behind, cut = some (before, behind) ∧
      first? (String.ofList before) = some pair.1 ∧
      second? (String.ofList behind) = some pair.2 := by
  obtain ⟨⟨before, behind⟩, cut, read⟩ := Option.bind_eq_some_iff.mp read
  obtain ⟨first, named, read⟩ := Option.bind_eq_some_iff.mp read
  obtain ⟨second, named', same⟩ := Option.bind_eq_some_iff.mp read
  cases same
  exact ⟨before, behind, cut, named, named'⟩

/-- Registers read behind a beginning differ, and their names are the parts of what follows it. -/
theorem exists_of_readPair {start : String} {cut : List Char → Option (List Char × List Char)}
    {pair : Register × Register}
    (read : readPair ((name.toList.dropPrefix? start.toList).bind cut) = some pair) :
    ∃ rest, name = start ++ String.ofList rest ∧
      cut rest = some (pair.1.name.toList, pair.2.name.toList) ∧ pair.1 ≠ pair.2 := by
  obtain ⟨read, different⟩ := Option.filter_eq_some_iff.mp read
  obtain ⟨before, behind, cuts, named, named'⟩ := exists_of_readBoth read
  obtain ⟨rest, dropped, cuts⟩ := Option.bind_eq_some_iff.mp cuts
  refine ⟨rest, eq_of_dropPrefix? dropped, ?_, of_decide_eq_true different⟩
  rw [cuts, ← Register.name_of_ofName? named, ← Register.name_of_ofName? named',
    String.toList_ofList, String.toList_ofList]

/-- What a reader finds is the form of an instruction whose mnemonic has been read. -/
theorem mem_table_of_read {read : List Char → Option Form} (reader : read ∈ readers)
    (found : read name.toList = some form) : (name, form) ∈ table := by
  have family (instruction : Instruction) (spelled : name = instruction.mnemonic)
      (canonical : instruction.Canonical) (known : instruction.form? = some form) :
      (name, form) ∈ table := spelled ▸ Instruction.mem_table_of_form? canonical known
  simp only [readers, List.mem_cons, List.not_mem_nil, or_false] at reader
  rcases reader with rfl | rfl | rfl | rfl | rfl | rfl | rfl | rfl
  · obtain ⟨target, read, rfl⟩ := Option.map_eq_some_iff.mp found
    exact family (.load target 0) (eq_of_readAfter Target.name_of_ofName? read)
      trivial rfl
  · obtain ⟨⟨source, destination⟩, read, rfl⟩ := Option.map_eq_some_iff.mp found
    obtain ⟨rest, split, cut, different⟩ := exists_of_readPair read
    refine family (.copy source destination) ?_ different rfl
    rw [split, Text.eq_of_cutAt? cut]
    simp [Instruction.mnemonic, ← String.toList_inj]
  · obtain ⟨⟨left, right⟩, read, rfl⟩ := Option.map_eq_some_iff.mp found
    obtain ⟨rest, split, cut, different⟩ := exists_of_readPair read
    refine family (.swap left right) ?_ different rfl
    rw [split, Text.eq_of_cutBytes? cut]
    simp [Instruction.mnemonic, ← String.toList_inj]
  · obtain ⟨⟨operator, register⟩, read, rfl⟩ := Option.map_eq_some_iff.mp found
    obtain ⟨before, behind, cut, named, named'⟩ := exists_of_readBoth read
    refine family (.arithmetic operator register 0) ?_ trivial rfl
    rw [Instruction.mnemonic, ← Operator.name_of_ofName? named,
      ← Register.name_of_ofName? named', ← String.toList_inj, Text.eq_of_cutAt? cut]
    simp
  · obtain ⟨target, read, rfl⟩ := Option.map_eq_some_iff.mp found
    exact family (.increment target) (eq_of_readAfter Target.name_of_ofName? read)
      trivial rfl
  · obtain ⟨target, read, rfl⟩ := Option.map_eq_some_iff.mp found
    exact family (.decrement target) (eq_of_readAfter Target.name_of_ofName? read)
      trivial rfl
  · obtain ⟨register, read, rfl⟩ := Option.map_eq_some_iff.mp found
    exact family (.compare register 0)
      (eq_of_readAfter Register.name_of_ofName? read) trivial rfl
  · obtain ⟨target, read, rfl⟩ := Option.map_eq_some_iff.mp found
    exact family (.print target) (eq_of_readAfter Target.name_of_ofName? read)
      trivial rfl

private theorem mem_table_of_byParts? (found : byParts? name = some form) :
    (name, form) ∈ table := by
  rcases Option.or_eq_some_iff.mp found with alone | ⟨-, built⟩
  · exact List.mem_append_left _ (mem_of_lookup alone)
  · obtain ⟨read, reader, found⟩ := List.exists_of_findSome?_eq_some built
    exact mem_table_of_read reader found

private theorem isSome_byParts? : ∀ row ∈ table, (byParts? row.1).isSome = true := by decide +kernel

/-- Taking a name apart finds what the table has under it. -/
theorem form?_eq_byParts? (name : String) : form? name = byParts? name := by
  cases parts : byParts? name with
  | some form => exact form?_eq_some_of_mem (mem_table_of_byParts? parts)
  | none =>
    cases known : form? name with
    | none => rfl
    | some form =>
      have found := isSome_byParts? _ (mem_of_lookup known)
      rw [parts] at found
      contradiction

end Mnemonic

/-! ## What is decoded -/

namespace Form

/-- Every form makes an instruction from some operand. -/
theorem exists_read (form : Form) :
    ∃ operand instruction, form.read operand = .ok instruction := by
  cases form with
  | bare instruction => exact ⟨none, _, rfl⟩
  | integer make | destination make | distance make => exact ⟨some (.integer 0), _, rfl⟩
  | name make => exact ⟨some (.text ""), _, rfl⟩
  | register make => exact ⟨some (.text "ax"), _, rfl⟩
  | cell make => exact ⟨some (.cell 0 .ax), _, rfl⟩
  | file make => exact ⟨some (.file "" ""), _, rfl⟩

end Form

namespace Instruction

open Mnemonic

variable {name : String} {operand : Option Operand}

theorem decode_of_not_builtIn (foreign : ¬BuiltIn name) (operand : Option Operand) :
    decode name operand = .ok (.other name operand) := by
  rw [decode, form?_eq_none_iff_not_builtIn.mpr foreign]

private theorem of_decode_builtIn (builtIn : BuiltIn name) {instruction : Instruction}
    (success : decode name operand = .ok instruction) :
    instruction.isOther = false ∧ instruction.mnemonic = spelling name := by
  obtain ⟨form, known⟩ := exists_form?_of_builtIn builtIn
  rw [decode, known] at success
  exact (table_spells (mem_of_lookup known)).read (mapError_eq_ok_iff.mp success)

/-- Decoding recognises the built-in mnemonics and nothing else.

Its table agrees with taking the name apart, family by family. A name that is no built-in mnemonic
is kept with its operand, whatever the operand is. Under a built-in mnemonic no operand is kept so:
where decoding succeeds, as it does for some operand, the instruction's own mnemonic is the name
itself or what a second spelling stands for. -/
theorem decode_recognises (name : String) (operand : Option Operand) :
    Mnemonic.form? name = byParts? name ∧
      (¬BuiltIn name → decode name operand = .ok (.other name operand)) ∧
      (BuiltIn name →
        (∀ instruction, decode name operand = .ok instruction →
          instruction.isOther = false ∧ instruction.mnemonic = spelling name) ∧
        ∃ suited instruction, decode name suited = .ok instruction) := by
  refine ⟨form?_eq_byParts? name, fun foreign => decode_of_not_builtIn foreign operand, ?_⟩
  intro builtIn
  refine ⟨fun instruction success => of_decode_builtIn builtIn success, ?_⟩
  obtain ⟨form, known⟩ := exists_form?_of_builtIn builtIn
  obtain ⟨suited, instruction, made⟩ := form.exists_read
  refine ⟨suited, instruction, ?_⟩
  rw [decode, known, mapError_eq_ok_iff]
  exact made

/-- Names that differ from built-in mnemonics in one part, and a second spelling. -/
theorem decode_recognises_samples :
    (∀ name ∈ ["copyax2ax", "swapaxax", "swapaéx", "copy2dx", "copy2é", "add2ax2", "print", "Halt"],
      ¬BuiltIn name ∧
        decode name (some (.integer 1)) = .ok (.other name (some (.integer 1)))) ∧
    (BuiltIn "StoreMem" ∧ decode "StoreMem" (some (.cell 3 .bx)) = .ok (.storeCell 3 .bx) ∧
      (storeCell 3 .bx).mnemonic = spelling "StoreMem" ∧ spelling "StoreMem" = "storeMem") := by
  constructor
  · intro name near
    have foreign : ¬BuiltIn name := by
      revert name
      decide +kernel
    exact ⟨foreign, (decode_recognises name _).2.1 foreign⟩
  · have second : BuiltIn "StoreMem" := .second (.head _)
    have success : decode "StoreMem" (some (.cell 3 .bx)) = .ok (.storeCell 3 .bx) := rfl
    have named := ((decode_recognises "StoreMem" _).2.2 second).1 _ success
    exact ⟨second, success, named.2, rfl⟩

end Instruction

end RegisterMachine
