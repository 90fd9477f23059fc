import Mathlib.Algebra.Ring.Nat
import RegisterMachine.Instruction.Decode
import RegisterMachine.Proofs.Lookup
import RegisterMachine.Proofs.Success

/-! # Canonical instructions

Some instructions cannot be spelled: a copy of a register onto itself, an address beyond the
greatest word, a built-in mnemonic kept as a learnt one. The others are exactly those that decoding
gives, and each of them is decoded from its own mnemonic and operand.
-/

namespace RegisterMachine

namespace Instruction

/-- An instruction that a mnemonic and an operand can stand for. -/
def Canonical : Instruction → Prop
  | copy source destination => source ≠ destination
  | swap left right => left ≠ right
  | setIp address | jump address | jumpIf _ address | skip address => address < 2 ^ 63
  | other name _ => name ∉ Mnemonic.table.map Prod.fst
  | _ => True

def form? : Instruction → Option Form
  | load target _ => some (.integer (.load target))
  | setIp _ => some (.destination .setIp)
  | copy source destination => some (.bare (.copy source destination))
  | swap left right => some (.bare (.swap left right))
  | arithmetic operator register _ => some (.integer (.arithmetic operator register))
  | increment target => some (.bare (.increment target))
  | decrement target => some (.bare (.decrement target))
  | compare register _ => some (.integer (.compare register))
  | jumpIf condition _ => some (.destination (.jumpIf condition))
  | jump _ => some (.destination .jump)
  | halt => some (.bare .halt)
  | skip _ => some (.distance .skip)
  | storeCell _ _ => some (.cell .storeCell)
  | loadCell _ _ => some (.cell .loadCell)
  | printCell _ => some (.integer .printCell)
  | clearMemory => some (.bare .clearMemory)
  | push _ => some (.register .push)
  | pop _ => some (.register .pop)
  | peek => some (.bare .peek)
  | printStack => some (.bare .printStack)
  | makeDirectory _ => some (.name .makeDirectory)
  | changeDirectory _ => some (.name .changeDirectory)
  | listDirectory => some (.bare .listDirectory)
  | writeFile _ _ => some (.file .writeFile)
  | readFile _ => some (.name .readFile)
  | remove _ => some (.name .remove)
  | print target => some (.bare (.print target))
  | banner => some (.bare .banner)
  | firmwareInterrupt => some (.bare .firmwareInterrupt)
  | disableInterrupts => some (.bare .disableInterrupts)
  | other .. => none

end Instruction

/-! ## The table -/

namespace Mnemonic

private theorem table_distinct : (table.map Prod.fst).Nodup := by decide +kernel

theorem form?_eq_some_of_mem {name : String} {form : Form} (row : (name, form) ∈ table) :
    form? name = some form := lookup_of_mem table_distinct row

theorem form?_eq_none_iff {name : String} : form? name = none ↔ name ∉ table.map Prod.fst :=
  lookup_eq_none_iff

private theorem mem_targets (target : Target) : target ∈ Target.all := by
  rcases target with (_ | _ | _) | _ <;> decide

private theorem mem_registers (register : Register) : register ∈ Register.all := by
  cases register <;> decide

private theorem mem_operators (operator : Operator) : operator ∈ Operator.all := by
  cases operator <;> decide

private theorem mem_registerPairs {first second : Register} :
    (first, second) ∈ registerPairs ↔ first ≠ second := by
  cases first <;> cases second <;> decide

/-- The rows of the table that are built from register names. -/
theorem mem_families {row : String × Form} :
    row ∈ families ↔
      (∃ target, row = ("copy2" ++ Target.name target, .integer (.load target))) ∨
      (∃ source destination, source ≠ destination ∧
        row = ("copy" ++ Register.name source ++ "2" ++ Register.name destination,
          .bare (.copy source destination))) ∨
      (∃ left right, left ≠ right ∧
        row = ("swap" ++ Register.name left ++ Register.name right, .bare (.swap left right))) ∨
      (∃ operator register, row = (Operator.name operator ++ "2" ++ Register.name register,
        .integer (.arithmetic operator register))) ∨
      (∃ target, row = ("inc" ++ Target.name target, .bare (.increment target))) ∨
      (∃ target, row = ("dec" ++ Target.name target, .bare (.decrement target))) ∨
      (∃ register, row = ("cmp" ++ Register.name register, .integer (.compare register))) ∨
      (∃ target, row = ("print" ++ Target.name target, .bare (.print target))) := by
  simp only [families, List.mem_append, List.mem_map, List.mem_flatMap, mem_targets, mem_registers,
    mem_operators, true_and, Prod.exists, mem_registerPairs, or_assoc, eq_comm (a := row)]

end Mnemonic

namespace Instruction

/-- The row of an instruction's form stands under its mnemonic. -/
theorem mem_table_of_form? {instruction : Instruction} (canonical : instruction.Canonical)
    {form : Form} (known : instruction.form? = some form) :
    (instruction.mnemonic, form) ∈ Mnemonic.table := by
  have fixed {row : String × Form} (member : row ∈ Mnemonic.fixed) : row ∈ Mnemonic.table :=
    List.mem_append_left _ (List.mem_append_left _ member)
  have family {row : String × Form} (member : row ∈ Mnemonic.families) : row ∈ Mnemonic.table :=
    List.mem_append_right _ member
  cases instruction <;> cases known
  case load target value => exact family (Mnemonic.mem_families.mpr (.inl ⟨target, rfl⟩))
  case copy source destination =>
    exact family (Mnemonic.mem_families.mpr (.inr (.inl ⟨source, destination, canonical, rfl⟩)))
  case swap left right =>
    exact family (Mnemonic.mem_families.mpr (.inr (.inr (.inl ⟨left, right, canonical, rfl⟩))))
  case arithmetic operator register value =>
    exact family (Mnemonic.mem_families.mpr (.inr (.inr (.inr (.inl ⟨operator, register, rfl⟩)))))
  case increment target =>
    exact family (Mnemonic.mem_families.mpr (.inr (.inr (.inr (.inr (.inl ⟨target, rfl⟩))))))
  case decrement target =>
    exact family (Mnemonic.mem_families.mpr (.inr (.inr (.inr (.inr (.inr (.inl ⟨target, rfl⟩)))))))
  case compare register value =>
    exact family (Mnemonic.mem_families.mpr
      (.inr (.inr (.inr (.inr (.inr (.inr (.inl ⟨register, rfl⟩))))))))
  case print target =>
    exact family (Mnemonic.mem_families.mpr
      (.inr (.inr (.inr (.inr (.inr (.inr (.inr ⟨target, rfl⟩))))))))
  case jumpIf condition address =>
    cases condition <;> exact fixed (by simp [Mnemonic.fixed, mnemonic, Condition.mnemonic])
  all_goals exact fixed (by simp [Mnemonic.fixed, mnemonic])

/-- An instruction's mnemonic names its form; that of a learnt one names none. -/
theorem form?_mnemonic {instruction : Instruction} (canonical : instruction.Canonical) :
    Mnemonic.form? instruction.mnemonic = instruction.form? := by
  cases known : instruction.form? with
  | some form => exact Mnemonic.form?_eq_some_of_mem (mem_table_of_form? canonical known)
  | none =>
    cases instruction <;> cases known
    exact Mnemonic.form?_eq_none_iff.mpr canonical

end Instruction

/-! ## Forms -/

namespace Form

/-- Whether every instruction that the form makes has a property. Addresses are words. -/
def Makes (property : Instruction → Prop) : Form → Prop
  | bare instruction => property instruction
  | integer make => ∀ value, property (make value)
  | destination make | distance make => ∀ address < 2 ^ 63, property (make address)
  | name make => ∀ name, property (make name)
  | register make => ∀ register, property (make register)
  | cell make => ∀ address register, property (make address register)
  | file make => ∀ name content, property (make name content)

/-- Whether the form makes the instruction from the instruction's own operand. -/
def Takes (instruction : Instruction) : Form → Prop
  | bare made => instruction = made ∧ instruction.operand = none
  | integer make =>
    ∃ value, instruction = make value ∧ instruction.operand = some (.integer value)
  | destination make | distance make =>
    ∃ address < 2 ^ 63, instruction = make address ∧
      instruction.operand = some (.integer (Int64.ofNat address))
  | name make => ∃ name, instruction = make name ∧ instruction.operand = some (.text name)
  | register make =>
    ∃ register, instruction = make register ∧ instruction.operand = some (.text register.name)
  | cell make =>
    ∃ address register, instruction = make address register ∧
      instruction.operand = some (.cell address register)
  | file make =>
    ∃ name content, instruction = make name content ∧
      instruction.operand = some (.file name content)

end Form

theorem Word.toNat_lt_of_index? {word : Word} {index : Nat} (found : word.index? = some index) :
    index < 2 ^ 63 := by
  rw [Word.index?] at found
  split at found
  · cases found
    have bound := word.toInt_lt
    omega
  · contradiction

theorem Word.index?_ofNat {index : Nat} (bound : index < 2 ^ 63) :
    Word.index? (Int64.ofNat index) = some index := by
  rw [Word.index?, Int64.toInt_ofNat_of_lt bound]
  simp

private theorem Operand.address?_eq_ok {operand : Option Operand} {address : Nat}
    (success : Operand.address? operand = .ok address) : address < 2 ^ 63 := by
  obtain ⟨value, -, success⟩ := bind_eq_ok_iff.mp success
  split at success
  · next index found =>
    cases success
    exact Word.toNat_lt_of_index? found
  · contradiction

namespace Form

theorem Makes.read {property : Instruction → Prop} {form : Form} (makes : form.Makes property)
    {operand : Option Operand} {instruction : Instruction}
    (success : form.read operand = .ok instruction) : property instruction := by
  cases form with
  | bare made =>
    cases success
    exact makes
  | destination make | distance make =>
    obtain ⟨address, found, rfl⟩ := map_eq_ok_iff.mp success
    exact makes address (Operand.address?_eq_ok found)
  | integer make | name make | register make =>
    obtain ⟨value, -, rfl⟩ := map_eq_ok_iff.mp success
    exact makes value
  | cell make | file make =>
    obtain ⟨value, -, rfl⟩ := map_eq_ok_iff.mp success
    exact makes value.1 value.2

private theorem Takes.read {form : Form} {instruction : Instruction}
    (takes : form.Takes instruction) :
    form.read instruction.operand = .ok instruction := by
  cases form with
  | bare made =>
    obtain ⟨rfl, -⟩ := takes
    rfl
  | integer make =>
    obtain ⟨value, same, operand⟩ := takes
    rw [operand, same]
    rfl
  | destination make | distance make =>
    obtain ⟨address, bound, same, operand⟩ := takes
    rw [operand, same]
    simp only [Form.read, Operand.address?, Operand.integer?, bind, Except.bind,
      Word.index?_ofNat bound]
    rfl
  | name make =>
    obtain ⟨name, same, operand⟩ := takes
    rw [operand, same]
    rfl
  | register make =>
    obtain ⟨register, same, operand⟩ := takes
    rw [operand, same]
    simp only [Form.read, Operand.register?, Operand.name?, bind, Except.bind,
      Register.ofName?_name]
    rfl
  | cell make =>
    obtain ⟨address, register, same, operand⟩ := takes
    rw [operand, same]
    rfl
  | file make =>
    obtain ⟨name, content, same, operand⟩ := takes
    rw [operand, same]
    rfl

end Form

namespace Instruction

/-- The form of an instruction takes its operand. -/
theorem takes_of_form? {instruction : Instruction} (canonical : instruction.Canonical)
    {form : Form} (known : instruction.form? = some form) : form.Takes instruction := by
  cases instruction <;> cases known
  case setIp address => exact ⟨address, canonical, rfl, rfl⟩
  case jump address => exact ⟨address, canonical, rfl, rfl⟩
  case jumpIf condition address => exact ⟨address, canonical, rfl, rfl⟩
  case skip address => exact ⟨address, canonical, rfl, rfl⟩
  case storeCell address register => exact ⟨address, register, rfl, rfl⟩
  case loadCell address register => exact ⟨address, register, rfl, rfl⟩
  case writeFile name content => exact ⟨name, content, rfl, rfl⟩
  all_goals first | exact ⟨rfl, rfl⟩ | exact ⟨_, rfl, rfl⟩

/-- A canonical instruction is decoded from its own mnemonic and operand. -/
theorem decode_mnemonic_operand {instruction : Instruction} (canonical : instruction.Canonical) :
    decode instruction.mnemonic instruction.operand = .ok instruction := by
  rw [decode, form?_mnemonic canonical]
  cases known : instruction.form? with
  | some form => simp only [(takes_of_form? canonical known).read, Except.mapError]
  | none =>
    cases instruction <;> cases known
    rfl

end Instruction

namespace Mnemonic

/-- Every row makes canonical instructions of its own form. -/
theorem table_makes {row : String × Form} (member : row ∈ table) :
    row.2.Makes fun instruction => instruction.Canonical ∧ instruction.form? = some row.2 := by
  rcases List.mem_append.mp member with alone | family
  · have rows : ∀ row ∈ fixed ++ aliases, row.2.Makes fun instruction =>
        instruction.Canonical ∧ instruction.form? = some row.2 := by
      simp only [fixed, aliases, List.cons_append, List.nil_append, List.forall_mem_cons]
      simp [Form.Makes, Instruction.Canonical, Instruction.form?]
    exact rows row alone
  · rcases mem_families.mp family with ⟨_, rfl⟩ | ⟨_, _, distinct, rfl⟩ | ⟨_, _, distinct, rfl⟩ |
      ⟨_, _, rfl⟩ | ⟨_, rfl⟩ | ⟨_, rfl⟩ | ⟨_, rfl⟩ | ⟨_, rfl⟩
    · exact fun _ => ⟨trivial, rfl⟩
    · exact ⟨distinct, rfl⟩
    · exact ⟨distinct, rfl⟩
    · exact fun _ => ⟨trivial, rfl⟩
    · exact ⟨trivial, rfl⟩
    · exact ⟨trivial, rfl⟩
    · exact fun _ => ⟨trivial, rfl⟩
    · exact ⟨trivial, rfl⟩

end Mnemonic

namespace Instruction

/-- Decoding under a built-in mnemonic gives a canonical instruction of the mnemonic's form. -/
theorem of_decode_form {name : String} {form : Form} (known : Mnemonic.form? name = some form)
    {operand : Option Operand} {instruction : Instruction}
    (success : form.read operand = .ok instruction) :
    instruction.Canonical ∧ instruction.form? = some form :=
  (Mnemonic.table_makes (mem_of_lookup known)).read success

/-- Whatever is decoded is canonical. -/
theorem canonical_of_decode {name : String} {operand : Option Operand} {instruction : Instruction}
    (success : decode name operand = .ok instruction) : instruction.Canonical := by
  rw [decode] at success
  split at success
  · next form known =>
    exact (of_decode_form known (mapError_eq_ok_iff.mp success)).1
  · next unknown =>
    cases success
    exact Mnemonic.form?_eq_none_iff.mp unknown

/-- The canonical instructions are those that their own mnemonic and operand stand for. -/
theorem decode_eq_ok_iff_canonical {instruction : Instruction} :
    decode instruction.mnemonic instruction.operand = .ok instruction ↔ instruction.Canonical :=
  ⟨canonical_of_decode, decode_mnemonic_operand⟩

end Instruction

end RegisterMachine
