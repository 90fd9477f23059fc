import RegisterMachine.Program
import RegisterMachine.Proofs.Instruction.Canonical
import RegisterMachine.Proofs.Json.Value

/-! # Instructions on the wire

An instruction is read back from its JSON text by decoding its own mnemonic and operand, whatever
strings it carries. It is therefore read back as itself exactly when it is canonical, and so is
every program of canonical instructions.
-/

namespace RegisterMachine

open Json

/-! ## Operands -/

namespace Operand

private theorem exact_toJson (operand : Operand) (depth : Nat) :
    operand.toJson.Exact (depth + 1) := by
  have word (value : Word) :
      -0x8000000000000000 ≤ value.toInt ∧ value.toInt < 0x10000000000000000 := by
    have low := value.le_toInt
    have high := value.toInt_lt
    omega
  cases operand with
  | integer value => exact word value
  | text text => trivial
  | cell address register =>
    simp only [toJson, Value.Exact, List.forall_mem_cons]
    exact ⟨by cases depth <;> exact word address, by cases depth <;> trivial, by simp⟩
  | file name content =>
    simp only [toJson, Value.Exact, List.forall_mem_cons]
    exact ⟨by cases depth <;> trivial, by cases depth <;> trivial, by simp⟩

/-- The JSON form of an operand has no other shape than the operand's. -/
theorem ofJson?_toJson (operand : Operand) : ofJson? operand.toJson = some operand := by
  have word (value : Word) : Word.ofInt? value.toInt = some value := Word.ofInt?_eq_some_iff.mpr rfl
  cases operand with
  | integer value => simp only [toJson, ofJson?, word, Option.map_some]
  | text text => rfl
  | cell address register =>
    have cell : cellOfMembers? [("addr", .integer address.toInt), ("reg", .text register.name)] =
        some (.cell address register) := by
      simp [cellOfMembers?, onlyMember?, word, Register.ofJson?, Register.ofName?_name]
    simp only [toJson, ofJson?, cell, Option.some_or]
  | file name content =>
    rfl

/-- An operand is read back from its compact form. -/
theorem reader_toJson (depth : Nat) (operand : Operand) {rest : List Char}
    (ends : EndsNumber rest) :
    reader (depth + 1) (operand.toJson.write ++ rest) = .ok (operand, rest) := by
  simp only [reader, value_write (operand.exact_toJson depth) ends, bind, Except.bind,
    ofJson?_toJson]
  rfl

end Operand

/-! ## Instructions -/

namespace Instruction

private theorem member_mnemonic (depth : Nat) (mnemonic : String) (rest : List Char) :
    member depth {} (writtenMember ("op", .text mnemonic) ++ rest) =
      .ok (⟨some mnemonic, none⟩, rest) := by
  rw [writtenMember, Value.write, List.append_assoc, List.cons_append, member, key_encodeText]
  simp only [bind, Except.bind, beq_self_eq_true, if_true, Option.isSome_none, Bool.false_eq_true,
    if_false, mark_colon, string_encodeText]
  rfl

private theorem member_operand (depth : Nat) (mnemonic : String) (operand : Operand)
    {rest : List Char} (ends : EndsNumber rest) :
    member (depth + 1) ⟨some mnemonic, none⟩ (writtenMember ("arg", operand.toJson) ++ rest) =
      .ok (⟨some mnemonic, some (some operand)⟩, rest) := by
  have present : operand.toJson ≠ .null := by cases operand <;> simp [Operand.toJson]
  have read := nullable_write (operand.exact_toJson depth) present
    (Operand.reader_toJson depth operand ends)
  rw [writtenMember, List.append_assoc, List.cons_append, member, key_encodeText]
  simp only [bind, Except.bind, mark_colon, read]
  rfl

def writtenMembers (instruction : Instruction) : List (List Char) :=
  writtenMember ("op", .text instruction.mnemonic) ::
    instruction.operand.toList.map fun operand => writtenMember ("arg", operand.toJson)

private theorem write_toJson (instruction : Instruction) :
    instruction.toJson.write = '\x7b' :: (joined instruction.writtenMembers ++ ['\x7d']) := by
  rw [toJson, writtenMembers]
  cases instruction.operand <;> exact write_object _

/-- The members of an instruction give its mnemonic and operand. -/
theorem consumes_writtenMembers (depth : Nat) (instruction : Instruction) :
    Consumes (member (depth + 1)) {} instruction.writtenMembers
      ⟨some instruction.mnemonic, instruction.operand.map some⟩ := by
  refine .cons (fun rest _ => member_mnemonic (depth + 1) instruction.mnemonic rest) ?_
  cases instruction.operand with
  | none => exact .nil _
  | some operand =>
    exact .cons (fun rest ends => member_operand depth instruction.mnemonic operand ends) (.nil _)

/-- An instruction's text is read as the instruction's mnemonic and operand. -/
theorem structured_toJson (depth : Nat) (instruction : Instruction) (rest : List Char) :
    structured "struct RawInstruction" (fromArray (depth + 1)) (fromObject (depth + 1))
      (instruction.toJson.write ++ rest) =
        .ok ((instruction.mnemonic, instruction.operand), rest) := by
  have opens : ∀ text ∈ instruction.writtenMembers, text.head? = some '"' := by
    rw [writtenMembers, List.forall_mem_cons, List.forall_mem_map]
    exact ⟨rfl, fun _ _ => rfl⟩
  rw [write_toJson, structured, List.cons_append, skipSpace_cons (by decide)]
  simp only [List.append_assoc, List.cons_append, List.nil_append, fromObject,
    members_joined (consumes_writtenMembers depth instruction) opens rest, bind, Except.bind]
  cases instruction.operand <;> rfl

/-- An instruction's text is read as whatever its mnemonic and operand stand for. -/
theorem reader_toJson (depth : Nat) (instruction : Instruction) (rest : List Char) :
    reader (depth + 1) (instruction.toJson.write ++ rest) =
      match decode instruction.mnemonic instruction.operand with
      | .ok read => .ok (read, rest)
      | .error error => .error (.refused error.message) := by
  rw [reader, structured_toJson]
  rfl

private theorem ofJsonText_compact (instruction : Instruction) :
    ofJsonText instruction.toJson.compact =
      (decode instruction.mnemonic instruction.operand).mapError fun error =>
        .refused error.message := by
  have read := reader_toJson 125 instruction []
  rw [List.append_nil] at read
  rw [ofJsonText, Value.compact, String.toList_ofList, whole]
  simp only [maximalDepth, read, bind, Except.bind]
  cases decode instruction.mnemonic instruction.operand <;> rfl

end Instruction

/-! ## Programs -/

namespace Program

private theorem instruction_toJson {instruction : Instruction} (canonical : instruction.Canonical)
    (read : List Instruction) (rest : List Char) :
    Program.instruction read (instruction.toJson.write ++ rest) =
      .ok (instruction :: read, rest) := by
  have reads := Instruction.reader_toJson 124 instruction rest
  rw [Instruction.decode_mnemonic_operand canonical] at reads
  simp only [Program.instruction, maximalDepth, reads, bind, Except.bind]
  rfl

/-- The compact text of a program of canonical instructions is read back as the program. -/
theorem ofJsonText_compact {program : List Instruction}
    (canonical : ∀ instruction ∈ program, instruction.Canonical) :
    ofJsonText (Value.array (program.map Instruction.toJson)).compact = .ok program := by
  have opens : ∀ text ∈ (program.map Instruction.toJson).map Value.write, OpensItem text := by
    intro text member
    simp only [List.map_map, List.mem_map, Function.comp_apply] at member
    obtain ⟨instruction, -, rfl⟩ := member
    exact ⟨'\x7b', _, instruction.write_toJson, by decide, by decide⟩
  have consumes : Consumes Program.instruction [] ((program.map Instruction.toJson).map Value.write)
      (program.foldl (fun read instruction => instruction :: read) []) := by
    rw [List.map_map]
    exact consumes_map _ (fun instruction member read rest _ =>
      instruction_toJson (canonical instruction member) read rest) []
  rw [ofJsonText, Value.compact, String.toList_ofList, whole, write_array, reader,
    skipSpace_cons (by decide)]
  simp only [items_joined consumes opens [], bind, Except.bind, foldl_cons_reverse]
  rfl

private theorem ofText_array (items : List Value) :
    ofText (Value.array items).compact = ofJsonText (Value.array items).compact := by
  rw [ofText, Value.compact, String.toList_ofList, write_array]
  rfl

end Program

/-- The JSON text of an instruction gives the instruction back exactly when it is canonical. All
that is decoded is canonical, and so a decoded program is given back by its JSON text. -/
theorem wire_round_trip :
    (∀ instruction : Instruction,
      Instruction.ofJsonText instruction.toJson.compact = .ok instruction ↔
        instruction.Canonical) ∧
    (∀ (mnemonic : String) (operand : Option Operand) (instruction : Instruction),
      Instruction.decode mnemonic operand = .ok instruction → instruction.Canonical) ∧
    (∀ program : List Instruction,
      (∀ instruction ∈ program, ∃ mnemonic operand,
        Instruction.decode mnemonic operand = .ok instruction) →
      Program.ofJsonText (Value.array (program.map Instruction.toJson)).compact = .ok program ∧
      Program.ofText (Value.array (program.map Instruction.toJson)).compact = .ok program) := by
  refine ⟨fun instruction => ?_, fun _ _ _ => Instruction.canonical_of_decode, ?_⟩
  · rw [Instruction.ofJsonText_compact, mapError_eq_ok_iff]
    exact Instruction.decode_eq_ok_iff_canonical
  · intro program decoded
    have canonical : ∀ instruction ∈ program, instruction.Canonical := by
      intro instruction member
      obtain ⟨mnemonic, operand, success⟩ := decoded instruction member
      exact Instruction.canonical_of_decode success
    rw [Program.ofText_array, Program.ofJsonText_compact canonical]
    exact ⟨rfl, rfl⟩

/-- A program with quotes in its strings is given back; a copy of a register onto itself is not. -/
theorem wire_round_trip_samples :
    Program.ofText (Value.array ([.writeFile "a" "say \"hi\"\n", .jump 7].map
      Instruction.toJson)).compact = .ok [.writeFile "a" "say \"hi\"\n", .jump 7] ∧
    Instruction.ofJsonText (Instruction.copy .ax .ax).toJson.compact ≠ .ok (.copy .ax .ax) := by
  constructor
  · refine (wire_round_trip.2.2 _ ?_).2
    simp only [List.forall_mem_cons]
    exact ⟨⟨"write", some (.file "a" "say \"hi\"\n"), rfl⟩, ⟨"jmp", some (.integer 7), rfl⟩,
      List.forall_mem_nil _⟩
  · rw [ne_eq, wire_round_trip.1]
    exact fun distinct => distinct rfl

end RegisterMachine
