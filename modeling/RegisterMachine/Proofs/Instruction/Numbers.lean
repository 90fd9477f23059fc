import RegisterMachine.Proofs.Instruction.Recognition
import RegisterMachine.Proofs.Text.Numeral

/-! # Numbers and their numerals as operands

An operand may give a number as such or as its decimal numeral. Every built-in mnemonic takes the
two alike: a value, an address or a distance is what the numeral names, a name is the numeral
itself, and where a number does not suit the mnemonic, its numeral is refused in the same words.
-/

namespace RegisterMachine

/-! ## Numerals -/

namespace Text

/-- The characters of ASCII from the space to the tilde are printable. -/
theorem isPrintable_of_ascii {c : Char} (low : 32 ≤ c.toNat) (high : c.toNat ≤ 126) :
    isPrintable c = true := by
  have outside : ∀ range ∈ hiddenRanges, range.2 < 32 ∨ 126 < range.1 := by decide +kernel
  rw [isPrintable, Bool.not_eq_true', List.any_eq_false]
  intro range member hidden
  rw [Bool.and_eq_true, decide_eq_true_eq, decide_eq_true_eq] at hidden
  have apart := outside range member
  omega

/-- Letters, digits and signs need no escape in quotes. -/
theorem encodeQuotedChar_of_isAlphanum {c : Char} (plain : c = '-' ∨ c.isAlphanum = true) :
    encodeQuotedChar c = [c] := by
  have range : c.toNat = 45 ∨ 48 ≤ c.toNat ∧ c.toNat ≤ 122 ∧ c.toNat ≠ 92 := by
    rcases plain with rfl | plain
    · exact .inl rfl
    · have range := toNat_of_isAlphanum plain
      omega
  have apart (other : Char) (differ : c.toNat ≠ other.toNat) : (c == other) = false := by
    rw [beq_eq_false_iff_ne]
    rintro rfl
    exact differ rfl
  have printable : isPrintable c = true := isPrintable_of_ascii (by omega) (by omega)
  rw [encodeQuotedChar, apart '"' (show c.toNat ≠ 34 by omega),
    apart '\\' (show c.toNat ≠ 92 by omega), apart '\n' (show c.toNat ≠ 10 by omega),
    apart '\r' (show c.toNat ≠ 13 by omega), apart '\t' (show c.toNat ≠ 9 by omega),
    beq_eq_false_iff_ne.mpr (show c.toNat ≠ 0 by omega), printable]
  rfl

/-- A numeral is quoted as it is. -/
theorem quoted_toString (value : Word) :
    quoted (toString value) = "\"" ++ toString value ++ "\"" := by
  have whole : (toString value).toList.flatMap encodeQuotedChar = (toString value).toList := by
    have plain : ∀ c ∈ (toString value).toList, encodeQuotedChar c = [c] :=
      fun c member => encodeQuotedChar_of_isAlphanum (numeral_of_mem_toString member)
    rw [List.flatMap_congr plain, List.flatMap_singleton']
  rw [quoted, whole, ← String.toList_inj, String.toList_ofList]
  rw [String.toList_append, String.toList_append]
  rfl

end Text

private theorem Register.ofName?_toString (value : Word) :
    Register.ofName? (toString value) = none := by
  cases named : Register.ofName? (toString value) with
  | none => rfl
  | some register =>
    have numeral := Text.word?_toString value
    rw [Register.name_of_ofName? named] at numeral
    cases register <;> contradiction

/-! ## Operands -/

namespace Operand

private theorem integer?_numeral (value : Word) :
    integer? (some (.text (toString value))) = .ok value := by
  have phrase := Text.isPhrase_of_isWord (Text.isWord_toString value)
  rw [integer?, Text.trim_of_isPhrase phrase, Text.word?_toString]

private theorem address?_integer (value : Word) :
    (address? (some (.integer value))).mapError OperandProblem.reason =
      if 0 ≤ value then .ok value.toInt.toNat else .error s!"negative address {value}" := by
  have index : value.index? = if 0 ≤ value then some value.toInt.toNat else none := by
    simp only [Word.index?, Int64.le_iff_toInt_le, Int64.toInt_zero]
  rw [address?, integer?]
  simp only [bind, Except.bind, index]
  split_ifs <;> rfl

private theorem register?_integer (value : Word) :
    (register? (some (.integer value))).mapError OperandProblem.reason =
      .error s!"unknown register \"{value}\"" := by
  have unknown : register? (some (.integer value)) =
      .error (.unknownRegister (toString value)) := by
    simp only [register?, name?, bind, Except.bind, Register.ofName?_toString]
  have reason : "unknown register " ++ Text.quoted (toString value) =
      "unknown register \"" ++ toString value ++ "\"" := by
    rw [Text.quoted_toString, ← String.append_assoc, ← String.append_assoc]
    rfl
  rw [unknown]
  exact congrArg Except.error reason

end Operand

namespace Form

/-- What a form makes of a number, or why it refuses it. -/
def ofNumber (value : Word) : Form → Except String Instruction
  | bare instruction => .ok instruction
  | integer make => .ok (make value)
  | destination make | distance make =>
    if 0 ≤ value then .ok (make value.toInt.toNat) else .error s!"negative address {value}"
  | name make => .ok (make (toString value))
  | register _ => .error s!"unknown register \"{value}\""
  | cell _ => .error "expected \x7baddr, reg\x7d"
  | file _ => .error "expected \x7bname, content\x7d"

/-- A form reads a numeral as the number that it names. -/
theorem read_numeral (form : Form) (value : Word) :
    form.read (some (.text (toString value))) = form.read (some (.integer value)) := by
  have address : Operand.address? (some (.text (toString value))) =
      Operand.address? (some (.integer value)) := by
    rw [Operand.address?, Operand.integer?_numeral]
    rfl
  cases form with
  | integer make => rw [read, Operand.integer?_numeral]; rfl
  | destination make | distance make => rw [read, address]; rfl
  | bare instruction => rfl
  | name make => rfl
  | register make => rfl
  | cell make => rfl
  | file make => rfl

private theorem read_number (form : Form) (value : Word) :
    (form.read (some (.integer value))).mapError OperandProblem.reason = form.ofNumber value := by
  cases form with
  | destination make | distance make =>
    rw [read, mapError_map, Operand.address?_integer, ofNumber]
    split <;> rfl
  | register make => rw [read, mapError_map, Operand.register?_integer, ofNumber]; rfl
  | bare instruction => rfl
  | integer make => rfl
  | name make => rfl
  | cell make => rfl
  | file make => rfl

end Form

namespace Instruction

open Mnemonic

/-- Numbers and their decimal numerals are interchangeable as operands of built-in mnemonics.

Decoding makes the same instruction of both or refuses both with the same error. What it makes, and
the words in which it refuses, depend on the form of the mnemonic alone. Under any other name the
operand is kept as it was given. -/
theorem decode_number (name : String) (value : Word) :
    let number := decode name (some (.integer value))
    let numeral := decode name (some (.text (toString value)))
    (BuiltIn name → number = numeral ∧ ∃ form, Mnemonic.form? name = some form ∧
      number.mapError DecodeError.message = (form.ofNumber value).mapError fun reason =>
        s!"invalid operand for {name}: {reason}") ∧
    (¬BuiltIn name →
      number = .ok (.other name (some (.integer value))) ∧
      numeral = .ok (.other name (some (.text (toString value))))) := by
  refine ⟨fun builtIn => ?_, fun foreign => ⟨?_, ?_⟩⟩
  · obtain ⟨form, known⟩ := exists_form?_of_builtIn builtIn
    have same := form.read_numeral value
    have result := form.read_number value
    simp only [decode, known, same, true_and]
    refine ⟨form, rfl, ?_⟩
    rw [← result]
    cases form.read (some (.integer value)) <;> rfl
  · exact decode_of_not_builtIn foreign _
  · exact decode_of_not_builtIn foreign _

/-- The least word as an address, as a name and behind a name that is not built in. -/
theorem decode_number_samples :
    let least : Word := Int64.minValue
    let numeral := Operand.text "-9223372036854775808"
    (BuiltIn "jmp" ∧ decode "jmp" (some (.integer least)) = decode "jmp" (some numeral) ∧
      (decode "jmp" (some (.integer least))).mapError DecodeError.message =
        .error "invalid operand for jmp: negative address -9223372036854775808") ∧
    (BuiltIn "cd" ∧ decode "cd" (some (.integer least)) = decode "cd" (some numeral)) ∧
    (¬BuiltIn "cmpsp" ∧ decode "cmpsp" (some numeral) = .ok (.other "cmpsp" (some numeral))) := by
  intro least numeral
  have written : toString least = "-9223372036854775808" := by decide
  have jump : BuiltIn "jmp" := by decide +kernel
  have change : BuiltIn "cd" := by decide +kernel
  have foreign : ¬BuiltIn "cmpsp" := by decide +kernel
  have jumped := (decode_number "jmp" least).1 jump
  have changed := (decode_number "cd" least).1 change
  have kept := (decode_number "cmpsp" least).2 foreign
  rw [written] at jumped changed kept
  obtain ⟨same, form, known, refused⟩ := jumped
  obtain rfl : .destination .jump = form := Option.some.inj known
  exact ⟨⟨jump, same, refused⟩, ⟨change, changed.1⟩, foreign, kept.2⟩

end Instruction

end RegisterMachine
