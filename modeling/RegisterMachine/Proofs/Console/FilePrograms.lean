import RegisterMachine.Proofs.Console.Reached
import RegisterMachine.Proofs.Listing.Expressible
import RegisterMachine.Proofs.Machine.Drivers

/-! # File operations as commands and as programs

A file operation can be asked for by a command and by the program of its one instruction. The two
are read by different rules: a command's text is cut at its first blanks, while a program's line is
cut at marks outside of quotes and read word by word. For names that listings can hold, and for
contents in quotes, both come to the same operation, and with that to the same tree.
-/

namespace RegisterMachine

open Text

/-! ## Programs of one line -/

namespace Program

/-- A text that begins with a word which opens no array is a listing. -/
theorem ofText_append {source : String} {word rest : List Char} (isWord : IsWord word)
    (plain : word.head? ≠ some '[') (characters : source.toList = word ++ rest) :
    ofText source = ofListing source := by
  rw [ofText, characters, trimStart_append isWord]
  split
  · next opened =>
    cases word with
    | nil => exact absurd rfl isWord.1
    | cons c others =>
      cases opened
      exact absurd rfl plain
  · rfl

end Program

namespace Listing

/-- A line of one statement is the program of the instruction that the statement is read as. -/
theorem assemble_line {source : String} {statement : Statement} {instruction : Instruction}
    (isLine : IsLine source.toList) (one : IsOneStatement source.toList)
    (chunk : Section.ofChunk 1 source.toList = ⟨1, [], some statement⟩)
    (read : statement.instruction (fun _ => none) = .ok instruction) :
    assemble source = .ok [instruction] := by
  have line : lines source.toList = [source.toList] := by
    have joined := lines_intercalate (List.forall_mem_singleton.mpr isLine)
    rwa [List.intercalate_singleton] at joined
  have sections_eq : sections source.toList = [⟨1, [], some statement⟩] := by
    rw [sections, line, List.zipIdx_singleton, List.flatMap_singleton]
    dsimp only
    rw [chunks_eq_singleton one, List.map_singleton, chunk]
  rw [assemble, sections_eq]
  show [statement].mapM (Statement.instruction fun _ => none) = _
  rw [mapM_eq_ok_iff]
  exact .cons read .nil

private theorem toList_write (name content : String) :
    s!"write {name} \"{content}\"".toList =
      "write".toList ++ ' ' :: (name.toList ++ ' ' :: '"' :: (content.toList ++ ['"'])) := by
  simp [String.toList_append, toString]

/-- A statement that writes a content in quotes is read as the instruction that writes it. -/
theorem instruction_write {name content : String} (isWord : IsWord name.toList) (line : Nat)
    {rest : List Char}
    (same : rest = trim (name.toList ++ ' ' :: '"' :: (content.toList ++ ['"']))) :
    Statement.instruction (fun _ => none) ⟨line, "write", rest⟩ =
      .ok (.writeFile name content) := by
  have read := fileOperand_append isWord (show (Statement.mk line "write" rest).rest = _ from same)
  rw [trim_quoted, unquote?_quoted, Option.getD_some, String.ofList_toList,
    String.ofList_toList] at read
  have operand : Statement.operand (fun _ => none) ⟨line, "write", rest⟩ =
      .ok (some (.file name content)) := by
    show (fileOperand _).map some = _
    rw [read]
    rfl
  rw [Statement.instruction, operand]
  rfl

/-- A content without quotes and line feeds can be written in quotes. -/
theorem assemble_write {name content : String} (isWord : IsWord name.toList)
    (clean : IsClean name.toList) (free : '"' ∉ content.toList) (oneLine : '\n' ∉ content.toList) :
    assemble s!"write {name} \"{content}\"" = .ok [.writeFile name content] := by
  have verb : IsWord "write".toList := by decide
  have before : IsClean ("write".toList ++ ' ' :: (name.toList ++ [' '])) := by
    obtain ⟨quote, hash, semicolon⟩ := clean
    simp [IsClean, quote, hash, semicolon]
  have one := isOneStatement_quoted before free
  simp only [List.append_assoc, List.cons_append, List.nil_append] at one
  have isLine := isLine_spaced verb (.inr (isLine_spaced isWord (.inr (isLine_quoted oneLine))))
  have chunk := ofChunk_append verb (by decide)
    (endsWord_cons (show isBlank ' ' = true by decide)
      (name.toList ++ ' ' :: '"' :: (content.toList ++ ['"']))) 1
  rw [← toList_write] at one isLine chunk
  exact assemble_line isLine one chunk
    (instruction_write isWord 1 (trim_cons_blank (by decide) _))

/-- The line of an instruction that a listing holds is its program. -/
theorem assemble_written {instruction : Instruction} (listed : instruction.Listed)
    (one : IsOneStatement instruction.written.toList) :
    assemble instruction.written = .ok [instruction] :=
  assemble_line (Instruction.isLine_written listed) one (ofChunk_written listed 1)
    (instruction_statementOf listed 1)

end Listing

/-! ## Runs of one operation -/

open Files (Operation)

section Runs

variable {handlers : Handlers} {core : Core} {machine : Machine} {operation : Operation}
  {files : Files} {answer : Files.Answer} {error : Files.Error}

/-- An instruction that moves on ends the program that has no other. -/
theorem Core.run_singleton {instruction : Instruction} {stepped : Core} {fault : Option Fault}
    (running : core.cpu.halted = false) (fuel : core.config.fuel ≠ some 0)
    (dispatched : (core.setIp 0).dispatch handlers instruction = (stepped, fault))
    (moved : stepped.cpu.ip = 1) (goesOn : stepped.cpu.halted = false) :
    core.run handlers [instruction] =
      (stepped.reported 0 fault, ⟨.completed, 1, collect #[] fault⟩) := by
  have enough : [instruction].length ≤ allowance core.config [instruction] := by
    apply length_le_allowance
    intro limit given
    have positive : limit ≠ 0 := fun zero => fuel (zero ▸ given)
    have counted : limit.toNat ≠ (0 : UInt64).toNat := mt UInt64.toNat_inj.mp positive
    exact Nat.one_le_iff_ne_zero.mpr counted
  obtain ⟨left, spent⟩ := Nat.exists_eq_add_of_le' enough
  have start : (core.setIp 0).cpu.halted = false := running
  have fetched : [instruction].toArray[(core.setIp 0).cpu.ip]? = some instruction := rfl
  rw [run, spent, List.length_singleton, runFrom_turn start fetched, dispatched]
  apply runFrom_of_ended
  · rw [cpu_reported, goesOn]
  · rw [cpu_reported, moved]
    rfl

private theorem Machine.execute_singleton {instruction : Instruction} {stepped : Core}
    {fault : Option Fault} (running : machine.core.cpu.halted = false)
    (fuel : machine.core.config.fuel ≠ some 0)
    (dispatched : (machine.core.setIp 0).dispatch machine.handlers instruction = (stepped, fault))
    (moved : stepped.cpu.ip = 1) (goesOn : stepped.cpu.halted = false) :
    machine.execute [instruction] =
      ({ machine with core := stepped.reported 0 fault },
        ⟨.completed, 1, collect #[] fault⟩) := by
  have ran := Core.run_singleton running fuel dispatched moved goesOn
  exact congrArg (fun ran => ({ machine with core := ran.1 }, ran.2)) ran

private theorem Core.apply_instruction (handlers : Handlers) (core : Core) (operation : Operation) :
    core.apply handlers operation.instruction = core.step operation.instruction := by
  apply apply_of_unlearnt
  cases operation <;> rfl

/-- The program of an operation that succeeds takes over the tree and prints what it has to say. -/
theorem Machine.execute_of_performed (running : machine.core.cpu.halted = false)
    (fuel : machine.core.config.fuel ≠ some 0)
    (performed : machine.core.files.perform operation = .ok (files, answer)) :
    machine.execute [operation.instruction] =
      ({ machine with
        core := { machine.core.setIp 1 with
          files
          output := machine.core.output ++ (machine.core.files.told operation answer).toArray } },
        ⟨.completed, 1, #[]⟩) := by
  have dispatched : (machine.core.setIp 0).dispatch machine.handlers operation.instruction =
      ({ machine.core.setIp 1 with
        files
        output := machine.core.output ++ (machine.core.files.told operation answer).toArray },
        none) := by
    have same : (machine.core.setIp 0).files.perform operation = .ok (files, answer) := performed
    rw [Core.dispatch, Core.apply_instruction, Core.step_instruction, same]
    simp only [Core.emitAll_eq]
    rfl
  exact execute_singleton running fuel dispatched rfl running

/-- The program of an operation that fails reports the error and goes on. -/
theorem Machine.execute_of_refused (running : machine.core.cpu.halted = false)
    (fuel : machine.core.config.fuel ≠ some 0)
    (refused : machine.core.files.perform operation = .error error) :
    machine.execute [operation.instruction] =
      ({ machine with core := (machine.core.setIp 1).report none 0 (.files error) },
        ⟨.completed, 1, #[.files error]⟩) := by
  have dispatched : (machine.core.setIp 0).dispatch machine.handlers operation.instruction =
      (machine.core.setIp 1, some (.files error)) := by
    have same : (machine.core.setIp 0).files.perform operation = .error error := refused
    rw [Core.dispatch, Core.apply_instruction, Core.step_instruction, same]
    rfl
  exact execute_singleton running fuel dispatched rfl running

end Runs

/-! ## Commands and programs -/

namespace Console

variable {machine : Machine} {operation : Operation} {verb : String} {rest : List Char}
  {line : String}

/-- What a command and a program make of the outcome of the file operation that both come to. The
command tells what the operation has to say or fails with its error; the program prints the one or
raises the other as its only fault. -/
inductive SameOutcome (machine : Machine) (operation : Operation) :
    Result → RunReport → List String → List String → Prop
  | done {files : Files} {answer : Files.Answer} (after : Machine)
      (performed : machine.core.files.perform operation = .ok (files, answer)) :
      SameOutcome machine operation (.ok (after, machine.core.files.told operation answer))
        ⟨.completed, 1, #[]⟩
        (machine.core.output.toList ++ machine.core.files.told operation answer)
        (machine.core.output.toList ++ machine.core.files.told operation answer ++
          ["completed after 1 steps"])
  | refused {error : Files.Error} (refused : machine.core.files.perform operation = .error error) :
      SameOutcome machine operation (.error (.files error)) ⟨.completed, 1, #[.files error]⟩
        (machine.core.output.toList ++ [s!"Error: {error.message}"])
        (machine.core.output.toList ++ [s!"fault: {error.message}", "completed after 1 steps"])

private theorem SameOutcome.lines_of_performed {result : Result} {report : RunReport}
    {lines printed : List String} (same : SameOutcome machine operation result report lines printed)
    {files : Files} {answer : Files.Answer}
    (performed : machine.core.files.perform operation = .ok (files, answer)) :
    lines = machine.core.output.toList ++ machine.core.files.told operation answer ∧
      printed = machine.core.output.toList ++ machine.core.files.told operation answer ++
        ["completed after 1 steps"] := by
  cases same with
  | done after other =>
    cases performed.symm.trans other
    exact ⟨rfl, rfl⟩
  | refused refused => cases performed.symm.trans refused

/-- A line that comes to one file operation both as a command and as a program that is run. -/
structure Alike (machine : Machine) (operation : Operation) (line : String) : Prop where
  program : Program.ofText line = .ok [operation.instruction]
  files : (answer machine line).1.core.files = machine.core.files.after operation
  files_run : (answer machine ("run " ++ line)).1.core.files = machine.core.files.after operation
  outcome : ∃ verb rest, firstWord? line.toList = some (verb.toList, rest) ∧
    SameOutcome machine operation (perform machine verb rest)
      (machine.execute [operation.instruction]).2
      (answer machine line).2.lines (answer machine ("run " ++ line)).2.lines

/-- A line that runs a program is answered with what has been printed, the faults and the end of the
run. -/
theorem answer_run (running : machine.core.cpu.halted = false)
    (trimmed : trim line.toList = line.toList) {program : List Instruction}
    (read : Program.ofText line = .ok program) {after : Machine} {report : RunReport}
    (executed : machine.execute program = (after, report)) :
    answer machine ("run " ++ line) =
      (after.withOutput #[], { lines := after.core.output.toList ++
        (report.faults.toList.map fun fault => s!"fault: {fault.message}") ++
        [outcomeLine report] }) := by
  have start : firstWord? ("run " ++ line).toList = some ("run".toList, line.toList) := by
    have split := firstWord?_append (show IsWord "run".toList by decide)
      (endsWord_cons (show isBlank ' ' = true by decide) line.toList)
    rw [trim_cons_blank (by decide), trimmed] at split
    rw [String.toList_append]
    exact split
  have performed : perform machine "run" line.toList =
      .ok (after.withOutput #[], after.core.output.toList ++
        (report.faults.toList.map fun fault => s!"fault: {fault.message}") ++
        [outcomeLine report]) := by
    show run machine (String.ofList line.toList) = _
    rw [String.ofList_toList, run, running, if_neg Bool.false_ne_true, read]
    dsimp only
    rw [executed]
    rfl
  rw [answer_eq start (by decide), performed]
  rfl

private theorem outcomeLine_completed (faults : Array Fault) :
    outcomeLine ⟨.completed, 1, faults⟩ = "completed after 1 steps" := by
  show s!"completed after {1} steps" = _
  rfl

/-- A line that is read as one file operation both ways comes to it both ways. -/
theorem alike (running : machine.core.cpu.halted = false) (fuel : machine.core.config.fuel ≠ some 0)
    (start : firstWord? line.toList = some (verb.toList, rest))
    (asked : fileOperation? verb rest = some operation)
    (program : Program.ofText line = .ok [operation.instruction])
    (trimmed : trim line.toList = line.toList) : Alike machine operation line := by
  have other : verb ≠ "clear" := by
    rintro rfl
    contradiction
  have commanded := perform_of_fileOperation machine asked
  have answered : answer machine line = _ := answer_eq start other
  cases performed : machine.core.files.perform operation with
  | ok done =>
    obtain ⟨files, said⟩ := done
    have after : machine.core.files.after operation = files := by rw [Files.after, performed]
    have executed := Machine.execute_of_performed running fuel performed
    have ran := answer_run running trimmed program executed
    rw [performed] at commanded
    rw [commanded] at answered
    refine ⟨program, ?_, ?_, verb, rest, start, ?_⟩
    · rw [answered, after]
      rfl
    · rw [ran, after]
      rfl
    · rw [commanded, executed, answered, ran, outcomeLine_completed]
      simp only [Array.toList_append, List.map_nil, List.append_nil]
      exact .done _ performed
  | error error =>
    have after : machine.core.files.after operation = machine.core.files := by
      rw [Files.after, performed]
    have executed := Machine.execute_of_refused running fuel performed
    have ran := answer_run running trimmed program executed
    rw [performed] at commanded
    rw [commanded] at answered
    refine ⟨program, ?_, ?_, verb, rest, start, ?_⟩
    · rw [answered, after]
      rfl
    · rw [ran, after]
      rfl
    · rw [commanded, executed, answered, ran, outcomeLine_completed]
      simp only [List.append_assoc]
      exact .refused performed

/-! ## Names -/

/-- The verbs that are followed by a name, with their operations. -/
def nameVerbs : List (String × (String → Operation)) :=
  [("mkdir", .makeDirectory), ("cd", .changeDirectory), ("rm", .remove), ("read", .read)]

section Names

variable {make : String → Operation} (member : (verb, make) ∈ nameVerbs)

include member

/-- A verb is a word that opens no array. -/
theorem isWord_of_nameVerb : IsWord verb.toList ∧ verb.toList.head? ≠ some '[' := by
  have all : ∀ entry ∈ nameVerbs, IsWord entry.1.toList ∧ entry.1.toList.head? ≠ some '[' := by
    decide
  exact all _ member

private theorem fileOperation?_name (rest : List Char) :
    fileOperation? verb rest = some (make (String.ofList rest)) := by
  simp only [nameVerbs, List.mem_cons, List.not_mem_nil, or_false, Prod.mk.injEq] at member
  rcases member with ⟨rfl, rfl⟩ | ⟨rfl, rfl⟩ | ⟨rfl, rfl⟩ | ⟨rfl, rfl⟩ <;> rfl

/-- The instruction of a verb and a name is written as the command. -/
theorem instruction_name (name : String) :
    (make name).instruction.written = s!"{verb} {name}" ∧
      (make name).instruction.Canonical ∧
      ((make name).instruction.TextSafe ↔ IsPhrase name.toList ∧ Listing.IsClean name.toList) := by
  simp only [nameVerbs, List.mem_cons, List.not_mem_nil, or_false, Prod.mk.injEq] at member
  rcases member with ⟨rfl, rfl⟩ | ⟨rfl, rfl⟩ | ⟨rfl, rfl⟩ | ⟨rfl, rfl⟩ <;>
    exact ⟨rfl, trivial, Iff.rfl⟩

/-- A verb and a name are read alike by the console and as a listing. -/
theorem alike_name (running : machine.core.cpu.halted = false)
    (fuel : machine.core.config.fuel ≠ some 0) {name : String} (phrase : IsPhrase name.toList)
    (clean : Listing.IsClean name.toList) : Alike machine (make name) s!"{verb} {name}" := by
  obtain ⟨isWord, plain⟩ := isWord_of_nameVerb member
  obtain ⟨written, canonical, safe⟩ := instruction_name member name
  replace safe := safe.mpr ⟨phrase, clean⟩
  have characters : s!"{verb} {name}".toList = verb.toList ++ ' ' :: name.toList :=
    Listing.toList_spaced verb name
  apply alike running fuel
  · show firstWord? s!"{verb} {name}".toList = some (verb.toList, name.toList)
    rw [characters, firstWord?_append isWord (endsWord_cons (by decide) _),
      trim_cons_blank (by decide), trim_of_isPhrase phrase]
  · rw [fileOperation?_name member, String.ofList_toList]
  · have assembled := Listing.assemble_written ⟨canonical, safe.spelled⟩
      (safe.isOneStatement canonical)
    rw [written] at assembled
    rw [Program.ofText_append isWord plain characters, Program.ofListing, assembled]
    rfl
  · rw [characters, trim_of_isPhrase (isPhrase_spaced isWord phrase)]

end Names

/-! ## Contents in quotes -/

private theorem fileOperation?_write (given : rest ≠ []) :
    fileOperation? "write" rest =
      let content := trimStart (fromBlank rest)
      some (.write (String.ofList (beforeBlank rest))
        (String.ofList ((Listing.unquote? content).getD content))) := by
  cases rest with
  | nil => contradiction
  | cons first others => rfl

/-- A name and a content in quotes are read alike by the console and as a listing. -/
theorem alike_write (running : machine.core.cpu.halted = false)
    (fuel : machine.core.config.fuel ≠ some 0) {name content : String} (isWord : IsWord name.toList)
    (clean : Listing.IsClean name.toList) (free : '"' ∉ content.toList)
    (oneLine : '\n' ∉ content.toList) :
    Alike machine (.write name content) s!"write {name} \"{content}\"" := by
  have verb : IsWord "write".toList := by decide
  have space (text : List Char) : EndsWord (' ' :: text) := endsWord_cons (by decide) text
  have ends (text : List Char) : trimEnd (text ++ ['"']) = text ++ ['"'] :=
    trimEnd_of_solid (by decide) text
  have trimmed : trim (name.toList ++ ' ' :: '"' :: (content.toList ++ ['"'])) =
      name.toList ++ ' ' :: '"' :: (content.toList ++ ['"']) := by
    rw [trim_append isWord, ← List.cons_append, ← List.cons_append, ends]
  apply alike running fuel
  · show firstWord? s!"write {name} \"{content}\"".toList = some ("write".toList, _)
    rw [Listing.toList_write, firstWord?_append verb (space _), trim_cons_blank (by decide),
      trimmed]
  · have opened : trimStart (' ' :: '"' :: (content.toList ++ ['"'])) =
        '"' :: (content.toList ++ ['"']) := rfl
    rw [fileOperation?_write (by simp), beforeBlank_append isWord (space _),
      fromBlank_append isWord (space _), opened]
    dsimp only
    rw [Listing.unquote?_quoted, Option.getD_some, String.ofList_toList, String.ofList_toList]
  · rw [Program.ofText_append verb (by decide) (Listing.toList_write name content),
      Program.ofListing, Listing.assemble_write isWord clean free oneLine]
    rfl
  · have tail : ' ' :: (name.toList ++ ' ' :: '"' :: (content.toList ++ ['"'])) =
        (' ' :: (name.toList ++ ' ' :: '"' :: content.toList)) ++ ['"'] := by simp
    rw [Listing.toList_write, trim_append verb, tail, ends]

/-! ## Both ways -/

/-- On a running processor with fuel, what a command does to the file tree and what it makes of the
outcome is what the program of the same text does: for every verb with a name that is a phrase free
of marks, and for every content without quotes and line feeds that is written under a word free of
marks. A file is shown alike. Written on a console that was fresh once, whatever has happened to it
since, or in any tree that operations have reached, the file under a valid name holds the content as
it stands between the quotes. -/
theorem file_commands_match_programs (machine : Machine)
    (running : machine.core.cpu.halted = false) (fuel : machine.core.config.fuel ≠ some 0) :
    (∀ verb make, (verb, make) ∈ nameVerbs → ∀ name : String,
      IsPhrase name.toList → Listing.IsClean name.toList →
      Alike machine (make name) s!"{verb} {name}") ∧
    (∀ name content : String, IsPhrase name.toList → Listing.IsClean name.toList →
      machine.core.files.read name = .ok content →
      (answer machine s!"read {name}").2.lines =
        machine.core.output.toList ++ [s!"{name}: {content}"] ∧
      (answer machine ("run " ++ s!"read {name}")).2.lines =
        machine.core.output.toList ++ [s!"{name}: {content}", "completed after 1 steps"]) ∧
    (∀ name content : String, IsWord name.toList → Listing.IsClean name.toList →
      '"' ∉ content.toList → '\n' ∉ content.toList →
      let line := s!"write {name} \"{content}\""
      Alike machine (.write name content) line ∧
      (Files.IsEntryName name →
        (∃ config events, machine = (session respond (.ofConfig config) events).1) ∨
          Files.Reaches {} machine.core.files →
        (answer machine line).1.core.files.read name = .ok content ∧
        (answer machine ("run " ++ line)).1.core.files.read name = .ok content)) := by
  refine ⟨?_, ?_, ?_⟩
  · intro verb make member name phrase clean
    exact alike_name member running fuel phrase clean
  · intro name content phrase clean found
    have member : ("read", Operation.read) ∈ nameVerbs := by simp [nameVerbs]
    obtain ⟨-, -, -, verb, rest, -, same⟩ := alike_name member running fuel phrase clean
    have performed : machine.core.files.perform (.read name) =
        .ok (machine.core.files, .content content) := by
      rw [Files.perform, found]
      rfl
    obtain ⟨told, printed⟩ := same.lines_of_performed performed
    exact ⟨told, printed.trans (List.append_assoc ..)⟩
  · intro name content isWord clean free oneLine line
    have both := alike_write running fuel isWord clean free oneLine
    refine ⟨both, fun valid used => ?_⟩
    have reached : Files.Reaches {} machine.core.files := by
      rcases used with ⟨config, events, rfl⟩ | reached
      · exact reached_session config events
      · exact reached
    rw [both.files, both.files_run]
    exact ⟨reached.invariant.read_write valid content, reached.invariant.read_write valid content⟩

/-- A directory with a name of two words, a step into a directory that is not there, a file that is
shown, and a content with marks and with a blank at its end, while a line waits. -/
theorem file_commands_match_programs_samples :
    let files := Files.run {} [.write "old" "kept"]
    let machine : Machine :=
      { core := { Core.ofConfig { fuel := some 1 } with files, output := #["left"] } }
    let name := "n"
    let content := "x  #1; y "
    let line := s!"write {name} \"{content}\""
    machine.core.cpu.halted = false ∧ machine.core.config.fuel ≠ some 0 ∧
    Alike machine (.makeDirectory "a b") "mkdir a b" ∧
    Alike machine (.changeDirectory "nowhere") "cd nowhere" ∧
    (answer machine "read old").2.lines = ["left", "old: kept"] ∧
    Alike machine (.write name content) line ∧
    (answer machine line).1.core.files.read name = .ok content := by
  intro files machine name content line
  have running : machine.core.cpu.halted = false := rfl
  have fuel : machine.core.config.fuel ≠ some 0 := show some 1 ≠ some (0 : UInt64) by decide
  obtain ⟨names, shows, contents⟩ := file_commands_match_programs machine running fuel
  have made := names "mkdir" .makeDirectory (by simp [nameVerbs]) "a b" (by decide) (by decide)
  have lost := names "cd" .changeDirectory (by simp [nameVerbs]) "nowhere" (by decide) (by decide)
  have shown := (shows "old" "kept" (by decide) (by decide) rfl).1
  obtain ⟨written, held⟩ := contents name content (by decide) (by decide) (by decide) (by decide)
  have valid : Files.IsEntryName name := Files.isValidName_iff.mp (by decide)
  exact ⟨running, fuel, made, lost, shown, written, (held valid (.inr ⟨_, rfl⟩)).1⟩

end Console

end RegisterMachine
