import RegisterMachine.Proofs.Console.Idle
import RegisterMachine.Proofs.Text.Numeral

/-! # Many ticks in one command

A command may ask for a number of ticks. Asking for a sum is asking for its parts one after the
other: the lines are the same and so is the machine. Beyond the limit nothing is ticked.
-/

namespace RegisterMachine

/-- No line is taken from where none waits. -/
theorem Machine.withOutput_self {machine : Machine} (empty : machine.core.output = #[]) :
    machine.withOutput #[] = machine := by
  rw [← empty]
  rfl

namespace Console

/-- The actions of a command in which programs run. -/
def workOf (machine : Machine) (verb : String) (rest : List Char) : List Machine.Action :=
  match verb with
  | "tick" =>
    match tickCount rest with
    | .ok count => List.replicate count .tick
    | .error _ => []
  | "run" =>
    if machine.core.cpu.halted then []
    else
      match Program.ofText (String.ofList rest) with
      | .ok program => [.execute program]
      | .error _ => []
  | _ => []

/-- The actions of a line in which programs run. -/
def work (machine : Machine) (line : String) : List Machine.Action :=
  match Text.firstWord? line.toList with
  | none => []
  | some (verb, rest) => workOf machine (String.ofList verb) rest

variable {machine : Machine} {line : String} {count : Nat}

/-! ## Ticking on -/

private theorem ticks_succ (machine : Machine) (count : Nat) :
    ticks machine (count + 1) =
      let ticked := machine.tick.1
      let later := ticks (ticked.withOutput #[]) count
      (later.1, ticked.core.output.toList ++ tickLines machine.tick.2 ++ later.2) := rfl

/-- Ticks in a row are ticked in two parts. -/
theorem ticks_add (machine : Machine) (first second : Nat) :
    ticks machine (first + second) =
      let one := ticks machine first
      let two := ticks one.1 second
      (two.1, one.2 ++ two.2) := by
  induction first generalizing machine with
  | zero => rw [Nat.zero_add]; rfl
  | succ first ih =>
    rw [Nat.succ_add]
    simp only [ticks_succ, ih, List.append_assoc]

/-- Every tick of a command takes what has been printed, so nothing waits after the last one. -/
theorem output_ticks (machine : Machine) (some : 0 < count) :
    (ticks machine count).1.core.output = #[] := by
  have last : ∃ earlier, count = earlier + 1 := Nat.exists_eq_succ_of_ne_zero (by omega)
  obtain ⟨earlier, rfl⟩ := last
  rw [ticks_add]
  rfl

/-- Every tick of a command counts. -/
theorem table_ticks (machine : Machine) (count : Nat) :
    (ticks machine count).1.table.ticks = machine.table.ticks + count := by
  induction count generalizing machine with
  | zero => rfl
  | succ count ih =>
    rw [ticks_succ]
    dsimp only
    rw [ih, Nat.add_comm count, ← Nat.add_assoc]
    rfl

/-! ## Lines that ask for ticks -/

/-- Whether a line asks for a number of ticks: for one by the verb alone, or by the numeral behind
the verb. -/
inductive AsksTicks : String → Nat → Prop
  | once {line : String} (start : Text.firstWord? line.toList = some ("tick".toList, [])) :
      AsksTicks line 1
  | counted {line : String} {rest : List Char} {count : Nat}
      (start : Text.firstWord? line.toList = some ("tick".toList, rest))
      (numeral : Text.natural? rest = some count) : AsksTicks line count

private theorem asksTicks_bare : AsksTicks "tick" 1 := .once (by decide)

private theorem asksTicks_toString (count : Nat) : AsksTicks s!"tick {count}" count := by
  have written : (s!"tick {count}").toList = "tick".toList ++ ' ' :: Nat.toDigits 10 count := by
    rw [← Nat.toList_repr, String.toList_append]
    rfl
  refine .counted ?_ (Text.natural?_toDigits count)
  rw [written, Text.firstWord?_append (by decide) (Text.endsWord_cons (by decide) _),
    Text.trim_cons_blank (by decide), Text.trim_of_isPhrase
      (Text.isPhrase_of_isWord (Text.isWord_toDigits count))]

/-- How the command of a line that asks for ticks reads its number. -/
theorem AsksTicks.exists_tickCount (asks : AsksTicks line count) :
    ∃ rest, Text.firstWord? line.toList = some ("tick".toList, rest) ∧
      tickCount rest =
        if count ≤ tickLimit then .ok count
        else .error
          (if count < UInt64.size then .tooManyTicks count else .usage "tick [count]") := by
  cases asks with
  | once start => exact ⟨[], start, rfl⟩
  | @counted rest _ start numeral =>
    refine ⟨rest, start, ?_⟩
    have given : rest.isEmpty = false := by
      cases rest with
      | nil => contradiction
      | cons c rest => rfl
    rw [tickCount, given, if_neg Bool.false_ne_true, Text.naturalBelow?, numeral, Option.bind_some]
    have limit : tickLimit < UInt64.size := by decide
    by_cases small : count < UInt64.size
    · rw [if_pos small, if_pos small]
      dsimp only
      split <;> split <;> first | rfl | omega
    · rw [if_neg small, if_neg small, if_neg (by omega)]

/-- A line that asks for ticks within the limit is answered with what they print and tell. -/
theorem AsksTicks.answer_eq (asks : AsksTicks line count) (few : count ≤ tickLimit)
    (machine : Machine) :
    answer machine line =
      let done := ticks machine count
      (done.1.withOutput #[], { lines := done.1.core.output.toList ++ done.2 }) := by
  obtain ⟨rest, start, asked⟩ := asks.exists_tickCount
  have performed : perform machine "tick" rest = .ok (ticks machine count) := by
    show tickCommand machine rest = _
    rw [tickCommand_eq, asked, if_pos few]
    rfl
  rw [Console.answer_eq start (by decide), performed]
  rfl

/-- Where at least one tick is asked for, nothing waits after the last. -/
theorem AsksTicks.answer_of_pos (asks : AsksTicks line count) (few : count ≤ tickLimit)
    (some : 0 < count) (machine : Machine) :
    answer machine line = ((ticks machine count).1, { lines := (ticks machine count).2 }) := by
  have empty := output_ticks machine some
  rw [asks.answer_eq few]
  dsimp only
  rw [empty, Machine.withOutput_self empty]
  rfl

/-- A line that asks for one tick is a sweep over the processes, answered with what has been printed
so far and with what is told of the tick. -/
theorem AsksTicks.answer_once (asks : AsksTicks line 1) (machine : Machine) :
    answer machine line =
      (machine.tick.1.withOutput #[],
        { lines := machine.tick.1.core.output.toList ++ tickLines machine.tick.2 }) := by
  rw [asks.answer_of_pos (by decide) Nat.one_pos, ticks_succ]
  simp only [ticks, List.append_nil]

/-- Asking for a sum is asking for its parts one after the other. -/
theorem AsksTicks.answer_add {first second whole : String} {m n : Nat}
    (asksFirst : AsksTicks first m) (asksSecond : AsksTicks second n)
    (asksWhole : AsksTicks whole (m + n)) (some : 0 < m) (few : m + n ≤ tickLimit)
    (machine : Machine) :
    let one := answer machine first
    let two := answer one.1 second
    answer machine whole = (two.1, { lines := one.2.lines ++ two.2.lines }) ∧
      two.1.core.output = #[] := by
  have empty := output_ticks machine some
  have ended := asksSecond.answer_eq (by omega) (ticks machine m).1
  have later : (ticks (ticks machine m).1 n).1.core.output = #[] := by
    have whole := output_ticks machine (Nat.add_pos_left some n)
    rwa [ticks_add] at whole
  rw [asksFirst.answer_of_pos (by omega) some]
  dsimp only at ended ⊢
  rw [later, Machine.withOutput_self later] at ended
  rw [ended, asksWhole.answer_of_pos few (Nat.add_pos_left some n), ticks_add]
  exact ⟨rfl, later⟩

/-- A number of ticks is asked for at once or one by one. -/
theorem AsksTicks.session_eq (asks : AsksTicks line count) (few : count ≤ tickLimit)
    (some : 0 < count) (machine : Machine) :
    session respond machine (List.replicate count (.command "tick")) =
      ((answer machine line).1, (answer machine line).2.lines) := by
  rw [asks.answer_of_pos few some]
  clear asks some
  induction count generalizing machine with
  | zero => rfl
  | succ count ih =>
    have once := asksTicks_bare.answer_once machine
    rw [List.replicate_succ, session, respond, once, ticks_succ]
    dsimp only
    rw [ih (by omega)]

/-- A line that asks for more ticks than there may be fails before any of them. -/
theorem AsksTicks.answer_of_many (asks : AsksTicks line count) (many : tickLimit < count)
    (machine : Machine) :
    let error : CommandError :=
      if count < UInt64.size then .tooManyTicks count else .usage "tick [count]"
    answer machine line =
      (machine.withOutput #[],
        { lines := machine.core.output.toList ++ [s!"Error: {error.message}"] }) ∧
    work machine line = [] := by
  intro error
  obtain ⟨rest, start, asked⟩ := asks.exists_tickCount
  rw [if_neg (by omega)] at asked
  constructor
  · have failed : perform machine "tick" rest = .error error := by
      show tickCommand machine rest = _
      rw [tickCommand_eq, asked]
      rfl
    exact answer_of_reply start (by decide) (congrArg (reply machine) failed)
  · rw [work, start]
    show workOf machine "tick" rest = []
    rw [workOf, asked]

/-- Lines ask for any number of ticks. Up to the limit, a line that asks for a sum gives the machine
and the lines of two that ask for its parts one after the other, with nothing left waiting, and a
line that asks for some ticks gives those of as many single ticks, each of which is one sweep. A
line that asks for more is answered with what waits and with the error, and nothing is ticked,
neither where the command is carried out at once nor where its effects are made in place. -/
theorem answer_tick_add (machine : Machine) :
    (∀ count, AsksTicks s!"tick {count}" count) ∧
    (∀ first second whole m n, AsksTicks first m → AsksTicks second n → AsksTicks whole (m + n) →
      0 < m → m + n ≤ tickLimit →
      let one := answer machine first
      let two := answer one.1 second
      answer machine whole = (two.1, { lines := one.2.lines ++ two.2.lines }) ∧
        two.1.core.output = #[]) ∧
    (∀ line count, AsksTicks line count → 0 < count → count ≤ tickLimit →
      session respond machine (List.replicate count (.command "tick")) =
        ((answer machine line).1, (answer machine line).2.lines) ∧
      (answer machine line).1.table.ticks = machine.table.ticks + count) ∧
    answer machine "tick" =
      (machine.tick.1.withOutput #[],
        { lines := machine.tick.1.core.output.toList ++ tickLines machine.tick.2 }) ∧
    (∀ line count, AsksTicks line count → tickLimit < count →
      let error : CommandError :=
        if count < UInt64.size then .tooManyTicks count else .usage "tick [count]"
      answer machine line =
        (machine.withOutput #[],
          { lines := machine.core.output.toList ++ [s!"Error: {error.message}"] }) ∧
      (converse line).run machine = (answer machine line).swap ∧
      work machine line = []) := by
  refine ⟨asksTicks_toString, ?_, ?_, asksTicks_bare.answer_once machine, ?_⟩
  · intro first second whole m n asksFirst asksSecond asksWhole some few
    exact asksFirst.answer_add asksSecond asksWhole some few machine
  · intro line count asks some few
    refine ⟨asks.session_eq few some machine, ?_⟩
    rw [asks.answer_of_pos few some]
    exact table_ticks machine count
  · intro line count asks many error
    obtain ⟨answered, idle⟩ := asks.answer_of_many many machine
    exact ⟨answered, converse_eq line machine, idle⟩

/-- Two processes, of which one prints and finishes and the other faults, and a line left over from
before, in one tick and two more, in three at once, in three single ones and beyond the limit. -/
theorem answer_tick_add_samples :
    let program := [.print (.register .ax), .arithmetic .divide .ax 0]
    let fresh := (Machine.ofConfig {}).withOutput #["left"]
    let machine := ((fresh.spawn program).1.spawn [.increment (.register .cx)]).1
    (let one := answer machine "tick 1"
      let two := answer one.1 "tick 2"
      answer machine "tick 3" = (two.1, { lines := one.2.lines ++ two.2.lines }) ∧
        two.1.core.output = #[]) ∧
      (session respond machine (List.replicate 3 (.command "tick")) =
        ((answer machine "tick 3").1, (answer machine "tick 3").2.lines) ∧
        (answer machine "tick 3").1.table.ticks = machine.table.ticks + 3) ∧
      (answer machine "tick 3").2.lines =
        ["left", "AX: 0", "tick 1: 2 dispatched", "tick 2: 1 dispatched",
          "pid 1: division by zero", "pid 1 halted", "pid 2 halted", "tick 3: 0 dispatched"] ∧
      (answer machine "tick 10001").2.lines =
        ["left", "Error: tick count 10001 exceeds the limit of 10000"] ∧
      (answer machine "tick 10001").1.table.ticks = 0 := by
  intro program fresh machine
  obtain ⟨asks, adds, singly, -, fails⟩ := answer_tick_add machine
  have whole : AsksTicks "tick 3" (1 + 2) := asks 3
  have few : 1 + 2 ≤ tickLimit := by decide
  have beyond : AsksTicks "tick 10001" 10001 :=
    .counted (show _ = some (_, "10001".toList) by decide) (by decide)
  have many := (fails "tick 10001" 10001 beyond (by decide)).1
  refine ⟨adds "tick 1" "tick 2" "tick 3" 1 2 (asks 1) (asks 2) whole Nat.one_pos few,
    singly "tick 3" 3 whole (by decide) few, by decide +kernel, ?_, ?_⟩
  · rw [many]
    decide +kernel
  · rw [many]
    rfl

end Console

end RegisterMachine
