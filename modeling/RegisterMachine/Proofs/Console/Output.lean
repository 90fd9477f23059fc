import RegisterMachine.Machine.Samples
import RegisterMachine.Proofs.Console.Commands
import RegisterMachine.Proofs.Machine.Printing
import RegisterMachine.Proofs.Text.Words

/-! # The way of printed lines through the console

A line that a program prints waits in the machine until an answer takes it. The turns in which
programs are carried out in the course of a command print lines one after another. As long as no
handler takes any of them away, every printed line stands in one answer or is still waiting, once
and in the order of printing.
-/

namespace RegisterMachine.Console

variable {machine : Machine}

/-! ## The turns of a command -/

/-- The turns of a number of ticks, each of which finds taken what was printed before. -/
def tickTurns (machine : Machine) : Nat → List Turn
  | 0 => []
  | count + 1 => machine.turnsOf .tick ++ tickTurns machine.tick.1.takeOutput.2 count

def turnsOf (machine : Machine) (verb : String) (rest : List Char) : List Turn :=
  match verb with
  | "tick" =>
    match tickCount rest with
    | .ok count => tickTurns machine count
    | .error _ => []
  | "run" =>
    if machine.core.cpu.halted then []
    else
      match Program.ofText (String.ofList rest) with
      | .ok program => machine.turnsOf (.execute program)
      | .error _ => []
  | _ => []

def turns (machine : Machine) (line : String) : List Turn :=
  match Text.firstWord? line.toList with
  | none => []
  | some (verb, rest) => turnsOf machine (String.ofList verb) rest

/-! ## What becomes of printed lines -/

/-- What becomes of the lines that wait before a command, given those that are printed during it:
they wait on behind lines of the console, or stand in front with the printed ones after them. -/
inductive Outlet (before : List String) : List String → List String → List Line → Prop
  | kept (texts : List String) : Outlet before [] before (texts.map .told)
  | taken {emitted : List String} (rest : List Line)
      (printed : rest.filterMap Line.printed? = emitted) :
      Outlet before emitted [] (before.map .printed ++ rest)

variable {before emitted after : List String} {lines : List Line}

private theorem Outlet.of_nil (outlet : Outlet [] emitted after lines) :
    after = [] ∧ lines.filterMap Line.printed? = emitted := by
  cases outlet with
  | kept texts => exact ⟨rfl, Line.filterMap_told texts⟩
  | taken rest printed => exact ⟨rfl, printed⟩

/-- Output that is taken right after programs have printed. -/
theorem Outlet.of_output {output earlier later : List String} (printed : output = before ++ earlier)
    (rest : List Line) (others : rest.filterMap Line.printed? = later) :
    Outlet before (earlier ++ later) [] (output.map .printed ++ rest) := by
  rw [printed, List.map_append, List.append_assoc]
  refine .taken _ ?_
  rw [List.filterMap_append, Line.filterMap_printed, others]

/-- What waited and what is printed is taken or waits. -/
theorem Outlet.conserves (outlet : Outlet before emitted after lines) :
    lines.filterMap Line.printed? ++ after = before ++ emitted := by
  cases outlet with
  | kept texts => rw [Line.filterMap_told, List.nil_append, List.append_nil]
  | taken rest printed =>
    rw [List.filterMap_append, Line.filterMap_printed, printed, List.append_nil]

/-- What waits after the command may as well be put in front. -/
theorem Outlet.flush (outlet : Outlet before emitted after lines) :
    ∃ rest, after.map .printed ++ lines = before.map .printed ++ rest ∧
      rest.filterMap Line.printed? = emitted := by
  cases outlet with
  | kept texts => exact ⟨_, rfl, Line.filterMap_told texts⟩
  | taken rest printed => exact ⟨rest, rfl, printed⟩

/-! ## Ticks and runs -/

private theorem handlers_markedTicks (machine : Machine) (count : Nat) :
    (markedTicks machine count).1.handlers = machine.handlers := by
  induction count generalizing machine with
  | zero => rfl
  | succ count ih => exact ih machine.tick.1.takeOutput.2

private theorem outlet_markedTicks {count : Nat}
    (keeps : ∀ turn ∈ tickTurns machine count, turn.KeepsOutput machine.handlers) :
    Outlet machine.core.output.toList
      ((tickTurns machine count).flatMap (Turn.lines machine.handlers))
      (markedTicks machine count).1.core.output.toList (markedTicks machine count).2 := by
  induction count generalizing machine with
  | zero => exact .kept []
  | succ count ih =>
    rw [tickTurns, List.forall_mem_append] at keeps
    obtain ⟨empty, printed⟩ := Outlet.of_nil (ih keeps.2)
    rw [tickTurns, List.flatMap_append]
    simp only [markedTicks]
    rw [empty, List.append_assoc]
    apply Outlet.of_output (Machine.output_act keeps.1)
    rw [List.filterMap_append, Line.filterMap_told, List.nil_append, printed]
    rfl

/-- A run is refused, cannot be read, or takes what was printed before and in its course. -/
theorem outlet_markedRun {rest : List Char} {done : Machine × List Line}
    (keeps : ∀ turn ∈ turnsOf machine "run" rest, turn.KeepsOutput machine.handlers)
    (success : markedRun machine (String.ofList rest) = .ok done) :
    Outlet machine.core.output.toList
      ((turnsOf machine "run" rest).flatMap (Turn.lines machine.handlers))
      done.1.core.output.toList done.2 := by
  rw [markedRun] at success
  rw [turnsOf] at keeps ⊢
  split at success
  · next halted =>
    rw [if_pos halted]
    cases success
    exact .kept [_]
  · next running =>
    rw [if_neg running] at keeps ⊢
    cases read : Program.ofText (String.ofList rest) with
    | error error =>
      rw [read] at success
      contradiction
    | ok program =>
      rw [read] at success keeps
      cases success
      dsimp only
      rw [← List.append_nil (List.flatMap _ _)]
      exact .of_output (Machine.output_act keeps) _ (Line.filterMap_told _)

private theorem handlers_markedRun {source : String} {done : Machine × List Line}
    (success : markedRun machine source = .ok done) : done.1.handlers = machine.handlers := by
  rw [markedRun] at success
  split at success
  · cases success
    rfl
  · cases read : Program.ofText source with
    | error error =>
      rw [read] at success
      contradiction
    | ok program =>
      rw [read] at success
      cases success
      rfl

/-! ## Every command -/

/-- Commands other than ticks and runs leave alone what programs have printed. -/
theorem keeps_perform {verb : String} {rest : List Char} (noTick : verb ≠ "tick")
    (noRun : verb ≠ "run") {done : Machine × List String}
    (success : perform machine verb rest = .ok done) :
    done.1.core.output = machine.core.output ∧ done.1.handlers = machine.handlers := by
  cases does_of_perform success with
  | files _ _ | shows _ | spawn _ | reset => exact ⟨rfl, rfl⟩
  | kill read there =>
    obtain ⟨table, -, rfl⟩ := map_eq_ok_iff.mp there
    exact ⟨rfl, rfl⟩
  | tick asked => exact absurd rfl noTick
  | run running read executed => exact absurd rfl noRun

private theorem handlers_markedPerform {verb : String} {rest : List Char}
    {done : Machine × List Line} (success : markedPerform machine verb rest = .ok done) :
    done.1.handlers = machine.handlers := by
  unfold markedPerform at success
  split at success
  · obtain ⟨count, asked, rfl⟩ := map_eq_ok_iff.mp success
    exact handlers_markedTicks machine count
  · exact handlers_markedRun success
  · next noTick noRun =>
    obtain ⟨plain, performed, rfl⟩ := map_eq_ok_iff.mp success
    exact (keeps_perform noTick noRun performed).2

private theorem outlet_markedPerform {verb : String} {rest : List Char} {done : Machine × List Line}
    (keeps : ∀ turn ∈ turnsOf machine verb rest, turn.KeepsOutput machine.handlers)
    (success : markedPerform machine verb rest = .ok done) :
    Outlet machine.core.output.toList
      ((turnsOf machine verb rest).flatMap (Turn.lines machine.handlers))
      done.1.core.output.toList done.2 := by
  unfold markedPerform at success
  split at success
  · obtain ⟨count, asked, rfl⟩ := map_eq_ok_iff.mp success
    rw [turnsOf, asked] at keeps ⊢
    exact outlet_markedTicks keeps
  · exact outlet_markedRun keeps success
  · next noTick noRun =>
    obtain ⟨plain, performed, rfl⟩ := map_eq_ok_iff.mp success
    rw [turnsOf, (keeps_perform noTick noRun performed).1]
    · exact .kept plain.2
    · exact noTick
    · exact noRun

/-- In a command that fails, no program has a turn. -/
theorem turnsOf_of_error {verb : String} {rest : List Char} {error : CommandError}
    (failure : markedPerform machine verb rest = .error error) :
    turnsOf machine verb rest = [] := by
  unfold markedPerform at failure
  split at failure
  · rw [turnsOf, map_eq_error_iff.mp failure]
  · rw [markedRun] at failure
    rw [turnsOf]
    split at failure
    · next halted => rw [if_pos halted]
    · next running =>
      rw [if_neg running]
      cases read : Program.ofText (String.ofList rest) with
      | error error => rfl
      | ok program =>
        rw [read] at failure
        contradiction
  · next noTick noRun =>
    rw [turnsOf]
    · exact noTick
    · exact noRun

/-! ## Every line -/

/-- Whether a line is blank or clears the screen. -/
def Quiet (line : String) : Prop :=
  Text.words line.toList = [] ∨ (Text.words line.toList).head? = some "clear".toList

/-- A blank line and one that clears the screen take nothing and run nothing. -/
theorem markedAnswer_of_quiet (machine : Machine) {line : String} (quiet : Quiet line) :
    markedAnswer machine line = (machine, []) ∧ turns machine line = [] := by
  unfold Quiet at quiet
  rw [markedAnswer, turns]
  cases found : Text.firstWord? line.toList with
  | none => exact ⟨rfl, rfl⟩
  | some start =>
    obtain ⟨verb, rest⟩ := start
    rw [Text.words_of_firstWord? found] at quiet
    obtain rfl : verb = "clear".toList := by simpa using quiet
    exact ⟨rfl, rfl⟩

/-- Any other line is that of a command, whose lines come behind those that wait. -/
theorem markedAnswer_of_loud {line : String} (loud : ¬Quiet line) :
    ∃ verb rest, turns machine line = turnsOf machine verb rest ∧
      ((∃ done, markedPerform machine verb rest = .ok done ∧ markedAnswer machine line =
          (done.1.takeOutput.2, done.1.core.output.toList.map .printed ++ done.2)) ∨
        ∃ error, markedPerform machine verb rest = .error error ∧ markedAnswer machine line =
          (machine.takeOutput.2, machine.core.output.toList.map .printed ++
            [.told s!"Error: {error.message}"])) := by
  unfold Quiet at loud
  rw [markedAnswer, turns]
  cases found : Text.firstWord? line.toList with
  | none => exact absurd (.inl (Text.words_of_firstWord?_none found)) loud
  | some start =>
    obtain ⟨verb, rest⟩ := start
    rw [Text.words_of_firstWord? found] at loud
    have other : verb ≠ "clear".toList := by
      rintro rfl
      exact loud (.inr rfl)
    dsimp only
    rw [if_neg other]
    refine ⟨String.ofList verb, rest, rfl, ?_⟩
    cases markedPerform machine (String.ofList verb) rest with
    | ok done => exact .inl ⟨done, rfl, rfl⟩
    | error error => exact .inr ⟨error, rfl, rfl⟩

private theorem output_of_loud {line : String} (loud : ¬Quiet line) :
    (markedAnswer machine line).1.core.output = #[] := by
  obtain ⟨verb, rest, -, ⟨done, -, answered⟩ | ⟨error, -, answered⟩⟩ := markedAnswer_of_loud loud
  · rw [answered]
    rfl
  · rw [answered]
    rfl

private theorem handlers_markedAnswer (machine : Machine) (line : String) :
    (markedAnswer machine line).1.handlers = machine.handlers := by
  by_cases quiet : Quiet line
  · rw [(markedAnswer_of_quiet machine quiet).1]
  · obtain ⟨verb, rest, -, ⟨done, performed, answered⟩ | ⟨error, -, answered⟩⟩ :=
      markedAnswer_of_loud quiet
    · rw [answered]
      show done.1.handlers = machine.handlers
      exact handlers_markedPerform performed
    · rw [answered]
      rfl

/-- Any other line is answered with the lines that wait before all others, and with those that are
printed in its course. -/
theorem lines_of_loud {line : String} (loud : ¬Quiet line)
    (keeps : ∀ turn ∈ turns machine line, turn.KeepsOutput machine.handlers) :
    ∃ rest, (markedAnswer machine line).2 = machine.core.output.toList.map .printed ++ rest ∧
      rest.filterMap Line.printed? =
        (turns machine line).flatMap (Turn.lines machine.handlers) := by
  obtain ⟨verb, rest, taken, ⟨done, performed, answered⟩ | ⟨error, failed, answered⟩⟩ :=
    markedAnswer_of_loud loud
  · rw [taken] at keeps ⊢
    rw [answered]
    exact (outlet_markedPerform keeps performed).flush
  · rw [taken, turnsOf_of_error failed, answered]
    exact ⟨_, rfl, rfl⟩

/-! ## Sessions -/

/-- What can happen to a console: a line that it answers, a tick of its timer, or a tick of its
machine that nobody is shown. -/
inductive Event where
  | command (line : String)
  | tick
  | background
  deriving DecidableEq, Repr

def respond (machine : Machine) : Event → Machine × List String
  | .command line => ((answer machine line).1, (answer machine line).2.lines)
  | .tick => tick machine
  | .background => (machine.tick.1, [])

/-- The answer to an event, with the origin of its lines. -/
def markedRespond (machine : Machine) : Event → Machine × List Line
  | .command line => markedAnswer machine line
  | .tick => ((tick machine).1, (tick machine).2.map .printed)
  | .background => (machine.tick.1, [])

def Event.turns (machine : Machine) : Event → List Turn
  | command line => Console.turns machine line
  | tick | background => machine.turnsOf .tick

/-- The lines of all answers to events in order. -/
def session {α : Type} (respond : Machine → Event → Machine × List α) (machine : Machine) :
    List Event → Machine × List α
  | [] => (machine, [])
  | event :: others =>
    let (machine, lines) := respond machine event
    let (machine, later) := session respond machine others
    (machine, lines ++ later)

def turnsDuring (machine : Machine) : List Event → List Turn
  | [] => []
  | event :: others => event.turns machine ++ turnsDuring (respond machine event).1 others

private theorem unmark_markedRespond (machine : Machine) (event : Event) :
    unmark (markedRespond machine event) = respond machine event := by
  cases event with
  | command line => exact unmark_markedAnswer machine line
  | tick => simp [unmark, markedRespond, respond]
  | background => rfl

private theorem unmark_session (machine : Machine) (events : List Event) :
    unmark (session markedRespond machine events) = session respond machine events := by
  induction events generalizing machine with
  | nil => rfl
  | cons event others ih =>
    rw [session, session, ← unmark_markedRespond]
    simp only [← ih, unmark, List.map_append]

private theorem handlers_markedRespond (machine : Machine) (event : Event) :
    (markedRespond machine event).1.handlers = machine.handlers := by
  cases event with
  | command line => exact handlers_markedAnswer machine line
  | tick => rfl
  | background => rfl

/-- An event takes what waited and what is printed during it, or leaves it waiting. -/
theorem markedRespond_conserves {event : Event}
    (keeps : ∀ turn ∈ event.turns machine, turn.KeepsOutput machine.handlers) :
    (markedRespond machine event).2.filterMap Line.printed? ++
        (markedRespond machine event).1.core.output.toList =
      machine.core.output.toList ++
        (event.turns machine).flatMap (Turn.lines machine.handlers) := by
  cases event with
  | command line =>
    by_cases quiet : Quiet line
    · obtain ⟨answered, idle⟩ := markedAnswer_of_quiet machine quiet
      rw [markedRespond, Event.turns, answered, idle]
      exact (List.append_nil _).symm
    · obtain ⟨rest, answered, printed⟩ := lines_of_loud quiet keeps
      rw [markedRespond, Event.turns, output_of_loud quiet, answered, ← printed]
      exact (Outlet.taken rest rfl).conserves
  | tick =>
    replace keeps : ∀ turn ∈ machine.turnsOf .tick, turn.KeepsOutput machine.handlers := keeps
    show (machine.tick.1.core.output.toList.map _).filterMap _ ++ [] = _
    rw [Line.filterMap_printed, List.append_nil]
    exact Machine.output_act keeps
  | background =>
    replace keeps : ∀ turn ∈ machine.turnsOf .tick, turn.KeepsOutput machine.handlers := keeps
    exact Machine.output_act keeps

private theorem session_conserves {events : List Event}
    (keeps : ∀ turn ∈ turnsDuring machine events, turn.KeepsOutput machine.handlers) :
    (session markedRespond machine events).2.filterMap Line.printed? ++
        (session markedRespond machine events).1.core.output.toList =
      machine.core.output.toList ++
        (turnsDuring machine events).flatMap (Turn.lines machine.handlers) := by
  induction events generalizing machine with
  | nil => exact (List.append_nil _).symm
  | cons event others ih =>
    rw [turnsDuring, List.forall_mem_append] at keeps
    have same : (respond machine event).1 = (markedRespond machine event).1 :=
      congrArg Prod.fst (unmark_markedRespond machine event).symm
    have handlers := handlers_markedRespond machine event
    have conserved := markedRespond_conserves keeps.1
    have later := ih (handlers.symm ▸ same ▸ keeps.2)
    rw [handlers] at later
    rw [turnsDuring, same, List.flatMap_append, ← List.append_assoc, ← conserved,
      List.append_assoc, ← later]
    simp only [session, List.filterMap_append, List.append_assoc]

/-- The console neither loses nor repeats nor reorders what programs print, as long as no handler
that has a turn takes away what was printed before it. A line that is blank or clears the screen is
answered with no lines and leaves waiting what waits. Any other line leaves nothing waiting and is
answered with what waits, before all else; those lines of the answer that have been printed are what
waited, followed by the lines of the command's turns in order. Over any events, the printed lines of
all answers, with what waits in the end, are what waited at first and the lines of all turns since.
-/
theorem output_conserved (machine : Machine) :
    (∀ line, Quiet line →
      (answer machine line).2.lines = [] ∧
      (answer machine line).1.core.output = machine.core.output) ∧
    (∀ line, ¬Quiet line →
      let marked := markedAnswer machine line
      marked.2.map Line.text = (answer machine line).2.lines ∧
      (answer machine line).1.core.output = #[] ∧
      ((∀ turn ∈ turns machine line, turn.KeepsOutput machine.handlers) →
        machine.core.output.toList.map .printed <+: marked.2 ∧
        marked.2.filterMap Line.printed? =
          machine.core.output.toList ++
            (turns machine line).flatMap (Turn.lines machine.handlers))) ∧
    (∀ events,
      let marked := session markedRespond machine events
      let plain := session respond machine events
      marked.2.map Line.text = plain.2 ∧
      ((∀ turn ∈ turnsDuring machine events, turn.KeepsOutput machine.handlers) →
        marked.2.filterMap Line.printed? ++ plain.1.core.output.toList =
          machine.core.output.toList ++
            (turnsDuring machine events).flatMap (Turn.lines machine.handlers))) := by
  refine ⟨?_, ?_, ?_⟩
  · intro line quiet
    have same := unmark_markedAnswer machine line
    rw [(markedAnswer_of_quiet machine quiet).1] at same
    exact ⟨(congrArg Prod.snd same).symm, congrArg (·.1.core.output) same.symm⟩
  · intro line loud marked
    have same := unmark_markedAnswer machine line
    have empty : (answer machine line).1.core.output = #[] := by
      rw [← output_of_loud loud]
      exact congrArg (·.1.core.output) same.symm
    refine ⟨congrArg Prod.snd same, empty, fun keeps => ?_⟩
    obtain ⟨rest, answered, printed⟩ := lines_of_loud loud keeps
    refine ⟨⟨rest, answered.symm⟩, ?_⟩
    rw [answered, List.filterMap_append, Line.filterMap_printed, printed]
  · intro events marked plain
    have same : unmark marked = plain := unmark_session machine events
    have final : plain.1 = marked.1 := congrArg Prod.fst same.symm
    refine ⟨congrArg Prod.snd same, fun keeps => ?_⟩
    rw [final]
    exact session_conserves keeps

private theorem output_say (core : Core) (operand : Option Operand) :
    core.output.toList <+: (Handler.say core operand).1.output.toList := by
  cases operand <;> exact ⟨[_], Array.toList_push.symm⟩

/-- A line left over from before, the screen cleared, a program that prints in ticks of every kind,
a command that is none, and a run that fails. -/
theorem output_conserved_samples :
    let machine := { (Machine.ofConfig {}).learn "say" Handler.say with core.output := #["left"] }
    let events : List Event :=
      [.command "clear", .command "spawn say 1; printax", .background, .command " ",
        .command "boo", .command "tick 2", .tick, .command "run say 2; div2ax 0"]
    let marked := session markedRespond machine events
    (∀ turn ∈ turnsDuring machine events, turn.KeepsOutput machine.handlers) ∧
    marked.2 =
      [.printed "left", .told "spawned pid 1", .printed "say 1", .told "Unknown command: boo",
        .printed "AX: 0", .told "tick 2: 1 dispatched", .told "tick 3: 0 dispatched",
        .told "pid 1 halted", .printed "say 2", .told "fault: division by zero",
        .told "halted after 2 steps"] ∧
      (session respond machine events).1.core.output = #[] ∧
      (turnsDuring machine events).flatMap (Turn.lines machine.handlers) =
        ["say 1", "AX: 0", "say 2"] := by
  intro machine events marked
  have keeps : ∀ turn ∈ turnsDuring machine events, turn.KeepsOutput machine.handlers :=
    fun turn _ => Turn.keepsOutput_of_known (List.forall_mem_singleton.mpr output_say) turn
  have printed : marked.2.filterMap Line.printed? = ["left", "say 1", "AX: 0", "say 2"] := by
    decide +kernel
  have empty : (session respond machine events).1.core.output = #[] := by decide +kernel
  have conserved := ((output_conserved machine).2.2 events).2 keeps
  rw [printed, empty] at conserved
  exact ⟨keeps, by decide +kernel, empty, (List.cons.inj conserved).2.symm⟩

/-- A handler that takes what was printed leaves the line that has been waiting out of the answer
and of what waits after it. -/
theorem drain_loses_output :
    let machine :=
      { (Machine.ofConfig {}).learn "drain" Handler.drain with core.output := #["left"] }
    let answered := answer machine "run drain"
    ¬Quiet "run drain" ∧ machine.core.output.toList = ["left"] ∧
      answered.2.lines = ["completed after 1 steps"] ∧ answered.1.core.output.toList = [] := by
  intro machine answered
  have words : Text.words "run drain".toList = ["run".toList, "drain".toList] := by
    decide +kernel
  refine ⟨?_, rfl, by decide +kernel, by decide +kernel⟩
  rw [Quiet, words]
  decide

end RegisterMachine.Console
