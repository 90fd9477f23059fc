import RegisterMachine.Proofs.Machine.Unnoticed

/-! # Fuel

Fuel cuts a run off and does nothing else. A run that ends within its fuel ends the same with more
fuel or without a limit; one that is cut off is the beginning of every run with more fuel, as far as
its steps, its faults and what it has printed show.
-/

namespace RegisterMachine

namespace Core

def refuel (fuel : Option UInt64) (core : Core) : Core :=
  { core with config := { core.config with fuel } }

private theorem unnoticed_refuel (fuel : Option UInt64) :
    Unnoticed fun left right => left = right.refuel fuel where
  cpu same := by rw [same, refuel]
  memory same := by rw [same, refuel]
  files same := by rw [same, refuel]
  policy same := by rw [same, refuel]
  setCpu cpu same := congrArg (fun core => { core with cpu }) same
  note level message same := congrArg (note · level message) same
  alter {left right} change same := by
    subst same
    unfold alter
    split <;> simp [emitAll_eq, refuel, Core.note]

variable {handlers : Handlers} {program : Array Instruction} {fuel more steps : Nat}
  {faults : Array Fault} {core : Core}

/-! ## Runs from any point -/

/-- A run that ends within its fuel ends the same with more. -/
theorem runFrom_of_le (enough : fuel ≤ more)
    (ends : (core.runFrom handlers program fuel steps faults).2.outcome ≠ .outOfFuel) :
    core.runFrom handlers program more steps faults =
      core.runFrom handlers program fuel steps faults := by
  induction fuel, steps, faults, core using runFrom_induction handlers program
    generalizing more with
  | halted fuel steps faults core stopped =>
    rw [runFrom_of_halted stopped, runFrom_of_halted stopped]
  | ended fuel steps faults core running ended =>
    rw [runFrom_of_ended running ended, runFrom_of_ended running ended]
  | spent steps faults core instruction running fetched =>
    rw [runFrom_of_spent running fetched] at ends
    exact absurd rfl ends
  | turn fuel steps faults core instruction running fetched ih =>
    obtain ⟨more, rfl⟩ : ∃ left, more = left + 1 := ⟨more - 1, by omega⟩
    rw [runFrom_turn running fetched] at ends ⊢
    rw [runFrom_turn running fetched]
    exact ih (Nat.le_of_succ_le_succ enough) ends

/-- A result to which a run can still come that has taken some steps, collected some faults and
printed some lines. -/
structure LeadsTo (steps : Nat) (faults : Array Fault) (output : Array String)
    (result : Core × RunReport) : Prop where
  steps_le : steps ≤ result.2.steps
  faults_prefix : faults.toList <+: result.2.faults.toList
  output_prefix : output.toList <+: result.1.output.toList

private theorem LeadsTo.of_turn {instruction : Instruction} {result : Core × RunReport}
    (later : LeadsTo (steps + 1) (collect faults (core.dispatch [] instruction).2)
      ((core.dispatch [] instruction).1.reported core.cpu.ip
        (core.dispatch [] instruction).2).output result) :
    LeadsTo steps faults core.output result := by
  obtain ⟨lines, printed⟩ := core.exists_output_dispatch instruction
  have collected := later.faults_prefix
  have output := later.output_prefix
  rw [toList_collect] at collected
  rw [output_reported, printed, Array.toList_append] at output
  refine ⟨Nat.le_of_succ_le later.steps_le, ?_, ?_⟩
  · exact (List.prefix_append _ _).trans collected
  · exact (List.prefix_append _ _).trans output

/-- A run goes on from the point at which it stands. -/
theorem leadsTo_runFrom (program : Array Instruction) (fuel steps : Nat) (faults : Array Fault)
    (core : Core) :
    LeadsTo steps faults core.output (core.runFrom [] program fuel steps faults) := by
  induction fuel, steps, faults, core using runFrom_induction [] program with
  | halted fuel steps faults core stopped =>
    rw [runFrom_of_halted stopped]
    exact ⟨Nat.le_refl _, List.prefix_refl _, List.prefix_refl _⟩
  | ended fuel steps faults core running ended =>
    rw [runFrom_of_ended running ended]
    exact ⟨Nat.le_refl _, List.prefix_refl _, List.prefix_refl _⟩
  | spent steps faults core instruction running fetched =>
    rw [runFrom_of_spent running fetched]
    exact ⟨Nat.le_refl _, List.prefix_refl _, List.prefix_refl _⟩
  | turn fuel steps faults core instruction running fetched ih =>
    rw [runFrom_turn running fetched]
    exact ih.of_turn

/-- A run that is cut off leads to whatever comes of more fuel. -/
theorem leadsTo_of_outOfFuel (enough : fuel ≤ more)
    (cut : (core.runFrom [] program fuel steps faults).2.outcome = .outOfFuel) :
    LeadsTo (steps + fuel) (core.runFrom [] program fuel steps faults).2.faults
      (core.runFrom [] program fuel steps faults).1.output
      (core.runFrom [] program more steps faults) := by
  induction fuel, steps, faults, core using runFrom_induction [] program
    generalizing more with
  | halted fuel steps faults core stopped =>
    rw [runFrom_of_halted stopped] at cut
    contradiction
  | ended fuel steps faults core running ended =>
    rw [runFrom_of_ended running ended] at cut
    contradiction
  | spent steps faults core instruction running fetched =>
    rw [runFrom_of_spent running fetched]
    exact leadsTo_runFrom program more steps faults core
  | turn fuel steps faults core instruction running fetched ih =>
    obtain ⟨more, rfl⟩ : ∃ left, more = left + 1 := ⟨more - 1, by omega⟩
    rw [runFrom_turn running fetched] at cut
    rw [runFrom_turn running fetched, runFrom_turn running fetched, Nat.add_comm fuel 1,
      ← Nat.add_assoc]
    exact ih (Nat.le_of_succ_le_succ enough) cut

end Core

namespace Machine

/-! ## Programs run in the foreground -/

def refuel (fuel : Option UInt64) (machine : Machine) : Machine :=
  machine.mapCore (Core.refuel fuel)

/-- Runs a program for a number of instructions at most. -/
def executeWithin (machine : Machine) (bound : Nat) (program : List Instruction) :
    Machine × RunReport :=
  let ran := (machine.core.setIp 0).runFrom machine.handlers program.toArray bound 0 #[]
  ({ machine with core := ran.1 }, ran.2)

/-- Whether a program that nothing limits comes to an end, and what it comes to. -/
def Ends (machine : Machine) (program : List Instruction) (result : Machine × RunReport) : Prop :=
  ∃ bound, machine.executeWithin bound program = result ∧ result.2.outcome ≠ .outOfFuel

theorem execute_eq (machine : Machine) (program : List Instruction) :
    machine.execute program =
      machine.executeWithin (Core.allowance machine.core.config program) program := rfl

private theorem le_allowance {config : Config} {fuel : UInt64}
    (enough : ∀ limit, config.fuel = some limit → fuel ≤ limit) (program : List Instruction) :
    fuel.toNat ≤ Core.allowance config program := by
  unfold Core.allowance
  cases limit : config.fuel with
  | some more => exact UInt64.le_iff_toNat_le.mp (enough more limit)
  | none => exact Nat.le_trans (Nat.le_of_lt fuel.toNat_lt) (Nat.le_max_left _ _)

variable {machine : Machine} {program : List Instruction} {bound more : Nat}

theorem executeWithin_of_le (enough : bound ≤ more)
    (ends : (machine.executeWithin bound program).2.outcome ≠ .outOfFuel) :
    machine.executeWithin more program = machine.executeWithin bound program := by
  have same := Core.runFrom_of_le enough ends
  rw [executeWithin, executeWithin, same]

/-- A program that ends without a limit ends the same for every bound that is great enough. -/
theorem Ends.eq_executeWithin {result : Machine × RunReport} (ends : machine.Ends program result)
    (least : Nat) : ∃ bound, least ≤ bound ∧ result = machine.executeWithin bound program := by
  obtain ⟨bound, rfl, finished⟩ := ends
  refine ⟨max least bound, Nat.le_max_left _ _, ?_⟩
  exact (executeWithin_of_le (Nat.le_max_right _ _) finished).symm

/-- A limit other than the bound makes no difference. -/
theorem executeWithin_refuel (unlearnt : machine.handlers = []) (limit : Option UInt64)
    (bound : Nat) (program : List Instruction) :
    (machine.refuel limit).executeWithin bound program =
      ((machine.executeWithin bound program).1.refuel limit,
        (machine.executeWithin bound program).2) := by
  obtain ⟨core, table, handlers⟩ := machine
  cases unlearnt
  have unnoticed := Core.unnoticed_refuel limit
  have unaware : ∀ turn ∈ (core.setIp 0).turnsFrom [] program.toArray bound,
      turn.Unaware [] [] fun left right => left = right.refuel limit :=
    fun turn _ => unnoticed.unaware_nil turn
  obtain ⟨left, report⟩ := unnoticed.runFrom unaware rfl 0 #[]
  exact congrArg₂ (fun core report => (Machine.mk core table [], report)) left report

/-- Fuel is only a cut-off on a machine that has learnt nothing. A program that ends within its fuel
ends with the same report on the same machine whenever it is given more, or no limit. Of a program
that runs out of fuel, every run with more that ends, and every one without a limit, has taken as
many steps as there was fuel, and begins with the same faults and lines. -/
theorem execute_refuel (machine : Machine) (unlearnt : machine.handlers = [])
    (program : List Instruction) (fuel : UInt64) (more : Option UInt64)
    (enough : ∀ limit, more = some limit → fuel ≤ limit) :
    let short := (machine.refuel (some fuel)).execute program
    let longer := machine.refuel more
    (short.2.outcome ≠ .outOfFuel →
      longer.execute program = (short.1.refuel more, short.2) ∧
      (more = none → ∀ long, longer.Ends program long ↔ long = (short.1.refuel more, short.2))) ∧
    (short.2.outcome = .outOfFuel →
      ∀ long, long = longer.execute program ∨ (more = none ∧ longer.Ends program long) →
        fuel.toNat ≤ long.2.steps ∧
        short.2.faults.toList <+: long.2.faults.toList ∧
        short.1.core.output.toList <+: long.1.core.output.toList) := by
  intro short longer
  have allowed : fuel.toNat ≤ Core.allowance longer.core.config program :=
    le_allowance enough program
  have short_eq : short =
      ((machine.executeWithin fuel.toNat program).1.refuel (some fuel),
        (machine.executeWithin fuel.toNat program).2) :=
    executeWithin_refuel unlearnt (some fuel) fuel.toNat program
  have longer_eq (bound : Nat) : longer.executeWithin bound program =
      ((machine.executeWithin bound program).1.refuel more,
        (machine.executeWithin bound program).2) :=
    executeWithin_refuel unlearnt more bound program
  rw [short_eq]
  constructor
  · intro finished
    -- From the fuel on, every bound gives the same result.
    have same (bound : Nat) (le : fuel.toNat ≤ bound) :
        longer.executeWithin bound program = (short.1.refuel more, short.2) := by
      rw [longer_eq, executeWithin_of_le le finished, short_eq]
      rfl
    rw [← short_eq]
    refine ⟨same _ allowed, fun _ long => ⟨fun ends => ?_, ?_⟩⟩
    · obtain ⟨bound, le, rfl⟩ := ends.eq_executeWithin fuel.toNat
      exact same bound le
    · rintro rfl
      refine ⟨fuel.toNat, same _ (Nat.le_refl _), ?_⟩
      rw [short_eq]
      exact finished
  · intro cut long comes
    obtain ⟨bound, le, rfl⟩ :
        ∃ bound, fuel.toNat ≤ bound ∧ long = longer.executeWithin bound program := by
      rcases comes with rfl | ⟨-, ends⟩
      · exact ⟨_, allowed, rfl⟩
      · exact ends.eq_executeWithin fuel.toNat
    rw [executeWithin, unlearnt] at cut
    have leads := Core.leadsTo_of_outOfFuel le cut
    rw [longer_eq, executeWithin, executeWithin, unlearnt]
    exact ⟨Nat.zero_add fuel.toNat ▸ leads.steps_le, leads.faults_prefix, leads.output_prefix⟩

/-- A program that ends on its last unit of fuel, and one that prints for ever. -/
theorem execute_refuel_samples :
    let machine := Machine.ofConfig { unknownMnemonic := .warn }
    let ending : List Instruction := [.increment (.register .ax), .print (.register .ax)]
    let endless : List Instruction := [.print (.register .ax), .other "nop" none, .jump 0]
    let ended := (machine.refuel (some 2)).execute ending
    let cut := (machine.refuel (some 4)).execute endless
    let longer := (machine.refuel (some 6)).execute endless
    (ended.2 = ⟨.completed, 2, #[]⟩ ∧
      (machine.refuel none).execute ending = (ended.1.refuel none, ended.2)) ∧
    (cut.2 = ⟨.outOfFuel, 4, #[.unknownMnemonic "nop"]⟩ ∧
      4 ≤ longer.2.steps ∧ cut.2.faults.toList <+: longer.2.faults.toList ∧
      cut.1.core.output.toList <+: longer.1.core.output.toList) := by
  intro machine ending endless ended cut longer
  have finished : ended.2 = ⟨.completed, 2, #[]⟩ := by decide +kernel
  have spent : cut.2 = ⟨.outOfFuel, 4, #[.unknownMnemonic "nop"]⟩ := by decide +kernel
  have same := (execute_refuel machine rfl ending 2 none (fun _ none => by contradiction)).1
    (by rw [finished]; decide)
  have more (limit : UInt64) (six : some 6 = some limit) : 4 ≤ limit := by
    cases six
    decide
  have begins := (execute_refuel machine rfl endless 4 (some 6) more).2
    (congrArg RunReport.outcome spent) longer (.inl rfl)
  exact ⟨⟨finished, same.1⟩, spent, begins⟩

end Machine

end RegisterMachine
