import Mathlib.Data.List.ReduceOption
import RegisterMachine.Config
import RegisterMachine.Proofs.Json.Grammar
import RegisterMachine.Proofs.Success

/-! # Reading configurations

An object may give any of the fields, in any order and among any other members. Reading takes the
settings that are given and leaves the others at their defaults, and the bounds alone decide whether
the configuration is accepted.
-/

namespace RegisterMachine.Config

open Json (IsSpaces Spells IsValue EndsNumber Consumes objectText)

/-! ## Settings -/

inductive Setting where
  | memoryCells (size : UInt64)
  | fuel (limit : Option UInt64)
  | tickPeriod (period : UInt64)
  | unknownMnemonic (policy : UnknownPolicy)
  deriving DecidableEq, Repr

def Setting.field : Setting → Field
  | memoryCells _ => .memoryCells
  | fuel _ => .fuel
  | tickPeriod _ => .tickPeriod
  | unknownMnemonic _ => .unknownMnemonic

/-- A configuration with a field set. -/
def Setting.enter (config : Config) : Setting → Config
  | memoryCells size => { config with memoryCells := size }
  | fuel limit => { config with fuel := limit }
  | tickPeriod period => { config with tickPeriod := period }
  | unknownMnemonic policy => { config with unknownMnemonic := policy }

/-- What a configuration has in a field. -/
def setting (config : Config) : Field → Setting
  | .memoryCells => .memoryCells config.memoryCells
  | .fuel => .fuel config.fuel
  | .tickPeriod => .tickPeriod config.tickPeriod
  | .unknownMnemonic => .unknownMnemonic config.unknownMnemonic

/-- Whether a configuration has the given settings, and the defaults elsewhere. -/
structure Takes (config : Config) (settings : List Setting) : Prop where
  given : ∀ setting ∈ settings, config.setting setting.field = setting
  default : ∀ field, field ∉ settings.map Setting.field →
    config.setting field = ({} : Config).setting field

structure InBounds (config : Config) : Prop where
  memory : 1 ≤ config.memoryCells.toNat
  maximal : config.memoryCells.toNat ≤ 1048576
  period : 1 ≤ config.tickPeriod.toNat

@[simp] theorem field_setting (config : Config) (field : Field) :
    (config.setting field).field = field := by
  cases field <;> rfl

private theorem setting_enter (config : Config) (setting : Setting) (field : Field) :
    (setting.enter config).setting field =
      if field = setting.field then setting else config.setting field := by
  cases setting <;> cases field <;> rfl

private theorem ext_setting {config other : Config}
    (same : ∀ field, config.setting field = other.setting field) : config = other := by
  have memory := same .memoryCells
  have fuel := same .fuel
  have period := same .tickPeriod
  have policy := same .unknownMnemonic
  simp only [setting, Setting.memoryCells.injEq, Setting.fuel.injEq, Setting.tickPeriod.injEq,
    Setting.unknownMnemonic.injEq] at memory fuel period policy
  cases config
  cases other
  simp_all

/-- A field that is not given is left as it is. -/
theorem setting_foldl_of_notMem {settings : List Setting} {field : Field}
    (absent : field ∉ settings.map Setting.field) (config : Config) :
    (settings.foldl Setting.enter config).setting field = config.setting field := by
  induction settings generalizing config with
  | nil => rfl
  | cons setting others ih =>
    rw [List.map_cons, List.mem_cons, not_or] at absent
    rw [List.foldl_cons, ih absent.2, setting_enter, if_neg absent.1]

/-- Settings that are entered one after another are taken where no field is set twice. -/
theorem takes_foldl {settings : List Setting} (distinct : (settings.map Setting.field).Nodup) :
    Takes (settings.foldl Setting.enter {}) settings := by
  refine ⟨?_, fun field absent => setting_foldl_of_notMem absent {}⟩
  intro setting member
  obtain ⟨before, after, rfl⟩ := List.append_of_mem member
  rw [List.map_append, List.map_cons] at distinct
  have later : setting.field ∉ after.map Setting.field :=
    (List.nodup_cons.mp (List.nodup_append.mp distinct).2.1).1
  rw [List.foldl_append, List.foldl_cons, setting_foldl_of_notMem later, setting_enter,
    if_pos rfl]

/-! ## Bounds -/

private theorem violation?_eq_none_iff {config : Config} :
    config.violation? = none ↔ config.InBounds := by
  have memory : config.memoryCells = 0 ↔ config.memoryCells.toNat = 0 := UInt64.toNat_inj.symm
  have period : config.tickPeriod = 0 ↔ config.tickPeriod.toNat = 0 := UInt64.toNat_inj.symm
  simp only [violation?, memory, period, maximalCells]
  constructor
  · intro none
    split at none
    · contradiction
    split at none
    · contradiction
    split at none
    · contradiction
    · exact ⟨by omega, by omega, by omega⟩
  · rintro ⟨some, maximal, positive⟩
    rw [if_neg (by omega), if_neg (by omega), if_neg (by omega)]

private theorem validate_of_inBounds {config : Config} (bounded : config.InBounds) :
    config.validate = .ok config := by
  rw [validate, violation?_eq_none_iff.mpr bounded]

private theorem validate_of_not_inBounds {config : Config} (unbounded : ¬config.InBounds) :
    ∃ violation, config.validate = .error (.invalid violation) := by
  rw [validate]
  cases broken : config.violation? with
  | some violation => exact ⟨violation, rfl⟩
  | none => exact absurd (violation?_eq_none_iff.mp broken) unbounded

private theorem inBounds_of_validate {config accepted : Config}
    (valid : config.validate = .ok accepted) :
    accepted.InBounds := by
  rw [validate] at valid
  split at valid
  · contradiction
  · next none =>
    cases valid
    exact violation?_eq_none_iff.mp none

/-! ## Settings as they are written -/

/-- How the value of a setting may be written. The policy is a name, or a name over null. -/
inductive Setting.Writes : Setting → List Char → Prop
  | memoryCells (size : UInt64) : Writes (memoryCells size) (Nat.toDigits 10 size.toNat)
  | unbounded : Writes (fuel none) ['n', 'u', 'l', 'l']
  | fuel (limit : UInt64) : Writes (fuel (some limit)) (Nat.toDigits 10 limit.toNat)
  | tickPeriod (period : UInt64) : Writes (tickPeriod period) (Nat.toDigits 10 period.toNat)
  | name {policy : UnknownPolicy} {text : List Char} (spells : Spells policy.name.toList text) :
      Writes (unknownMnemonic policy) ('"' :: (text ++ ['"']))
  | nameOverNull {policy : UnknownPolicy} {member : Json.Member}
      (spells : Spells policy.name.toList member.name)
      (null : member.value.text = ['n', 'u', 'l', 'l']) :
      Writes (unknownMnemonic policy) (objectText [] [member])

/-- What a member of an object gives: a setting, or nothing where its key is that of no field. -/
inductive Gives (member : Json.Member) : Option Setting → Prop
  | setting {setting : Setting} (key : Spells setting.field.key.toList member.name)
      (writes : setting.Writes member.value.text) : Gives member (some setting)
  | unknown {name : String} (other : ∀ field : Field, field.key ≠ name)
      (key : Spells name.toList member.name) (value : IsValue member.value.text) : Gives member none

section Reading

variable {spaces rest : List Char} (blank : IsSpaces spaces)

include blank in
private theorem natural_append (wanted : String) (rest : List Char) :
    natural wanted (spaces ++ rest) = natural wanted rest := by
  rw [natural, natural, Json.skipSpace_append blank]

include blank in
private theorem nullable_append {α : Type} (reader : Json.Reader α) (rest : List Char) :
    Json.nullable reader (spaces ++ rest) = Json.nullable reader rest := by
  rw [Json.nullable, Json.nullable, Json.skipSpace_append blank]

include blank in
private theorem policyReader_append (rest : List Char) :
    policyReader (spaces ++ rest) = policyReader rest := by
  rw [policyReader, policyReader, Json.skipSpace_append blank]

private theorem write_natural (n : Nat) : (Json.Value.integer n).write = Nat.toDigits 10 n := by
  rw [Json.Value.write, Text.toList_toString, if_neg (by omega), Int.natAbs_natCast]

/-- A natural number of at most 64 bits is read from its digits. -/
theorem natural_toDigits (wanted : String) (n : UInt64) (ends : EndsNumber rest) :
    natural wanted (Nat.toDigits 10 n.toNat ++ rest) = .ok (n, rest) := by
  have small := n.toNat_lt
  have read : Json.number ((toString (n.toNat : Int)).toList ++ rest) =
      .ok (.integer n.toNat, rest) := Json.number_toString (by omega) (by omega) ends
  rw [← Json.Value.write, write_natural] at read
  cases written : Nat.toDigits 10 n.toNat with
  | nil => exact absurd written Nat.toDigits_ne_nil
  | cons c tail =>
    have numeral : c = '-' ∨ Json.isDigit c = true :=
      .inr (Text.isDigit_of_toDigits_eq_cons written)
    rw [written, List.cons_append] at read
    rw [List.cons_append, natural, Json.skipSpace_cons (Json.isSpace_of_numeral numeral)]
    simp only [numeral, if_true, read, bind, Except.bind, Int.natCast_nonneg, Int.toNat_natCast,
      UInt64.ofNat_toNat]
    rfl

private theorem policy_name (policy : UnknownPolicy) : Config.policy policy.name = .ok policy := by
  cases policy <;> rfl

/-- A policy is read from its name. -/
theorem policyReader_name {policy : UnknownPolicy} {text : List Char}
    (spells : Spells policy.name.toList text) (rest : List Char) :
    policyReader ('"' :: (text ++ '"' :: rest)) = .ok (policy, rest) := by
  rw [policyReader, Json.skipSpace_cons (by decide)]
  simp only [Json.characters_spells spells, policy_name, bind, Except.bind]
  rfl

/-- A policy is read from an object that has its name over null. -/
theorem policyReader_nameOverNull {policy : UnknownPolicy} {member : Json.Member}
    (spells : Spells policy.name.toList member.name)
    (null : member.value.text = ['n', 'u', 'l', 'l']) (rest : List Char) :
    policyReader (objectText [] [member] ++ rest) = .ok (policy, rest) := by
  have written : objectText [] [member] ++ rest = '\x7b' :: (member.before ++ '"' :: (member.name ++
      '"' :: (member.gap ++ ':' :: (member.value.before ++ 'n' :: 'u' :: 'l' :: 'l' ::
        (member.value.after ++ '\x7d' :: rest))))) := by
    simp [objectText, Json.joined, Json.Piece.written, Json.Member.piece, Json.Member.text, null]
  have brace := Json.mark_append member.value.blankAfter
    (show Json.isSpace '\x7d' = false by decide)
  have word (rest : List Char) :
      nothing (member.value.before ++ 'n' :: 'u' :: 'l' :: 'l' :: rest) = .ok ((), rest) := by
    rw [nothing, Json.skipSpace_append member.value.blankBefore]
    rfl
  rw [written, policyReader, Json.skipSpace_cons (by decide)]
  simp only [Json.key_spells member.blankBefore spells, policy_name, member.mark_gap, word, brace,
    bind, Except.bind]
  rfl

/-- The value of a setting is read into its field, with the spaces before it. -/
theorem read_writes {setting : Setting} {text : List Char} (writes : setting.Writes text)
    (blank : IsSpaces spaces) (ends : EndsNumber rest) (config : Config) :
    setting.field.read config (spaces ++ (text ++ rest)) = .ok (setting.enter config, rest) := by
  cases writes with
  | memoryCells size | tickPeriod period =>
    simp only [Setting.field, Field.read, natural_append blank, natural_toDigits _ _ ends, bind,
      Except.bind]
    rfl
  | unbounded =>
    simp only [Setting.field, Field.read, nullable_append blank, List.cons_append, List.nil_append,
      bind, Except.bind]
    rfl
  | fuel limit =>
    have present : Json.Value.integer limit.toNat ≠ .null := nofun
    have small := limit.toNat_lt
    have exact : (Json.Value.integer limit.toNat).Exact 0 := ⟨by omega, by omega⟩
    have read := natural_toDigits "u64" limit ends
    rw [← write_natural] at read
    have nullable := Json.nullable_write exact present read
    rw [write_natural] at nullable
    simp only [Setting.field, Field.read, nullable_append blank, nullable, bind, Except.bind]
    rfl
  | name spells =>
    simp only [Setting.field, Field.read, policyReader_append blank, List.cons_append,
      List.append_assoc, List.nil_append, policyReader_name spells, bind, Except.bind]
    rfl
  | nameOverNull spells null =>
    simp only [Setting.field, Field.read, policyReader_append blank,
      policyReader_nameOverNull spells null, bind, Except.bind]
    rfl

end Reading

/-! ## Members -/

/-- What has been read of a configuration after a setting. -/
def readSetting (state : List Field × Config) (setting : Setting) : List Field × Config :=
  (setting.field :: state.1, setting.enter state.2)

private theorem find?_key (field : Field) :
    (Field.all.find? fun other => other.key == field.key) = some field := by
  cases field <;> decide

private theorem find?_unknown {name : String} (other : ∀ field : Field, field.key ≠ name) :
    (Field.all.find? fun field => field.key == name) = none := by
  rw [List.find?_eq_none]
  intro field _ same
  exact other field (eq_of_beq same)

/-- A setting is read where its field has not been read before. -/
theorem member_setting {setting : Setting} {member : Json.Member}
    (key : Spells setting.field.key.toList member.name)
    (writes : setting.Writes member.value.text) {state : List Field × Config}
    (absent : setting.field ∉ state.1) {rest : List Char} (ends : EndsNumber rest) :
    Config.member state (member.text ++ rest) = .ok (readSetting state setting, rest) := by
  have value := read_writes writes member.value.blankBefore ends state.2
  simp only [Config.member, Json.Member.key_text key, find?_key, member.mark_gap, value, bind,
    Except.bind, List.contains_eq_mem, absent, decide_false, Bool.false_eq_true, if_false]
  rfl

/-- A member of any other key is read past. -/
theorem member_unknown {name : String} {member : Json.Member}
    (other : ∀ field : Field, field.key ≠ name) (key : Spells name.toList member.name)
    (value : IsValue member.value.text) (state : List Field × Config) {rest : List Char}
    (ends : EndsNumber rest) : Config.member state (member.text ++ rest) = .ok (state, rest) := by
  have skipped := Json.skipValue_isValue member.value.blankBefore value ends
  simp only [Config.member, Json.Member.key_text key, find?_unknown other, member.mark_gap, skipped,
    bind, Except.bind]
  rfl

/-- Members are read one after another where no field is given twice. -/
theorem consumes_gives {members : List Json.Member} {given : List (Option Setting)}
    (gives : List.Forall₂ Gives members given) {state : List Field × Config}
    (distinct : (given.reduceOption.map Setting.field).Nodup)
    (fresh : ∀ field ∈ given.reduceOption.map Setting.field, field ∉ state.1) :
    Consumes Config.member state (members.map Json.Member.text)
      (given.reduceOption.foldl readSetting state) := by
  induction gives generalizing state with
  | nil => exact .nil state
  | cons first _ ih =>
    rw [List.map_cons]
    cases first with
    | setting key writes =>
      rw [List.reduceOption_cons_of_some, List.map_cons] at distinct fresh
      rw [List.nodup_cons] at distinct
      rw [List.forall_mem_cons] at fresh
      refine .cons (fun rest ends => member_setting key writes fresh.1 ends)
        (ih distinct.2 fun field member => ?_)
      rw [readSetting, List.mem_cons, not_or]
      exact ⟨fun same => distinct.1 (same ▸ member), fresh.2 field member⟩
    | unknown other key value =>
      exact .cons (fun rest ends => member_unknown other key value state ends) (ih distinct fresh)

private theorem foldl_readSetting (settings : List Setting) (state : List Field × Config) :
    (settings.foldl readSetting state).2 = settings.foldl Setting.enter state.2 := by
  induction settings generalizing state with
  | nil => rfl
  | cons setting others ih => exact ih (readSetting state setting)

/-- An object is read as the configuration that takes its settings, and then checked. -/
theorem ofJsonText_object {leading spaces trailing : List Char} {members : List Json.Member}
    {given : List (Option Setting)} {source : String} (blankLeading : IsSpaces leading)
    (blank : IsSpaces spaces) (blankTrailing : IsSpaces trailing)
    (gives : List.Forall₂ Gives members given)
    (distinct : (given.reduceOption.map Setting.field).Nodup)
    (written : source.toList = leading ++ (objectText spaces members ++ trailing)) :
    ofJsonText source = validate (given.reduceOption.foldl Setting.enter {}) := by
  have consumes : Consumes Config.member ([], {})
      ((members.map Json.Member.piece).map Json.Piece.text)
      (given.reduceOption.foldl readSetting ([], {})) := by
    rw [List.map_map]
    exact consumes_gives gives distinct fun _ _ => List.not_mem_nil
  have opens : ∀ piece ∈ members.map Json.Member.piece, piece.text.head? = some '"' := by
    rw [List.forall_mem_map]
    exact fun _ _ => rfl
  have read := Json.members_pieces blank consumes opens trailing
  have config := foldl_readSetting given.reduceOption ([], {})
  have nothing : Json.skipSpace trailing = [] := by
    have none := Json.skipSpace_append blankTrailing []
    rwa [List.append_nil] at none
  rw [ofJsonText, written, Json.whole, reader, Json.structured, Json.skipSpace_append blankLeading,
    objectText, List.cons_append, Json.skipSpace_cons (by decide)]
  simp only [List.append_assoc, List.cons_append, List.nil_append, fromObject, read, config, bind,
    Except.bind, pure, Except.pure, nothing, List.isEmpty_nil, if_true]
  rfl

/-! ## The compact text -/

def Setting.toJson : Setting → Json.Value
  | memoryCells size => .integer size.toNat
  | fuel none => .null
  | fuel (some limit) => .integer limit.toNat
  | tickPeriod period => .integer period.toNat
  | unknownMnemonic policy => .text policy.name

def settings (config : Config) : List Setting := Field.all.map config.setting

private theorem toJson_eq (config : Config) :
    config.toJson =
      .object (Field.all.map fun field => (field.key, (config.setting field).toJson)) := by
  rcases config with ⟨_, _ | _, _, _⟩ <;> rfl

private theorem Takes.unique {config other : Config} (takes : other.Takes config.settings) :
    other = config := by
  refine ext_setting fun field => ?_
  have member : config.setting field ∈ config.settings :=
    List.mem_map_of_mem (by cases field <;> decide)
  have same := takes.given _ member
  rwa [field_setting] at same

private theorem Setting.writes_toJson (setting : Setting) :
    setting.Writes setting.toJson.write := by
  cases setting with
  | memoryCells size =>
    rw [toJson, write_natural]
    exact .memoryCells size
  | fuel limit =>
    cases limit with
    | none =>
      rw [toJson, Json.Value.write]
      exact .unbounded
    | some limit =>
      rw [toJson, write_natural]
      exact .fuel limit
  | tickPeriod period =>
    rw [toJson, write_natural]
    exact .tickPeriod period
  | unknownMnemonic policy =>
    rw [toJson, Json.Value.write]
    exact .name (Json.spells_encode _)

private theorem gives_compact {setting : Setting} {value : List Char}
    (writes : setting.Writes value) :
    Gives (.compact setting.field.key value) (some setting) :=
  .setting (Json.spells_encode _) writes

/-- The JSON form of a configuration gives every setting. -/
theorem exists_gives_toJson (config : Config) : ∃ members : List Json.Member,
    config.toJson.write = objectText [] members ∧
      List.Forall₂ Gives members (config.settings.map some) := by
  refine ⟨_, config.toJson_eq ▸ Json.write_object_eq _, ?_⟩
  rw [settings, List.map_map, List.map_map, List.forall₂_map_left_iff, List.forall₂_map_right_iff,
    List.forall₂_same]
  intro field _
  have gives := gives_compact (config.setting field).writes_toJson
  rwa [field_setting] at gives

/-- A configuration within its bounds is read back from its compact text. -/
theorem ofJsonText_compact {config : Config} (valid : config.validate = .ok config) :
    ofJsonText config.toJson.compact = .ok config := by
  obtain ⟨members, written, gives⟩ := config.exists_gives_toJson
  have given : (config.settings.map some).reduceOption = config.settings := by
    rw [List.reduceOption, List.filterMap_map]
    exact List.filterMap_some
  have distinct : (config.settings.map Setting.field).Nodup := by
    simp only [settings, List.map_map, Function.comp_def, field_setting, List.map_id']
    decide
  have source : config.toJson.compact.toList = [] ++ (objectText [] members ++ []) := by
    rw [Json.Value.compact, String.toList_ofList, written, List.append_nil, List.nil_append]
  have read := ofJsonText_object Json.isSpaces_nil Json.isSpaces_nil Json.isSpaces_nil gives
    (given ▸ distinct) source
  rw [given, (takes_foldl distinct).unique, valid] at read
  exact read

/-! ## Any text -/

private theorem inBounds_of_ofJsonText {source : String} {config : Config}
    (read : ofJsonText source = .ok config) : config.InBounds := by
  rw [ofJsonText] at read
  obtain ⟨found, -, valid⟩ := bind_eq_ok_iff.mp read
  exact inBounds_of_validate valid

/-- Take any JSON object, with spaces, escapes and members in any order, that gives some of the
fields at most once each and has any other members beside them. It is read as the configuration
with the given settings and the defaults elsewhere where that is within its bounds, and refused as
invalid where it is not. A configuration that is accepted is read back from its compact text, and
whatever configuration any text is read as is within its bounds. -/
theorem ofJsonText_takes :
    (∀ (leading spaces trailing : List Char) (members : List Json.Member)
      (given : List (Option Setting)) (source : String),
      IsSpaces leading → IsSpaces spaces → IsSpaces trailing →
      List.Forall₂ Gives members given → (given.reduceOption.map Setting.field).Nodup →
      source.toList = leading ++ (objectText spaces members ++ trailing) →
      ∃ config : Config, config.Takes given.reduceOption ∧
        (config.InBounds → ofJsonText source = .ok config) ∧
        (¬config.InBounds → ∃ violation, ofJsonText source = .error (.invalid violation))) ∧
    (∀ config : Config, config.validate = .ok config →
      ofJsonText config.toJson.compact = .ok config) ∧
    (∀ source config, ofJsonText source = .ok config → config.InBounds) := by
  refine ⟨?_, fun _ => ofJsonText_compact, fun _ _ => inBounds_of_ofJsonText⟩
  intro leading spaces trailing members given source blankLeading blank blankTrailing gives distinct
    written
  have read := ofJsonText_object blankLeading blank blankTrailing gives distinct written
  refine ⟨_, takes_foldl distinct, ?_, ?_⟩
  · intro bounded
    rw [read, validate_of_inBounds bounded]
  · intro unbounded
    rw [read]
    exact validate_of_not_inBounds unbounded

/-- An object with spaces, an escaped key and an array under a key of no field, one that breaks a
bound, and the compact text of the defaults. -/
theorem ofJsonText_takes_samples :
    (∃ config : Config, config.Takes [.memoryCells 16, .fuel none] ∧
      ofJsonText "\x7b \"memory_cells\": 16,\n\"extra\" :[1, null],\"\\u0066uel\":null \x7d" =
        .ok config) ∧
    (∃ violation, ofJsonText "\x7b\"tick_period_ms\":0\x7d" = .error (.invalid violation)) ∧
    ofJsonText (toJson {}).compact = .ok {} ∧
    (∀ config, ofJsonText (toJson {}).compact = .ok config → config.InBounds) := by
  obtain ⟨object, compact, bounded⟩ := ofJsonText_takes
  refine ⟨?_, ?_, compact {} rfl, bounded _⟩
  · have number : IsValue ['1'] :=
      .number (@Json.Literal.Writes.intro false ['1'] [] none none
        ⟨by decide, List.forall_mem_singleton.mpr rfl⟩ nofun nofun .none)
    have array : IsValue ['[', '1', ',', ' ', 'n', 'u', 'l', 'l', ']'] := by
      refine @IsValue.array []
        [.bare ['1'], ⟨[' '], ['n', 'u', 'l', 'l'], [], by decide, by decide⟩] (by decide) ?_
      rw [List.forall_mem_cons, List.forall_mem_singleton]
      exact ⟨number, .null⟩
    have escaped : Spells "fuel".toList (['\\', 'u', '0', '0', '6', '6'] ++ ['u', 'e', 'l']) :=
      .unicode ⟨0, 0, 6, 6, rfl, rfl⟩ (Json.spells_encode ['u', 'e', 'l'])
    have unknown (field : Field) : field.key ≠ "extra" := by cases field <;> decide
    have gives : List.Forall₂ Gives
        [⟨[' '], "memory_cells".toList.flatMap Json.encodeChar, [],
            ⟨[' '], ['1', '6'], [], by decide, by decide⟩, by decide, by decide⟩,
          ⟨['\n'], "extra".toList.flatMap Json.encodeChar, [' '], .bare _, by decide, by decide⟩,
          ⟨[], _, [], ⟨[], ['n', 'u', 'l', 'l'], [' '], by decide, by decide⟩, by decide,
            by decide⟩]
        [some (.memoryCells 16), none, some (.fuel none)] :=
      .cons (.setting (Json.spells_encode _) (.memoryCells 16))
        (.cons (.unknown unknown (Json.spells_encode _) array)
          (.cons (.setting escaped .unbounded) .nil))
    obtain ⟨config, takes, accepted, -⟩ := object [] [] [] _ _
      "\x7b \"memory_cells\": 16,\n\"extra\" :[1, null],\"\\u0066uel\":null \x7d"
      (by decide) (by decide) (by decide) gives (by decide) (by decide)
    have memory : config.memoryCells = 16 :=
      Setting.memoryCells.inj (takes.given (.memoryCells 16) (by decide))
    have period : config.tickPeriod = 100 :=
      Setting.tickPeriod.inj (takes.default .tickPeriod (by decide))
    exact ⟨config, takes, accepted ⟨by rw [memory]; decide, by rw [memory]; decide,
      by rw [period]; decide⟩⟩
  · obtain ⟨config, takes, -, refused⟩ := object [] [] [] _ _
      "\x7b\"tick_period_ms\":0\x7d" (by decide) (by decide) (by decide)
      (.cons (gives_compact (.tickPeriod 0)) .nil) (by decide) (by decide)
    have period : config.tickPeriod = 0 :=
      Setting.tickPeriod.inj (takes.given (.tickPeriod 0) (by decide))
    refine refused fun within => ?_
    have positive := within.period
    rw [period] at positive
    contradiction

end RegisterMachine.Config
