import RegisterMachine.Proofs.Listing.Placement
import RegisterMachine.Proofs.Listing.Sections

/-! # The layout of a listing

What a listing means is what its chunks mean, one after another. So a semicolon may be replaced by
the end of the line, a comment may be left out, and lines that hold neither a label nor a statement
may be put between others, and a listing without labels goes before another one.
-/

namespace RegisterMachine.Listing

open Text

/-! ## Changes of layout -/

/-- Whether a line begins behind the text. -/
def StartsLine (text : List Char) : Prop := text = [] ∨ text.getLast? = some '\n'

/-- Whether a line ends before the text. -/
def EndsLine (text : List Char) : Prop :=
  text = [] ∨ (∃ others, text = '\n' :: others) ∨ ∃ others, text = '\r' :: '\n' :: others

/-- Whether no quote is open behind the beginning of a line, given whether one is open before it. -/
def Closes (quoted : Bool) (left : List Char) : Prop := (left.count '"' + quoted.toNat) % 2 = 0

/-- Whether no comment begins in the beginning of a line: a quote is open before each of its hash
marks. -/
def Uncommented (quoted : Bool) (left : List Char) : Prop :=
  ∀ before after, left = before ++ '#' :: after → ¬Closes quoted before

/-- A blank line, or one with a comment only. -/
inductive IsIdle : List Char → Prop
  | blank {blanks : List Char} (blank : ∀ c ∈ blanks, isBlank c = true) : IsIdle blanks
  | comment {blanks comment : List Char} (blank : ∀ c ∈ blanks, isBlank c = true) :
      IsIdle (blanks ++ '#' :: comment)

/-- One change of layout: a semicolon that separates chunks becomes a line feed, a comment is left
out to the end of its line, or an idle line is put where a line begins. -/
inductive Relaid : List Char → List Char → Prop
  | separator {front left right : List Char} (start : StartsLine front) (whole : '\n' ∉ left)
      (closes : Closes false left) (uncommented : Uncommented false left) :
      Relaid (front ++ (left ++ ';' :: right)) (front ++ (left ++ '\n' :: right))
  | comment {front left comment rest : List Char} (start : StartsLine front) (whole : '\n' ∉ left)
      (closes : Closes false left) (inside : '\n' ∉ comment) (ends : EndsLine rest) :
      Relaid (front ++ (left ++ '#' :: (comment ++ rest))) (front ++ (left ++ rest))
  | idle {front line rest : List Char} (start : StartsLine front) (whole : '\n' ∉ line)
      (idle : IsIdle line) : Relaid (front ++ rest) (front ++ (line ++ '\n' :: rest))

/-! ## Chunks of parts of a line -/

section Chunks

variable {quoted : Bool} {c : Char} {left : List Char}

theorem closes_nil_iff : Closes quoted [] ↔ quoted = false := by
  cases quoted <;> simp [Closes]

theorem closes_cons_iff : Closes quoted (c :: left) ↔ Closes (opened quoted c) left := by
  rw [Closes, Closes, count_quotes_cons]

private theorem uncommented_cons (uncommented : Uncommented quoted (c :: left)) :
    (c = '#' → quoted = true) ∧ Uncommented (opened quoted c) left := by
  constructor
  · rintro rfl
    have opens := uncommented [] left rfl
    rwa [closes_nil_iff, Bool.not_eq_false] at opens
  · rintro before after rfl closes
    exact uncommented (c :: before) after rfl (closes_cons_iff.mpr closes)

private theorem extend_ne_nil (c : Char) (pieces : List (List Char)) : extend c pieces ≠ [] := by
  cases pieces <;> exact List.cons_ne_nil _ _

theorem chunksFrom_ne_nil (quoted : Bool) (line : List Char) : chunksFrom quoted line ≠ [] := by
  cases line with
  | nil => exact List.cons_ne_nil _ _
  | cons c rest =>
    rcases chunksFrom_cases quoted c with ⟨rfl, rfl | rfl⟩ | stays
    · exact List.cons_ne_nil _ _
    · exact List.cons_ne_nil _ _
    · rw [stays]
      exact extend_ne_nil c _

private theorem extend_append (c : Char) {pieces : List (List Char)} (some : pieces ≠ [])
    (others : List (List Char)) : extend c (pieces ++ others) = extend c pieces ++ others := by
  cases pieces with
  | nil => exact absurd rfl some
  | cons piece pieces => rfl

/-- A semicolon cuts a line where no quote is open and no comment has begun. -/
theorem chunksFrom_append_separator (closes : Closes quoted left)
    (uncommented : Uncommented quoted left) (right : List Char) :
    chunksFrom quoted (left ++ ';' :: right) =
      chunksFrom quoted left ++ chunksFrom false right := by
  induction left generalizing quoted with
  | nil =>
    obtain rfl := closes_nil_iff.mp closes
    rfl
  | cons c left ih =>
    rw [closes_cons_iff] at closes
    obtain ⟨hash, later⟩ := uncommented_cons uncommented
    rcases chunksFrom_cases quoted c with ⟨rfl, rfl | rfl⟩ | stays
    · exact congrArg ([] :: ·) (ih closes later)
    · exact absurd (hash rfl) Bool.false_ne_true
    · rw [List.cons_append, stays, stays, ih closes later,
        extend_append c (chunksFrom_ne_nil _ _)]

/-- A comment begins where no quote is open, and has no chunks. -/
theorem chunksFrom_append_comment (closes : Closes quoted left) (comment : List Char) :
    chunksFrom quoted (left ++ '#' :: comment) = chunksFrom quoted left := by
  induction left generalizing quoted with
  | nil =>
    obtain rfl := closes_nil_iff.mp closes
    rfl
  | cons c left ih =>
    rw [closes_cons_iff] at closes
    rcases chunksFrom_cases quoted c with ⟨rfl, rfl | rfl⟩ | stays
    · exact congrArg ([] :: ·) (ih closes)
    · rfl
    · rw [List.cons_append, stays, stays, ih closes]

private theorem chunksFrom_blank {blanks : List Char} (blank : ∀ c ∈ blanks, isBlank c = true) :
    chunksFrom quoted blanks = [blanks] := by
  apply chunksFrom_of_quotesMarks
  rw [quotesMarks_iff]
  rintro before mark after rfl isMark
  have solid := isBlank_of_isMark isMark
  rw [blank mark List.mem_append_cons_self] at solid
  contradiction

private theorem trimEnd_cons_trimEnd (c : Char) (text : List Char) :
    trimEnd (c :: trimEnd text) = trimEnd (c :: text) := by
  obtain ⟨blanks, blank, same⟩ := exists_trimEnd text
  calc
    trimEnd (c :: trimEnd text) = trimEnd ((c :: trimEnd text) ++ blanks) :=
      (trimEnd_append_blank blank _).symm
    _ = trimEnd (c :: text) := by rw [List.cons_append, ← same]

private theorem map_trimEnd_extend (c : Char) {left right : List (List Char)}
    (same : left.map trimEnd = right.map trimEnd) :
    (extend c left).map trimEnd = (extend c right).map trimEnd := by
  match left, right, same with
  | [], [], _ => rfl
  | piece :: others, other :: rest, same =>
    obtain ⟨first, later⟩ := List.cons.inj same
    rw [extend, extend, List.map_cons, List.map_cons, ← trimEnd_cons_trimEnd, first,
      trimEnd_cons_trimEnd, later]

/-- Blanks at the end of a line belong to the end of its last chunk or to a comment. -/
theorem chunksFrom_append_blank {blanks : List Char} (blank : ∀ c ∈ blanks, isBlank c = true) :
    (chunksFrom quoted (left ++ blanks)).map trimEnd = (chunksFrom quoted left).map trimEnd := by
  induction left generalizing quoted with
  | nil =>
    rw [List.nil_append, chunksFrom_blank blank, chunksFrom, List.map_singleton, List.map_singleton,
      ← trimEnd_append_blank blank [], List.nil_append]
  | cons c left ih =>
    rcases chunksFrom_cases quoted c with ⟨rfl, rfl | rfl⟩ | stays
    · exact congrArg (trimEnd [] :: ·) ih
    · rfl
    · rw [List.cons_append, stays, stays]
      exact map_trimEnd_extend c ih

end Chunks

/-! ## What a listing says -/

/-- The sections of a line that say something, all on one line. -/
def said (line : List Char) : List Section :=
  ((chunks line).map (Section.ofChunk 0)).filter Section.speaks

/-- What a text says, line by line. -/
def content (text : List Char) : List Section := (pieces (· == '\n') text).flatMap said

private theorem ofChunk_trimEnd (line : Nat) (chunk : List Char) :
    Section.ofChunk line (trimEnd chunk) = Section.ofChunk line chunk := by
  rw [← ofChunk_trim, trim_trimEnd, ofChunk_trim]

private theorem map_ofChunk_trimEnd (cut : List (List Char)) :
    (cut.map trimEnd).map (Section.ofChunk 0) = cut.map (Section.ofChunk 0) := by
  rw [List.map_map]
  exact List.map_congr_left fun chunk _ => ofChunk_trimEnd 0 chunk

section Lines

variable {left : List Char}

private theorem said_append_blank {blanks : List Char} (blank : ∀ c ∈ blanks, isBlank c = true) :
    said (left ++ blanks) = said left := by
  rw [said, said, chunks, chunks, ← map_ofChunk_trimEnd, chunksFrom_append_blank blank,
    map_ofChunk_trimEnd]

private theorem said_blank {blanks : List Char} (blank : ∀ c ∈ blanks, isBlank c = true) :
    said blanks = [] := by
  rw [said, chunks, chunksFrom_blank blank, List.map_singleton,
    ofChunk_of_blank (firstWord?_eq_none_iff.mpr blank)]
  rfl

private theorem said_append_separator (closes : Closes false left)
    (uncommented : Uncommented false left)
    (right : List Char) : said (left ++ ';' :: right) = said left ++ said right := by
  rw [said, chunks, chunksFrom_append_separator closes uncommented, List.map_append,
    List.filter_append]
  rfl

private theorem said_append_comment (closes : Closes false left) (comment : List Char) :
    said (left ++ '#' :: comment) = said left := by
  rw [said, chunks, chunksFrom_append_comment closes]
  rfl

private theorem closes_of_blank (blank : ∀ c ∈ left, isBlank c = true) : Closes false left := by
  have none : left.count '"' = 0 := by
    rw [List.count_eq_zero]
    intro member
    have solid := blank '"' member
    contradiction
  rw [Closes, none]
  rfl

private theorem IsIdle.said_eq {line : List Char} (idle : IsIdle line) : said line = [] := by
  cases idle with
  | blank blank => exact said_blank blank
  | comment blank => rw [said_append_comment (closes_of_blank blank), said_blank blank]

private theorem said_dropReturn (line : List Char) : said (dropReturn line) = said line := by
  rw [dropReturn]
  split
  · next last =>
    obtain ⟨left, rfl⟩ := List.getLast?_eq_some_iff.mp last
    rw [List.dropLast_concat, said_append_blank (List.forall_mem_singleton.mpr rfl)]
  · rfl

private theorem flatMap_said_linesOfPieces (ps : List (List Char)) :
    (linesOfPieces ps).flatMap said = ps.flatMap said := by
  induction ps with
  | nil => rfl
  | cons piece others ih =>
    cases others with
    | nil =>
      rw [linesOfPieces]
      split
      · next empty =>
        rw [List.isEmpty_iff.mp empty]
        rfl
      · rfl
    | cons second others =>
      rw [linesOfPieces, List.flatMap_cons, List.flatMap_cons, said_dropReturn, ih]
      exact List.cons_ne_nil second others

end Lines

/-! ## Parts of a text -/

section Texts

variable {front line rest : List Char}

private theorem content_append_feed (front rest : List Char) :
    content (front ++ '\n' :: rest) = content front ++ content rest := by
  rw [content, pieces_append_cons _ (by decide), List.flatMap_append]
  rfl

private theorem content_line (whole : '\n' ∉ line) : content line = said line := by
  have uncut : ∀ c ∈ line, (c == '\n') = false :=
    fun c member => beq_false_of_ne fun same => whole (same ▸ member)
  rw [content, pieces_eq_singleton uncut, List.flatMap_singleton]

private theorem StartsLine.content_append (start : StartsLine front) (rest : List Char) :
    content (front ++ rest) = content front ++ content rest := by
  rcases start with rfl | last
  · rfl
  · obtain ⟨front, rfl⟩ := List.getLast?_eq_some_iff.mp last
    rw [List.append_assoc, List.singleton_append, content_append_feed, content_append_feed,
      List.append_assoc]
    rfl

private theorem EndsLine.content_append (ends : EndsLine rest) (whole : '\n' ∉ line) :
    content (line ++ rest) = said line ++ content rest := by
  rcases ends with rfl | ⟨others, rfl⟩ | ⟨others, rfl⟩
  · rw [List.append_nil, content_line whole]
    exact (List.append_nil _).symm
  · rw [content_append_feed, content_line whole]
    rfl
  · have returned : '\n' ∉ line ++ ['\r'] := by simp [whole]
    rw [List.append_cons, content_append_feed, content_line returned,
      said_append_blank (List.forall_mem_singleton.mpr rfl)]
    rfl

/-- A text is its first line and what follows it. -/
theorem exists_line (text : List Char) :
    ∃ line rest, text = line ++ rest ∧ '\n' ∉ line ∧ EndsLine rest := by
  induction text with
  | nil => exact ⟨[], [], rfl, List.not_mem_nil, .inl rfl⟩
  | cons c text ih =>
    by_cases feed : c = '\n'
    · subst feed
      exact ⟨[], _, rfl, List.not_mem_nil, .inr (.inl ⟨text, rfl⟩)⟩
    · obtain ⟨line, rest, rfl, whole, ends⟩ := ih
      refine ⟨c :: line, rest, rfl, ?_, ends⟩
      rw [List.mem_cons, not_or]
      exact ⟨Ne.symm feed, whole⟩

/-- No change of layout changes what a text says. -/
theorem Relaid.content_eq {before after : List Char} (relaid : Relaid before after) :
    content before = content after := by
  cases relaid with
  | @separator front left right start whole closes uncommented =>
    obtain ⟨line, rest, rfl, inside, ends⟩ := exists_line right
    have joined : '\n' ∉ left ++ ';' :: line := by simp [whole, inside]
    have cut : content (left ++ ';' :: (line ++ rest)) = said left ++ content (line ++ rest) := by
      rw [← List.cons_append, ← List.append_assoc, ends.content_append joined,
        said_append_separator closes uncommented, ends.content_append inside, List.append_assoc]
    rw [start.content_append, start.content_append, cut, content_append_feed, content_line whole]
  | @comment front left comment rest start whole closes inside ends =>
    have commented : '\n' ∉ left ++ '#' :: comment := by simp [whole, inside]
    rw [start.content_append, start.content_append, ← List.cons_append, ← List.append_assoc,
      ends.content_append commented, said_append_comment closes, ends.content_append whole]
  | @idle front line rest start whole idle =>
    rw [start.content_append, start.content_append, content_append_feed, content_line whole,
      idle.said_eq, List.nil_append]

/-- The sections of a text that say something are what it says. -/
theorem content_eq (text : List Char) :
    ((sections text).map (Section.atLine 0)).filter Section.speaks = content text := by
  have placed : (sections text).map (Section.atLine 0) =
      (lines text).flatMap fun line => (chunks line).map (Section.ofChunk 0) := by
    rw [← List.zipIdx_map_fst 1 (lines text), List.flatMap_map, sections, List.map_flatMap]
    simp only [List.map_map, Function.comp_def, ofChunk_atLine]
  rw [placed, List.filter_flatMap, content, ← flatMap_said_linesOfPieces]
  rfl

/-- No series of changes of layout, made or undone, changes what a text says. -/
theorem content_eq_of_eqvGen {before after : List Char}
    (relaid : Relation.EqvGen Relaid before after) : content before = content after := by
  induction relaid with
  | rel before after relaid => exact relaid.content_eq
  | refl text => rfl
  | symm before after _ ih => exact ih.symm
  | trans before middle after _ _ first second => exact first.trans second

end Texts

/-! ## Outcomes -/

/-- A listing has the outcome of what it says, but for the line of an error. -/
theorem programOf_content (source : String) :
    programOf (content source.toList) =
      (assemble source).mapError (AssembleError.atLine 0) := by
  rw [← content_eq, programOf_filter_speaks, programOf_atLine, assemble_eq_programOf]

section Unlabelled

variable {pieces others : List Section} {program rest : List Instruction}

private theorem definitions_eq_nil_iff : definitions pieces = [] ↔ labelled pieces = [] := by
  rw [← map_definitions, List.map_eq_nil_iff]

private theorem labelled_content {text : List Char} (none : labelled (sections text) = []) :
    labelled (content text) = [] := by
  rw [← definitions_eq_nil_iff] at none ⊢
  rw [← content_eq, definitions, definitionsFrom_filter_speaks, definitionsFrom_atLine,
    ← definitions, none, List.map_nil]

private theorem programOf_eq_ok_iff (none : labelled pieces = []) :
    programOf pieces = .ok program ↔
      List.Forall₂ (fun statement instruction =>
        statement.instruction (fun _ => Option.none) = .ok instruction)
        (statements pieces) program := by
  rw [programOf, definitions_eq_nil_iff.mpr none, ← mapM_eq_ok_iff]
  rfl

private theorem programOf_append (none : labelled pieces = []) (free : labelled others = [])
    (first : programOf pieces = .ok program) (second : programOf others = .ok rest) :
    programOf (pieces ++ others) = .ok (program ++ rest) := by
  have both : labelled (pieces ++ others) = [] := by
    rw [labelled, List.flatMap_append, ← labelled, ← labelled, none, free, List.append_nil]
  rw [programOf_eq_ok_iff none] at first
  rw [programOf_eq_ok_iff free] at second
  rw [programOf_eq_ok_iff both, statements, List.filterMap_append]
  exact List.rel_append first second

/-- Listings without labels are assembled one by one. -/
theorem assemble_append {first second : String} (none : labelled (sections first.toList) = [])
    (free : labelled (sections second.toList) = []) (assembled : assemble first = .ok program)
    (later : assemble second = .ok rest) :
    assemble (first ++ "\n" ++ second) = .ok (program ++ rest) := by
  have joined : (first ++ "\n" ++ second).toList = first.toList ++ '\n' :: second.toList := by
    simp [String.toList_append]
  rw [← mapError_eq_ok_iff, ← programOf_content, joined, content_append_feed]
  apply programOf_append (labelled_content none) (labelled_content free)
  · rw [programOf_content, assembled]
    rfl
  · rw [programOf_content, later]
    rfl

end Unlabelled

/-- The layout of a listing does not change what it means. Whatever separating semicolons are
replaced by line feeds, comments left out and idle lines put in or taken away, the listing is the
same program, or is refused with the same error up to its line. And a listing without labels goes
before another one, on lines of its own: their programs follow one another. -/
theorem layout_irrelevant :
    (∀ before after : String, Relation.EqvGen Relaid before.toList after.toList →
      SameUpToLine (assemble before) (assemble after)) ∧
    ∀ (first second : String) (program rest : List Instruction),
      labelled (sections first.toList) = [] → labelled (sections second.toList) = [] →
      assemble first = .ok program → assemble second = .ok rest →
      assemble (first ++ "\n" ++ second) = .ok (program ++ rest) := by
  constructor
  · intro before after relaid
    apply sameUpToLine_of_mapError 0
    rw [← programOf_content, ← programOf_content, content_eq_of_eqvGen relaid]
  · exact fun first second program rest => assemble_append

/-- A listing that is refused, with its separator replaced, its comment left out and an idle line
put in; and two listings without labels. -/
theorem layout_irrelevant_samples :
    let written := "delete \"a;#\"; storeMem 1 # b\r\nhalt"
    let relaid := "delete \"a;#\"\n# b\n storeMem 1 \r\nhalt"
    (Relation.EqvGen Relaid written.toList relaid.toList ∧
      SameUpToLine (assemble written) (assemble relaid) ∧
      assemble written = .error (.cellShape 1 "storeMem") ∧
      assemble relaid = .error (.cellShape 3 "storeMem")) ∧
    (labelled (sections "halt".toList) = [] ∧ labelled (sections "jmp 0; halt".toList) = [] ∧
      assemble ("halt" ++ "\n" ++ "jmp 0; halt") = .ok ([.halt] ++ [.jump 0, .halt])) := by
  intro written relaid
  have quoted : IsOneStatement "delete \"a;#\"".toList := by decide +kernel
  have uncommented : Uncommented false "delete \"a;#\"".toList := by
    intro before after split closes
    exact absurd closes (Nat.mod_two_ne_zero.mpr (quoted before '#' after split rfl))
  have separator : Relaid "delete \"a;#\"; storeMem 1 # b\r\nhalt".toList
      "delete \"a;#\"\n storeMem 1 # b\r\nhalt".toList := by
    simpa using @Relaid.separator [] "delete \"a;#\"".toList " storeMem 1 # b\r\nhalt".toList
      (.inl rfl) (by decide) rfl uncommented
  have comment : Relaid "delete \"a;#\"\n storeMem 1 # b\r\nhalt".toList
      "delete \"a;#\"\n storeMem 1 \r\nhalt".toList := by
    simpa using @Relaid.comment "delete \"a;#\"\n".toList " storeMem 1 ".toList " b".toList
      "\r\nhalt".toList (.inr rfl) (by decide) rfl (by decide) (.inr (.inr ⟨_, rfl⟩))
  have idle : Relaid "delete \"a;#\"\n storeMem 1 \r\nhalt".toList
      "delete \"a;#\"\n# b\n storeMem 1 \r\nhalt".toList := by
    simpa using @Relaid.idle "delete \"a;#\"\n".toList "# b".toList " storeMem 1 \r\nhalt".toList
      (.inr rfl) (by decide) (.comment (List.forall_mem_nil _))
  have series : Relation.EqvGen Relaid written.toList relaid.toList :=
    .trans _ _ _ (.rel _ _ separator) (.trans _ _ _ (.rel _ _ comment) (.rel _ _ idle))
  have first : assemble "delete \"a;#\"; storeMem 1 # b\r\nhalt" =
      .error (.cellShape 1 "storeMem") := rfl
  have second : assemble "delete \"a;#\"\n# b\n storeMem 1 \r\nhalt" =
      .error (.cellShape 3 "storeMem") := rfl
  have none : labelled (sections "halt".toList) = [] := by decide +kernel
  have free : labelled (sections "jmp 0; halt".toList) = [] := by decide +kernel
  exact ⟨⟨series, layout_irrelevant.1 written relaid series, first, second⟩, none, free,
    layout_irrelevant.2 _ _ _ _ none free rfl rfl⟩

end RegisterMachine.Listing
