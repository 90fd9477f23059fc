import RegisterMachine.Json.Reader

/-! # JSON strings read back

Every character of a string is written plainly or as an escape, and one step of the reader takes
either of them back to the character. Reading past a string asks less of it: any four hexadecimal
digits may follow the `u` of an escape.
-/

namespace RegisterMachine.Json

/-! ## Spellings -/

/-- Four hexadecimal digits that name a number. -/
def IsQuad (n : Nat) (digits : List Char) : Prop :=
  ∃ a b c d, digits.map hexValue? = [some a, some b, some c, some d] ∧
    n = ((a * 16 + b) * 16 + c) * 16 + d

/-- How the characters of a string may be written between its quotes. -/
inductive Spells : List Char → List Char → Prop
  | nil : Spells [] []
  | plain {c : Char} {cs text : List Char} (quote : c ≠ '"') (backslash : c ≠ '\\')
      (visible : ¬c.toNat < 0x20) (later : Spells cs text) : Spells (c :: cs) (c :: text)
  | escape {c mark : Char} {cs text : List Char} (named : escaped? mark = some c)
      (later : Spells cs text) : Spells (c :: cs) ('\\' :: mark :: text)
  | unicode {c : Char} {digits cs text : List Char} (quad : IsQuad c.toNat digits)
      (later : Spells cs text) : Spells (c :: cs) ('\\' :: 'u' :: (digits ++ text))
  | pair {c : Char} {first second cs text : List Char} (high : 0x10000 ≤ c.toNat)
      (leading : IsQuad (0xD800 + (c.toNat - 0x10000) / 0x400) first)
      (trailing : IsQuad (0xDC00 + (c.toNat - 0x10000) % 0x400) second)
      (later : Spells cs text) :
      Spells (c :: cs) ('\\' :: 'u' :: (first ++ '\\' :: 'u' :: (second ++ text)))

/-- What may stand between the quotes of a string that is read past. -/
inductive IsBody : List Char → Prop
  | nil : IsBody []
  | plain {c : Char} {text : List Char} (quote : c ≠ '"') (backslash : c ≠ '\\')
      (visible : ¬c.toNat < 0x20) (later : IsBody text) : IsBody (c :: text)
  | escape {mark : Char} {text : List Char} (named : (escaped? mark).isSome) (later : IsBody text) :
      IsBody ('\\' :: mark :: text)
  | unicode {n : Nat} {digits text : List Char} (quad : IsQuad n digits) (later : IsBody text) :
      IsBody ('\\' :: 'u' :: (digits ++ text))

/-! ## Escapes -/

private theorem length_le_utf8ByteSize (text : List Char) :
    text.length ≤ (String.ofList text).utf8ByteSize := by
  induction text with
  | nil => exact Nat.zero_le _
  | cons c text ih =>
    have positive := c.utf8Size_pos
    rw [String.ofList_cons, String.utf8ByteSize_append, String.utf8ByteSize_singleton,
      List.length_cons]
    omega

/-- Four hexadecimal digits are read as the number that they name. -/
theorem hexQuad_append {n : Nat} {digits : List Char} (quad : IsQuad n digits)
    (rest : List Char) : hexQuad (digits ++ rest) = .ok (n, rest) := by
  obtain ⟨a, b, c, d, values, rfl⟩ := quad
  have four : digits.length = 4 := by
    have length := congrArg List.length values
    rwa [List.length_map] at length
  have number : hexNumber? digits =
      (digits.map hexValue?).foldl (fun read digit => do return (← read) * 16 + (← digit))
        (some 0) := by rw [hexNumber?, List.foldl_map]
  have whole : ¬(String.ofList digits).utf8ByteSize < 4 := by
    have bytes := length_le_utf8ByteSize digits
    omega
  rw [hexQuad, List.take_left' four, List.drop_left' four, if_neg whole, number, values]
  simp

/-- No character is half of a surrogate pair. -/
theorem isLeading_toNat (c : Char) : isLeading c.toNat = false ∧ isTrailing c.toNat = false := by
  have valid : c.toNat < 0xD800 ∨ 0xDFFF < c.toNat ∧ c.toNat < 0x110000 := c.valid
  simp only [isLeading, isTrailing, Bool.and_eq_false_iff, decide_eq_false_iff_not]
  omega

/-- Four digits name the character that has their number. -/
theorem codePoint_unicode {c : Char} {digits : List Char} (quad : IsQuad c.toNat digits)
    (rest : List Char) : codePoint (digits ++ rest) = .ok (c, rest) := by
  obtain ⟨leading, trailing⟩ := isLeading_toNat c
  rw [codePoint, hexQuad_append quad]
  simp only [bind, Except.bind, leading, trailing, Char.ofNat_toNat]
  rfl

/-- Two halves of a surrogate pair are put together. -/
theorem codePoint_halves {n m : Nat} {first second : List Char} (leading : IsQuad n first)
    (trailing : IsQuad m second) (firstHalf : isTrailing n = false ∧ isLeading n = true)
    (secondHalf : isTrailing m = true) (rest : List Char) :
    codePoint (first ++ '\\' :: 'u' :: (second ++ rest)) =
      .ok (Char.ofNat ((n - 0xD800) * 0x400 + (m - 0xDC00) + 0x10000), rest) := by
  rw [codePoint, hexQuad_append leading]
  simp only [bind, Except.bind, firstHalf, Bool.false_eq_true, if_false, if_true, literal,
    hexQuad_append trailing, secondHalf]
  rfl

/-- Two halves name the character that they are the halves of. -/
theorem codePoint_pair {c : Char} {first second : List Char} (high : 0x10000 ≤ c.toNat)
    (leading : IsQuad (0xD800 + (c.toNat - 0x10000) / 0x400) first)
    (trailing : IsQuad (0xDC00 + (c.toNat - 0x10000) % 0x400) second) (rest : List Char) :
    codePoint (first ++ '\\' :: 'u' :: (second ++ rest)) = .ok (c, rest) := by
  have valid : c.toNat < 0xD800 ∨ 0xDFFF < c.toNat ∧ c.toNat < 0x110000 := c.valid
  have number : (0xD800 + (c.toNat - 0x10000) / 0x400 - 0xD800) * 0x400 +
      (0xDC00 + (c.toNat - 0x10000) % 0x400 - 0xDC00) + 0x10000 = c.toNat := by omega
  rw [codePoint_halves leading trailing, number, Char.ofNat_toNat]
  · simp only [isLeading, isTrailing, Bool.and_eq_false_iff, decide_eq_false_iff_not,
      Bool.and_eq_true, decide_eq_true_eq]
    omega
  · simp only [isTrailing, Bool.and_eq_true, decide_eq_true_eq]
    omega

private theorem escape_unicode (rest : List Char) : escape ('u' :: rest) = codePoint rest := rfl

private theorem escape_named {mark c : Char} (named : escaped? mark = some c) (rest : List Char) :
    escape (mark :: rest) = .ok (c, rest) := by
  rw [escape]
  · simp only [named]
  · rintro rfl
    contradiction

/-! ## Characters -/

private theorem charactersFrom_escape {text rest : List Char} {c : Char}
    (reads : escape text = .ok (c, rest)) (b : Char) (bound : List Char) :
    charactersFrom (b :: bound) ('\\' :: text) =
      (charactersFrom bound rest).map fun read => (c :: read.1, read.2) := by
  simp only [charactersFrom, reads, bind, Except.bind]
  cases charactersFrom bound rest <;> rfl

private theorem charactersFrom_plain {c : Char} (quote : c ≠ '"') (backslash : c ≠ '\\')
    (visible : ¬c.toNat < 0x20) (b : Char) (bound text : List Char) :
    charactersFrom (b :: bound) (c :: text) =
      (charactersFrom bound text).map fun read => (c :: read.1, read.2) := by
  simp only [charactersFrom, visible, if_false, bind, Except.bind]
  cases charactersFrom bound text <;> rfl

/-- A spelling is read as what it spells, up to the closing quote. -/
theorem charactersFrom_spells {cs text : List Char} (spells : Spells cs text)
    {bound : List Char} (long : cs.length < bound.length) (rest : List Char) :
    charactersFrom bound (text ++ '"' :: rest) = .ok (cs, rest) := by
  induction spells generalizing bound with
  | nil =>
    cases bound with
    | nil => contradiction
    | cons b bound => rfl
  | plain quote backslash visible later ih =>
    cases bound with
    | nil => contradiction
    | cons b bound =>
      rw [List.cons_append, charactersFrom_plain quote backslash visible,
        ih (Nat.lt_of_succ_lt_succ long)]
      rfl
  | escape named later ih =>
    cases bound with
    | nil => contradiction
    | cons b bound =>
      rw [List.cons_append, List.cons_append, charactersFrom_escape (escape_named named _),
        ih (Nat.lt_of_succ_lt_succ long)]
      rfl
  | unicode quad later ih =>
    cases bound with
    | nil => contradiction
    | cons b bound =>
      rw [List.cons_append, List.cons_append, List.append_assoc,
        charactersFrom_escape ((escape_unicode _).trans (codePoint_unicode quad _)),
        ih (Nat.lt_of_succ_lt_succ long)]
      rfl
  | pair high leading trailing later ih =>
    cases bound with
    | nil => contradiction
    | cons b bound =>
      rw [List.cons_append, List.cons_append, List.append_assoc, List.cons_append,
        List.cons_append, List.append_assoc,
        charactersFrom_escape ((escape_unicode _).trans (codePoint_pair high leading trailing _)),
        ih (Nat.lt_of_succ_lt_succ long)]
      rfl

/-- No character is spelled by nothing. -/
theorem Spells.length_le {cs text : List Char} (spells : Spells cs text) :
    cs.length ≤ text.length := by
  induction spells <;> simp only [List.length_cons, List.length_append, List.length_nil] <;> omega

/-- A string is read after its opening quote, however it is spelled. -/
theorem characters_spells {string : String} {text : List Char}
    (spells : Spells string.toList text) (rest : List Char) :
    characters (text ++ '"' :: rest) = .ok (string, rest) := by
  have length := spells.length_le
  rw [characters, charactersFrom_spells spells]
  · simp only [bind, Except.bind, pure, Except.pure, String.ofList_toList]
  · simp only [bound, List.length_cons, List.length_append]
    omega

/-! ## Written strings -/

private theorem isQuad_control :
    ∀ n < 0x20, IsQuad n ['0', '0', hexDigit (n / 16), hexDigit (n % 16)] := by
  intro n control
  have digits : ∀ n < 0x20, hexValue? (hexDigit (n / 16)) = some (n / 16) ∧
      hexValue? (hexDigit (n % 16)) = some (n % 16) := by decide
  obtain ⟨high, low⟩ := digits n control
  refine ⟨0, 0, n / 16, n % 16, ?_, by omega⟩
  rw [List.map_cons, List.map_cons, List.map_cons, List.map_cons, high, low]
  rfl

/-- A character as it is written spells the character. -/
theorem Spells.encodeChar {cs text : List Char} (later : Spells cs text) (c : Char) :
    Spells (c :: cs) (Json.encodeChar c ++ text) := by
  have ofNat {n : Nat} (same : (c.toNat == n) = true) : c = Char.ofNat n := by
    rw [← eq_of_beq same, Char.ofNat_toNat]
  rw [Json.encodeChar]
  split
  · next mark =>
    rcases Bool.or_eq_true_iff.mp mark with quote | backslash
    · rw [eq_of_beq quote]
      exact .escape rfl later
    · rw [eq_of_beq backslash]
      exact .escape rfl later
  next mark =>
  split
  · next same =>
    rw [eq_of_beq same]
    exact .escape rfl later
  split
  · next same =>
    rw [eq_of_beq same]
    exact .escape rfl later
  split
  · next same =>
    rw [eq_of_beq same]
    exact .escape rfl later
  split
  · next same =>
    rw [ofNat same]
    exact .escape rfl later
  split
  · next same =>
    rw [ofNat same]
    exact .escape rfl later
  split
  · next control => exact .unicode (isQuad_control _ control) later
  · next visible =>
    obtain ⟨quote, backslash⟩ := Bool.or_eq_false_iff.mp (Bool.not_eq_true _ ▸ mark)
    exact .plain (ne_of_beq_false quote) (ne_of_beq_false backslash) visible later

theorem spells_encode (cs : List Char) : Spells cs (cs.flatMap encodeChar) := by
  induction cs with
  | nil => exact .nil
  | cons c cs ih =>
    rw [List.flatMap_cons]
    exact ih.encodeChar c

/-- A string is read back after its opening quote. -/
theorem characters_encode (text : String) (rest : List Char) :
    characters (text.toList.flatMap encodeChar ++ '"' :: rest) = .ok (text, rest) :=
  characters_spells (spells_encode text.toList) rest

theorem encodeText_append (text : String) (rest : List Char) :
    encodeText text ++ rest = '"' :: (text.toList.flatMap encodeChar ++ '"' :: rest) := by
  simp [encodeText]

/-- A member's key is read back. -/
theorem key_encodeText (text : String) (rest : List Char) :
    key (encodeText text ++ rest) = .ok (text, rest) := by
  rw [encodeText_append]
  exact characters_encode text rest

/-! ## Reading past -/

private theorem skipEscape_named {mark : Char} (named : (escaped? mark).isSome) (rest : List Char) :
    skipEscape (mark :: rest) = .ok ((), rest) := by
  rw [skipEscape]
  · exact if_pos named
  · rintro rfl
    contradiction

private theorem skipCharactersFrom_escape {text rest : List Char}
    (reads : skipEscape text = .ok ((), rest)) (b : Char) (bound : List Char) :
    skipCharactersFrom (b :: bound) ('\\' :: text) = skipCharactersFrom bound rest := by
  simp only [skipCharactersFrom, reads, bind, Except.bind]

private theorem skipCharactersFrom_plain {c : Char} (quote : c ≠ '"') (backslash : c ≠ '\\')
    (visible : ¬c.toNat < 0x20) (b : Char) (bound text : List Char) :
    skipCharactersFrom (b :: bound) (c :: text) = skipCharactersFrom bound text := by
  simp only [skipCharactersFrom, visible, if_false]

/-- What may stand in a string is read past, up to the closing quote. -/
theorem skipCharactersFrom_isBody {text : List Char} (body : IsBody text) {bound : List Char}
    (long : text.length < bound.length) (rest : List Char) :
    skipCharactersFrom bound (text ++ '"' :: rest) = .ok ((), rest) := by
  induction body generalizing bound with
  | nil =>
    cases bound with
    | nil => contradiction
    | cons b bound => rfl
  | plain quote backslash visible later ih =>
    cases bound with
    | nil => contradiction
    | cons b bound =>
      rw [List.cons_append, skipCharactersFrom_plain quote backslash visible]
      exact ih (Nat.lt_of_succ_lt_succ long)
  | escape named later ih =>
    cases bound with
    | nil => contradiction
    | cons b bound =>
      rw [List.cons_append, List.cons_append, skipCharactersFrom_escape (skipEscape_named named _)]
      simp only [List.length_cons] at long
      exact ih (by omega)
  | @unicode n digits text quad later ih =>
    cases bound with
    | nil => contradiction
    | cons b bound =>
      have reads (rest : List Char) : skipEscape ('u' :: (digits ++ rest)) = .ok ((), rest) := by
        simp only [skipEscape, hexQuad_append quad, bind, Except.bind]
        rfl
      rw [List.cons_append, List.cons_append, List.append_assoc,
        skipCharactersFrom_escape (reads _)]
      simp only [List.length_cons, List.length_append] at long
      exact ih (by omega)

theorem skipCharacters_isBody {text : List Char} (body : IsBody text) (rest : List Char) :
    skipCharacters (text ++ '"' :: rest) = .ok ((), rest) := by
  rw [skipCharacters, skipCharactersFrom_isBody body]
  simp only [bound, List.length_cons, List.length_append]
  omega

end RegisterMachine.Json
