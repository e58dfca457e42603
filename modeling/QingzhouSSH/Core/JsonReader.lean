/-
  QingzhouSSH.Core.JsonReader — reading the text of a JSON value.

  The reader follows the grammar of JSON, with white space between the tokens and the
  escapes of strings.  A number is kept as it is written.  `serde_json` also refuses values
  that are nested more than 127 deep; nothing here is.

  Main results:
    * `readString_printed` — a printed string is read back;
    * `reads_number` — a number of the grammar is read as it is written;
    * `reads_fields`, `reads_object` — a printed object is read back, with whatever follows it
      left over.
-/
import QingzhouSSH.Core.Json

namespace QingzhouSSH

/-! ## §1. Strings. -/

inductive JsonTree where
  | null
  | bool (b : Bool)
  | number (token : Text)
  | string (s : Text)
  | array (items : List JsonTree)
  | object (fields : List (Text × JsonTree))

namespace JsonTree

def isSpace (c : Char) : Bool := c == ' ' || c == '\n' || c == '\t' || c == '\r'

/-- The next token is this character. -/
def expect (c : Char) (s : Text) : Option Text :=
  match s.dropWhile isSpace with
  | d :: rest => if d = c then some rest else none
  | [] => none

def readHexDigit (c : Char) : Option Nat :=
  if '0' ≤ c ∧ c ≤ '9' then some (c.toNat - 48)
  else if 'a' ≤ c ∧ c ≤ 'f' then some (c.toNat - 87)
  else if 'A' ≤ c ∧ c ≤ 'F' then some (c.toNat - 55)
  else none

/-- Four hexadecimal digits. -/
def readHex4 : Text → Option (Nat × Text)
  | a :: b :: c :: d :: rest => do
      let a ← readHexDigit a
      let b ← readHexDigit b
      let c ← readHexDigit c
      let d ← readHexDigit d
      some (((a * 16 + b) * 16 + c) * 16 + d, rest)
  | _ => none

/-- The second half of a surrogate pair. -/
def readLowSurrogate (high : Nat) : Text → Option (Char × Text)
  | '\\' :: 'u' :: rest => do
      let (low, rest) ← readHex4 rest
      if 0xdc00 ≤ low ∧ low ≤ 0xdfff then
        some (Char.ofNat (0x10000 + (high - 0xd800) * 0x400 + (low - 0xdc00)), rest)
      else none
  | _ => none

def readUnicode (s : Text) : Option (Char × Text) := do
  let (unit, rest) ← readHex4 s
  if unit < 0xd800 ∨ 0xdfff < unit then some (Char.ofNat unit, rest)
  else if unit < 0xdc00 then readLowSurrogate unit rest
  else none

/-- The character that an escape stands for, behind the backslash. -/
def readEscape : Text → Option (Char × Text)
  | [] => none
  | c :: rest =>
      if c = '"' ∨ c = '\\' ∨ c = '/' then some (c, rest)
      else if c = 'b' then some (Char.ofNat 8, rest)
      else if c = 't' then some (Char.ofNat 9, rest)
      else if c = 'n' then some (Char.ofNat 10, rest)
      else if c = 'f' then some (Char.ofNat 12, rest)
      else if c = 'r' then some (Char.ofNat 13, rest)
      else if c = 'u' then readUnicode rest
      else none

/-- The characters up to the closing quote. -/
def readChars : Nat → Text → Option (Text × Text)
  | 0, _ => none
  | _ + 1, [] => none
  | fuel + 1, c :: rest =>
      if c = '"' then some ([], rest)
      else if c = '\\' then do
        let (d, rest) ← readEscape rest
        let (others, rest) ← readChars fuel rest
        some (d :: others, rest)
      else if c.toNat < 32 then none
      else do
        let (others, rest) ← readChars fuel rest
        some (c :: others, rest)

/-- A string behind its opening quote. -/
def readString (s : Text) : Option (Text × Text) := readChars s.length s

/-! ## §2. Values. -/

def isTokenChar (c : Char) : Bool := isNumberChar c || c == 'E'

def isExponent : Text → Bool
  | [] => true
  | c :: rest =>
      let digits := match rest with
        | '+' :: digits => digits
        | '-' :: digits => digits
        | digits => digits
      (c == 'e' || c == 'E') && !digits.isEmpty && digits.all Char.isDigit

def isFraction : Text → Bool
  | '.' :: rest =>
      !(rest.takeWhile Char.isDigit).isEmpty && isExponent (rest.dropWhile Char.isDigit)
  | rest => isExponent rest

/-- A number of the grammar: no needless zero in front. -/
def isNumberToken (token : Text) : Bool :=
  let unsigned := match token with
    | '-' :: unsigned => unsigned
    | unsigned => unsigned
  let whole := unsigned.takeWhile Char.isDigit
  (whole == ['0'] || whole.head?.any fun c => c != '0')
    && isFraction (unsigned.dropWhile Char.isDigit)

def readNumber (s : Text) : Option (JsonTree × Text) :=
  let token := s.takeWhile isTokenChar
  if isNumberToken token then some (.number token, s.dropWhile isTokenChar) else none

/-- A value without parts. -/
def readScalar (s : Text) : Option (JsonTree × Text) :=
  match "null".toList.isPrefixOf? s with
  | some rest => some (.null, rest)
  | none =>
      match "true".toList.isPrefixOf? s with
      | some rest => some (.bool true, rest)
      | none =>
          match "false".toList.isPrefixOf? s with
          | some rest => some (.bool false, rest)
          | none => readNumber s

mutual

def readValue : Nat → Text → Option (JsonTree × Text)
  | 0, _ => none
  | fuel + 1, s =>
      match expect '"' s with
      | some s => (readString s).map fun (t, rest) => (.string t, rest)
      | none =>
          match expect '[' s with
          | some s =>
              match expect ']' s with
              | some rest => some (.array [], rest)
              | none => (readItems fuel s).map fun (items, rest) => (.array items, rest)
          | none =>
              match expect '{' s with
              | some s =>
                  match expect '}' s with
                  | some rest => some (.object [], rest)
                  | none => (readFields fuel s).map fun (fields, rest) => (.object fields, rest)
              | none => readScalar (s.dropWhile isSpace)

def readItems : Nat → Text → Option (List JsonTree × Text)
  | 0, _ => none
  | fuel + 1, s => do
      let (item, s) ← readValue fuel s
      match expect ',' s with
      | some s => do
          let (items, s) ← readItems fuel s
          some (item :: items, s)
      | none => do
          let s ← expect ']' s
          some ([item], s)

def readFields : Nat → Text → Option (List (Text × JsonTree) × Text)
  | 0, _ => none
  | fuel + 1, s => do
      let s ← expect '"' s
      let (key, s) ← readString s
      let s ← expect ':' s
      let (value, s) ← readValue fuel s
      match expect ',' s with
      | some s => do
          let (fields, s) ← readFields fuel s
          some ((key, value) :: fields, s)
      | none => do
          let s ← expect '}' s
          some ([(key, value)], s)

end

/-- `serde_json::from_str`, of a value with nothing behind it. -/
def fromStr (s : Text) : Option JsonTree :=
  match readValue (s.length + 1) s with
  | some (tree, rest) => if (rest.dropWhile isSpace).isEmpty then some tree else none
  | none => none

/-! ## §3. Reading a printed string. -/

theorem expect_cons {c : Char} (hc : isSpace c = false) (s : Text) : expect c (c :: s) = some s := by
  unfold expect
  rw [List.dropWhile_cons_of_neg (by rw [hc]; decide)]
  exact if_pos rfl

theorem expect_other {c d : Char} (hd : isSpace d = false) (hne : d ≠ c) (s : Text) :
    expect c (d :: s) = none := by
  unfold expect
  rw [List.dropWhile_cons_of_neg (by rw [hd]; decide)]
  exact if_neg hne

theorem readHexDigit_hexDigit : ∀ n < 16, readHexDigit (Value.hexDigit n) = some n := by decide

/-- A printed character is read back. -/
theorem readChars_escapeChar (fuel : Nat) (c : Char) (s : Text) :
    readChars (fuel + 1) (Value.escapeChar c ++ s)
      = (readChars fuel s).map fun (others, rest) => (c :: others, rest) := by
  have hescaped : ∀ {tail : Text}, readEscape tail = some (c, s) →
      readChars (fuel + 1) ('\\' :: tail)
        = (readChars fuel s).map fun (others, rest) => (c :: others, rest) := by
    intro tail htail
    have hstep : readChars (fuel + 1) ('\\' :: tail) = (do
        let (d, rest) ← readEscape tail
        let (others, rest) ← readChars fuel rest
        some (d :: others, rest)) := rfl
    rw [hstep, htail]
    show (readChars fuel s).bind (fun (others, rest) => some (c :: others, rest)) = _
    cases readChars fuel s <;> rfl
  unfold Value.escapeChar
  by_cases hquote : c = '"'
  · subst hquote
    exact hescaped rfl
  rw [if_neg hquote]
  by_cases hslash : c = '\\'
  · subst hslash
    exact hescaped rfl
  rw [if_neg hslash]
  by_cases h8 : c.toNat = 8
  · rw [if_pos h8]
    exact hescaped (by rw [← Value.ofNat_of_toNat h8]; rfl)
  rw [if_neg h8]
  by_cases h9 : c.toNat = 9
  · rw [if_pos h9]
    exact hescaped (by rw [← Value.ofNat_of_toNat h9]; rfl)
  rw [if_neg h9]
  by_cases h10 : c.toNat = 10
  · rw [if_pos h10]
    exact hescaped (by rw [← Value.ofNat_of_toNat h10]; rfl)
  rw [if_neg h10]
  by_cases h12 : c.toNat = 12
  · rw [if_pos h12]
    exact hescaped (by rw [← Value.ofNat_of_toNat h12]; rfl)
  rw [if_neg h12]
  by_cases h13 : c.toNat = 13
  · rw [if_pos h13]
    exact hescaped (by rw [← Value.ofNat_of_toNat h13]; rfl)
  rw [if_neg h13]
  by_cases h32 : c.toNat < 32
  · -- the other control characters are written with four hexadecimal digits
    rw [if_pos h32]
    refine hescaped ?_
    have hunit : ((0 * 16 + 0) * 16 + c.toNat / 16) * 16 + c.toNat % 16 = c.toNat := by omega
    have hread : readHex4 ('0' :: '0' :: Value.hexDigit (c.toNat / 16)
        :: Value.hexDigit (c.toNat % 16) :: s) = some (c.toNat, s) := by
      have hzero : readHexDigit '0' = some 0 := by decide
      unfold readHex4
      dsimp only
      rw [hzero, readHexDigit_hexDigit _ (by omega), readHexDigit_hexDigit _ (by omega)]
      exact congrArg (fun unit => some (unit, s)) hunit
    show readUnicode ('0' :: '0' :: Value.hexDigit (c.toNat / 16)
      :: Value.hexDigit (c.toNat % 16) :: s) = _
    unfold readUnicode
    rw [hread]
    show (if c.toNat < 0xd800 ∨ 0xdfff < c.toNat then some (Char.ofNat c.toNat, s) else _) = _
    rw [if_pos (.inl (by omega)), Char.ofNat_toNat]
  · rw [if_neg h32]
    have hstep : readChars (fuel + 1) (c :: s) = (if c = '"' then some ([], s)
        else if c = '\\' then _
        else if c.toNat < 32 then none
        else do
          let (others, rest) ← readChars fuel s
          some (c :: others, rest)) := rfl
    show readChars (fuel + 1) (c :: s) = _
    rw [hstep, if_neg hquote, if_neg hslash, if_neg h32]
    cases readChars fuel s <;> rfl

theorem readChars_printed (s r : Text) {fuel : Nat} (hfuel : s.length < fuel) :
    readChars fuel (s.flatMap Value.escapeChar ++ '"' :: r) = some (s, r) := by
  obtain ⟨fuel, rfl⟩ := Nat.exists_eq_add_of_lt hfuel
  induction s with
  | nil => rfl
  | cons c s ih =>
      rw [List.flatMap_cons, List.append_assoc, List.length_cons,
        show s.length + 1 + fuel + 1 = s.length + fuel + 1 + 1 by omega, readChars_escapeChar, ih]
      · rfl
      · omega

/-- **A printed string is read back.** -/
theorem readString_printed (s r : Text) :
    readString (s.flatMap Value.escapeChar ++ '"' :: r) = some (s, r) := by
  refine readChars_printed s r ?_
  have hlonger : s.length ≤ (s.flatMap Value.escapeChar).length := by
    induction s with
    | nil => exact Nat.le_refl 0
    | cons c s ih =>
        obtain ⟨d, t, hd, -⟩ := Value.escapeChar_cons c
        rw [List.flatMap_cons, List.length_append, List.length_cons, hd, List.length_cons]
        omega
  rw [List.length_append, List.length_cons]
  omega

/-! ## §4. Reading a printed value. -/

/-- White space between two tokens. -/
def Blank (s : Text) : Prop := ∀ c ∈ s, isSpace c = true

theorem blank_nil : Blank [] := fun _ hc => absurd hc List.not_mem_nil

theorem expect_blank {blank : Text} (h : Blank blank) (c : Char) (s : Text) :
    expect c (blank ++ s) = expect c s := by
  unfold expect
  rw [List.dropWhile_append_of_pos h]

theorem readValue_blank {blank : Text} (h : Blank blank) (fuel : Nat) (s : Text) :
    readValue fuel (blank ++ s) = readValue fuel s := by
  cases fuel with
  | zero => rfl
  | succ fuel =>
      unfold readValue
      rw [expect_blank h, expect_blank h, expect_blank h, List.dropWhile_append_of_pos h]

/-- What may follow a value. -/
def Ends (r : Text) : Prop := ∀ c ∈ r.head?, isTokenChar c = false

theorem Ends.blank {blank r : Text} (h : Blank blank) (hends : Ends r) : Ends (blank ++ r) := by
  cases blank with
  | nil => exact hends
  | cons d blank =>
      have hplain : ∀ d, isSpace d = true → isTokenChar d = false := by
        intro d hd
        simp only [isSpace, Bool.or_eq_true, beq_iff_eq] at hd
        rcases hd with ((rfl | rfl) | rfl) | rfl <;> decide
      intro c hc
      obtain rfl : d = c := Option.some.inj hc
      exact hplain d (h d List.mem_cons_self)

/-- The text is read as this value, and what follows it is left over. -/
def Reads (text : Text) (tree : JsonTree) : Prop :=
  ∀ fuel r, text.length ≤ fuel → Ends r → readValue fuel (text ++ r) = some (tree, r)

theorem reads_string (s : Text) : Reads (Value.jsonString s) (.string s) := by
  intro fuel r hfuel _
  obtain ⟨fuel, rfl⟩ : ∃ n, fuel = n + 1 := Nat.exists_eq_succ_of_ne_zero (by
    rintro rfl
    exact absurd hfuel (by simp [Value.jsonString]))
  have htext : Value.jsonString s ++ r = '"' :: (s.flatMap Value.escapeChar ++ '"' :: r) := by
    simp [Value.jsonString]
  unfold readValue
  rw [htext, expect_cons (by decide)]
  dsimp only
  rw [readString_printed]
  rfl

/-- A text that opens neither a string nor a list nor an object. -/
theorem readValue_scalar {fuel : Nat} {c : Char} (hspace : isSpace c = false) (hquote : c ≠ '"')
    (hlist : c ≠ '[') (hobject : c ≠ '{') (s : Text) :
    readValue (fuel + 1) (c :: s) = readScalar (c :: s) := by
  unfold readValue
  rw [expect_other hspace hquote, expect_other hspace hlist, expect_other hspace hobject,
    List.dropWhile_cons_of_neg (by rw [hspace]; decide)]

theorem reads_null : Reads "null".toList .null := by
  intro fuel r hfuel _
  obtain ⟨fuel, rfl⟩ : ∃ n, fuel = n + 1 := Nat.exists_eq_succ_of_ne_zero (by
    rintro rfl
    exact absurd hfuel (by decide))
  show readValue (fuel + 1) ('n' :: 'u' :: 'l' :: 'l' :: r) = _
  rw [readValue_scalar (by decide) (by decide) (by decide) (by decide)]
  rfl

/-- No needless zero stands in front. -/
theorem head_showNat_ne_zero {n : Nat} (h : 0 < n) : (showNat n).head? ≠ some '0' := by
  have hdigit : ∀ d < 10, 0 < d → Nat.digitChar d ≠ '0' := by decide
  induction n using Nat.strong_induction_on with
  | h n ih =>
      show (Nat.toDigits 10 n).head? ≠ some '0'
      by_cases hsmall : n < 10
      · rw [Nat.toDigits_of_lt_base hsmall]
        exact fun heq => hdigit n hsmall h (Option.some.inj heq)
      · rw [Nat.toDigits_of_base_le (by decide) (by omega),
          List.head?_append_of_ne_nil _ Nat.toDigits_ne_nil]
        exact ih (n / 10) (by omega) (by omega)

theorem showNat_digits (n : Nat) : ∀ c ∈ showNat n, c.isDigit = true := fun _ hc =>
  Nat.isDigit_of_mem_toDigits (by decide) (by decide) hc

theorem isNumberToken_showNat (n : Nat) : isNumberToken (showNat n) = true := by
  have hdigits := showNat_digits n
  have hwhole : (showNat n).takeWhile Char.isDigit = showNat n :=
    List.takeWhile_eq_self_iff.mpr hdigits
  have hrest : (showNat n).dropWhile Char.isDigit = [] := List.dropWhile_eq_nil_iff.mpr hdigits
  have hunsigned : (match showNat n with
      | '-' :: unsigned => unsigned
      | unsigned => unsigned) = showNat n := by
    split
    next unsigned heq =>
      have hminus := hdigits '-' (heq ▸ List.mem_cons_self)
      exact absurd hminus (by decide)
    next => rfl
  unfold isNumberToken
  rw [hunsigned]
  dsimp only
  rw [hwhole, hrest]
  rcases Nat.eq_zero_or_pos n with rfl | hpos
  · rfl
  · obtain ⟨c, s, hc⟩ := List.exists_cons_of_ne_nil (showInt_ne_nil n)
    have hc : showNat n = c :: s := hc
    have hhead := head_showNat_ne_zero hpos
    rw [hc] at hhead ⊢
    have hne : (c != '0') = true := bne_iff_ne.mpr fun heq => hhead (congrArg some heq)
    simp only [List.head?_cons, Option.any_some, hne, Bool.or_true, Bool.true_and]
    rfl

/-- **A number of the grammar is read as it is written.** -/
theorem reads_number {token : Text} (hchars : ∀ c ∈ token, isNumberChar c = true)
    (htoken : isNumberToken token = true) : Reads token (.number token) := by
  intro fuel r hfuel hends
  have htaken : ∀ c ∈ token, isTokenChar c = true := by
    intro c hc
    rw [isTokenChar, hchars c hc]
    rfl
  have hsplit : (token ++ r).takeWhile isTokenChar = token
      ∧ (token ++ r).dropWhile isTokenChar = r := by
    rw [List.takeWhile_append_of_pos htaken, List.dropWhile_append_of_pos htaken]
    cases r with
    | nil => exact ⟨List.append_nil _, rfl⟩
    | cons d r =>
        have hd : ¬ isTokenChar d = true := by
          rw [hends d rfl]
          decide
        rw [List.takeWhile_cons_of_neg hd, List.dropWhile_cons_of_neg hd]
        exact ⟨List.append_nil _, rfl⟩
  have hnumber : readNumber (token ++ r) = some (.number token, r) := by
    unfold readNumber
    rw [hsplit.1, hsplit.2]
    exact if_pos htoken
  have hsome : token ≠ [] := by
    rintro rfl
    exact absurd htoken (by decide)
  obtain ⟨c, s, rfl⟩ := List.exists_cons_of_ne_nil hsome
  obtain ⟨fuel, rfl⟩ : ∃ m, fuel = m + 1 := Nat.exists_eq_succ_of_ne_zero (by
    rintro rfl
    exact absurd hfuel (by simp))
  have hother : ∀ d : Char, isNumberChar d = false → c ≠ d := by
    rintro d hd rfl
    rw [hchars c List.mem_cons_self] at hd
    cases hd
  have hspace : isSpace c = false := by
    simp [isSpace, hother ' ' (by decide), hother '\n' (by decide), hother '\t' (by decide),
      hother '\r' (by decide)]
  have hliteral : ∀ (d : Char) (literal : Text), isNumberChar d = false →
      (d :: literal).isPrefixOf? (c :: (s ++ r)) = none := by
    intro d literal hd
    have hne : (d == c) = false := beq_false_of_ne (hother d hd).symm
    rw [List.isPrefixOf?, hne]
    rfl
  rw [List.cons_append, readValue_scalar hspace (hother _ (by decide)) (hother _ (by decide))
    (hother _ (by decide))]
  unfold readScalar
  rw [show "null".toList = 'n' :: "ull".toList from rfl, hliteral 'n' _ (by decide)]
  dsimp only
  rw [show "true".toList = 't' :: "rue".toList from rfl, hliteral 't' _ (by decide)]
  dsimp only
  rw [show "false".toList = 'f' :: "alse".toList from rfl, hliteral 'f' _ (by decide)]
  dsimp only
  rw [← List.cons_append, hnumber]

theorem reads_nat (n : Nat) : Reads (showNat n) (.number (showNat n)) :=
  reads_number (fun c hc => Value.isNumberChar_of_numeral (showNat_numeral n c hc))
    (isNumberToken_showNat n)

/-- A field of an object: its key, the text of its value, and what that is read as. -/
structure FieldText where
  key : Text
  text : Text
  tree : JsonTree
  reads : Reads text tree

def FieldText.printed (field : FieldText) : Text :=
  Value.jsonString field.key ++ ':' :: field.text

def FieldText.read (field : FieldText) : Text × JsonTree := (field.key, field.tree)

section Laid

variable {lead gap tail : Text}

/-- A field with blanks behind its colon. -/
def FieldText.laid (gap : Text) (field : FieldText) : Text :=
  Value.jsonString field.key ++ ':' :: (gap ++ field.text)

/-- One field, up to its end. -/
theorem readFields_laid_next (hlead : Blank lead) (hgap : Blank gap) {fuel : Nat}
    {field : FieldText} {r : Text} (hfuel : field.text.length ≤ fuel) (hends : Ends r) :
    readFields (fuel + 1) (lead ++ (field.laid gap ++ r))
      = match expect ',' r with
        | some s => (readFields fuel s).map fun (fields, s) => (field.read :: fields, s)
        | none => (expect '}' r).map fun s => ([field.read], s) := by
  have htext : field.laid gap ++ r
      = '"' :: (field.key.flatMap Value.escapeChar
          ++ '"' :: (':' :: (gap ++ (field.text ++ r)))) := by
    simp [FieldText.laid, Value.jsonString]
  rw [htext, readFields]
  simp only [expect_blank hlead, expect_cons (show isSpace '"' = false by decide),
    expect_cons (show isSpace ':' = false by decide), Option.bind_eq_bind, Option.bind_some,
    readString_printed, readValue_blank hgap, field.reads fuel _ hfuel hends]
  cases expect ',' r with
  | none =>
      dsimp only
      cases expect '}' r with
      | none => rfl
      | some s => rfl
  | some s =>
      dsimp only
      cases readFields fuel s with
      | none => rfl
      | some read => rfl

/-- The fields of an object, each behind the same blanks. -/
theorem readFields_laid (hlead : Blank lead) (hgap : Blank gap) (htail : Blank tail)
    {fields : List FieldText} (hsome : fields ≠ []) {fuel : Nat} (r : Text)
    (hfuel : (List.intercalate [','] (fields.map fun field => lead ++ field.laid gap)).length
      < fuel) :
    readFields fuel (List.intercalate [','] (fields.map fun field => lead ++ field.laid gap)
        ++ (tail ++ '}' :: r))
      = some (fields.map FieldText.read, r) := by
  have hwidth : ∀ field : FieldText, field.text.length < (field.laid gap).length := by
    intro field
    simp only [FieldText.laid, List.length_append, List.length_cons]
    omega
  induction fields generalizing fuel with
  | nil => exact absurd rfl hsome
  | cons field fields ih =>
      obtain ⟨fuel, rfl⟩ := Nat.exists_eq_add_of_lt hfuel
      have hfield := hwidth field
      cases fields with
      | nil =>
          rw [List.map_singleton, List.intercalate_singleton, List.append_assoc] at *
          have hends : Ends (tail ++ '}' :: r) :=
            Ends.blank htail fun c hc => Option.some.inj hc ▸ by decide
          have hcomma : expect ',' (tail ++ '}' :: r) = none := by
            rw [expect_blank htail]
            exact expect_other (by decide) (by decide) r
          rw [readFields_laid_next hlead hgap (by rw [List.length_append]; omega) hends, hcomma]
          dsimp only
          rw [expect_blank htail, expect_cons (by decide)]
          rfl
      | cons next fields =>
          rw [List.map_cons, List.map_cons, List.intercalate_cons_cons] at *
          simp only [List.append_assoc, List.length_append, List.length_singleton] at *
          have hends : ∀ s : Text, Ends ([','] ++ s) :=
            fun s c hc => Option.some.inj hc ▸ by decide
          rw [readFields_laid_next hlead hgap (by omega) (hends _), List.singleton_append,
            expect_cons (by decide)]
          dsimp only
          rw [ih (List.cons_ne_nil _ _) (by omega)]
          rfl

theorem reads_empty_fields : Reads ['{', '}'] (.object []) := by
  intro fuel r hfuel _
  obtain ⟨fuel, rfl⟩ : ∃ n, fuel = n + 1 := Nat.exists_eq_succ_of_ne_zero (by
    rintro rfl
    exact absurd hfuel (by simp))
  unfold readValue
  rw [List.cons_append, expect_other (by decide) (by decide),
    expect_other (by decide) (by decide), expect_cons (by decide), List.cons_append]
  dsimp only
  rw [expect_cons (by decide)]
  rfl

/-- **An object is read back, whatever blanks lie between its fields.** -/
theorem reads_fields (hlead : Blank lead) (hgap : Blank gap) (htail : Blank tail)
    {fields : List FieldText} (hsome : fields ≠ []) :
    Reads ('{' :: (List.intercalate [','] (fields.map fun field => lead ++ field.laid gap)
        ++ (tail ++ ['}'])))
      (.object (fields.map FieldText.read)) := by
  intro fuel r hfuel _
  obtain ⟨fuel, rfl⟩ : ∃ n, fuel = n + 1 := Nat.exists_eq_succ_of_ne_zero (by
    rintro rfl
    exact absurd hfuel (by simp))
  simp only [List.length_cons, List.length_append, List.length_nil] at hfuel
  have hread := readFields_laid hlead hgap htail hsome r (show _ < fuel by omega)
  have hclose : expect '}' (List.intercalate [','] (fields.map fun field => lead ++ field.laid gap)
      ++ (tail ++ '}' :: r)) = none := by
    obtain ⟨field, fields, rfl⟩ := List.exists_cons_of_ne_nil hsome
    rw [List.map_cons, Value.intercalate_comma, List.append_assoc, List.append_assoc,
      expect_blank hlead]
    exact expect_other (show isSpace '"' = false by decide) (by decide) _
  unfold readValue
  rw [List.cons_append, expect_other (by decide) (by decide),
    expect_other (by decide) (by decide), expect_cons (by decide), List.append_assoc,
    List.append_assoc, List.singleton_append]
  dsimp only
  rw [hclose]
  exact congrArg (Option.map fun (fields, rest) => (JsonTree.object fields, rest)) hread

end Laid

/-- The compact text of an object. -/
def objectText (fields : List FieldText) : Text :=
  '{' :: (List.intercalate [','] (fields.map FieldText.printed) ++ ['}'])

/-- **A printed object is read back.** -/
theorem reads_object (fields : List FieldText) :
    Reads (objectText fields) (.object (fields.map FieldText.read)) := by
  by_cases hsome : fields = []
  · subst hsome
    exact reads_empty_fields
  · exact reads_fields blank_nil blank_nil blank_nil hsome

theorem fromStr_of_reads {text : Text} {tree : JsonTree} (h : Reads text tree) :
    fromStr text = some tree := by
  have hread := h (text.length + 1) [] (Nat.le_succ _) (fun _ hc => nomatch hc)
  rw [List.append_nil] at hread
  unfold fromStr
  rw [hread]
  rfl

end JsonTree

end QingzhouSSH
