/-
  QingzhouSSH.Lib.Shell — how a POSIX shell reads the characters of a command.

  `scan` is the token-recognition automaton: it gives every character of a
  command line its class (literal, quoting, blank, operator, active, comment)
  and tracks quoting, escapes, comments and nested `$( … )`.  A piece of text
  placed in a command is harmless when the shell reads it as literal characters
  of one word that spell the intended value: `ReadsAs`.

  Main results:
    * `scan_append` — scanning is compositional;
    * `readsAs_quoted` — a single-quoted value reads as the value;
    * `readsAs_self_iff` — unquoted text reads as itself iff it is `Plain`;
    * `readsAsWords_quoted` — quoted values joined by blanks read as those words.
-/
import Mathlib.Data.List.Basic
import QingzhouSSH.Lib.Text

namespace QingzhouSSH.Lib.Shell

/-! ## §1. The automaton. -/

/-- What the shell does with one character of a command. -/
inductive CharClass where
  /-- The character stands for itself inside the current word. -/
  | lit
  /-- Quoting: removed after the words are formed. -/
  | quo
  /-- An unquoted blank: separates words. -/
  | sep
  /-- An unquoted operator or line break: separates or redirects commands. -/
  | op
  /-- Starts an expansion or a pattern. -/
  | act
  /-- Part of a comment. -/
  | com
  deriving Repr, DecidableEq

/-- The quoting context of the next character. -/
inductive Quote where
  | bare
  | single
  | double
  deriving Repr, DecidableEq

structure LexState where
  quote : Quote
  /-- The previous character was an active backslash. -/
  escaped : Bool
  /-- The previous character was an active dollar sign. -/
  dollar : Bool
  /-- A word is open. -/
  inWord : Bool
  comment : Bool
  /-- Quoting contexts suspended by open parentheses. -/
  stack : List Quote
  deriving Repr, DecidableEq

/-- The shell at the start of a command. -/
def LexState.start : LexState :=
  { quote := .bare, escaped := false, dollar := false, inWord := false,
    comment := false, stack := [] }

/-- Characters that end a word and separate or connect commands. -/
def isOperator (c : Char) : Bool :=
  c == '\n' || c == ';' || c == '&' || c == '|' || c == '<' || c == '>'

def isBlank (c : Char) : Bool := c == ' ' || c == '\t'

/-- Characters that start an expansion or a pattern wherever they stand unquoted. -/
def isActive (c : Char) : Bool :=
  c == '$' || c == '\x60' || c == '*' || c == '?' || c == '['

/-- One character outside quotes. -/
def stepBare (s : LexState) (c : Char) : LexState × CharClass :=
  if isBlank c then ({ s with inWord := false, dollar := false }, .sep)
  else if isOperator c then ({ s with inWord := false, dollar := false }, .op)
  else if c = '(' then
    ({ s with inWord := false, dollar := false, stack := .bare :: s.stack }, .op)
  else if c = ')' then
    match s.stack with
    | [] => ({ s with inWord := false, dollar := false }, .op)
    | q :: rest =>
        ({ s with quote := q, inWord := true, dollar := false, stack := rest }, .op)
  else if c = '\'' then ({ s with quote := .single, inWord := true, dollar := false }, .quo)
  else if c = '"' then ({ s with quote := .double, inWord := true, dollar := false }, .quo)
  else if c = '\\' then ({ s with escaped := true, inWord := true, dollar := false }, .quo)
  else if isActive c then ({ s with inWord := true, dollar := c == '$' }, .act)
  else if !s.inWord && c == '#' then ({ s with comment := true, dollar := false }, .com)
  else if !s.inWord && c == '~' then ({ s with inWord := true, dollar := false }, .act)
  else ({ s with inWord := true, dollar := false }, .lit)

/-- One character inside double quotes, where `$`, backquote and backslash stay active. -/
def stepDouble (s : LexState) (c : Char) : LexState × CharClass :=
  if s.dollar && c == '(' then
    ({ s with quote := .bare, inWord := false, dollar := false,
              stack := .double :: s.stack }, .op)
  else if c = '"' then ({ s with quote := .bare, dollar := false }, .quo)
  else if c = '\\' then ({ s with escaped := true, dollar := false }, .act)
  else if c = '$' then ({ s with dollar := true }, .act)
  else if c = '\x60' then ({ s with dollar := false }, .act)
  else ({ s with dollar := false }, .lit)

def step (s : LexState) (c : Char) : LexState × CharClass :=
  if s.comment then
    if c = '\n' then ({ s with comment := false, inWord := false }, .op) else (s, .com)
  else if s.escaped then
    ({ s with escaped := false }, if c = '\n' then .quo else .lit)
  else
    match s.quote with
    | .single => if c = '\'' then ({ s with quote := .bare }, .quo) else (s, .lit)
    | .double => stepDouble s c
    | .bare => stepBare s c

/-- Read a whole text: the state after it and the class of each of its characters. -/
def scan (s : LexState) : List Char → LexState × List CharClass
  | [] => (s, [])
  | c :: cs =>
      let r := step s c
      let t := scan r.1 cs
      (t.1, r.2 :: t.2)

/-! ## §2. Scanning is compositional. -/

@[simp] theorem scan_nil (s : LexState) : scan s [] = (s, []) := rfl

theorem scan_cons (s : LexState) (c : Char) (cs : List Char) :
    scan s (c :: cs) = ((scan (step s c).1 cs).1, (step s c).2 :: (scan (step s c).1 cs).2) := rfl

theorem scan_append (s : LexState) (p q : List Char) :
    scan s (p ++ q) =
      ((scan (scan s p).1 q).1, (scan s p).2 ++ (scan (scan s p).1 q).2) := by
  induction p generalizing s with
  | nil => rfl
  | cons c p ih =>
      rw [List.cons_append, scan_cons, ih, scan_cons]
      rfl

theorem scan_length (s : LexState) (p : List Char) : (scan s p).2.length = p.length := by
  induction p generalizing s with
  | nil => rfl
  | cons c p ih => rw [scan_cons, List.length_cons, ih, List.length_cons]

/-! ## §3. Reading a piece of text as one value. -/

/-- The characters of `text` that the shell keeps as literal word characters. -/
def literals (text : List Char) (classes : List CharClass) : List Char :=
  ((text.zip classes).filter fun p => p.2 == .lit).map Prod.fst

/-- Outside quotes, escapes and comments: a word may be open or not. -/
structure LexState.Bare (s : LexState) : Prop where
  quote : s.quote = .bare
  escaped : s.escaped = false
  comment : s.comment = false

/-- The state after a word character outside quotes. -/
def LexState.inside (s : LexState) : LexState := { s with inWord := true, dollar := false }

/-- In an unquoted context only `stepBare` applies. -/
theorem step_bare {s : LexState} (h : s.Bare) (c : Char) : step s c = stepBare s c := by
  rw [step, if_neg (by rw [h.comment]; simp), if_neg (by rw [h.escaped]; simp), h.quote]

theorem LexState.Bare.inside {s : LexState} (h : s.Bare) : s.inside.Bare :=
  ⟨h.quote, h.escaped, h.comment⟩

@[simp] theorem LexState.inside_inside (s : LexState) : s.inside.inside = s.inside := rfl

/-- From `s` the shell reads `text` as literal characters of the current word that
spell `value`: no blank, operator, expansion or comment comes from it, and the
quoting context is the same afterwards. -/
structure ReadsAs (s : LexState) (text value : List Char) : Prop where
  context : (scan s text).1 = s.inside
  harmless : ∀ k ∈ (scan s text).2, k = .lit ∨ k = .quo
  spells : literals text (scan s text).2 = value

/-! ## §4. Single-quoted text. -/

/-- How a character is written between single quotes: a single quote closes the
quotes, is quoted by itself in double quotes, and reopens them. -/
def quoteChar (c : Char) : List Char :=
  if c = '\'' then ['\'', '"', '\'', '"', '\''] else [c]

/-- `value` in single quotes. -/
def quoted (value : List Char) : List Char := '\'' :: (value.flatMap quoteChar ++ ['\''])

/-- Inside single quotes of the word opened at `s`. -/
def LexState.singled (s : LexState) : LexState :=
  { s with quote := .single, inWord := true, dollar := false }

theorem step_singled {s : LexState} (h : s.Bare) (c : Char) :
    step s.singled c = if c = '\'' then (s.inside, .quo) else (s.singled, .lit) := by
  rw [step, if_neg (by simp [LexState.singled, h.comment]),
    if_neg (by simp [LexState.singled, h.escaped])]
  show (if c = '\'' then ({ s.singled with quote := .bare }, CharClass.quo) else _) = _
  rw [← h.quote]
  rfl

theorem step_open {s : LexState} (h : s.Bare) : step s '\'' = (s.singled, .quo) := by
  rw [step_bare h]
  rfl

theorem step_single_lit {s : LexState} (h : s.Bare) {c : Char} (hne : c ≠ '\'') :
    step s.singled c = (s.singled, .lit) := by
  rw [step_singled h, if_neg hne]

theorem step_single_close {s : LexState} (h : s.Bare) :
    step s.singled '\'' = (s.inside, .quo) := by
  rw [step_singled h, if_pos rfl]

theorem scan_quoteChar {s : LexState} (h : s.Bare) (c : Char) :
    (scan s.singled (quoteChar c)).1 = s.singled
      ∧ (∀ k ∈ (scan s.singled (quoteChar c)).2, k = .lit ∨ k = .quo)
      ∧ literals (quoteChar c) (scan s.singled (quoteChar c)).2 = [c] := by
  by_cases hc : c = '\''
  · subst hc
    obtain ⟨hq, he, hco⟩ := h
    simp [quoteChar, scan, step, stepBare, stepDouble, LexState.singled, isBlank, isOperator,
      he, hco, literals]
  · rw [quoteChar, if_neg hc, scan_cons, step_single_lit h hc]
    simp [literals]

theorem literals_append {p q : List Char} {a b : List CharClass} (h : p.length = a.length) :
    literals (p ++ q) (a ++ b) = literals p a ++ literals q b := by
  unfold literals
  rw [List.zip_append h, List.filter_append, List.map_append]

theorem scan_singled_body {s : LexState} (h : s.Bare) (value : List Char) :
    (scan s.singled (value.flatMap quoteChar)).1 = s.singled
      ∧ (∀ k ∈ (scan s.singled (value.flatMap quoteChar)).2, k = .lit ∨ k = .quo)
      ∧ literals (value.flatMap quoteChar)
          (scan s.singled (value.flatMap quoteChar)).2 = value := by
  induction value with
  | nil => exact ⟨rfl, by simp, rfl⟩
  | cons c value ih =>
      obtain ⟨h1, h2, h3⟩ := scan_quoteChar h c
      obtain ⟨i1, i2, i3⟩ := ih
      rw [List.flatMap_cons, scan_append, h1]
      refine ⟨i1, ?_, ?_⟩
      · intro k hk
        rcases List.mem_append.mp hk with hk | hk
        · exact h2 k hk
        · exact i2 k hk
      · rw [literals_append (scan_length _ _).symm, h3, i3]
        rfl

/-- **A single-quoted value reads as the value, in any word position.** -/
theorem readsAs_quoted {s : LexState} (h : s.Bare) (value : List Char) :
    ReadsAs s (quoted value) value := by
  obtain ⟨b1, b2, b3⟩ := scan_singled_body h value
  have hscan : scan s (quoted value)
      = (s.inside, .quo :: ((scan s.singled (value.flatMap quoteChar)).2 ++ [.quo])) := by
    rw [quoted, scan_cons, step_open h, scan_append, b1, scan_cons, step_single_close h]
    rfl
  refine ⟨by rw [hscan], ?_, ?_⟩
  · intro k hk
    rw [hscan] at hk
    simp only [List.mem_cons, List.mem_append, List.not_mem_nil, or_false] at hk
    rcases hk with rfl | hk | rfl
    · exact Or.inr rfl
    · exact b2 k hk
    · exact Or.inr rfl
  · rw [hscan]
    show literals (value.flatMap quoteChar ++ ['\'']) (_ ++ [.quo]) = value
    rw [literals_append (scan_length _ _).symm, b3]
    show value ++ [] = value
    rw [List.append_nil]

/-! ## §5. Unquoted text. -/

/-- The characters with a meaning to the shell inside an open word. -/
def specials : List Char :=
  [' ', '\t', '\n', ';', '&', '|', '<', '>', '$', '\x60', '*', '?', '[', '(', ')', '\'', '"', '\\']

/-- Characters without any meaning to the shell inside an open word. -/
def isPlain (c : Char) : Bool := !specials.contains c

/-- A plain character is none of those that `stepBare` treats apart. -/
theorem isPlain_iff {c : Char} : isPlain c = true ↔
    isBlank c = false ∧ isOperator c = false ∧ isActive c = false
      ∧ c ≠ '(' ∧ c ≠ ')' ∧ c ≠ '\'' ∧ c ≠ '"' ∧ c ≠ '\\' := by
  simp [isPlain, specials, isBlank, isOperator, isActive, and_assoc]

/-- A class of characters that contains no special one is plain. -/
theorem isPlain_of_class (p : Char → Bool) (hp : ∀ d ∈ specials, p d = false) {c : Char}
    (hc : p c = true) : isPlain c = true := by
  rw [isPlain, Bool.not_eq_true', List.contains_eq_mem, decide_eq_false_iff_not]
  intro hmem
  rw [hp c hmem] at hc
  exact absurd hc (by simp)

/-- Text in which every character is plain. -/
def Plain (text : List Char) : Prop := ∀ c ∈ text, isPlain c = true

instance (text : List Char) : Decidable (Plain text) := by
  unfold Plain
  infer_instance

/-- Text that does not start with a character special at the start of a word. -/
def PlainStart (text : List Char) : Prop := text.head? ≠ some '#' ∧ text.head? ≠ some '~'

instance (text : List Char) : Decidable (PlainStart text) := by
  unfold PlainStart
  infer_instance

theorem step_plain {s : LexState} (h : s.Bare) {c : Char} (hc : isPlain c = true)
    (hstart : s.inWord = true ∨ (c ≠ '#' ∧ c ≠ '~')) : step s c = (s.inside, .lit) := by
  obtain ⟨hb, ho, ha, h1, h2, h3, h4, h5⟩ := isPlain_iff.mp hc
  have hcom : ¬ (!s.inWord && c == '#') = true := by
    rcases hstart with hw | ⟨h6, _⟩
    · rw [hw]
      simp
    · rw [beq_false_of_ne h6]
      simp
  have htil : ¬ (!s.inWord && c == '~') = true := by
    rcases hstart with hw | ⟨_, h7⟩
    · rw [hw]
      simp
    · rw [beq_false_of_ne h7]
      simp
  rw [step_bare h, stepBare, if_neg (by rw [hb]; simp), if_neg (by rw [ho]; simp), if_neg h1,
    if_neg h2, if_neg h3, if_neg h4, if_neg h5, if_neg (by rw [ha]; simp), if_neg hcom,
    if_neg htil]
  rfl

theorem isPlain_of_step_lit {s : LexState} (h : s.Bare) {c : Char}
    (hlit : (step s c).2 = .lit) :
    isPlain c = true ∧ (s.inWord = true ∨ (c ≠ '#' ∧ c ≠ '~')) := by
  rw [step_bare h, stepBare] at hlit
  -- every branch of `stepBare` but the last gives another class
  by_cases hb : isBlank c = true
  · rw [if_pos hb] at hlit
    cases hlit
  rw [if_neg hb] at hlit
  by_cases ho : isOperator c = true
  · rw [if_pos ho] at hlit
    cases hlit
  rw [if_neg ho] at hlit
  by_cases h1 : c = '('
  · rw [if_pos h1] at hlit
    cases hlit
  rw [if_neg h1] at hlit
  by_cases h2 : c = ')'
  · rw [if_pos h2] at hlit
    cases hst : s.stack <;> rw [hst] at hlit <;> cases hlit
  rw [if_neg h2] at hlit
  by_cases h3 : c = '\''
  · rw [if_pos h3] at hlit
    cases hlit
  rw [if_neg h3] at hlit
  by_cases h4 : c = '"'
  · rw [if_pos h4] at hlit
    cases hlit
  rw [if_neg h4] at hlit
  by_cases h5 : c = '\\'
  · rw [if_pos h5] at hlit
    cases hlit
  rw [if_neg h5] at hlit
  by_cases ha : isActive c = true
  · rw [if_pos ha] at hlit
    cases hlit
  rw [if_neg ha] at hlit
  by_cases h6 : (!s.inWord && c == '#') = true
  · rw [if_pos h6] at hlit
    cases hlit
  rw [if_neg h6] at hlit
  by_cases h7 : (!s.inWord && c == '~') = true
  · rw [if_pos h7] at hlit
    cases hlit
  rw [if_neg h7] at hlit
  rw [Bool.not_eq_true] at hb ho ha
  refine ⟨isPlain_iff.mpr ⟨hb, ho, ha, h1, h2, h3, h4, h5⟩, ?_⟩
  by_cases hw : s.inWord = true
  · exact Or.inl hw
  · right
    rw [Bool.not_eq_true] at hw
    simp only [hw, Bool.not_false, Bool.true_and, beq_iff_eq] at h6 h7
    exact ⟨h6, h7⟩

theorem scan_inside_plain {s : LexState} (h : s.Bare) {text : List Char} (hp : Plain text) :
    scan s.inside text = (s.inside, List.replicate text.length .lit) := by
  induction text with
  | nil => rfl
  | cons c text ih =>
      rw [scan_cons, step_plain h.inside (hp c List.mem_cons_self) (Or.inl rfl),
        LexState.inside_inside, ih (fun d hd => hp d (List.mem_cons_of_mem c hd))]
      rfl

theorem literals_replicate_lit (text : List Char) :
    literals text (List.replicate text.length .lit) = text := by
  induction text with
  | nil => rfl
  | cons c text ih =>
      show c :: literals text (List.replicate text.length .lit) = _
      rw [ih]

theorem literals_length_le (text : List Char) (classes : List CharClass) :
    (literals text classes).length ≤ text.length := by
  unfold literals
  rw [List.length_map]
  calc _ ≤ (text.zip classes).length := List.length_filter_le _ _
    _ ≤ text.length := by rw [List.length_zip]; exact Nat.min_le_left _ _

/-- A text that keeps all its characters has only literal characters. -/
theorem lit_of_literals_eq_self {text : List Char} {classes : List CharClass}
    (hlen : classes.length = text.length) (h : literals text classes = text) :
    ∀ k ∈ classes, k = .lit := by
  induction text generalizing classes with
  | nil =>
      rw [List.length_nil, List.length_eq_zero_iff] at hlen
      simp [hlen]
  | cons c text ih =>
      cases classes with
      | nil => simp at hlen
      | cons k classes =>
          have hlen' : classes.length = text.length := by simpa using hlen
          by_cases hk : k = .lit
          · subst hk
            have htail : literals text classes = text := by
              have h' : c :: literals text classes = c :: text := h
              exact (List.cons.inj h').2
            intro j hj
            rcases List.mem_cons.mp hj with rfl | hj
            · rfl
            · exact ih hlen' htail j hj
          · have h' : literals text classes = c :: text := by
              rw [← h]
              simp [literals, hk]
            have hle := literals_length_le text classes
            rw [h', List.length_cons] at hle
            omega

theorem plain_of_scan_lit {s : LexState} (h : s.Bare) {text : List Char}
    (hl : ∀ k ∈ (scan s text).2, k = .lit) : Plain text := by
  induction text generalizing s with
  | nil => intro c hc; exact absurd hc (by simp)
  | cons c text ih =>
      rw [scan_cons] at hl
      obtain ⟨hp, hs⟩ := isPlain_of_step_lit h (hl _ List.mem_cons_self)
      rw [step_plain h hp hs] at hl
      intro d hd
      rcases List.mem_cons.mp hd with rfl | hd
      · exact hp
      · exact ih h.inside (fun k hk => hl k (List.mem_cons_of_mem _ hk)) d hd

theorem readsAs_of_plain {s : LexState} (h : s.Bare) {text : List Char} (hne : text ≠ [])
    (hstart : PlainStart text) (hp : Plain text) : ReadsAs s text text := by
  cases text with
  | nil => exact absurd rfl hne
  | cons c text =>
      have hc : s.inWord = true ∨ (c ≠ '#' ∧ c ≠ '~') :=
        Or.inr ⟨fun e => hstart.1 (by rw [e]; rfl), fun e => hstart.2 (by rw [e]; rfl)⟩
      have htail : Plain text := fun d hd => hp d (List.mem_cons_of_mem c hd)
      have hscan : scan s (c :: text)
          = (s.inside, List.replicate (c :: text).length .lit) := by
        rw [scan_cons, step_plain h (hp c List.mem_cons_self) hc,
          scan_inside_plain h htail]
        rfl
      refine ⟨by rw [hscan], ?_, ?_⟩
      · intro k hk
        rw [hscan] at hk
        exact Or.inl (List.eq_of_mem_replicate hk)
      · rw [hscan]
        exact literals_replicate_lit (c :: text)

/-- **Unquoted text reads as itself exactly when all its characters are plain.** -/
theorem readsAs_self_iff {s : LexState} (h : s.Bare) {text : List Char} (hne : text ≠ [])
    (hstart : PlainStart text) : ReadsAs s text text ↔ Plain text := by
  constructor
  · intro hr
    exact plain_of_scan_lit h (lit_of_literals_eq_self (scan_length s text) hr.spells)
  · exact readsAs_of_plain h hne hstart

/-! ## §6. Several words. -/

/-- The state after the blank that ends a word. -/
def LexState.afterBlank (s : LexState) : LexState := { s with inWord := false, dollar := false }

theorem LexState.Bare.afterBlank {s : LexState} (h : s.Bare) : s.afterBlank.Bare :=
  ⟨h.quote, h.escaped, h.comment⟩

theorem step_blank {s : LexState} (h : s.Bare) : step s.inside ' ' = (s.afterBlank, .sep) := by
  obtain ⟨hq, he, hc⟩ := h
  simp [step, hq, he, hc, stepBare, isBlank, LexState.inside, LexState.afterBlank]

/-- `text` is a sequence of words separated by single blanks; each reads as its value. -/
inductive ReadsAsWords : LexState → List Char → List (List Char) → Prop where
  | one {s : LexState} {text word : List Char} :
      ReadsAs s text word → ReadsAsWords s text [word]
  | cons {s : LexState} {text word rest : List Char} {words : List (List Char)} :
      ReadsAs s text word → (step (scan s text).1 ' ').2 = .sep →
      ReadsAsWords (step (scan s text).1 ' ').1 rest words →
      ReadsAsWords s (text ++ ' ' :: rest) (word :: words)

/-- **Quoted values joined by blanks read as those values.** -/
theorem readsAsWords_quoted {s : LexState} (h : s.Bare) {words : List (List Char)}
    (hne : words ≠ []) :
    ReadsAsWords s (List.intercalate [' '] (words.map quoted)) words := by
  induction words generalizing s with
  | nil => exact absurd rfl hne
  | cons w words ih =>
      cases words with
      | nil =>
          rw [List.map_cons, List.map_nil, List.intercalate_singleton]
          exact .one (readsAs_quoted h w)
      | cons v words =>
          have hword := readsAs_quoted h w
          have hrest := ih h.afterBlank (by simp)
          rw [List.map_cons] at hrest ⊢
          rw [List.map_cons, List.intercalate_cons_cons, List.append_assoc]
          refine .cons hword ?_ ?_
          · rw [hword.context, step_blank h]
          · rw [hword.context, step_blank h]
            exact hrest

end QingzhouSSH.Lib.Shell
