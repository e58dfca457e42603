/-
  QingzhouSSH.Lib.ShellWords — the words and operators of a command line.

  `Shell.scan` classifies the characters of a line; here the classified characters are put
  together to tokens.  A word keeps for each of its characters whether the shell takes it as
  it is, so that a word that spells a value is told from one that the shell expands.

  Main results:
    * `feedAll_append` — a line is read piece by piece;
    * `feedAll_readsAs` — a piece that reads as a value adds the value to the open word;
    * `tokens_quoted` — a quoted value is one word, wherever a word may stand.
-/
import QingzhouSSH.Lib.Shell

namespace QingzhouSSH.Lib.ShellWords

open QingzhouSSH.Lib.Shell

/-! ## §1. Tokens. -/

structure Word where
  /-- The characters, and whether the shell takes them as they are. -/
  chars : List (Char × Bool)
  /-- A part of the word is quoted. -/
  quoted : Bool
  deriving Repr, DecidableEq

inductive Token where
  | word (value : Word)
  | operator (text : List Char)
  deriving Repr, DecidableEq

def literally (value : List Char) : List (Char × Bool) := value.map fun c => (c, true)

/-- The word that a quoted value is. -/
def Word.ofQuoted (value : List Char) : Word := ⟨literally value, true⟩

/-- The value of a word in which nothing is expanded. -/
def Word.value? (word : Word) : Option (List Char) :=
  if word.chars.all Prod.snd then some (word.chars.map Prod.fst) else none

/-- The token that is not complete yet. -/
inductive Pending where
  | nothing
  | word (value : Word)
  | symbol (text : List Char)
  deriving Repr, DecidableEq

/-- What is complete when the token ends. -/
def Pending.flush : Pending → List Token
  | .nothing => []
  | .word unfinished => [.word unfinished]
  | .symbol text => [.operator text]

/-- What is complete when a character of a word follows. -/
def Pending.beforeWord : Pending → List Token
  | .symbol text => [.operator text]
  | _ => []

/-- The word that a character of a word goes on with. -/
def Pending.current : Pending → Word
  | .word unfinished => unfinished
  | _ => ⟨[], false⟩

/-- The operators of more than one character that no third one follows. -/
def longOperators : List (List Char) :=
  ["&&".toList, "||".toList, ";;".toList, "<<".toList, ">>".toList, "<&".toList, ">&".toList,
    "<>".toList, ">|".toList]

/-- One character goes into the tokens. -/
def feed (pending : Pending) : Char × CharClass → List Token × Pending
  | (c, .lit) =>
      (pending.beforeWord, .word { pending.current with chars := pending.current.chars ++ [(c, true)] })
  | (c, .act) =>
      (pending.beforeWord, .word { pending.current with chars := pending.current.chars ++ [(c, false)] })
  | (_, .quo) => (pending.beforeWord, .word { pending.current with quoted := true })
  | (_, .sep) => (pending.flush, .nothing)
  | (_, .com) => ([], pending)
  | (c, .op) =>
      match pending with
      | .symbol text =>
          if text ++ [c] ∈ longOperators then ([], .symbol (text ++ [c]))
          else ([.operator text], .symbol [c])
      | _ => (pending.flush, .symbol [c])

def feedAll (pending : Pending) : List (Char × CharClass) → List Token × Pending
  | [] => ([], pending)
  | p :: rest =>
      let first := feed pending p
      let more := feedAll first.2 rest
      (first.1 ++ more.1, more.2)

def tokensFrom (pending : Pending) (pairs : List (Char × CharClass)) : List Token :=
  (feedAll pending pairs).1 ++ (feedAll pending pairs).2.flush

/-- The characters of a text with their classes. -/
def classified (s : LexState) (text : List Char) : List (Char × CharClass) :=
  text.zip (scan s text).2

/-- **The tokens of a command line.** -/
def tokens (text : List Char) : List Token := tokensFrom .nothing (classified LexState.start text)

theorem feedAll_cons (pending : Pending) (p : Char × CharClass) (pairs : List (Char × CharClass)) :
    feedAll pending (p :: pairs) = ((feed pending p).1 ++ (feedAll (feed pending p).2 pairs).1,
      (feedAll (feed pending p).2 pairs).2) := rfl

theorem feedAll_append (pending : Pending) (p q : List (Char × CharClass)) :
    feedAll pending (p ++ q) = ((feedAll pending p).1 ++ (feedAll (feedAll pending p).2 q).1,
      (feedAll (feedAll pending p).2 q).2) := by
  induction p generalizing pending with
  | nil => rfl
  | cons first p ih =>
      rw [List.cons_append, feedAll_cons, ih, feedAll_cons]
      simp only [List.append_assoc]

theorem tokensFrom_append (pending : Pending) (p q : List (Char × CharClass)) :
    tokensFrom pending (p ++ q) = (feedAll pending p).1 ++ tokensFrom (feedAll pending p).2 q := by
  unfold tokensFrom
  rw [feedAll_append, List.append_assoc]

theorem classified_append (s : LexState) (p q : List Char) :
    classified s (p ++ q) = classified s p ++ classified (scan s p).1 q := by
  unfold classified
  rw [scan_append]
  exact List.zip_append (scan_length s p).symm

/-! ## §2. A piece that reads as a value. -/

/-- Characters of a word, and quotes. -/
theorem feedAll_word {word : Word} {pairs : List (Char × CharClass)}
    (h : ∀ p ∈ pairs, p.2 = .lit ∨ p.2 = .quo) :
    feedAll (.word word) pairs = ([], .word
      { chars := word.chars ++ literally ((pairs.filter fun p => p.2 == .lit).map Prod.fst)
        quoted := word.quoted || pairs.any fun p => p.2 == .quo }) := by
  induction pairs generalizing word with
  | nil => simp [feedAll, literally]
  | cons p pairs ih =>
      obtain ⟨c, kind⟩ := p
      have hrest := fun p hp => h p (List.mem_cons_of_mem _ hp)
      rw [feedAll_cons]
      rcases h (c, kind) List.mem_cons_self with hkind | hkind
      · obtain rfl : kind = .lit := hkind
        have hplain : (CharClass.lit == CharClass.quo) = false := rfl
        simp only [feed, Pending.beforeWord, Pending.current, ih hrest]
        simp [literally, hplain]
      · obtain rfl : kind = .quo := hkind
        simp only [feed, Pending.beforeWord, Pending.current, ih hrest]
        simp [literally]

theorem feedAll_pending {pending : Pending} {pairs : List (Char × CharClass)} (hne : pairs ≠ [])
    (h : ∀ p ∈ pairs, p.2 = .lit ∨ p.2 = .quo) :
    feedAll pending pairs
      = (pending.beforeWord, (feedAll (.word pending.current) pairs).2) := by
  cases pairs with
  | nil => exact absurd rfl hne
  | cons p pairs =>
      obtain ⟨c, kind⟩ := p
      have hrest := fun p hp => h p (List.mem_cons_of_mem _ hp)
      rw [feedAll_cons, feedAll_cons]
      rcases h (c, kind) List.mem_cons_self with hkind | hkind
      · obtain rfl : kind = .lit := hkind
        simp [feed, Pending.beforeWord, Pending.current, feedAll_word hrest]
      · obtain rfl : kind = .quo := hkind
        simp [feed, Pending.beforeWord, Pending.current, feedAll_word hrest]

/-- A quote stands among the characters. -/
def hasQuote (s : LexState) (text : List Char) : Bool :=
  (classified s text).any fun p => p.2 == .quo

/-- **A piece that reads as a value adds the value to the open word.** -/
theorem feedAll_readsAs {s : LexState} {text value : List Char} (h : ReadsAs s text value)
    (hne : text ≠ []) (pending : Pending) :
    feedAll pending (classified s text) = (pending.beforeWord, .word
      { chars := pending.current.chars ++ literally value
        quoted := pending.current.quoted || hasQuote s text }) := by
  have hpairs : classified s text ≠ [] := by
    cases text with
    | nil => exact absurd rfl hne
    | cons c text => exact List.cons_ne_nil _ _
  have hkinds : ∀ p ∈ classified s text, p.2 = .lit ∨ p.2 = .quo := fun p hp =>
    h.harmless p.2 (List.of_mem_zip hp).2
  rw [feedAll_pending hpairs hkinds, feedAll_word hkinds]
  have hvalue : ((classified s text).filter fun p => p.2 == .lit).map Prod.fst = value := h.spells
  rw [hvalue]
  rfl

theorem hasQuote_quoted {s : LexState} (h : s.Bare) (value : List Char) :
    hasQuote s (quoted value) = true := by
  unfold hasQuote classified quoted
  rw [scan_cons, step_open h]
  rfl

/-! ## §3. Where a word may stand. -/

def Pending.isWord : Pending → Bool
  | .word _ => true
  | _ => false

/-- A token is pending as a word while the shell is in one. -/
structure InStep (s : LexState) (pending : Pending) : Prop where
  outside : s.inWord = false → pending.isWord = false
  quote : s.quote ≠ .bare → s.inWord = true
  escaped : s.escaped = true → s.inWord = true
  comment : s.comment = true → s.quote = .bare ∧ s.escaped = false

theorem isWord_feed (pending : Pending) (c : Char) (kind : CharClass) :
    (feed pending (c, kind)).2.isWord = match kind with
      | .lit | .act | .quo => true
      | .sep | .op => false
      | .com => pending.isWord := by
  cases kind with
  | op =>
      cases pending with
      | symbol text =>
          simp only [feed]
          split <;> rfl
      | _ => rfl
  | _ => rfl

/-- What is not in a word is a blank, an operator or a comment; in quotes and behind a
backslash the shell is in a word, and a comment is neither. -/
structure Steps (s : LexState) (read : LexState × CharClass) : Prop where
  outside : read.1.inWord = false →
    read.2 = .sep ∨ read.2 = .op ∨ read.2 = .com ∧ s.inWord = false
  quote : read.1.quote ≠ .bare → read.1.inWord = true
  escaped : read.1.escaped = true → read.1.inWord = true
  comment : read.1.comment = true → read.1.quote = .bare ∧ read.1.escaped = false

theorem stepBare_steps {s : LexState} (h : s.Bare) (c : Char) : Steps s (stepBare s c) := by
  obtain ⟨hquote, hescaped, hcomment⟩ := h
  generalize hread : stepBare s c = read
  unfold stepBare at hread
  repeat' split at hread
  all_goals
    subst hread
    constructor <;> simp_all

theorem stepDouble_steps {s : LexState} {c : Char} (hin : s.inWord = true)
    (hescaped : s.escaped = false) (hcomment : s.comment = false) : Steps s (stepDouble s c) := by
  generalize hread : stepDouble s c = read
  unfold stepDouble at hread
  repeat' split at hread
  all_goals
    subst hread
    constructor <;> simp_all

theorem InStep.steps {s : LexState} {pending : Pending} (h : InStep s pending) (c : Char) :
    Steps s (step s c) := by
  by_cases hcomment : s.comment = true
  · unfold step
    rw [if_pos hcomment]
    by_cases hline : c = '\n'
    · obtain ⟨hquote, hescaped⟩ := h.comment hcomment
      rw [if_pos hline]
      constructor <;> simp_all
    · rw [if_neg hline]
      exact ⟨fun hout => .inr (.inr ⟨rfl, hout⟩), h.quote, h.escaped, h.comment⟩
  · by_cases hescaped : s.escaped = true
    · have hin := h.escaped hescaped
      unfold step
      rw [if_neg hcomment, if_pos hescaped]
      exact ⟨fun hout => absurd (hin.symm.trans hout) (by decide), fun _ => hin, fun _ => hin,
        fun h => absurd h hcomment⟩
    · cases hquote : s.quote with
      | bare =>
          have hbare : s.Bare := ⟨hquote, by simpa using hescaped, by simpa using hcomment⟩
          rw [step_bare hbare]
          exact stepBare_steps hbare c
      | single =>
          have hin := h.quote (by rw [hquote]; decide)
          unfold step
          rw [if_neg hcomment, if_neg hescaped, hquote]
          dsimp only
          split
          all_goals
            exact ⟨fun hout => absurd (hin.symm.trans hout) (by decide), fun _ => hin,
              fun _ => hin, fun h => absurd h hcomment⟩
      | double =>
          have hin := h.quote (by rw [hquote]; decide)
          unfold step
          rw [if_neg hcomment, if_neg hescaped, hquote]
          exact stepDouble_steps hin (by simpa using hescaped) (by simpa using hcomment)

/-- **A step keeps the tokens in step with the shell.** -/
theorem InStep.feed {s : LexState} {pending : Pending} (h : InStep s pending) (c : Char) :
    InStep (step s c).1 (feed pending (c, (step s c).2)).2 where
  outside := by
    intro hout
    rw [isWord_feed]
    rcases (h.steps c).outside hout with hkind | hkind | ⟨hkind, hbefore⟩
    · rw [hkind]
    · rw [hkind]
    · rw [hkind]
      exact h.outside hbefore
  quote := (h.steps c).quote
  escaped := (h.steps c).escaped
  comment := (h.steps c).comment

theorem InStep.feedAll {s : LexState} {pending : Pending} (h : InStep s pending)
    (text : List Char) :
    InStep (scan s text).1 (feedAll pending (classified s text)).2 := by
  induction text generalizing s pending with
  | nil => exact h
  | cons c text ih => exact ih (h.feed c)

/-- Behind this text the shell is outside quotes, and a word may begin. -/
structure WordStart (front : List Char) : Prop where
  bare : (scan LexState.start front).1.Bare
  outside : (scan LexState.start front).1.inWord = false

/-- With this text a word ends. -/
def WordEnd (back : List Char) : Prop :=
  ∀ c, back.head? = some c → isBlank c = true ∨ isOperator c = true ∨ c = '(' ∨ c = ')'

theorem step_ends {s : LexState} (h : s.Bare) {c : Char}
    (hc : isBlank c = true ∨ isOperator c = true ∨ c = '(' ∨ c = ')') :
    (step s c).2 = .sep ∨ (step s c).2 = .op := by
  rw [step_bare h]
  unfold stepBare
  by_cases hblank : isBlank c = true
  · rw [if_pos hblank]
    exact .inl rfl
  · rw [if_neg hblank]
    by_cases hoperator : isOperator c = true
    · rw [if_pos hoperator]
      exact .inr rfl
    · rw [if_neg hoperator]
      rcases hc with hc | hc | rfl | rfl
      · exact absurd hc hblank
      · exact absurd hc hoperator
      · exact .inr rfl
      · rw [if_neg (by decide), if_pos rfl]
        split <;> exact .inr rfl

/-- A word is complete where it ends. -/
theorem tokensFrom_word {s : LexState} (h : s.Bare) (word : Word) {back : List Char}
    (hback : WordEnd back) :
    tokensFrom (.word word) (classified s back)
      = .word word :: tokensFrom .nothing (classified s back) := by
  cases back with
  | nil => rfl
  | cons c back =>
      have hcons : classified s (c :: back) = (c, (step s c).2) :: classified (step s c).1 back :=
        rfl
      rw [hcons]
      unfold tokensFrom
      rw [feedAll_cons, feedAll_cons]
      rcases step_ends h (hback c rfl) with hkind | hkind
      · rw [hkind]
        rfl
      · rw [hkind]
        rfl

/-- **A piece that reads as a value is one word, wherever a word may stand.** -/
theorem tokens_readsAs {front text value back : List Char} (hfront : WordStart front)
    (hback : WordEnd back) (hne : text ≠ [])
    (h : ReadsAs (scan LexState.start front).1 text value) :
    tokens (front ++ text ++ back) = tokens front
      ++ .word ⟨literally value, hasQuote (scan LexState.start front).1 text⟩
      :: tokensFrom .nothing (classified (scan LexState.start (front ++ text)).1 back) := by
  have hstart : InStep LexState.start .nothing :=
    ⟨fun _ => rfl, fun hq => absurd rfl hq, fun he => absurd he (by decide),
      fun hc => absurd hc (by decide)⟩
  have hpending := (hstart.feedAll front).outside hfront.outside
  unfold tokens
  rw [List.append_assoc, classified_append, classified_append, tokensFrom_append,
    tokensFrom_append, feedAll_readsAs h hne, h.context, tokensFrom_word hfront.bare.inside _ hback]
  have hcontext : (scan LexState.start (front ++ text)).1 = (scan LexState.start front).1.inside := by
    rw [scan_append]
    exact h.context
  rw [hcontext]
  unfold tokensFrom
  -- what is pending is no word, so that it is complete
  cases hlast : (ShellWords.feedAll .nothing (classified LexState.start front)).2 with
  | word unfinished =>
      rw [hlast] at hpending
      exact Bool.noConfusion hpending
  | nothing => simp [Pending.beforeWord, Pending.flush, Pending.current]
  | symbol text => simp [Pending.beforeWord, Pending.flush, Pending.current]

/-- **A quoted value is one word, wherever a word may stand.** -/
theorem tokens_quoted {front back : List Char} (value : List Char) (hfront : WordStart front)
    (hback : WordEnd back) :
    tokens (front ++ quoted value ++ back) = tokens front ++ .word (Word.ofQuoted value)
      :: tokensFrom .nothing
        (classified (scan LexState.start (front ++ quoted value)).1 back) := by
  have hne : quoted value ≠ [] := List.cons_ne_nil _ _
  rw [tokens_readsAs hfront hback hne (readsAs_quoted hfront.bare value),
    hasQuote_quoted hfront.bare]
  rfl

/-! ## §4. The words of a command. -/

/-- The values of the words, when the line has nothing else and nothing is expanded. -/
def literalWords : List Token → Option (List (List Char))
  | [] => some []
  | .word first :: rest =>
      match first.value?, literalWords rest with
      | some value, some values => some (value :: values)
      | _, _ => none
  | .operator _ :: _ => none

@[simp] theorem value?_literally (value : List Char) (quoted : Bool) :
    Word.value? ⟨literally value, quoted⟩ = some value := by
  unfold Word.value? literally
  rw [if_pos (by simp [List.all_map])]
  simp [Function.comp_def]

theorem literalWords_append {front back : List Token} {values more : List (List Char)}
    (hfront : literalWords front = some values) (hback : literalWords back = some more) :
    literalWords (front ++ back) = some (values ++ more) := by
  induction front generalizing values with
  | nil =>
      obtain rfl := Option.some.inj hfront
      exact hback
  | cons token front ih =>
      cases token with
      | operator text => cases hfront
      | word first =>
          unfold literalWords at hfront
          cases hvalue : first.value? with
          | none =>
              rw [hvalue] at hfront
              cases hfront
          | some value =>
              cases hrest : literalWords front with
              | none =>
                  rw [hvalue, hrest] at hfront
                  cases hfront
              | some rest =>
                  rw [hvalue, hrest] at hfront
                  obtain rfl := Option.some.inj hfront
                  rw [List.cons_append]
                  unfold literalWords
                  rw [hvalue, ih hrest]
                  rfl

end QingzhouSSH.Lib.ShellWords
