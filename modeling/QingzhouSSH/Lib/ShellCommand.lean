/-
  QingzhouSSH.Lib.ShellCommand — a simple command with a here-document.

  The first line gives the words of the command; when it ends with `<<` and a quoted word,
  the lines up to that word are the input of the command, as they stand.  `env` takes the
  assignments among its words for the environment of the command that follows them.

  Main results:
    * `readCommand_hereDocument` — a line of words with a here-document that it cannot end;
    * `Spaced.literalWords` — words that are read one by one.
-/
import Mathlib.Data.List.TakeDrop
import Mathlib.Data.List.TakeWhile
import QingzhouSSH.Lib.ShellWords
import QingzhouSSH.Lib.Splitting

namespace QingzhouSSH.Lib.ShellCommand

open QingzhouSSH.Lib.Shell
open QingzhouSSH.Lib.ShellWords

/-! ## §1. Reading a command. -/

/-- The tokens of the first line, and the text behind it. -/
def splitLine (s : LexState) : List Char → List (Char × CharClass) × Option (List Char)
  | [] => ([], none)
  | c :: text =>
      if c = '\n' ∧ (step s c).2 = .op then ([], some text)
      else ((c, (step s c).2) :: (splitLine (step s c).1 text).1, (splitLine (step s c).1 text).2)

/-- The words of a line, with the delimiter when it ends with a here-document. -/
def readWords : List Token → Option (List (List Char) × Option (List Char))
  | [] => some ([], none)
  | [.operator text, .word delimiter] =>
      if text = ['<', '<'] ∧ delimiter.quoted then
        delimiter.value?.map fun value => ([], some value)
      else none
  | .word first :: rest =>
      match first.value?, readWords rest with
      | some value, some (values, delimiter) => some (value :: values, delimiter)
      | _, _ => none
  | _ => none

/-- The lines up to the delimiter, and the ones behind it. -/
def hereDocument (delimiter : List Char) : List (List Char) → Option (List Char × List (List Char))
  | [] => none
  | line :: lines =>
      if line = delimiter then some ([], lines)
      else (hereDocument delimiter lines).map fun r => (line ++ '\n' :: r.1, r.2)

structure Command where
  words : List (List Char)
  /-- What a here-document puts into its input. -/
  input : Option (List Char)
  deriving Repr, DecidableEq

/-- A text that is one simple command; nothing may follow it. -/
def readCommand (text : List Char) : Option Command :=
  match readWords (tokensFrom .nothing (splitLine LexState.start text).1),
    (splitLine LexState.start text).2 with
  | some (words, none), none => some ⟨words, none⟩
  | some (words, some delimiter), some rest =>
      match hereDocument delimiter (rest.splitOn '\n') with
      | some (input, []) => some ⟨words, some input⟩
      | _ => none
  | _, _ => none

/-- What `env` starts. -/
structure Started where
  environment : List (List Char × List Char)
  arguments : List (List Char)
  deriving Repr, DecidableEq

/-- The assignments in front, and the other words. -/
def takeAssignments : List (List Char) → List (List Char × List Char) × List (List Char)
  | [] => ([], [])
  | word :: words =>
      match word.span (· ≠ '=') with
      | (name, _ :: value) => ((name, value) :: (takeAssignments words).1, (takeAssignments words).2)
      | (_, []) => ([], word :: words)

/-- `env` with assignments and a command, but without options. -/
def startedByEnv : List (List Char) → Option Started
  | command :: words =>
      if command = ['e', 'n', 'v'] ∧ (words.head?.bind List.head?) ≠ some '-' then
        some ⟨(takeAssignments words).1, (takeAssignments words).2⟩
      else none
  | [] => none

/-! ## §2. Words that are read one by one. -/

/-- A piece of text that spells a value in every place outside quotes. -/
def Spells (piece value : List Char) : Prop := piece ≠ [] ∧ ∀ s : LexState, s.Bare → ReadsAs s piece value

theorem readsAs_append {s : LexState} {p q a b : List Char} (hp : ReadsAs s p a)
    (hq : ReadsAs s.inside q b) : ReadsAs s (p ++ q) (a ++ b) where
  context := by
    rw [scan_append, hp.context]
    exact hq.context
  harmless := by
    intro kind hkind
    rw [scan_append, hp.context] at hkind
    rcases List.mem_append.mp hkind with hkind | hkind
    · exact hp.harmless kind hkind
    · exact hq.harmless kind hkind
  spells := by
    rw [scan_append, hp.context, literals_append (scan_length s p).symm, hp.spells, hq.spells]

theorem Spells.append {p q a b : List Char} (hp : Spells p a) (hq : Spells q b) :
    Spells (p ++ q) (a ++ b) := by
  refine ⟨?_, fun s hs => readsAs_append (hp.2 s hs) (hq.2 s.inside hs.inside)⟩
  intro hnil
  exact hp.1 (List.append_eq_nil_iff.mp hnil).1

theorem spells_plain {text : List Char} (hne : text ≠ []) (hstart : PlainStart text)
    (hplain : Plain text) : Spells text text :=
  ⟨hne, fun _ hs => readsAs_of_plain hs hne hstart hplain⟩

/-- Words with a blank in front of each. -/
inductive Spaced : List Char → List (List Char) → Prop where
  | nil : Spaced [] []
  | cons {piece value text : List Char} {values : List (List Char)} (first : Spells piece value)
      (rest : Spaced text values) : Spaced (' ' :: piece ++ text) (value :: values)

theorem Spaced.append {p q : List Char} {a b : List (List Char)} (hp : Spaced p a)
    (hq : Spaced q b) : Spaced (p ++ q) (a ++ b) := by
  induction hp with
  | nil => exact hq
  | cons first _ ih =>
      rw [List.append_assoc, List.cons_append]
      exact .cons first ih

/-- No line ends among the characters. -/
def NoLineEnd (pairs : List (Char × CharClass)) : Prop := ∀ p ∈ pairs, ¬ (p.1 = '\n' ∧ p.2 = .op)

theorem noLineEnd_of_readsAs {s : LexState} {text value : List Char} (h : ReadsAs s text value) :
    NoLineEnd (classified s text) := by
  rintro p hp ⟨-, hkind⟩
  rcases h.harmless p.2 (List.of_mem_zip hp).2 with hlit | hquo
  · rw [hlit] at hkind
    cases hkind
  · rw [hquo] at hkind
    cases hkind

/-- **Words that are read one by one, behind a word.** -/
theorem Spaced.read {text : List Char} {values : List (List Char)} (h : Spaced text values)
    {s : LexState} (hs : s.Bare) (hinside : s.inside = s) (word : Word) :
    (scan s text).1 = s ∧ NoLineEnd (classified s text)
      ∧ ∃ (words : List Word) (last : Word),
        feedAll (.word word) (classified s text) = (words.map Token.word, .word last)
        ∧ (words ++ [last]).map Word.value? = word.value? :: values.map some := by
  induction h generalizing word with
  | nil => exact ⟨rfl, nofun, [], word, rfl, rfl⟩
  | @cons piece value text values first _ ih =>
      have hblank : step s ' ' = (s.afterBlank, .sep) := by
        rw [← hinside]
        exact step_blank hs
      have hpiece := first.2 s.afterBlank hs.afterBlank
      have hback : (scan s.afterBlank piece).1 = s := hpiece.context.trans hinside
      obtain ⟨hstate, hends, words, last, hfeed, hvalues⟩ :=
        ih ⟨[] ++ literally value, false || hasQuote s.afterBlank piece⟩
      have hpairs : classified s (' ' :: piece ++ text)
          = (' ', .sep) :: (classified s.afterBlank piece ++ classified s text) := by
        have hcons : classified s (' ' :: (piece ++ text))
            = (' ', (step s ' ').2) :: classified (step s ' ').1 (piece ++ text) := rfl
        rw [List.cons_append, hcons, hblank, classified_append, hback]
      refine ⟨?_, ?_, word :: words, last, ?_, ?_⟩
      · rw [List.cons_append, scan_cons, hblank, scan_append, hback]
        exact hstate
      · rw [hpairs]
        refine List.forall_mem_cons.mpr ⟨by decide, ?_⟩
        intro p hp
        rcases List.mem_append.mp hp with hp | hp
        · exact noLineEnd_of_readsAs hpiece p hp
        · exact hends p hp
      · have hfirst : feed (.word word) (' ', .sep) = ([.word word], .nothing) := rfl
        have hword : feedAll .nothing (classified s.afterBlank piece)
            = ([], .word ⟨[] ++ literally value, false || hasQuote s.afterBlank piece⟩) :=
          feedAll_readsAs hpiece first.1 .nothing
        rw [hpairs, feedAll_cons, hfirst, feedAll_append, hword, hfeed]
        rfl
      · rw [List.cons_append, List.map_cons, hvalues, List.map_cons, List.nil_append,
          value?_literally]

theorem splitLine_cons (s : LexState) (c : Char) (text : List Char) :
    splitLine s (c :: text) = if c = '\n' ∧ (step s c).2 = .op then ([], some text)
      else ((c, (step s c).2) :: (splitLine (step s c).1 text).1,
        (splitLine (step s c).1 text).2) := rfl

/-- A line is read up to its end. -/
theorem splitLine_append {s : LexState} {line rest : List Char}
    (h : NoLineEnd (classified s line)) :
    splitLine s (line ++ rest) = (classified s line ++ (splitLine (scan s line).1 rest).1,
      (splitLine (scan s line).1 rest).2) := by
  induction line generalizing s with
  | nil => rfl
  | cons c line ih =>
      have hcons : classified s (c :: line) = (c, (step s c).2) :: classified (step s c).1 line :=
        rfl
      rw [hcons] at h
      obtain ⟨hfirst, hrest⟩ := List.forall_mem_cons.mp h
      rw [List.cons_append, hcons, splitLine_cons, if_neg hfirst, ih hrest]
      rfl

/-! ## §3. A here-document. -/

/-- **A here-document ends at its delimiter, when no line before is the delimiter.** -/
theorem hereDocument_lines {delimiter : List Char} {lines : List (List Char)}
    (h : delimiter ∉ lines) (hne : lines ≠ []) :
    hereDocument delimiter (lines ++ [delimiter])
      = some (['\n'].intercalate lines ++ ['\n'], []) := by
  induction lines with
  | nil => exact absurd rfl hne
  | cons line lines ih =>
      rw [List.mem_cons, not_or] at h
      obtain ⟨hline, hlines⟩ := h
      rw [List.cons_append]
      unfold hereDocument
      rw [if_neg (Ne.symm hline)]
      cases lines with
      | nil =>
          rw [List.nil_append, List.intercalate_singleton]
          unfold hereDocument
          rw [if_pos rfl]
          rfl
      | cons next lines =>
          rw [ih hlines (List.cons_ne_nil _ _), List.intercalate_cons_cons]
          simp

theorem intercalate_snoc {line : List Char} {lines : List (List Char)} (hne : lines ≠ []) :
    ['\n'].intercalate (lines ++ [line]) = ['\n'].intercalate lines ++ '\n' :: line := by
  induction lines with
  | nil => exact absurd rfl hne
  | cons first lines ih =>
      cases lines with
      | nil => simp
      | cons next lines =>
          rw [List.cons_append, List.cons_append, List.intercalate_cons_cons,
            ← List.cons_append, ih (List.cons_ne_nil _ _), List.intercalate_cons_cons]
          simp

/-- A line is part of the text. -/
theorem infix_intercalate {line : List Char} (front back : List (List Char)) :
    line <:+: ['\n'].intercalate (front ++ line :: back) := by
  induction front with
  | nil =>
      cases back with
      | nil =>
          have hone : ['\n'].intercalate ([] ++ [line]) = line := List.intercalate_singleton
          exact hone.symm ▸ List.infix_refl line
      | cons next back =>
          rw [List.nil_append, List.intercalate_cons_cons]
          exact ⟨[], '\n' :: ['\n'].intercalate (next :: back), by simp⟩
  | cons first front ih =>
      obtain ⟨before, after, hmid⟩ := ih
      cases hrest : front ++ line :: back with
      | nil => simp at hrest
      | cons next rest =>
          rw [List.cons_append, hrest, List.intercalate_cons_cons, ← hrest, ← hmid]
          exact ⟨first ++ '\n' :: before, after, by simp⟩

/-- **A body that the delimiter does not occur in is the input as it stands.** -/
theorem hereDocument_body {delimiter body : List Char} (hline : '\n' ∉ delimiter)
    (hbody : ¬ delimiter <:+: body) :
    hereDocument delimiter ((body ++ '\n' :: delimiter).splitOn '\n')
      = some (body ++ ['\n'], []) := by
  have hne : body.splitOn '\n' ≠ [] := List.splitOn_ne_nil _ _
  have hjoined : ['\n'].intercalate (body.splitOn '\n') = body := List.intercalate_splitOn '\n'
  have hsplit : (body ++ '\n' :: delimiter).splitOn '\n' = body.splitOn '\n' ++ [delimiter] := by
    have hwhole : body ++ '\n' :: delimiter
        = ['\n'].intercalate (body.splitOn '\n' ++ [delimiter]) := by
      rw [intercalate_snoc hne, hjoined]
    rw [hwhole]
    apply List.splitOn_intercalate
    · intro line hmem
      rcases List.mem_append.mp hmem with hmem | hmem
      · exact Splitting.splitOn_free hmem
      · obtain rfl := List.mem_singleton.mp hmem
        exact hline
    · simp
  have hnot : delimiter ∉ body.splitOn '\n' := by
    intro hmem
    obtain ⟨front, back, hlines⟩ := List.append_of_mem hmem
    refine hbody ?_
    rw [← hjoined, hlines]
    exact infix_intercalate front back
  rw [hsplit, hereDocument_lines hnot hne, hjoined]

theorem readWords_hereDocument {words : List Word} {values : List (List Char)}
    (h : words.map Word.value? = values.map some) (delimiter : List Char) :
    readWords (words.map Token.word
        ++ [.operator ['<', '<'], .word (Word.ofQuoted delimiter)])
      = some (values, some delimiter) := by
  induction words generalizing values with
  | nil =>
      cases values with
      | nil =>
          show (if _ then (Word.ofQuoted delimiter).value?.map _ else none) = _
          unfold Word.ofQuoted
          rw [if_pos ⟨rfl, rfl⟩, value?_literally]
          rfl
      | cons value values => cases h
  | cons word words ih =>
      cases values with
      | nil => cases h
      | cons value values =>
          rw [List.map_cons, List.map_cons] at h
          obtain ⟨hvalue, hvalues⟩ := List.cons.inj h
          rw [List.map_cons, List.cons_append]
          cases hrest : words.map Token.word
              ++ [.operator ['<', '<'], .word (Word.ofQuoted delimiter)] with
          | nil => simp at hrest
          | cons next rest =>
              unfold readWords
              rw [← hrest, ih hvalues, hvalue]

/-- The operator and the delimiter of a here-document, behind a word. -/
theorem feedAll_redirect (last : Word) (delimiter : List Char) :
    let line := " <<".toList ++ quoted delimiter
    (scan LexState.start.inside line).1 = LexState.start.inside
      ∧ NoLineEnd (classified LexState.start.inside line)
      ∧ tokensFrom (.word last) (classified LexState.start.inside line)
        = [.word last, .operator ['<', '<'], .word (Word.ofQuoted delimiter)] := by
  intro line
  have hstate : (scan LexState.start.inside " <<".toList).1 = LexState.start := by decide
  have hquoted := readsAs_quoted (s := LexState.start) ⟨rfl, rfl, rfl⟩ delimiter
  have hpairs : classified LexState.start.inside line
      = [(' ', .sep), ('<', .op), ('<', .op)] ++ classified LexState.start (quoted delimiter) := by
    show classified _ (" <<".toList ++ quoted delimiter) = _
    rw [classified_append, hstate]
    rfl
  refine ⟨?_, ?_, ?_⟩
  · show (scan _ (" <<".toList ++ quoted delimiter)).1 = _
    rw [scan_append, hstate]
    exact hquoted.context
  · rw [hpairs]
    intro p hp
    rcases List.mem_append.mp hp with hp | hp
    · have hall : ∀ p ∈ [(' ', CharClass.sep), ('<', .op), ('<', .op)],
          ¬ (p.1 = '\n' ∧ p.2 = .op) := by decide
      exact hall p hp
    · exact noLineEnd_of_readsAs hquoted p hp
  · have hoperator : feedAll (.word last) [(' ', .sep), ('<', .op), ('<', .op)]
        = ([.word last], .symbol ['<', '<']) := rfl
    have hne : quoted delimiter ≠ [] := List.cons_ne_nil _ _
    rw [hpairs, tokensFrom_append, hoperator]
    unfold tokensFrom
    rw [feedAll_readsAs hquoted hne, hasQuote_quoted ⟨rfl, rfl, rfl⟩]
    rfl

/-- **A line of words with a here-document is one command; its input is the body.** -/
theorem readCommand_hereDocument {first value text : List Char} {values : List (List Char)}
    {delimiter body : List Char} (hfirst : Spells first value) (hwords : Spaced text values)
    (hline : '\n' ∉ delimiter) (hbody : ¬ delimiter <:+: body) :
    readCommand (first ++ text ++ (" <<".toList ++ quoted delimiter) ++ '\n' :: body
        ++ '\n' :: delimiter)
      = some ⟨value :: values, some (body ++ ['\n'])⟩ := by
  have hbare : LexState.start.Bare := ⟨rfl, rfl, rfl⟩
  have hread := hfirst.2 LexState.start hbare
  obtain ⟨hstate, hends, words, last, hfeed, hvalues⟩ :=
    hwords.read hbare.inside rfl ⟨literally value, hasQuote LexState.start first⟩
  obtain ⟨hredirected, hredirectEnds, hredirect⟩ := feedAll_redirect last delimiter
  have hscan : (scan LexState.start (first ++ text)).1 = LexState.start.inside := by
    rw [scan_append, hread.context]
    exact hstate
  -- the line as a whole
  have hpairs : classified LexState.start (first ++ text ++ (" <<".toList ++ quoted delimiter))
      = classified LexState.start first ++ classified LexState.start.inside text
        ++ classified LexState.start.inside (" <<".toList ++ quoted delimiter) := by
    rw [classified_append, hscan, classified_append, hread.context]
  have hnoEnd : NoLineEnd
      (classified LexState.start (first ++ text ++ (" <<".toList ++ quoted delimiter))) := by
    rw [hpairs]
    intro p hp
    rcases List.mem_append.mp hp with hp | hp
    · rcases List.mem_append.mp hp with hp | hp
      · exact noLineEnd_of_readsAs hread p hp
      · exact hends p hp
    · exact hredirectEnds p hp
  have hlast : (scan LexState.start (first ++ text ++ (" <<".toList ++ quoted delimiter))).1
      = LexState.start.inside := by
    rw [scan_append, hscan]
    exact hredirected
  have hsplit : splitLine LexState.start (first ++ text ++ (" <<".toList ++ quoted delimiter)
        ++ '\n' :: body ++ '\n' :: delimiter)
      = (classified LexState.start (first ++ text ++ (" <<".toList ++ quoted delimiter)),
        some (body ++ '\n' :: delimiter)) := by
    rw [List.append_assoc, List.cons_append, splitLine_append hnoEnd, hlast, splitLine_cons,
      if_pos ⟨rfl, by decide⟩, List.append_nil]
  have htokens : tokensFrom .nothing
      (classified LexState.start (first ++ text ++ (" <<".toList ++ quoted delimiter)))
      = (words ++ [last]).map Token.word
        ++ [.operator ['<', '<'], .word (Word.ofQuoted delimiter)] := by
    have hword : feedAll .nothing (classified LexState.start first)
        = ([], .word ⟨literally value, hasQuote LexState.start first⟩) :=
      feedAll_readsAs hread hfirst.1 .nothing
    rw [hpairs, List.append_assoc, tokensFrom_append, hword, tokensFrom_append, hfeed, hredirect]
    simp
  rw [value?_literally, ← List.map_cons] at hvalues
  unfold readCommand
  rw [hsplit]
  dsimp only
  rw [htokens, readWords_hereDocument hvalues]
  dsimp only
  rw [hereDocument_body hline hbody]

/-! ## §4. Assignments in front of a command. -/

theorem span_assignment {name value : List Char} (h : '=' ∉ name) :
    (name ++ '=' :: value).span (· ≠ '=') = (name, '=' :: value) := by
  have hname : ∀ c ∈ name, decide (c ≠ '=') = true := by
    intro c hc
    rw [decide_eq_true_eq]
    rintro rfl
    exact h hc
  rw [List.span_eq_takeWhile_dropWhile, List.takeWhile_append_of_pos hname,
    List.dropWhile_append_of_pos hname]
  simp

theorem span_command {command : List Char} (h : '=' ∉ command) :
    command.span (· ≠ '=') = (command, []) := by
  have hall : ∀ c ∈ command, decide (c ≠ '=') = true := by
    intro c hc
    rw [decide_eq_true_eq]
    rintro rfl
    exact h hc
  rw [List.span_eq_takeWhile_dropWhile, List.takeWhile_eq_self_iff.mpr hall,
    List.dropWhile_eq_nil_iff.mpr hall]

theorem takeAssignments_entries {entries : List (List Char × List Char)} {command : List Char}
    {arguments : List (List Char)} (hnames : ∀ entry ∈ entries, '=' ∉ entry.1)
    (hcommand : '=' ∉ command) :
    takeAssignments (entries.map (fun entry => entry.1 ++ '=' :: entry.2) ++ command :: arguments)
      = (entries, command :: arguments) := by
  induction entries with
  | nil =>
      rw [List.map_nil, List.nil_append]
      unfold takeAssignments
      rw [span_command hcommand]
  | cons entry entries ih =>
      obtain ⟨hname, hrest⟩ := List.forall_mem_cons.mp hnames
      rw [List.map_cons, List.cons_append]
      unfold takeAssignments
      rw [span_assignment hname, ih hrest]

/-- **The assignments are the environment, and the other words are the command.** -/
theorem startedByEnv_assignments {entries : List (List Char × List Char)} {command : List Char}
    {arguments : List (List Char)} (hnames : ∀ entry ∈ entries, '=' ∉ entry.1)
    (hfirst : ∀ entry ∈ entries, entry.1.head? ≠ some '-') (hcommand : '=' ∉ command)
    (hoption : command.head? ≠ some '-') :
    startedByEnv (['e', 'n', 'v'] :: (entries.map (fun entry => entry.1 ++ '=' :: entry.2)
        ++ command :: arguments))
      = some ⟨entries, command :: arguments⟩ := by
  have hhead : ((entries.map (fun entry => entry.1 ++ '=' :: entry.2)
      ++ command :: arguments).head?.bind List.head?) ≠ some '-' := by
    cases entries with
    | nil => exact hoption
    | cons entry entries =>
        have hne := hfirst entry List.mem_cons_self
        show (entry.1 ++ '=' :: entry.2).head? ≠ some '-'
        cases hname : entry.1 with
        | nil => simp
        | cons c name =>
            rw [hname] at hne
            exact hne
  unfold startedByEnv
  dsimp only
  rw [if_pos ⟨rfl, hhead⟩, takeAssignments_entries hnames hcommand]

end QingzhouSSH.Lib.ShellCommand
