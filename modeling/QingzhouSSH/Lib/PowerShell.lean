/-
  QingzhouSSH.Lib.PowerShell — single-quoted literals of PowerShell.

  Besides the apostrophe there are four typographic characters that PowerShell takes for a
  single quote.  Inside a literal two quotes in a row, of whatever kind, stand for the second
  one; any other quote ends the literal.

  Main results:
    * `readLiteral_doubled` — doubling the apostrophes quotes a text without typographic quotes;
    * `readLiteral_exact` — and no other text.
-/
import Mathlib.Data.List.Basic

namespace QingzhouSSH.Lib.PowerShell

/-! ## §1. Literals. -/

def isTypographicQuote (c : Char) : Bool :=
  c == '\u2018' || c == '\u2019' || c == '\u201a' || c == '\u201b'

def isSingleQuote (c : Char) : Bool := c == '\'' || isTypographicQuote c

/-- The value of a literal whose opening quote has been read, and the text behind it. -/
def readLiteral : List Char → Option (List Char × List Char)
  | [] => none
  | [c] => if isSingleQuote c then some ([], []) else none
  | c :: d :: rest =>
      if isSingleQuote c then
        if isSingleQuote d then (readLiteral rest).map fun r => (d :: r.1, r.2)
        else some ([], d :: rest)
      else (readLiteral (d :: rest)).map fun r => (c :: r.1, r.2)

/-- Every apostrophe twice. -/
def doubled (s : List Char) : List Char := s.flatMap fun c => if c = '\'' then ['\'', '\''] else [c]

theorem readLiteral_plain {c : Char} (h : isSingleQuote c = false) (rest : List Char) :
    readLiteral (c :: rest) = (readLiteral rest).map fun r => (c :: r.1, r.2) := by
  cases rest with
  | nil => simp [readLiteral, h]
  | cons d rest => rw [readLiteral, if_neg (by simp [h])]

/-- **A text without typographic quotes is read back.** -/
theorem readLiteral_doubled {s : List Char} (h : ∀ c ∈ s, isTypographicQuote c = false)
    (rest : List Char) : readLiteral (doubled s ++ '\'' :: '\n' :: rest) = some (s, '\n' :: rest) := by
  induction s with
  | nil => rfl
  | cons c s ih =>
      obtain ⟨hc, hs⟩ := List.forall_mem_cons.mp h
      by_cases hquote : c = '\''
      · subst hquote
        show readLiteral ('\'' :: '\'' :: (doubled s ++ '\'' :: '\n' :: rest)) = _
        rw [readLiteral, if_pos (by decide), if_pos (by decide), ih hs]
        rfl
      · have hcons : doubled (c :: s) = c :: doubled s := by
          unfold doubled
          rw [List.flatMap_cons, if_neg hquote]
          rfl
        have hplain : isSingleQuote c = false := by
          unfold isSingleQuote
          rw [hc]
          simpa using hquote
        rw [hcons, List.cons_append, readLiteral_plain hplain, ih hs]
        rfl

/-! ## §2. Counting quotes. -/

def quotes (s : List Char) : Nat := s.countP isSingleQuote

def others (s : List Char) : Nat := s.countP fun c => !isSingleQuote c

def typographic (s : List Char) : Nat := s.countP isTypographicQuote

/-- What a literal takes up: its other characters, and two quotes for each of its own and one
at its end. -/
theorem readLiteral_counts {text value rest : List Char}
    (h : readLiteral text = some (value, rest)) :
    ∃ read, text = read ++ rest ∧ others read = others value
      ∧ quotes read = 2 * quotes value + 1 := by
  induction text using readLiteral.induct generalizing value with
  | case1 => cases h
  | case2 c hquote =>
      rw [readLiteral, if_pos hquote] at h
      obtain ⟨rfl, rfl⟩ := Prod.mk.inj (Option.some.inj h)
      exact ⟨[c], rfl, by simp [others, hquote], by simp [quotes, hquote]⟩
  | case3 c hquote =>
      rw [readLiteral, if_neg hquote] at h
      cases h
  | case4 c d more hquote hsecond ih =>
      rw [readLiteral, if_pos hquote, if_pos hsecond, Option.map_eq_some_iff] at h
      obtain ⟨⟨tail, left⟩, hread, hvalue⟩ := h
      obtain ⟨rfl, rfl⟩ := Prod.mk.inj hvalue
      obtain ⟨read, rfl, hothers, hquotes⟩ := ih hread
      refine ⟨c :: d :: read, rfl, ?_, ?_⟩
      · simpa [others, hquote, hsecond] using hothers
      · simp only [quotes, List.countP_cons, hquote, hsecond] at hquotes ⊢
        simp only [if_true]
        omega
  | case5 c d more hquote hsecond =>
      rw [readLiteral, if_pos hquote, if_neg hsecond] at h
      obtain ⟨rfl, rfl⟩ := Prod.mk.inj (Option.some.inj h)
      exact ⟨[c], rfl, by simp [others, hquote], by simp [quotes, hquote]⟩
  | case6 c d more hquote ih =>
      rw [readLiteral, if_neg hquote, Option.map_eq_some_iff] at h
      obtain ⟨⟨tail, left⟩, hread, hvalue⟩ := h
      obtain ⟨rfl, rfl⟩ := Prod.mk.inj hvalue
      obtain ⟨read, htext, hothers, hquotes⟩ := ih hread
      refine ⟨c :: read, by rw [htext]; rfl, ?_, ?_⟩
      · simpa [others, hquote] using hothers
      · simpa [quotes, hquote] using hquotes

theorem counts_doubled (s : List Char) :
    others (doubled s) = others s ∧ quotes (doubled s) + typographic s = 2 * quotes s := by
  induction s with
  | nil => exact ⟨rfl, rfl⟩
  | cons c s ih =>
      obtain ⟨hothers, hquotes⟩ := ih
      by_cases hquote : c = '\''
      · subst hquote
        have hcons : doubled ('\'' :: s) = '\'' :: '\'' :: doubled s := rfl
        have hsingle : isSingleQuote '\'' = true := by decide
        have htypographic : isTypographicQuote '\'' = false := by decide
        simp only [others, quotes, typographic] at hothers hquotes ⊢
        simp only [hcons, List.countP_cons, hsingle, htypographic, Bool.not_true, if_true]
        simp only [Bool.false_eq_true, if_false]
        omega
      · have hcons : doubled (c :: s) = c :: doubled s := by
          unfold doubled
          rw [List.flatMap_cons, if_neg hquote]
          rfl
        have hsame : isSingleQuote c = isTypographicQuote c := by
          unfold isSingleQuote
          rw [beq_false_of_ne hquote, Bool.false_or]
        simp only [others, quotes, typographic] at hothers hquotes ⊢
        simp only [hcons, List.countP_cons, hsame]
        cases isTypographicQuote c
        all_goals
          simp only [Bool.not_true, Bool.not_false, if_true, Bool.false_eq_true, if_false]
          omega

/-- **Only a text without typographic quotes is read back.** -/
theorem readLiteral_exact {s rest left : List Char}
    (h : readLiteral (doubled s ++ '\'' :: '\n' :: rest) = some (s, left)) :
    ∀ c ∈ s, isTypographicQuote c = false := by
  obtain ⟨read, htext, hothers, hquotes⟩ := readLiteral_counts h
  obtain ⟨hsame, hdoubled⟩ := counts_doubled s
  -- what has been read does not reach the end of the line
  have hshort : read <+: doubled s ++ ['\''] := by
    have hlong : ¬ doubled s ++ ['\''] ++ ['\n'] <+: read := by
      intro hfront
      have hle : others (doubled s ++ ['\''] ++ ['\n']) ≤ others read := hfront.sublist.countP_le
      have hend : others (doubled s ++ ['\''] ++ ['\n']) = others (doubled s) + 1 := by
        unfold others
        rw [List.countP_append, List.countP_append]
        rfl
      omega
    have hread : read <+: doubled s ++ '\'' :: '\n' :: rest := ⟨left, htext.symm⟩
    have hline : doubled s ++ ['\''] ++ ['\n'] <+: doubled s ++ '\'' :: '\n' :: rest :=
      ⟨rest, by simp⟩
    rcases List.prefix_or_prefix_of_prefix hread hline with hshorter | hlonger
    · rcases List.prefix_concat_iff.mp hshorter with heq | hshorter
      · exact absurd (heq ▸ List.prefix_refl _) hlong
      · exact hshorter
    · exact absurd hlonger hlong
  have hle : quotes read ≤ quotes (doubled s ++ ['\'']) := hshort.sublist.countP_le
  have hsum : quotes (doubled s ++ ['\'']) = quotes (doubled s) + 1 := by
    unfold quotes
    rw [List.countP_append]
    rfl
  have hnone : typographic s = 0 := by omega
  intro c hc
  have hzero := List.countP_eq_zero.mp hnone c hc
  simpa using hzero

end QingzhouSSH.Lib.PowerShell
