/-
  QingzhouSSH.Lib.Sections — sections printed one after another and read line by line.

  A producer prints sections `key sep text`, each of which may or may not end its line; a
  consumer splits what was printed into lines and collects the lines into a map.  A section
  that does not end its line swallows the section printed after it.  Everything is over an
  arbitrary alphabet.

  Main results:
    * `linesFrom_append_ended` — a cut after a line end splits the lines;
    * `linesFrom_printAll` — the lines that stand in what was printed (`runs`);
    * `lookupLast_runs` — what is found under the key of a section (`standing`).
-/
import Mathlib.Data.List.Basic

namespace QingzhouSSH.Lib.Sections

variable {α : Type*} [DecidableEq α]

/-! ## §1. Lines. -/

/-- The lines of a text, the first of them continued from `current`; the last need not end. -/
def linesFrom (nl : α) : List α → List α → List (List α)
  | current, [] => if current.isEmpty then [] else [current]
  | current, c :: rest =>
      if c = nl then current :: linesFrom nl [] rest else linesFrom nl (current ++ [c]) rest

theorem linesFrom_append {nl : α} {s : List α} (h : nl ∉ s) (current rest : List α) :
    linesFrom nl current (s ++ rest) = linesFrom nl (current ++ s) rest := by
  induction s generalizing current with
  | nil => simp
  | cons c s ih =>
      simp only [List.mem_cons, not_or] at h
      show (if c = nl then _ else linesFrom nl (current ++ [c]) (s ++ rest)) = _
      rw [if_neg (Ne.symm h.1), ih h.2]
      simp

/-- **A cut after a line end splits the lines.** -/
theorem linesFrom_append_ended (nl : α) (current s rest : List α) :
    linesFrom nl current (s ++ nl :: rest)
      = linesFrom nl current (s ++ [nl]) ++ linesFrom nl [] rest := by
  induction s generalizing current with
  | nil => simp [linesFrom]
  | cons c s ih =>
      show (if c = nl then current :: linesFrom nl [] (s ++ nl :: rest)
          else linesFrom nl (current ++ [c]) (s ++ nl :: rest))
        = (if c = nl then current :: linesFrom nl [] (s ++ [nl])
          else linesFrom nl (current ++ [c]) (s ++ [nl])) ++ linesFrom nl [] rest
      by_cases hc : c = nl
      · rw [if_pos hc, if_pos hc, ih]
        rfl
      · rw [if_neg hc, if_neg hc, ih]

/-! ## §2. Maps collected from entries. -/

section Entries

variable {κ ν μ : Type*} [DecidableEq κ]

/-- What a map collected from `entries` holds: a later entry replaces an earlier one. -/
def lookupLast : List (κ × ν) → κ → Option ν
  | [], _ => none
  | e :: rest, k => (lookupLast rest k).or (if e.1 = k then some e.2 else none)

theorem lookupLast_append (xs ys : List (κ × ν)) (k : κ) :
    lookupLast (xs ++ ys) k = (lookupLast ys k).or (lookupLast xs k) := by
  induction xs with
  | nil => simp [lookupLast]
  | cons x xs ih =>
      show (lookupLast (xs ++ ys) k).or _ = (lookupLast ys k).or ((lookupLast xs k).or _)
      rw [ih, Option.or_assoc]

theorem lookupLast_eq_none {entries : List (κ × ν)} {k : κ} (h : ∀ e ∈ entries, e.1 ≠ k) :
    lookupLast entries k = none := by
  induction entries with
  | nil => rfl
  | cons e rest ih =>
      have hrest := ih fun d hd => h d (List.mem_cons_of_mem e hd)
      show (lookupLast rest k).or (if e.1 = k then some e.2 else none) = none
      rw [hrest, if_neg (h e List.mem_cons_self)]
      rfl

/-- Only the values are changed. -/
theorem lookupLast_map (f : ν → μ) (entries : List (κ × ν)) (k : κ) :
    lookupLast (entries.map fun e => (e.1, f e.2)) k = (lookupLast entries k).map f := by
  induction entries with
  | nil => rfl
  | cons e rest ih =>
      show (lookupLast (rest.map fun e => (e.1, f e.2)) k).or (if e.1 = k then some (f e.2) else none)
        = ((lookupLast rest k).or (if e.1 = k then some e.2 else none)).map f
      rw [ih]
      by_cases hk : e.1 = k
      · rw [if_pos hk, if_pos hk]
        cases lookupLast rest k <;> rfl
      · rw [if_neg hk, if_neg hk]
        cases lookupLast rest k <;> rfl

end Entries

/-! ## §3. Sections. -/

/-- What a section prints: its key, its text, and whether its line ends there. -/
structure Section (α : Type*) where
  key : List α
  text : List α
  ended : Bool

variable {sep nl : α}

def Section.print (sep nl : α) (s : Section α) : List α :=
  s.key ++ sep :: (s.text ++ if s.ended then [nl] else [])

def printAll (sep nl : α) (ss : List (Section α)) : List α := ss.flatMap (Section.print sep nl)

/-- What a line that has not ended is continued with. -/
def continued (sep : α) : List (Section α) → List α
  | [] => []
  | s :: rest => s.key ++ sep :: (s.text ++ if s.ended then [] else continued sep rest)

/-- The lines that stand, each with the key it starts with; `fresh` says whether the first
section starts one. -/
def runs (sep : α) : Bool → List (Section α) → List (List α × List α)
  | _, [] => []
  | true, s :: rest =>
      (s.key, s.text ++ if s.ended then [] else continued sep rest) :: runs sep s.ended rest
  | false, s :: rest => runs sep s.ended rest

/-- What stands under the key of a section. -/
def standing (sep : α) : Bool → List (Section α) → List α → Option (List α)
  | _, [], _ => none
  | fresh, s :: rest, k =>
      if s.key = k then
        if fresh then some (s.text ++ if s.ended then [] else continued sep rest) else none
      else standing sep s.ended rest k

/-- A section of one line. -/
def Section.OneLine (nl : α) (s : Section α) : Prop := nl ∉ s.key ∧ nl ∉ s.text

omit [DecidableEq α] in
theorem Section.OneLine.notMem {s : Section α} (h : s.OneLine nl) (hsep : sep ≠ nl) :
    nl ∉ s.key ++ sep :: s.text := by
  simp only [List.mem_append, List.mem_cons, not_or]
  exact ⟨h.1, Ne.symm hsep, h.2⟩

/-- **The lines that stand in what was printed.** -/
theorem linesFrom_printAll (hsep : sep ≠ nl) {ss : List (Section α)}
    (h : ∀ s ∈ ss, s.OneLine nl) :
    linesFrom nl [] (printAll sep nl ss) = (runs sep true ss).map (fun e => e.1 ++ sep :: e.2)
      ∧ ∀ current, current ≠ [] → linesFrom nl current (printAll sep nl ss)
          = (current ++ continued sep ss) :: (runs sep false ss).map fun e => e.1 ++ sep :: e.2 := by
  induction ss with
  | nil =>
      refine ⟨rfl, fun current hne => ?_⟩
      have hcurrent : current.isEmpty = false := by simpa using hne
      show (if current.isEmpty = true then [] else [current]) = [current ++ []]
      rw [hcurrent, List.append_nil]
      rfl
  | cons s rest ih =>
      obtain ⟨hfresh, hcontinued⟩ := ih fun t ht => h t (List.mem_cons_of_mem s ht)
      have hone := (h s List.mem_cons_self).notMem hsep
      -- the line starts with what stands before the section, if anything does
      have hline : ∀ current, linesFrom nl current (printAll sep nl (s :: rest))
          = (current ++ (s.key ++ sep :: (s.text ++ if s.ended then [] else continued sep rest)))
            :: (runs sep s.ended rest).map fun e => e.1 ++ sep :: e.2 := by
        intro current
        have hprint : printAll sep nl (s :: rest)
            = (s.key ++ sep :: s.text)
              ++ ((if s.ended then [nl] else []) ++ printAll sep nl rest) := by
          simp [printAll, Section.print]
        rw [hprint, linesFrom_append hone]
        by_cases hended : s.ended
        · rw [hended, if_pos rfl, if_pos rfl]
          show linesFrom nl _ (nl :: printAll sep nl rest) = _
          rw [linesFrom, if_pos rfl, hfresh]
          simp
        · rw [Bool.not_eq_true] at hended
          rw [hended, if_neg Bool.false_ne_true, if_neg Bool.false_ne_true, List.nil_append,
            hcontinued _ (by simp)]
          simp
      refine ⟨hline [], fun current _ => hline current⟩

omit [DecidableEq α] in
theorem mem_runs {sep : α} {ss : List (Section α)} {fresh : Bool} {e : List α × List α}
    (h : e ∈ runs sep fresh ss) : e.1 ∈ ss.map Section.key := by
  induction ss generalizing fresh with
  | nil => simp [runs] at h
  | cons s rest ih =>
      cases fresh with
      | true =>
          rcases List.mem_cons.mp h with rfl | h
          · exact List.mem_cons_self
          · exact List.mem_cons_of_mem _ (ih h)
      | false => exact List.mem_cons_of_mem _ (ih h)

/-- **What is found under a key, where no two sections have the same.** -/
theorem lookupLast_runs {ss : List (Section α)} (hkeys : (ss.map Section.key).Nodup)
    (fresh : Bool) (k : List α) :
    lookupLast (runs sep fresh ss) k = standing sep fresh ss k := by
  induction ss generalizing fresh with
  | nil => rfl
  | cons s rest ih =>
      obtain ⟨hnew, hrest⟩ := List.nodup_cons.mp hkeys
      have hrest := ih hrest s.ended
      by_cases hk : s.key = k
      · -- no later section has the key
        have hnone : lookupLast (runs sep s.ended rest) k = none := by
          refine lookupLast_eq_none fun e he heq => ?_
          exact hnew (hk ▸ heq ▸ mem_runs he)
        cases fresh with
        | true => simp [runs, lookupLast, standing, hk, hnone]
        | false => simp [runs, standing, hk, hnone]
      · cases fresh with
        | true => simp [runs, lookupLast, standing, hk, hrest]
        | false => simp [runs, standing, hk, hrest]

end QingzhouSSH.Lib.Sections
