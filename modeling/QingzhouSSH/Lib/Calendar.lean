/-
  QingzhouSSH.Lib.Calendar — dates of the Gregorian calendar and their texts.

  A date is written as numerals of fixed width, so that dates and their texts are in one
  order, and so are the days that they number.

  Main results:
    * `append_lt_append_iff` — the order of texts whose first parts are of one length;
    * `Date.text_lt_iff` — the order of dates is that of their texts;
    * `Date.dayNumber_lt` — a later date is a later day.
-/
import Mathlib.Algebra.Group.Nat.Defs
import Mathlib.Data.List.Basic
import Mathlib.Data.Nat.Basic

namespace QingzhouSSH.Lib.Calendar

/-! ## §1. Texts of one length. -/

theorem append_lt_append_iff {a b s t : List Char} (h : a.length = b.length) :
    a ++ s < b ++ t ↔ a < b ∨ a = b ∧ s < t := by
  induction a generalizing b with
  | nil =>
      obtain rfl := List.eq_nil_of_length_eq_zero h.symm
      simp
  | cons c a ih =>
      cases b with
      | nil => cases h
      | cons d b =>
          have hlength : a.length = b.length := Nat.succ.inj h
          rw [List.cons_append, List.cons_append, List.cons_lt_cons_iff, List.cons_lt_cons_iff,
            ih hlength, List.cons.injEq]
          constructor
          · rintro (hlt | ⟨rfl, hlt | ⟨rfl, hlt⟩⟩)
            · exact .inl (.inl hlt)
            · exact .inl (.inr ⟨rfl, hlt⟩)
            · exact .inr ⟨⟨rfl, rfl⟩, hlt⟩
          · rintro ((hlt | ⟨rfl, hlt⟩) | ⟨⟨rfl, rfl⟩, hlt⟩)
            · exact .inl hlt
            · exact .inr ⟨rfl, .inl hlt⟩
            · exact .inr ⟨rfl, .inr ⟨rfl, hlt⟩⟩

/-! ## §2. Numerals of fixed width. -/

def digit (n : Nat) : Char := Char.ofNat (48 + n)

/-- The last digits of a number. -/
def numeral : Nat → Nat → List Char
  | 0, _ => []
  | width + 1, n => numeral width (n / 10) ++ [digit (n % 10)]

@[simp] theorem length_numeral (width n : Nat) : (numeral width n).length = width := by
  induction width generalizing n with
  | zero => rfl
  | succ width ih =>
      show (numeral width (n / 10) ++ [digit (n % 10)]).length = width + 1
      rw [List.length_append, ih]
      rfl

theorem digit_lt_iff {m n : Nat} (hm : m < 10) (hn : n < 10) : digit m < digit n ↔ m < n := by
  have hall : ∀ m < 10, ∀ n < 10, (digit m < digit n ↔ m < n) := by decide
  exact hall m hm n hn

theorem digit_inj {m n : Nat} (hm : m < 10) (hn : n < 10) : digit m = digit n ↔ m = n := by
  have hall : ∀ m < 10, ∀ n < 10, (digit m = digit n ↔ m = n) := by decide
  exact hall m hm n hn

theorem numeral_inj {width m n : Nat} (hm : m < 10 ^ width) (hn : n < 10 ^ width) :
    numeral width m = numeral width n ↔ m = n := by
  constructor
  · intro heq
    induction width generalizing m n with
    | zero =>
        rw [Nat.pow_zero] at hm hn
        omega
    | succ width ih =>
        rw [Nat.pow_succ] at hm hn
        obtain ⟨hfront, hlast⟩ := List.append_inj heq (by simp)
        have hhigh := ih (by omega) (by omega) hfront
        have hlow := (digit_inj (Nat.mod_lt m (by omega)) (Nat.mod_lt n (by omega))).mp
          (List.cons.inj hlast).1
        omega
  · intro heq
    rw [heq]

/-- **Numerals of one width are ordered as their numbers.** -/
theorem numeral_lt_iff {width m n : Nat} (hm : m < 10 ^ width) (hn : n < 10 ^ width) :
    numeral width m < numeral width n ↔ m < n := by
  induction width generalizing m n with
  | zero =>
      rw [Nat.pow_zero] at hm hn
      have hnot : ¬ m < n := by omega
      exact iff_of_false (List.not_lt_nil _) hnot
  | succ width ih =>
      rw [Nat.pow_succ] at hm hn
      have hm' : m / 10 < 10 ^ width := by omega
      have hn' : n / 10 < 10 ^ width := by omega
      show numeral width (m / 10) ++ [digit (m % 10)] < numeral width (n / 10) ++ [digit (n % 10)]
        ↔ m < n
      rw [append_lt_append_iff (by simp), ih hm' hn', numeral_inj hm' hn', List.cons_lt_cons_iff,
        digit_lt_iff (Nat.mod_lt m (by omega)) (Nat.mod_lt n (by omega))]
      constructor
      · rintro (hlt | ⟨heq, hlt | ⟨-, hnil⟩⟩)
        · omega
        · omega
        · exact absurd hnil (List.not_lt_nil _)
      · intro hlt
        by_cases hhigh : m / 10 < n / 10
        · exact .inl hhigh
        · exact .inr ⟨by omega, .inl (by omega)⟩

/-! ## §3. Dates. -/

def isLeap (year : Nat) : Bool := year % 4 == 0 && (year % 100 != 0 || year % 400 == 0)

/-- There is no month 0. -/
def daysIn (year : Nat) : Nat → Nat
  | 0 => 0
  | 2 => if isLeap year then 29 else 28
  | 4 | 6 | 9 | 11 => 30
  | _ => 31

/-- The days of a year before a month. -/
def daysBefore (year : Nat) : Nat → Nat
  | 0 => 0
  | month + 1 => daysBefore year month + daysIn year month

/-- The days of all years before a year. -/
def yearStart : Nat → Nat
  | 0 => 0
  | year + 1 => yearStart year + daysBefore year 13

structure Date where
  year : Nat
  month : Nat
  day : Nat
  year_lt : year < 10000
  month_range : 1 ≤ month ∧ month ≤ 12
  day_range : 1 ≤ day ∧ day ≤ daysIn year month
  deriving DecidableEq

namespace Date

/-- `YYYY-MM-DD`. -/
def text (date : Date) : List Char :=
  numeral 4 date.year ++ '-' :: (numeral 2 date.month ++ '-' :: numeral 2 date.day)

def Before (a b : Date) : Prop :=
  a.year < b.year
    ∨ a.year = b.year ∧ (a.month < b.month ∨ a.month = b.month ∧ a.day < b.day)

instance (a b : Date) : Decidable (a.Before b) :=
  inferInstanceAs (Decidable (_ ∨ _ ∧ (_ ∨ _ ∧ _)))

/-- The number of the day, from the first day of the year 0. -/
def dayNumber (date : Date) : Nat :=
  yearStart date.year + daysBefore date.year date.month + (date.day - 1)

@[simp] theorem length_text (date : Date) : date.text.length = 10 := by
  simp [text]

theorem daysIn_le (year month : Nat) : daysIn year month ≤ 31 := by
  unfold daysIn
  split
  · omega
  · split <;> omega
  · omega
  · omega
  · omega
  · omega
  · omega

theorem day_lt (date : Date) : date.day < 10 ^ 2 := by
  have := daysIn_le date.year date.month
  have := date.day_range
  omega

theorem month_lt (date : Date) : date.month < 10 ^ 2 := by
  have := date.month_range
  omega

theorem year_lt_pow (date : Date) : date.year < 10 ^ 4 := date.year_lt

theorem text_inj {a b : Date} : a.text = b.text ↔ a = b := by
  constructor
  · intro heq
    obtain ⟨hyear, hrest⟩ := List.append_inj heq (by simp)
    obtain ⟨hmonth, hday⟩ := List.append_inj (List.cons.inj hrest).2 (by simp)
    have hy := (numeral_inj a.year_lt_pow b.year_lt_pow).mp hyear
    have hm := (numeral_inj a.month_lt b.month_lt).mp hmonth
    have hd := (numeral_inj a.day_lt b.day_lt).mp (List.cons.inj hday).2
    cases a
    cases b
    simp only [mk.injEq]
    exact ⟨hy, hm, hd⟩
  · intro heq
    rw [heq]

/-- **Dates are ordered as their texts.** -/
theorem text_lt_iff {a b : Date} : a.text < b.text ↔ a.Before b := by
  unfold text Before
  rw [append_lt_append_iff (by simp), numeral_lt_iff a.year_lt_pow b.year_lt_pow,
    numeral_inj a.year_lt_pow b.year_lt_pow, List.cons_lt_cons_iff,
    append_lt_append_iff (by simp), numeral_lt_iff a.month_lt b.month_lt,
    numeral_inj a.month_lt b.month_lt, List.cons_lt_cons_iff, numeral_lt_iff a.day_lt b.day_lt]
  have hirrefl : ¬ '-' < '-' := by decide
  simp only [hirrefl, false_or, true_and]

theorem before_trichotomy (a b : Date) : a.Before b ∨ a = b ∨ b.Before a := by
  by_cases hsame : a = b
  · exact .inr (.inl hsame)
  · have hne : ¬ (a.year = b.year ∧ a.month = b.month ∧ a.day = b.day) := by
      rintro ⟨hy, hm, hd⟩
      refine hsame ?_
      cases a
      cases b
      simp only [mk.injEq]
      exact ⟨hy, hm, hd⟩
    unfold Before
    omega

theorem not_before_self (a : Date) : ¬ a.Before a := by
  unfold Before
  omega

theorem Before.asymm {a b : Date} (h : a.Before b) : ¬ b.Before a := by
  unfold Before at h ⊢
  omega

theorem daysBefore_le (year : Nat) {m n : Nat} (h : m < n) :
    daysBefore year m + daysIn year m ≤ daysBefore year n := by
  induction n with
  | zero => exact absurd h (Nat.not_lt_zero m)
  | succ n ih =>
      show _ ≤ daysBefore year n + daysIn year n
      obtain hlt | rfl := Nat.lt_succ_iff_lt_or_eq.mp h
      · have := ih hlt
        omega
      · exact Nat.le_refl _

theorem yearStart_le {m n : Nat} (h : m < n) : yearStart m + daysBefore m 13 ≤ yearStart n := by
  induction n with
  | zero => exact absurd h (Nat.not_lt_zero m)
  | succ n ih =>
      show _ ≤ yearStart n + daysBefore n 13
      obtain hlt | rfl := Nat.lt_succ_iff_lt_or_eq.mp h
      · have := ih hlt
        omega
      · exact Nat.le_refl _

/-- **A later date is a later day.** -/
theorem dayNumber_lt {a b : Date} (h : a.Before b) : a.dayNumber < b.dayNumber := by
  have hday := a.day_range
  have hday' := b.day_range
  have hmonths := a.month_range
  have hwithin : daysBefore a.year a.month + daysIn a.year a.month ≤ daysBefore a.year 13 :=
    daysBefore_le a.year (by omega)
  unfold dayNumber
  obtain hyear | ⟨hyear, hmonth | ⟨hmonth, hless⟩⟩ := h
  · have := yearStart_le hyear
    omega
  · have := daysBefore_le a.year hmonth
    rw [← hyear]
    omega
  · rw [← hyear, ← hmonth]
    omega

end Date

end QingzhouSSH.Lib.Calendar
