/-
  QingzhouSSH.Lib.Digits — the texts that are read as an unsigned decimal number.

  Main results:
    * `parseUnsigned_eq_some_iff` — digits, with or without a plus sign, and a bound.
-/
import QingzhouSSH.Lib.Net

namespace QingzhouSSH.Lib.Digits

open QingzhouSSH.Lib.Net

/-- Plain decimal digits, and their value. -/
def Decimal (s : List Char) (n : Nat) : Prop :=
  s ≠ [] ∧ (∀ c ∈ s, c.isDigit = true) ∧ Nat.ofDigitChars 10 s 0 = n

/-- Digits behind at most one plus sign. -/
def Signed (s : List Char) (n : Nat) : Prop :=
  Decimal s n ∨ ∃ digits, s = '+' :: digits ∧ Decimal digits n

theorem Decimal.not_mem {s : List Char} {n : Nat} (h : Decimal s n) {c : Char}
    (hc : c.isDigit = false) : c ∉ s := by
  intro hmem
  rw [h.2.1 c hmem] at hc
  exact Bool.noConfusion hc

theorem Signed.ne_nil {s : List Char} {n : Nat} (h : Signed s n) : s ≠ [] := by
  rcases h with h | ⟨digits, rfl, -⟩
  · exact h.1
  · exact List.cons_ne_nil _ _

theorem Signed.not_mem {s : List Char} {n : Nat} (h : Signed s n) {c : Char}
    (hc : c.isDigit = false) (hplus : c ≠ '+') : c ∉ s := by
  rcases h with h | ⟨digits, rfl, h⟩
  · exact h.not_mem hc
  · intro hmem
    rcases List.mem_cons.mp hmem with heq | hmem
    · exact hplus heq
    · exact h.not_mem hc hmem

theorem Signed.plain {s : List Char} {n : Nat} (h : Signed s n) (hplus : '+' ∉ s) :
    Decimal s n := by
  rcases h with h | ⟨digits, rfl, -⟩
  · exact h
  · exact absurd List.mem_cons_self hplus

theorem isDigit_of_digitValue {c : Char} (h : (digitValue 10 c).isSome = true) :
    c.isDigit = true := by
  unfold digitValue at h
  by_cases hdigit : '0' ≤ c ∧ c ≤ '9'
  · simp only [Char.isDigit, Bool.and_eq_true, decide_eq_true_eq]
    exact hdigit
  · -- a letter has a value of at least ten
    rw [if_neg hdigit] at h
    by_cases hlower : 'a' ≤ c ∧ c ≤ 'z'
    · have hcode : 97 ≤ c.toNat := hlower.1
      rw [if_pos hlower] at h
      dsimp only at h
      rw [if_neg (by omega)] at h
      cases h
    · rw [if_neg hlower] at h
      by_cases hupper : 'A' ≤ c ∧ c ≤ 'Z'
      · have hcode : 65 ≤ c.toNat := hupper.1
        rw [if_pos hupper] at h
        dsimp only at h
        rw [if_neg (by omega)] at h
        cases h
      · rw [if_neg hupper] at h
        cases h

/-- The digits of a text without a sign. -/
theorem readUnsigned_eq_some_iff {bound : Nat} {s : List Char} {n : Nat} :
    (match readDigits 10 s with
      | (d :: digits, []) =>
          let n := ofDigits 10 (d :: digits)
          if n < bound then some n else none
      | _ => none) = some n ↔ Decimal s n ∧ n < bound := by
  constructor
  · intro h
    split at h
    next d digits heq =>
      have hdigits : ∀ c ∈ s, c.isDigit = true := by
        intro c hc
        apply isDigit_of_digitValue
        refine digits_of_readDigits ?_ c hc
        rw [heq]
      rw [readDigits_digits hdigits, Prod.mk.injEq] at heq
      have hvalue := ofDigits_values s
      rw [heq.1] at hvalue
      have hne : s ≠ [] := by
        rintro rfl
        cases heq.1
      dsimp only at h
      split at h
      next hbound =>
        obtain rfl := Option.some.inj h
        exact ⟨⟨hne, hdigits, hvalue.symm⟩, hbound⟩
      next => cases h
    next => cases h
  · rintro ⟨⟨hne, hdigits, hvalue⟩, hbound⟩
    obtain ⟨c, s, rfl⟩ := List.exists_cons_of_ne_nil hne
    have hsum := ofDigits_values (c :: s)
    rw [readDigits_digits hdigits]
    show (if ofDigits 10 ((c :: s).map fun c => c.toNat - 48) < bound then _ else _) = _
    rw [hsum, hvalue, if_pos hbound]
    exact congrArg some (hsum.trans hvalue)

/-- **An unsigned number is parsed from its digits, with or without a plus sign.** -/
theorem parseUnsigned_eq_some_iff {bound : Nat} {s : List Char} {n : Nat} :
    parseUnsigned bound s = some n ↔ Signed s n ∧ n < bound := by
  unfold parseUnsigned
  refine readUnsigned_eq_some_iff.trans ?_
  split
  next rest =>
    constructor
    · rintro ⟨hdigits, hbound⟩
      exact ⟨.inr ⟨rest, rfl, hdigits⟩, hbound⟩
    · rintro ⟨h | ⟨digits, heq, hdigits⟩, hbound⟩
      · exact absurd List.mem_cons_self (h.not_mem (c := '+') (by decide))
      · obtain rfl := (List.cons.inj heq).2
        exact ⟨hdigits, hbound⟩
  next hplus =>
    constructor
    · rintro ⟨hdigits, hbound⟩
      exact ⟨.inl hdigits, hbound⟩
    · rintro ⟨h | ⟨digits, rfl, -⟩, hbound⟩
      · exact ⟨h, hbound⟩
      · exact absurd rfl (hplus digits)

theorem parseUnsigned_eq_none_iff {bound : Nat} {s : List Char} :
    parseUnsigned bound s = none ↔ ∀ n, Signed s n → bound ≤ n := by
  rw [Option.eq_none_iff_forall_ne_some]
  constructor
  · intro h n hn
    by_contra hlt
    exact h n (parseUnsigned_eq_some_iff.mpr ⟨hn, by omega⟩)
  · intro h n hparse
    obtain ⟨hn, hlt⟩ := parseUnsigned_eq_some_iff.mp hparse
    have hle := h n hn
    omega

end QingzhouSSH.Lib.Digits
