/-
  QingzhouSSH.Lib.Scan — reading a stream that arrives in pieces.

  A reader takes one item off the front of its input, or asks for more.  When what
  it has read stays read however the input goes on, the items do not depend on
  where the pieces were cut.

  Main results:
    * `readAll_append` — reading on from what was left;
    * `rewrite_append` — a rewriting over a cut depends on what is left at the cut.
-/
import Mathlib.Data.List.Basic

namespace QingzhouSSH.Lib.Scan

variable {α β : Type*}

/-! ## §1. Reading. -/

/-- An item off the front and the rest of the input. -/
abbrev Reader (α β : Type*) := List α → Option (β × List α)

/-- The rest is shorter, and more input only makes it longer. -/
structure Incremental (read : Reader α β) : Prop where
  advances : ∀ {s b r}, read s = some (b, r) → r.length < s.length
  stable : ∀ {s b r} (t : List α), read s = some (b, r) → read (s ++ t) = some (b, r ++ t)

/-- Read items for as long as there are complete ones; the fuel bounds their number. -/
def drain (read : Reader α β) : Nat → List α → List β × List α
  | 0, s => ([], s)
  | fuel + 1, s =>
      match read s with
      | none => ([], s)
      | some (b, r) => (b :: (drain read fuel r).1, (drain read fuel r).2)

/-- All complete items and what is left; no item is empty, so the length is fuel
enough. -/
def readAll (read : Reader α β) (s : List α) : List β × List α := drain read s.length s

variable {read : Reader α β}

theorem drain_of_length_le (h : Incremental read) {fuel : Nat} {s : List α}
    (hfuel : s.length ≤ fuel) : drain read fuel s = readAll read s := by
  -- both sides read the same first item, and the rest is shorter
  suffices hboth : ∀ n fuel fuel' (s : List α), s.length ≤ n → s.length ≤ fuel →
      s.length ≤ fuel' → drain read fuel s = drain read fuel' s from
    hboth s.length fuel s.length s (Nat.le_refl _) hfuel (Nat.le_refl _)
  intro n
  induction n with
  | zero =>
      intro fuel fuel' s hn _ _
      have hnone : read s = none := by
        cases hread : read s with
        | none => rfl
        | some r =>
            have := h.advances (b := r.1) (r := r.2) hread
            omega
      cases fuel <;> cases fuel' <;> simp [drain, hnone]
  | succ n ih =>
      intro fuel fuel' s hn hf hf'
      cases hread : read s with
      | none => cases fuel <;> cases fuel' <;> simp [drain, hread]
      | some r =>
          have hr := h.advances (b := r.1) (r := r.2) hread
          cases fuel with
          | zero => omega
          | succ fuel =>
              cases fuel' with
              | zero => omega
              | succ fuel' =>
                  have hrest := ih fuel fuel' r.2 (by omega) (by omega) (by omega)
                  simp [drain, hread, hrest]

theorem readAll_of_none {s : List α} (hread : read s = none) : readAll read s = ([], s) := by
  unfold readAll
  cases s.length <;> simp [drain, hread]

theorem readAll_of_some (h : Incremental read) {s r : List α} {b : β}
    (hread : read s = some (b, r)) :
    readAll read s = (b :: (readAll read r).1, (readAll read r).2) := by
  have hr := h.advances hread
  obtain ⟨fuel, hfuel⟩ : ∃ fuel, s.length = fuel + 1 := ⟨s.length - 1, by omega⟩
  rw [readAll, hfuel, drain, hread]
  dsimp only
  rw [drain_of_length_le h (by omega)]

/-- Induction over the items of an input. -/
theorem readAll_induction (h : Incremental read) {motive : List α → Prop}
    (stop : ∀ s, read s = none → motive s)
    (next : ∀ s b r, read s = some (b, r) → motive r → motive s) (s : List α) : motive s := by
  suffices hall : ∀ n (s : List α), s.length ≤ n → motive s from hall _ s (Nat.le_refl _)
  intro n
  induction n with
  | zero =>
      intro s hn
      cases hread : read s with
      | none => exact stop s hread
      | some r =>
          have := h.advances (b := r.1) (r := r.2) hread
          omega
  | succ n ih =>
      intro s hn
      cases hread : read s with
      | none => exact stop s hread
      | some r =>
          have := h.advances (b := r.1) (r := r.2) hread
          exact next s r.1 r.2 hread (ih r.2 (by omega))

/-- What is left holds no complete item. -/
theorem read_readAll (h : Incremental read) (s : List α) : read (readAll read s).2 = none := by
  induction s using readAll_induction h with
  | stop s hread => rw [readAll_of_none hread, hread]
  | next s b r hread ih =>
      rw [readAll_of_some h hread]
      exact ih

/-- **Reading a longer input goes on from what the shorter one left.** -/
theorem readAll_append (h : Incremental read) (t s : List α) :
    readAll read (s ++ t)
      = ((readAll read s).1 ++ (readAll read ((readAll read s).2 ++ t)).1,
          (readAll read ((readAll read s).2 ++ t)).2) := by
  induction s using readAll_induction h with
  | stop s hread => rw [readAll_of_none hread, List.nil_append]
  | next s b r hread ih =>
      rw [readAll_of_some h (h.stable t hread), readAll_of_some h hread, ih]
      rfl

/-! ## §2. Rewriting. -/

section Rewriting

variable {γ : Type*} {turn : Reader α (List γ)}

/-- Replace one item after the other; `last` renders what is left. -/
def rewrite (turn : Reader α (List γ)) (last : List α → List γ) (s : List α) : List γ :=
  (readAll turn s).1.flatten ++ last (readAll turn s).2

theorem rewrite_of_none {last : List α → List γ} {s : List α} (h : turn s = none) :
    rewrite turn last s = last s := by
  rw [rewrite, readAll_of_none h, List.flatten_nil, List.nil_append]

theorem rewrite_of_some {last : List α → List γ} (h : Incremental turn) {s r : List α}
    {b : List γ} (hturn : turn s = some (b, r)) :
    rewrite turn last s = b ++ rewrite turn last r := by
  rw [rewrite, readAll_of_some h hturn, List.flatten_cons, List.append_assoc, rewrite]

/-- **Where the rest at a cut goes on as its own rendering, the rewriting of the whole
is that of the two parts.** -/
theorem rewrite_append {last : List α → List γ} (h : Incremental turn) {s t : List α}
    (hrest : rewrite turn last ((readAll turn s).2 ++ t)
      = last (readAll turn s).2 ++ rewrite turn last t) :
    rewrite turn last (s ++ t) = rewrite turn last s ++ rewrite turn last t := by
  have hwhole : rewrite turn last (s ++ t)
      = (readAll turn s).1.flatten ++ rewrite turn last ((readAll turn s).2 ++ t) := by
    rw [rewrite, readAll_append h t s, List.flatten_append, List.append_assoc, rewrite]
  have hpart : rewrite turn last s = (readAll turn s).1.flatten ++ last (readAll turn s).2 := rfl
  rw [hwhole, hrest, hpart, List.append_assoc]

end Rewriting

end QingzhouSSH.Lib.Scan
