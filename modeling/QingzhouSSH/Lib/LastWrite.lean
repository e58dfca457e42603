/-
  QingzhouSSH.Lib.LastWrite — records that are replaced as a whole by writes of single fields.

  A write sets some fields of a record and keeps the others as it has found them.  Where every
  write starts from the record that is stored, each field holds what was written to it last;
  where a write starts from an older one, it may not.

  Main results:
    * `lastSet_snoc` — what was written last, after one more write;
    * `get_foldl` — a field after any number of writes;
    * `written_eq_lastSet_iff` — a write from an older record, of one field.
-/
import Mathlib.Data.List.Induction

namespace QingzhouSSH.Lib.LastWrite

variable {ρ ω α : Type*}

/-- What was written to a field last, by the writes that set it. -/
def lastSet (set? : ω → Option α) (initial : α) (writes : List ω) : α :=
  (writes.reverse.findSome? set?).getD initial

theorem lastSet_snoc (set? : ω → Option α) (initial : α) (writes : List ω) (w : ω) :
    lastSet set? initial (writes ++ [w]) = (set? w).getD (lastSet set? initial writes) := by
  unfold lastSet
  rw [List.reverse_append, List.reverse_singleton, List.singleton_append, List.findSome?_cons]
  cases set? w <;> rfl

/-- A field after any number of writes. -/
theorem get_foldl (apply : ρ → ω → ρ) (get : ρ → α) {set? : ω → Option α}
    (hset : ∀ r w, get (apply r w) = (set? w).getD (get r)) (writes : List ω) (r : ρ) :
    get (writes.foldl apply r) = lastSet set? (get r) writes := by
  induction writes using List.reverseRecOn with
  | nil => rfl
  | append_singleton writes w ih =>
      rw [List.foldl_append, lastSet_snoc, ← ih]
      exact hset _ w

/-- **A write from an older record leaves in a field what was written to it last exactly when it
leaves there what it would have left from the stored one.** -/
theorem written_eq_lastSet_iff (apply : ω → ρ → ρ) (get : ρ → α) {set? : ω → Option α} {w : ω}
    (hset : ∀ r, get (apply w r) = (set? w).getD (get r)) {initial : α} {writes : List ω}
    {stored : ρ} (hstored : get stored = lastSet set? initial writes) (loaded : ρ) :
    get (apply w loaded) = lastSet set? initial (writes ++ [w])
      ↔ get (apply w loaded) = get (apply w stored) := by
  rw [lastSet_snoc, hset stored, hstored]

end QingzhouSSH.Lib.LastWrite
