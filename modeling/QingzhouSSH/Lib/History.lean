/-
  QingzhouSSH.Lib.History — what a sequence of operations leaves behind.

  A history lists the operations that have been applied, the latest first.

  Main results:
    * `replay_keeps` — an invariant holds after every history;
    * `exists_switch` — what was false and has become true was made true by one operation;
    * `recorded_getLast?` — the last value that is recorded is the last one that was given.
-/
import Mathlib.Data.List.Induction

namespace QingzhouSSH.Lib.History

variable {ω σ : Type*} {apply : ω → σ → σ} {initial : σ}

/-- The state after these operations. -/
def replay (apply : ω → σ → σ) (initial : σ) : List ω → σ
  | [] => initial
  | operation :: earlier => apply operation (replay apply initial earlier)

@[simp] theorem replay_nil : replay apply initial [] = initial := rfl

@[simp] theorem replay_cons (operation : ω) (earlier : List ω) :
    replay apply initial (operation :: earlier) = apply operation (replay apply initial earlier) :=
  rfl

/-- **An invariant holds after every history.** -/
theorem replay_keeps {P : σ → Prop} (hinitial : P initial)
    (hstep : ∀ operation s, P s → P (apply operation s)) (history : List ω) :
    P (replay apply initial history) := by
  induction history with
  | nil => exact hinitial
  | cons operation earlier ih => exact hstep operation _ ih

/-- **What was false and has become true was made true by one operation.** -/
theorem exists_switch {P : σ → Prop} {later earlier : List ω}
    (hbefore : ¬ P (replay apply initial earlier))
    (hafter : P (replay apply initial (later ++ earlier))) :
    ∃ after operation before, later = after ++ operation :: before
      ∧ ¬ P (replay apply initial (before ++ earlier))
      ∧ P (replay apply initial (operation :: before ++ earlier)) := by
  induction later with
  | nil => exact absurd hafter hbefore
  | cons operation later ih =>
      by_cases h : P (replay apply initial (later ++ earlier))
      · obtain ⟨after, found, before, rfl, hswitch⟩ := ih h
        exact ⟨operation :: after, found, before, rfl, hswitch⟩
      · exact ⟨[], operation, later, rfl, h, hafter⟩

/-! ## §2. What has changed. -/

section

variable {α : Type*} [DecidableEq α]

/-- Record a value where it is not the last one. -/
def record (known : List α) (value : α) : List α :=
  if known.getLast? = some value then known else known ++ [value]

/-- The values that are recorded when these are given in turn. -/
def recorded (given : List α) : List α := given.foldl record []

@[simp] theorem recorded_nil : recorded ([] : List α) = [] := rfl

theorem recorded_append (given : List α) (value : α) :
    recorded (given ++ [value]) = record (recorded given) value := by
  unfold recorded
  rw [List.foldl_append]
  rfl

theorem record_getLast? (known : List α) (value : α) :
    (record known value).getLast? = some value := by
  unfold record
  split
  next h => exact h
  next => rw [List.getLast?_append, List.getLast?_singleton, Option.some_or]

/-- **The last value that is recorded is the last one that was given.** -/
theorem recorded_getLast? (given : List α) : (recorded given).getLast? = given.getLast? := by
  induction given using List.reverseRecOn with
  | nil => rfl
  | append_singleton given value _ =>
      rw [recorded_append, record_getLast?, List.getLast?_append, List.getLast?_singleton,
        Option.some_or]

theorem mem_of_mem_recorded {given : List α} {value : α} (h : value ∈ recorded given) :
    value ∈ given := by
  induction given using List.reverseRecOn with
  | nil => exact absurd h List.not_mem_nil
  | append_singleton given last ih =>
      rw [recorded_append] at h
      unfold record at h
      split at h
      · exact List.mem_append_left _ (ih h)
      · rcases List.mem_append.mp h with hold | hnew
        · exact List.mem_append_left _ (ih hold)
        · exact List.mem_append_right _ hnew

end

end QingzhouSSH.Lib.History
