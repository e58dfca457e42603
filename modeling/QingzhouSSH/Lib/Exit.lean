/-
  QingzhouSSH.Lib.Exit — what a computation leaves behind, whichever way it ends.

  A computation over a state ends with a value or with an error, and the state it has reached
  stays in both cases.  `Leaves` is about that state.

  Main results:
    * `leaves_guarded` — a step that fails before anything has been settled;
    * `leaves_andThen` — steps that have no say in what is settled.
-/
import Mathlib.Logic.Basic

namespace QingzhouSSH.Lib

variable {ε σ κ : Type} {α β : Type} {post : σ → Prop} {p : EStateM ε σ α} {f : α → EStateM ε σ β}
  {s s' : σ} {a : α} {e : ε}

/-- The state at the end. -/
def exitState : EStateM.Result ε σ α → σ
  | .ok _ s => s
  | .error _ s => s

/-- The state at the end is as it should be. -/
def Leaves (post : σ → Prop) (p : EStateM ε σ α) (s : σ) : Prop := post (exitState (p s))

/-- The part of the state that a computation leaves alone. -/
def Keeps (view : σ → κ) (p : EStateM ε σ α) : Prop := ∀ s, view (exitState (p s)) = view s

/-- A result that is known already. -/
def answer (r : Except ε α) : EStateM ε σ α := fun s =>
  match r with
  | .ok a => .ok a s
  | .error e => .error e s

theorem bind_of_ok (h : p s = .ok a s') : (p >>= f) s = f a s' := by
  show EStateM.bind p f s = f a s'
  unfold EStateM.bind
  rw [h]

theorem bind_of_error (h : p s = .error e s') : (p >>= f) s = .error e s' := by
  show EStateM.bind p f s = .error e s'
  unfold EStateM.bind
  rw [h]

theorem leaves_bind_ok (h : p s = .ok a s') :
    Leaves post (p >>= f) s ↔ Leaves post (f a) s' := by
  unfold Leaves
  rw [bind_of_ok h]

theorem keeps_answer (view : σ → κ) (r : Except ε α) : Keeps view (answer r) := by
  intro s
  cases r <;> rfl

theorem Keeps.bind {view : σ → κ} (hp : Keeps view p) (hf : ∀ a, Keeps view (f a)) :
    Keeps view (p >>= f) := by
  intro s
  have hkept := hp s
  cases hrun : p s with
  | ok a s' =>
    rw [hrun] at hkept
    rw [bind_of_ok hrun, hf a s']
    exact hkept
  | error e s' =>
    rw [hrun] at hkept
    rw [bind_of_error hrun]
    exact hkept

theorem answer_eq_ok {r : Except ε α} : (answer r : EStateM ε σ α) s = .ok a s' ↔ r = .ok a ∧ s = s' := by
  cases r with
  | ok b =>
    constructor
    · intro h
      obtain ⟨rfl, rfl⟩ := EStateM.Result.ok.inj h
      exact ⟨rfl, rfl⟩
    · rintro ⟨h, rfl⟩
      rw [Except.ok.inj h]
      rfl
  | error e => exact iff_of_false nofun fun h => nomatch h.1

/-- **A step that fails leaves nothing settled**, so everything has to be settled after it. -/
theorem leaves_guarded {view : σ → κ} (hpost : ∀ s s', view s' = view s → (post s' ↔ post s))
    (hp : Keeps view p) (hs : ¬ post s) :
    Leaves post (p >>= f) s ↔ ∃ a s', p s = .ok a s' ∧ Leaves post (f a) s' := by
  have hkept := hp s
  cases hrun : p s with
  | ok a s' =>
    rw [leaves_bind_ok hrun]
    constructor
    · exact fun h => ⟨a, s', rfl, h⟩
    · rintro ⟨b, s'', heq, h⟩
      obtain ⟨rfl, rfl⟩ := EStateM.Result.ok.inj heq
      exact h
  | error e s' =>
    rw [hrun] at hkept
    refine iff_of_false (fun h => hs ?_) fun ⟨_, _, heq, _⟩ => nomatch heq
    unfold Leaves at h
    rw [bind_of_error hrun] at h
    exact (hpost s s' hkept).mp h

/-- The same for a result that is known. -/
theorem leaves_answer {r : Except ε α} (hs : ¬ post s) :
    Leaves post (answer r >>= f) s ↔ ∃ a, r = .ok a ∧ Leaves post (f a) s := by
  have hsame : ∀ s s' : σ, id s' = id s → (post s' ↔ post s) := fun s s' heq => by
    rw [id_eq, id_eq] at heq
    rw [heq]
  rw [leaves_guarded hsame (keeps_answer id r) hs]
  constructor
  · rintro ⟨a, s', hrun, h⟩
    obtain ⟨heq, rfl⟩ := answer_eq_ok.mp hrun
    exact ⟨a, heq, h⟩
  · rintro ⟨a, heq, h⟩
    exact ⟨a, s, answer_eq_ok.mpr ⟨heq, rfl⟩, h⟩

/-- Steps that leave the view alone do not show at the end, even where they fail. -/
theorem view_andThen {view : σ → κ} (p : EStateM ε σ α) (s : σ) (hf : ∀ a, Keeps view (f a)) :
    view (exitState ((p >>= f) s)) = view (exitState (p s)) := by
  cases hrun : p s with
  | ok a s' =>
    rw [bind_of_ok hrun]
    exact hf a s'
  | error e s' =>
    rw [bind_of_error hrun]
    rfl

/-- **They settle nothing and unsettle nothing.** -/
theorem leaves_andThen {view : σ → κ} (hpost : ∀ s s', view s' = view s → (post s' ↔ post s))
    (hf : ∀ a, Keeps view (f a)) : Leaves post (p >>= f) s ↔ Leaves post p s :=
  hpost _ _ (view_andThen p s hf)

end QingzhouSSH.Lib
