/-
  QingzhouSSH.Lib.Holders — things that one party at a time may hold.

  Parties take steps one at a time.  A step may drop what its party holds or take up something
  that nobody holds; what one party holds, no other one does.

  Main results:
    * `holds_update` — who holds a thing after a step;
    * `Alone.step` — a step that takes up only what is free keeps every thing with one party.
-/
import Mathlib.Logic.Function.Basic

namespace QingzhouSSH.Lib.Holders

variable {ι κ ρ : Type*} [DecidableEq ι] {holds : κ → Option ρ} {party : ι → κ}

/-- No two parties hold one thing. -/
def Alone (holds : κ → Option ρ) (party : ι → κ) : Prop :=
  ∀ i j r, holds (party i) = some r → holds (party j) = some r → i = j

/-- Who holds a thing after a step. -/
theorem holds_update {i j : ι} {next : κ} {r : ρ}
    (h : holds (Function.update party i next j) = some r) :
    (j = i ∧ holds next = some r) ∨ (j ≠ i ∧ holds (party j) = some r) := by
  by_cases hj : j = i
  · subst hj
    rw [Function.update_self] at h
    exact Or.inl ⟨rfl, h⟩
  · rw [Function.update_of_ne hj] at h
    exact Or.inr ⟨hj, h⟩

/-- **A step that takes up only what is free keeps every thing with one party.** -/
theorem Alone.step (h : Alone holds party) {i : ι} {next : κ}
    (hnext : ∀ r, holds next = some r → holds (party i) = some r ∨ ∀ j, holds (party j) ≠ some r) :
    Alone holds (Function.update party i next) := by
  intro j k r hj hk
  rcases holds_update hj with ⟨hji, hnextj⟩ | ⟨-, holdj⟩
  · rcases holds_update hk with ⟨hki, -⟩ | ⟨-, holdk⟩
    · rw [hji, hki]
    · rcases hnext r hnextj with hold | hfree
      · exact hji.trans (h i k r hold holdk)
      · exact absurd holdk (hfree k)
  · rcases holds_update hk with ⟨hki, hnextk⟩ | ⟨-, holdk⟩
    · rcases hnext r hnextk with hold | hfree
      · exact (h j i r holdj hold).trans hki.symm
      · exact absurd holdj (hfree j)
    · exact h j k r holdj holdk

end QingzhouSSH.Lib.Holders
