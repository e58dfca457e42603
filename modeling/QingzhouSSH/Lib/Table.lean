/-
  QingzhouSSH.Lib.Table — updates of the rows of a table.

  An update of one row fails when it does not find exactly one.

  Main results:
    * `mem_updateOne` — the rows after an update;
    * `updateOne_hits` — an update that is accepted finds its row;
    * `eq_of_key` — two rows with one key are one row;
    * `map_hit` — a change of the one row that is hit, in its place;
    * `countP_update` — how a count changes.
-/
import Mathlib.Data.List.Nodup
import Mathlib.Logic.Function.Basic

namespace QingzhouSSH.Lib

/-! ## §1. Updates of one row. -/

variable {α ε κ : Type*} {hit : α → Bool} {f : α → α} {refusal : ε} {rows rows' : List α}

/-- Update the one row that is hit. -/
def updateOne (hit : α → Bool) (f : α → α) (refusal : ε) (rows : List α) : Except ε (List α) :=
  if rows.countP hit = 1 then .ok (rows.map fun row => if hit row then f row else row)
  else .error refusal

theorem updateOne_eq (h : updateOne hit f refusal rows = .ok rows') :
    rows' = rows.map fun row => if hit row then f row else row := by
  unfold updateOne at h
  split at h
  next => exact (Except.ok.inj h).symm
  next => cases h

/-- A row after an update was a row before it. -/
theorem mem_updateOne (h : updateOne hit f refusal rows = .ok rows') {row' : α}
    (hmem : row' ∈ rows') :
    ∃ row ∈ rows, (hit row = true ∧ row' = f row) ∨ (¬ hit row = true ∧ row' = row) := by
  rw [updateOne_eq h] at hmem
  obtain ⟨row, hrow, rfl⟩ := List.mem_map.mp hmem
  refine ⟨row, hrow, ?_⟩
  by_cases hhit : hit row = true
  · exact Or.inl ⟨hhit, if_pos hhit⟩
  · exact Or.inr ⟨hhit, if_neg hhit⟩

/-- **An update that is accepted finds its row.** -/
theorem updateOne_hits (h : updateOne hit f refusal rows = .ok rows') :
    ∃ row ∈ rows, hit row = true := by
  unfold updateOne at h
  split at h
  next hcount =>
    have hpos : 0 < rows.countP hit := by omega
    exact List.countP_pos_iff.mp hpos
  next => cases h

/-- An update that leaves the keys alone. -/
theorem updateOne_keys {key : α → κ} (hf : ∀ row, key (f row) = key row)
    (h : updateOne hit f refusal rows = .ok rows') : rows'.map key = rows.map key := by
  rw [updateOne_eq h, List.map_map]
  refine List.map_congr_left fun row _ => ?_
  show key (if hit row then f row else row) = key row
  split
  · exact hf row
  · rfl

/-- The one row that is hit, where the keys differ. -/
theorem updateOne_refused {key : α → κ} (hkeys : (rows.map key).Nodup)
    (hhit : ∀ row other, hit row = true → hit other = true → key row = key other)
    {error : ε} (h : updateOne hit f refusal rows = .error error) : ∀ row ∈ rows, ¬ hit row = true := by
  unfold updateOne at h
  split at h
  next => cases h
  next hcount =>
    intro row hrow hrowHit
    obtain ⟨before, after, rfl⟩ := List.append_of_mem hrow
    have hothers : ∀ other ∈ before ++ after, ¬ hit other = true := by
      intro other hother hotherHit
      rw [List.map_append, List.map_cons, List.nodup_middle] at hkeys
      refine (List.nodup_cons.mp hkeys).1 ?_
      rw [hhit row other hrowHit hotherHit, ← List.map_append]
      exact List.mem_map_of_mem hother
    have hzero : (before ++ after).countP hit = 0 := List.countP_eq_zero.mpr hothers
    refine hcount ?_
    rw [List.countP_append] at hzero
    rw [List.countP_append, List.countP_cons_of_pos hrowHit]
    omega

theorem eq_of_key {key : α → κ} (hkeys : (rows.map key).Nodup) {row other : α} (hrow : row ∈ rows)
    (hother : other ∈ rows) (hsame : key row = key other) : row = other :=
  List.inj_on_of_nodup_map hkeys hrow hother hsame

/-- A change of the one row that is hit, in its place. -/
theorem map_hit {key : α → κ} (hkeys : (rows.map key).Nodup) {p : α → Prop} [DecidablePred p]
    {row : α} (hrow : row ∈ rows) (hhit : p row) (hkey : ∀ other, p other → key other = key row)
    (f : α → α) :
    ∃ before after, rows = before ++ row :: after ∧ (∀ other ∈ before ++ after, key other ≠ key row)
      ∧ rows.map (fun r => if p r then f r else r) = before ++ f row :: after := by
  obtain ⟨before, after, rfl⟩ := List.append_of_mem hrow
  have hothers : ∀ other ∈ before ++ after, key other ≠ key row := by
    intro other hother heq
    rw [List.map_append, List.map_cons, List.nodup_middle] at hkeys
    refine (List.nodup_cons.mp hkeys).1 ?_
    rw [← heq, ← List.map_append]
    exact List.mem_map_of_mem hother
  have hsame : ∀ others : List α, (∀ other ∈ others, key other ≠ key row) →
      others.map (fun r => if p r then f r else r) = others := by
    intro others hnot
    refine (List.map_congr_left fun other hother => ?_).trans (List.map_id others)
    exact if_neg fun hp => hnot other hother (hkey other hp)
  refine ⟨before, after, rfl, hothers, ?_⟩
  rw [List.map_append, List.map_cons, if_pos hhit,
    hsame before fun other hother => hothers other (List.mem_append_left _ hother),
    hsame after fun other hother => hothers other (List.mem_append_right _ hother)]

/-! ## §2. Counting. -/

/-- How a count changes with one of the things that are counted. -/
theorem countP_update {β : Type*} [DecidableEq κ] (p : β → Bool) (g : κ → β) {keys : List κ}
    {key : κ} (hkeys : keys.Nodup) (hmem : key ∈ keys) (b : β) :
    keys.countP (fun k => p (Function.update g key b k)) + (p (g key)).toNat
      = keys.countP (fun k => p (g k)) + (p b).toNat := by
  obtain ⟨before, after, rfl⟩ := List.append_of_mem hmem
  have hother : key ∉ before ++ after := (List.nodup_cons.mp (List.nodup_middle.mp hkeys)).1
  rw [List.mem_append, not_or] at hother
  have hsame : ∀ others : List κ, key ∉ others →
      others.countP (fun k => p (Function.update g key b k)) = others.countP fun k => p (g k) := by
    intro others hnot
    refine List.countP_congr fun k hk => ?_
    have hne : k ≠ key := fun heq => hnot (heq ▸ hk)
    show p (Function.update g key b k) = true ↔ p (g k) = true
    rw [Function.update_of_ne hne]
  rw [List.countP_append, List.countP_append, List.countP_cons, List.countP_cons,
    hsame before hother.1, hsame after hother.2, Function.update_self]
  cases p b <;> cases p (g key) <;> simp <;> omega

end QingzhouSSH.Lib
