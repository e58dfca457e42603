/-
  QingzhouSSH.Lib.OrdMap — finite maps kept in key order.

  The iteration order of an ordered map is part of what a program computes, so
  the map is its list of entries together with the proof that the keys ascend.

  Main results:
    * `get?_insert` — lookup after insertion;
    * `mem_entries_insert` — the entries an insertion leaves;
    * `insert_perm`, `erase_perm` — the entries, but for their order.
-/
import Mathlib.Data.List.Basic
import Mathlib.Data.List.Lex
import Mathlib.Order.Defs.LinearOrder
import Mathlib.Order.Lattice

namespace QingzhouSSH.Lib

variable {κ ν : Type*} [LinearOrder κ]

/-- Entries with strictly ascending keys. -/
def KeysAscend (l : List (κ × ν)) : Prop := l.Pairwise fun a b => a.1 < b.1

structure OrdMap (κ ν : Type*) [LinearOrder κ] where
  entries : List (κ × ν)
  ascend : KeysAscend entries

namespace OrdMap

/-! ## §1. Operations. -/

def empty : OrdMap κ ν := ⟨[], List.Pairwise.nil⟩

/-- Put an entry in its place; an entry with the same key is overwritten. -/
def insertEntry (k : κ) (v : ν) : List (κ × ν) → List (κ × ν)
  | [] => [(k, v)]
  | e :: rest =>
      if k < e.1 then (k, v) :: e :: rest
      else if k = e.1 then (k, v) :: rest
      else e :: insertEntry k v rest

theorem mem_insertEntry {k : κ} {v : ν} {e : κ × ν} {l : List (κ × ν)}
    (h : e ∈ insertEntry k v l) : e = (k, v) ∨ e ∈ l := by
  induction l with
  | nil => exact Or.inl (by simpa [insertEntry] using h)
  | cons d l ih =>
      simp only [insertEntry] at h
      split at h
      next =>
        rcases List.mem_cons.mp h with h | h
        · exact Or.inl h
        · exact Or.inr h
      split at h
      next =>
        rcases List.mem_cons.mp h with h | h
        · exact Or.inl h
        · exact Or.inr (List.mem_cons_of_mem d h)
      next =>
        rcases List.mem_cons.mp h with h | h
        · exact Or.inr (by rw [h]; exact List.mem_cons_self)
        · rcases ih h with h | h
          · exact Or.inl h
          · exact Or.inr (List.mem_cons_of_mem d h)

theorem insertEntry_ascend {k : κ} {v : ν} {l : List (κ × ν)} (h : KeysAscend l) :
    KeysAscend (insertEntry k v l) := by
  induction l with
  | nil => exact List.pairwise_singleton _ _
  | cons d l ih =>
      obtain ⟨hd, hl⟩ := List.pairwise_cons.mp h
      simp only [insertEntry]
      split
      next hlt =>
        refine List.pairwise_cons.mpr ⟨?_, h⟩
        intro e he
        rcases List.mem_cons.mp he with rfl | he
        · exact hlt
        · exact lt_trans hlt (hd e he)
      split
      next heq =>
        refine List.pairwise_cons.mpr ⟨?_, hl⟩
        intro e he
        show k < e.1
        rw [heq]
        exact hd e he
      next hlt hne =>
        refine List.pairwise_cons.mpr ⟨?_, ih hl⟩
        intro e he
        rcases mem_insertEntry he with rfl | he
        · exact lt_of_le_of_ne (not_lt.mp hlt) (Ne.symm hne)
        · exact hd e he

def insert (m : OrdMap κ ν) (k : κ) (v : ν) : OrdMap κ ν :=
  ⟨insertEntry k v m.entries, insertEntry_ascend m.ascend⟩

/-- The value stored for a key. -/
def lookup (k : κ) : List (κ × ν) → Option ν
  | [] => none
  | e :: rest => if k = e.1 then some e.2 else lookup k rest

def get? (m : OrdMap κ ν) (k : κ) : Option ν := lookup k m.entries

def keys (m : OrdMap κ ν) : List κ := m.entries.map Prod.fst

/-! ## §2. Lookup. -/

theorem lookup_eq_none {k : κ} {l : List (κ × ν)} : lookup k l = none ↔ ∀ e ∈ l, e.1 ≠ k := by
  induction l with
  | nil => simp [lookup]
  | cons d l ih =>
      simp only [lookup]
      split
      next h => simp [h]
      next h =>
        rw [ih]
        simp [Ne.symm h]

theorem lookup_eq_some {k : κ} {v : ν} {l : List (κ × ν)} (hl : KeysAscend l) :
    lookup k l = some v ↔ (k, v) ∈ l := by
  induction l with
  | nil => simp [lookup]
  | cons d l ih =>
      obtain ⟨hd, hl⟩ := List.pairwise_cons.mp hl
      simp only [lookup]
      split
      next h =>
        constructor
        · intro hv
          rw [Option.some.injEq] at hv
          rw [h, ← hv]
          exact List.mem_cons_self
        · intro hm
          rcases List.mem_cons.mp hm with hm | hm
          · rw [← hm]
          · have := hd _ hm
            rw [h] at this
            exact absurd this (lt_irrefl _)
      next h =>
        rw [ih hl, List.mem_cons]
        constructor
        · exact Or.inr
        · rintro (rfl | hm)
          · exact absurd rfl h
          · exact hm

theorem get?_eq_some {m : OrdMap κ ν} {k : κ} {v : ν} :
    m.get? k = some v ↔ (k, v) ∈ m.entries := lookup_eq_some m.ascend

theorem get?_eq_none {m : OrdMap κ ν} {k : κ} :
    m.get? k = none ↔ ∀ e ∈ m.entries, e.1 ≠ k := lookup_eq_none

@[simp] theorem get?_empty (k : κ) : (empty : OrdMap κ ν).get? k = none := rfl

theorem lookup_insertEntry {k j : κ} {v : ν} {l : List (κ × ν)} (h : KeysAscend l) :
    lookup j (insertEntry k v l) = if j = k then some v else lookup j l := by
  induction l with
  | nil => rfl
  | cons d l ih =>
      obtain ⟨hd, hl⟩ := List.pairwise_cons.mp h
      simp only [insertEntry]
      split
      next => rfl
      split
      next hkd =>
        subst hkd
        by_cases hj : j = d.1 <;> simp [lookup, hj]
      next hlt hkd =>
        simp only [lookup]
        rw [ih hl]
        by_cases hjd : j = d.1
        · rw [if_pos hjd, if_pos hjd, if_neg (by rw [hjd]; exact Ne.symm hkd)]
        · rw [if_neg hjd, if_neg hjd]

theorem get?_insert (m : OrdMap κ ν) (k j : κ) (v : ν) :
    (m.insert k v).get? j = if j = k then some v else m.get? j := lookup_insertEntry m.ascend

/-! ## §3. Entries come and go. -/

theorem mem_entries_insert {m : OrdMap κ ν} {k : κ} {v : ν} {e : κ × ν}
    (h : e ∈ (m.insert k v).entries) : e = (k, v) ∨ e ∈ m.entries := mem_insertEntry h

/-- The map without a key. -/
def erase (m : OrdMap κ ν) (k : κ) : OrdMap κ ν :=
  ⟨m.entries.filter fun e => decide (e.1 ≠ k), m.ascend.filter _⟩

theorem insertEntry_perm {k : κ} {v : ν} {l : List (κ × ν)} (h : ∀ e ∈ l, e.1 ≠ k) :
    (insertEntry k v l).Perm ((k, v) :: l) := by
  induction l with
  | nil => exact .refl _
  | cons e rest ih =>
      unfold insertEntry
      by_cases hlt : k < e.1
      · rw [if_pos hlt]
      · rw [if_neg hlt, if_neg (Ne.symm (h e List.mem_cons_self))]
        have hrest := ih fun d hd => h d (List.mem_cons_of_mem e hd)
        exact (hrest.cons e).trans (.swap (k, v) e rest)

/-- A new key is one more entry. -/
theorem insert_perm {m : OrdMap κ ν} {k : κ} (v : ν) (h : m.get? k = none) :
    (m.insert k v).entries.Perm ((k, v) :: m.entries) :=
  insertEntry_perm (get?_eq_none.mp h)

theorem lookup_perm {k : κ} {v : ν} {l : List (κ × ν)} (hl : KeysAscend l)
    (h : lookup k l = some v) : l.Perm ((k, v) :: l.filter fun e => decide (e.1 ≠ k)) := by
  induction l with
  | nil => cases h
  | cons e rest ih =>
      obtain ⟨hbelow, hrest⟩ := List.pairwise_cons.mp hl
      unfold lookup at h
      by_cases hk : k = e.1
      · rw [if_pos hk] at h
        have hkept : rest.filter (fun d => decide (d.1 ≠ k)) = rest := by
          refine List.filter_eq_self.mpr fun d hd => decide_eq_true ?_
          rw [hk]
          exact (hbelow d hd).ne'
        have hself : e = (k, v) := by
          rw [hk, ← Option.some.inj h]
        rw [List.filter_cons_of_neg (by simp [hk]), hkept, hself]
      · rw [if_neg hk] at h
        rw [List.filter_cons_of_pos (by simp [Ne.symm hk])]
        exact ((ih hrest h).cons e).trans (.swap (k, v) e _)

/-- **Taking an entry out leaves the others.** -/
theorem erase_perm {m : OrdMap κ ν} {k : κ} {v : ν} (h : m.get? k = some v) :
    m.entries.Perm ((k, v) :: (m.erase k).entries) :=
  lookup_perm m.ascend h

end OrdMap

end QingzhouSSH.Lib
