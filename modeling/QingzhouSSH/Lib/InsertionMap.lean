/-
  QingzhouSSH.Lib.InsertionMap — maps that keep the order of insertion.

  A key that is set again keeps its place; a key that is deleted and then set moves to the
  end.  The first keys are thus the ones that have not been moved for the longest time.

  Main results:
    * `get?_eq_some_iff` — a map is determined by its entries;
    * `keys_touch`, `get?_touch` — a touch moves a key and changes no value;
    * `keys_put` — so does a store of a new value;
    * `get?_evict`, `size_evict` — what is left once the first keys have been dropped.
-/
import Mathlib.Data.List.Basic
import Mathlib.Data.List.Nodup

namespace QingzhouSSH.Lib

/-- A map as the list of its entries, in the order of insertion. -/
structure InsertionMap (κ ν : Type*) where
  entries : List (κ × ν)
  nodup : (entries.map Prod.fst).Nodup

namespace InsertionMap

variable {κ ν : Type*}

/-! ## §1. Operations. -/

def empty : InsertionMap κ ν := ⟨[], List.nodup_nil⟩

def keys (m : InsertionMap κ ν) : List κ := m.entries.map Prod.fst

def size (m : InsertionMap κ ν) : Nat := m.entries.length

/-- The entries whose keys satisfy `keep`. -/
def filterKeys (keep : κ → Bool) (m : InsertionMap κ ν) : InsertionMap κ ν where
  entries := m.entries.filter fun e => keep e.1
  nodup := m.nodup.sublist (List.filter_sublist.map _)

/-- Entries are dropped from the front while there are more than `limit`. -/
def dropOverflow (limit : Nat) : List (κ × ν) → List (κ × ν)
  | [] => []
  | e :: rest => if limit < (e :: rest).length then dropOverflow limit rest else e :: rest

theorem dropOverflow_spec (limit : Nat) (entries : List (κ × ν)) :
    dropOverflow limit entries <:+ entries
      ∧ (dropOverflow limit entries).length = min limit entries.length := by
  induction entries with
  | nil => exact ⟨List.suffix_refl _, (Nat.min_zero limit).symm⟩
  | cons e rest ih =>
      unfold dropOverflow
      by_cases hlong : limit < (e :: rest).length
      · rw [if_pos hlong]
        refine ⟨ih.1.trans (List.suffix_cons e rest), ?_⟩
        rw [ih.2]
        rw [List.length_cons] at hlong ⊢
        omega
      · rw [if_neg hlong]
        exact ⟨List.suffix_refl _, by omega⟩

def evict (limit : Nat) (m : InsertionMap κ ν) : InsertionMap κ ν where
  entries := dropOverflow limit m.entries
  nodup := m.nodup.sublist ((dropOverflow_spec limit m.entries).1.sublist.map _)

section

variable {m : InsertionMap κ ν}

theorem length_keys : m.keys.length = m.size := List.length_map _

theorem keys_filterKeys {keep : κ → Bool} : (m.filterKeys keep).keys = m.keys.filter keep := by
  unfold keys filterKeys
  rw [List.filter_map]
  rfl

theorem filterKeys_none : (m.filterKeys fun _ => false) = empty := by
  have hentries : (m.entries.filter fun _ => false) = [] := List.filter_false _
  unfold filterKeys empty
  simp only [hentries]

theorem filterKeys_all : (m.filterKeys fun _ => true) = m := by
  have hentries : (m.entries.filter fun _ => true) = m.entries := List.filter_true _
  unfold filterKeys
  simp only [hentries]

/-- **An eviction drops keys from the front.** -/
theorem keys_evict (limit : Nat) : (m.evict limit).keys <:+ m.keys :=
  (dropOverflow_spec limit m.entries).1.map _

theorem size_evict (limit : Nat) : (m.evict limit).size = min limit m.size :=
  (dropOverflow_spec limit m.entries).2

end

variable [DecidableEq κ]

def get? (key : κ) (m : InsertionMap κ ν) : Option ν :=
  (m.entries.find? fun e => e.1 = key).map Prod.snd

def delete (key : κ) (m : InsertionMap κ ν) : InsertionMap κ ν :=
  m.filterKeys fun other => other ≠ key

/-- The entries with a new value at the key. -/
def replaceAt (key : κ) (value : ν) (entries : List (κ × ν)) : List (κ × ν) :=
  entries.map fun e => if e.1 = key then (key, value) else e

theorem keys_replaceAt (key : κ) (value : ν) (entries : List (κ × ν)) :
    (replaceAt key value entries).map Prod.fst = entries.map Prod.fst := by
  unfold replaceAt
  rw [List.map_map]
  apply List.map_congr_left
  intro e _
  by_cases he : e.1 = key
  · simp [he]
  · simp [he]

def set (key : κ) (value : ν) (m : InsertionMap κ ν) : InsertionMap κ ν where
  entries := if key ∈ m.keys then replaceAt key value m.entries else m.entries ++ [(key, value)]
  nodup := by
    by_cases hmem : key ∈ m.keys
    · rw [if_pos hmem, keys_replaceAt]
      exact m.nodup
    · rw [if_neg hmem, List.map_append]
      refine List.Nodup.append m.nodup (List.nodup_singleton _) ?_
      intro other hother heq
      rw [List.mem_singleton.mp heq] at hother
      exact hmem hother

/-- Delete the key and set it: the entry moves to the end. -/
def put (key : κ) (value : ν) (m : InsertionMap κ ν) : InsertionMap κ ν :=
  (m.delete key).set key value

/-- Move an entry to the end, where the key has one. -/
def touch (key : κ) (m : InsertionMap κ ν) : InsertionMap κ ν :=
  match m.get? key with
  | none => m
  | some value => m.put key value

/-! ## §2. Values. -/

variable {m : InsertionMap κ ν} {key other : κ} {value : ν}

/-- **A map is determined by its entries.** -/
theorem get?_eq_some_iff : m.get? key = some value ↔ (key, value) ∈ m.entries := by
  unfold get?
  constructor
  · intro h
    obtain ⟨e, hfind, rfl⟩ := Option.map_eq_some_iff.mp h
    have hkey : e.1 = key := by simpa using List.find?_some hfind
    rw [← hkey]
    exact List.mem_of_find?_eq_some hfind
  · intro h
    have hsome : (m.entries.find? fun e => e.1 = key).isSome = true := by
      rw [List.find?_isSome]
      exact ⟨_, h, by simp⟩
    obtain ⟨e, hfind⟩ := Option.isSome_iff_exists.mp hsome
    have hkey : e.1 = key := by simpa using List.find?_some hfind
    have heq : e = (key, value) :=
      List.inj_on_of_nodup_map m.nodup (List.mem_of_find?_eq_some hfind) h hkey
    rw [hfind, heq]
    rfl

theorem mem_keys_iff : key ∈ m.keys ↔ ∃ value, m.get? key = some value := by
  unfold keys
  constructor
  · intro h
    obtain ⟨e, he, rfl⟩ := List.mem_map.mp h
    exact ⟨e.2, get?_eq_some_iff.mpr he⟩
  · rintro ⟨value, h⟩
    exact List.mem_map.mpr ⟨_, get?_eq_some_iff.mp h, rfl⟩

theorem get?_eq_none_iff : m.get? key = none ↔ key ∉ m.keys := by
  rw [mem_keys_iff, Option.eq_none_iff_forall_ne_some, not_exists]

theorem get?_filterKeys {keep : κ → Bool} :
    (m.filterKeys keep).get? key = if keep key then m.get? key else none := by
  apply Option.ext
  intro value
  have hmem : (key, value) ∈ (m.filterKeys keep).entries
      ↔ (key, value) ∈ m.entries ∧ keep key = true := List.mem_filter
  rw [get?_eq_some_iff, hmem]
  by_cases hkeep : keep key = true
  · rw [if_pos hkeep, get?_eq_some_iff]
    exact and_iff_left hkeep
  · rw [if_neg hkeep]
    simp [hkeep]

theorem get?_delete :
    (m.delete key).get? other = if other = key then none else m.get? other := by
  unfold delete
  rw [get?_filterKeys]
  by_cases h : other = key
  · simp [h]
  · simp [h]

theorem get?_set :
    (m.set key value).get? other = if other = key then some value else m.get? other := by
  have hreplace : ∀ w, (other, w) ∈ replaceAt key value m.entries
      ↔ (other = key ∧ key ∈ m.keys ∧ w = value) ∨ (other ≠ key ∧ (other, w) ∈ m.entries) := by
    intro w
    unfold replaceAt
    rw [List.mem_map]
    constructor
    · rintro ⟨e, he, heq⟩
      by_cases hkey : e.1 = key
      · rw [if_pos hkey] at heq
        obtain ⟨rfl, rfl⟩ := Prod.mk.inj heq
        exact Or.inl ⟨rfl, hkey ▸ List.mem_map_of_mem he, rfl⟩
      · rw [if_neg hkey] at heq
        rw [heq] at he hkey
        exact Or.inr ⟨hkey, he⟩
    · rintro (⟨rfl, hmem, rfl⟩ | ⟨hne, he⟩)
      · obtain ⟨e, he, hkey⟩ := List.mem_map.mp hmem
        exact ⟨e, he, by rw [if_pos hkey]⟩
      · exact ⟨_, he, by rw [if_neg hne]⟩
  apply Option.ext
  intro w
  rw [get?_eq_some_iff]
  show (other, w) ∈ (if key ∈ m.keys then replaceAt key value m.entries
    else m.entries ++ [(key, value)]) ↔ _
  by_cases hmem : key ∈ m.keys
  · rw [if_pos hmem, hreplace]
    by_cases h : other = key
    · simp [h, hmem, eq_comm]
    · simp [h, get?_eq_some_iff]
  · rw [if_neg hmem, List.mem_append, List.mem_singleton, Prod.mk.injEq]
    by_cases h : other = key
    · have hnot : (key, w) ∉ m.entries := fun he => hmem (List.mem_map_of_mem he)
      simp [h, hnot, eq_comm]
    · simp [h, get?_eq_some_iff]

theorem get?_put :
    (m.put key value).get? other = if other = key then some value else m.get? other := by
  unfold put
  rw [get?_set, get?_delete]
  by_cases h : other = key
  · rw [if_pos h, if_pos h]
  · rw [if_neg h, if_neg h, if_neg h]

/-- **A touch changes no value.** -/
theorem get?_touch : (m.touch key).get? other = m.get? other := by
  unfold touch
  cases hget : m.get? key with
  | none => rfl
  | some value =>
      show (m.put key value).get? other = _
      rw [get?_put]
      by_cases h : other = key
      · rw [if_pos h, h, hget]
      · rw [if_neg h]

/-- **What is left after an eviction has its value.** -/
theorem get?_evict {limit : Nat} (h : (m.evict limit).get? key = some value) :
    m.get? key = some value := by
  rw [get?_eq_some_iff] at h ⊢
  exact (dropOverflow_spec limit m.entries).1.subset h

/-! ## §3. Keys in their order. -/

/-- **A store moves the key to the end.** -/
theorem keys_put : (m.put key value).keys = (m.keys.filter fun other => other ≠ key) ++ [key] := by
  have hdelete : (m.delete key).keys = m.keys.filter fun other => other ≠ key := keys_filterKeys
  have hnot : key ∉ (m.delete key).keys := by
    rw [hdelete]
    simp
  show List.map Prod.fst (if key ∈ (m.delete key).keys then _ else _) = _
  rw [if_neg hnot, List.map_append, ← hdelete]
  rfl

theorem keys_touch : (m.touch key).keys
    = if key ∈ m.keys then (m.keys.filter fun other => other ≠ key) ++ [key] else m.keys := by
  unfold touch
  cases hget : m.get? key with
  | none => rw [if_neg (get?_eq_none_iff.mp hget)]
  | some value => rw [if_pos (mem_keys_iff.mpr ⟨value, hget⟩), ← keys_put]

theorem size_touch : (m.touch key).size = m.size := by
  rw [← length_keys, ← length_keys, keys_touch]
  by_cases hmem : key ∈ m.keys
  · rw [if_pos hmem]
    have hnodup : m.keys.Nodup := m.nodup
    have hmoved : ((m.keys.filter fun other => other ≠ key) ++ [key]).Perm m.keys := by
      refine (List.perm_ext_iff_of_nodup ?_ hnodup).mpr ?_
      · refine (hnodup.filter _).append (List.nodup_singleton _) ?_
        intro other hother heq
        rw [List.mem_singleton.mp heq] at hother
        simp at hother
      · intro other
        by_cases h : other = key
        · simp [h, hmem]
        · simp [h]
    exact hmoved.length_eq
  · rw [if_neg hmem]

theorem size_put_le : (m.put key value).size ≤ m.size + 1 := by
  rw [← length_keys, ← length_keys, keys_put, List.length_append, List.length_singleton]
  exact Nat.add_le_add_right (List.length_filter_le _ _) 1

end InsertionMap

end QingzhouSSH.Lib
