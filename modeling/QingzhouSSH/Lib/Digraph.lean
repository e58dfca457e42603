/-
  QingzhouSSH.Lib.Digraph — walks, dominators and topological orders.

  A directed graph is a relation.  A walk keeps the nodes it has left behind, latest
  first; so does a topological order, where the sources of every edge come before.

  Main results:
    * `mem_every_walk_iff` — a node is left on every walk to another exactly when the
      other cannot be reached without leaving that node;
    * `Sorted.nodup_walk` — a walk in a sorted graph comes to no node twice;
    * `Sorted.acyclic`, `exists_cycle` — when a graph has a cycle.
-/
import Mathlib.Data.List.Nodup
import Mathlib.Data.Set.Finite.List
import Mathlib.Logic.Relation
import Mathlib.Order.WellFounded

namespace QingzhouSSH.Lib.Digraph

variable {ι : Type} {r : ι → ι → Prop}

/-! ## §1. Walks. -/

/-- A walk from `start`: the nodes it has left, latest first, and the node it is at. -/
inductive Walk (r : ι → ι → Prop) (start : ι) : List ι → ι → Prop where
  | here : Walk r start [] start
  | step {left : List ι} {a b : ι} : Walk r start left a → r a b → Walk r start (a :: left) b

/-- Wherever a walk is, it stays in a set that the edges do not leave. -/
theorem Walk.closed (nodes : ι → Prop) (hnext : ∀ a b, r a b → nodes b) {start : ι}
    (hstart : nodes start) {left : List ι} {a : ι} (h : Walk r start left a) :
    nodes a ∧ ∀ x ∈ left, nodes x := by
  induction h with
  | here => exact ⟨hstart, by simp⟩
  | step _ hedge ih =>
      refine ⟨hnext _ _ hedge, ?_⟩
      intro x hx
      rcases List.mem_cons.mp hx with rfl | hx
      · exact ih.1
      · exact ih.2 x hx

/-- The part of a walk that leads to a node it has come to. -/
theorem Walk.upTo {start : ι} {left : List ι} {a x : ι} (h : Walk r start left a)
    (hx : x ∈ a :: left) : ∃ earlier, Walk r start earlier x ∧ ∀ y ∈ earlier, y ∈ left := by
  induction h with
  | here =>
      rw [List.mem_singleton.mp hx]
      exact ⟨[], .here, by simp⟩
  | @step left a b hwalk hedge ih =>
      rcases List.mem_cons.mp hx with rfl | hx
      · exact ⟨a :: left, hwalk.step hedge, fun y hy => hy⟩
      · obtain ⟨earlier, hearlier, hsub⟩ := ih hx
        exact ⟨earlier, hearlier, fun y hy => List.mem_cons_of_mem _ (hsub y hy)⟩

/-! ## §2. Dominators. -/

/-- **`s` is left on every walk to `c` exactly when no walk reaches `c` that never
leaves `s`.** -/
theorem mem_every_walk_iff {start s c : ι} :
    (∀ left, Walk r start left c → s ∈ left)
      ↔ ¬ Relation.ReflTransGen (fun a b => r a b ∧ a ≠ s) start c := by
  constructor
  · intro hevery hreach
    have havoiding : ∀ b, Relation.ReflTransGen (fun a b => r a b ∧ a ≠ s) start b →
        ∃ left, Walk r start left b ∧ s ∉ left := by
      intro b hb
      induction hb with
      | refl => exact ⟨[], .here, List.not_mem_nil⟩
      | tail _ hedge ih =>
          obtain ⟨left, hwalk, hmem⟩ := ih
          refine ⟨_, hwalk.step hedge.1, ?_⟩
          intro hs
          rcases List.mem_cons.mp hs with heq | hs
          · exact hedge.2 heq.symm
          · exact hmem hs
    obtain ⟨left, hwalk, hmem⟩ := havoiding c hreach
    exact hmem (hevery left hwalk)
  · intro hnone left hwalk
    by_contra hmem
    refine hnone ?_
    clear hnone
    induction hwalk with
    | here => exact .refl
    | step _ hedge ih =>
        rw [List.mem_cons, not_or] at hmem
        exact (ih hmem.2).tail ⟨hedge, Ne.symm hmem.1⟩

/-! ## §3. Topological orders. -/

/-- Every node of the list comes after the sources of its edges, latest first. -/
def Sorted (r : ι → ι → Prop) : List ι → Prop
  | [] => True
  | b :: earlier => (∀ a, r a b → a ∈ earlier) ∧ Sorted r earlier

theorem Sorted.source_mem {order : List ι} (hsorted : Sorted r order) {a b : ι}
    (hb : b ∈ order) (hedge : r a b) : a ∈ order := by
  induction order with
  | nil => exact absurd hb List.not_mem_nil
  | cons last earlier ih =>
      rcases List.mem_cons.mp hb with rfl | hb
      · exact List.mem_cons_of_mem _ (hsorted.1 a hedge)
      · exact List.mem_cons_of_mem _ (ih hsorted.2 hb)

/-- The position in a topological order, as a number that grows along the edges. -/
theorem Sorted.rank {order : List ι} (hsorted : Sorted r order) (hnodup : order.Nodup) :
    ∃ rank : ι → Nat, (∀ a ∈ order, rank a < order.length)
      ∧ ∀ a b, b ∈ order → r a b → rank a < rank b := by
  classical
  induction order with
  | nil => exact ⟨fun _ => 0, by simp, by simp⟩
  | cons last earlier ih =>
      obtain ⟨hsources, hearlier⟩ := hsorted
      obtain ⟨hfresh, hnodup⟩ := List.nodup_cons.mp hnodup
      obtain ⟨rank, hbound, hgrows⟩ := ih hearlier hnodup
      have hkept : ∀ a ∈ earlier, (if a = last then earlier.length else rank a) = rank a := by
        intro a ha
        rw [if_neg]
        intro heq
        exact hfresh (heq ▸ ha)
      refine ⟨fun a => if a = last then earlier.length else rank a, ?_, ?_⟩
      · intro a ha
        show (if a = last then earlier.length else rank a) < earlier.length + 1
        rcases List.mem_cons.mp ha with rfl | ha
        · rw [if_pos rfl]
          omega
        · rw [hkept a ha]
          have := hbound a ha
          omega
      · intro a b hb hedge
        dsimp only
        rcases List.mem_cons.mp hb with rfl | hb
        · rw [hkept a (hsources a hedge), if_pos rfl]
          exact hbound a (hsources a hedge)
        · rw [hkept b hb]
          by_cases hlast : a = last
          · -- the sources of an earlier node are earlier than the last one
            exact absurd (hlast ▸ hearlier.source_mem hb hedge) hfresh
          · rw [if_neg hlast]
            exact hgrows a b hb hedge

/-- **A walk in a sorted graph comes to no node twice.** -/
theorem Sorted.nodup_walk {order : List ι} (hsorted : Sorted r order) (hnodup : order.Nodup)
    (hnodes : ∀ a b, r a b → b ∈ order) {start : ι} {left : List ι} {a : ι}
    (hwalk : Walk r start left a) : (a :: left).Nodup := by
  obtain ⟨rank, _, hgrows⟩ := hsorted.rank hnodup
  have hbelow : (∀ x ∈ left, rank x < rank a) ∧ left.Nodup := by
    induction hwalk with
    | here => exact ⟨by simp, List.nodup_nil⟩
    | @step left a b _ hedge ih =>
        have hstep := hgrows a b (hnodes a b hedge) hedge
        refine ⟨?_, List.nodup_cons.mpr ⟨fun hmem => ?_, ih.2⟩⟩
        · intro x hx
          rcases List.mem_cons.mp hx with rfl | hx
          · exact hstep
          · have := ih.1 x hx
            omega
        · have := ih.1 a hmem
          omega
  refine List.nodup_cons.mpr ⟨fun hmem => ?_, hbelow.2⟩
  have := hbelow.1 a hmem
  omega

/-- A walk has left fewer nodes than there are. -/
theorem Sorted.length_walk {order : List ι} (hsorted : Sorted r order) (hnodup : order.Nodup)
    (hnodes : ∀ a b, r a b → b ∈ order) {start : ι} (hstart : start ∈ order) {left : List ι}
    {a : ι} (hwalk : Walk r start left a) : left.length < order.length := by
  have hcons := hsorted.nodup_walk hnodup hnodes hwalk
  obtain ⟨ha, hleft⟩ := hwalk.closed (· ∈ order) hnodes hstart
  have hsub : a :: left ⊆ order := by
    intro x hx
    rcases List.mem_cons.mp hx with rfl | hx
    · exact ha
    · exact hleft x hx
  have hle := hcons.length_le_of_subset hsub
  rw [List.length_cons] at hle
  omega

/-! ## §4. Cycles. -/

/-- **A sorted graph has no cycle.** -/
theorem Sorted.acyclic {order : List ι} (hsorted : Sorted r order) (hnodup : order.Nodup)
    (hnodes : ∀ a b, r a b → b ∈ order) (a : ι) : ¬ Relation.TransGen r a a := by
  obtain ⟨rank, _, hgrows⟩ := hsorted.rank hnodup
  have hpath : ∀ a b, Relation.TransGen r a b → rank a < rank b := by
    intro a b h
    induction h with
    | single hedge => exact hgrows a _ (hnodes _ _ hedge) hedge
    | tail _ hedge ih => exact ih.trans (hgrows _ _ (hnodes _ _ hedge) hedge)
  intro hcycle
  exact lt_irrefl _ (hpath a a hcycle)

/-- **Finitely many nodes of which each has its source among them have a cycle.** -/
theorem exists_cycle {left : List ι} (hne : left ≠ []) (hsource : ∀ b ∈ left, ∃ a ∈ left, r a b) :
    ∃ a, Relation.TransGen r a a := by
  by_contra hnone
  have hacyclic : ∀ a, ¬ Relation.TransGen r a a := fun a ha => hnone ⟨a, ha⟩
  let below : { x // x ∈ left } → { x // x ∈ left } → Prop := fun a b => Relation.TransGen r a b
  have : IsTrans _ below := ⟨fun _ _ _ hab hbc => hab.trans hbc⟩
  have : Std.Irrefl below := ⟨fun a ha => hacyclic a ha⟩
  have : Finite { x // x ∈ left } := (List.finite_toSet left).to_subtype
  obtain ⟨first, hfirst⟩ := List.exists_mem_of_ne_nil left hne
  obtain ⟨least, -, hleast⟩ :=
    (Finite.wellFounded_of_trans_of_irrefl below).has_min Set.univ ⟨⟨first, hfirst⟩, trivial⟩
  -- the source of a least node is below it
  obtain ⟨a, ha, hedge⟩ := hsource least least.2
  exact hleast ⟨a, ha⟩ trivial (.single hedge)

end QingzhouSSH.Lib.Digraph
