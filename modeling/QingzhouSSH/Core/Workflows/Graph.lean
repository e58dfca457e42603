/-
  QingzhouSSH.Core.Workflows.Graph — what the graph algorithms of the validation find.

  Main results:
    * `mem_reachableFrom_iff` — `reachableFrom` finds what the edges lead to;
    * `mem_every_walk_iff_reachableFrom` — when a node is left on every walk to another;
    * `sorted_of_hasCycle` — without a cycle the nodes have a topological order;
    * `acceptedGraph_of_valid` — the graph of an accepted draft.
-/
import Mathlib.Data.List.Dedup
import Mathlib.Data.List.Perm.Subperm
import QingzhouSSH.Core.Workflows.Validation
import QingzhouSSH.Lib.Digraph

namespace QingzhouSSH.Core.Workflows

open QingzhouSSH.Lib.Digraph
open QingzhouSSH.Domain
open QingzhouSSH.Core.Tasks

variable {ι : Type} [DecidableEq ι]

/-- Some edge leads from `a` to `b`. -/
def Edge (edges : List (WorkflowEdge ι)) (a b : ι) : Prop :=
  ∃ edge ∈ edges, edge.source = a ∧ edge.target = b

theorem mem_outgoing {edges : List (WorkflowEdge ι)} {id : ι} {edge : WorkflowEdge ι} :
    edge ∈ outgoing edges id ↔ edge ∈ edges ∧ edge.source = id := by
  unfold outgoing
  rw [List.mem_filter, beq_iff_eq]

theorem mem_incoming {edges : List (WorkflowEdge ι)} {id : ι} {edge : WorkflowEdge ι} :
    edge ∈ incoming edges id ↔ edge ∈ edges ∧ edge.target = id := by
  unfold incoming
  rw [List.mem_filter, beq_iff_eq]

theorem mem_targets {edges : List (WorkflowEdge ι)} {a b : ι} :
    b ∈ (outgoing edges a).map WorkflowEdge.target ↔ Edge edges a b := by
  rw [List.mem_map]
  constructor
  · rintro ⟨edge, hedge, rfl⟩
    obtain ⟨hmem, hsource⟩ := mem_outgoing.mp hedge
    exact ⟨edge, hmem, hsource, rfl⟩
  · rintro ⟨edge, hmem, hsource, rfl⟩
    exact ⟨edge, mem_outgoing.mpr ⟨hmem, hsource⟩, rfl⟩

/-! ## §1. `reachable_from`. -/

section Reachable

variable (edges : List (WorkflowEdge ι))

/-- The edges whose source has not been found. -/
def unfound (found : List ι) : List (WorkflowEdge ι) :=
  edges.filter fun edge => decide (edge.source ∉ found)

/-- Finding a node takes its outgoing edges off the unfound ones. -/
theorem length_unfound_cons {id : ι} {found : List ι} (hid : id ∉ found) :
    (unfound edges (id :: found)).length + (outgoing edges id).length
      = (unfound edges found).length := by
  unfold unfound outgoing
  induction edges with
  | nil => rfl
  | cons edge rest ih =>
      simp only [List.filter_cons, List.mem_cons, not_or, beq_iff_eq, decide_eq_true_eq]
      by_cases hsource : edge.source = id
      · rw [if_neg (fun h => h.1 hsource), if_pos hsource, if_pos (hsource ▸ hid)]
        simp only [List.length_cons, List.mem_cons, not_or] at ih ⊢
        omega
      · rw [if_neg hsource]
        by_cases hfound : edge.source ∈ found
        · rw [if_neg (fun h => h.2 hfound), if_neg (fun h => h hfound)]
          simpa only [List.mem_cons, not_or] using ih
        · rw [if_pos ⟨hsource, hfound⟩, if_pos hfound]
          simp only [List.length_cons, List.mem_cons, not_or] at ih ⊢
          omega

variable {edges}

/-- What the loop finds is what it had found or what the queue leads to. -/
theorem visitAll_sound {P : ι → Prop} (hclosed : ∀ a b, P a → Edge edges a b → P b)
    {fuel : Nat} {queue found : List ι} (hqueue : ∀ x ∈ queue, P x) (hfound : ∀ x ∈ found, P x) :
    ∀ x ∈ visitAll edges fuel queue found, P x := by
  induction fuel generalizing queue found with
  | zero =>
      unfold visitAll
      exact hfound
  | succ fuel ih =>
      cases queue with
      | nil =>
          unfold visitAll
          exact hfound
      | cons id queue =>
          have hid : P id := hqueue id List.mem_cons_self
          have hrest : ∀ x ∈ queue, P x := fun x hx => hqueue x (List.mem_cons_of_mem _ hx)
          unfold visitAll
          split
          · exact ih hrest hfound
          · refine ih ?_ ?_
            · intro x hx
              rcases List.mem_append.mp hx with hx | hx
              · exact hrest x hx
              · exact hclosed id x hid (mem_targets.mp hx)
            · intro x hx
              rcases List.mem_cons.mp hx with rfl | hx
              · exact hid
              · exact hfound x hx

/-- With fuel for every entry of the queue, nothing that the queue leads to is left
out. -/
theorem visitAll_complete (fuel : Nat) (queue found : List ι)
    (hfuel : queue.length + (unfound edges found).length ≤ fuel)
    (hclosed : ∀ a ∈ found, ∀ b, Edge edges a b → b ∈ found ∨ b ∈ queue) :
    (∀ x, x ∈ queue ∨ x ∈ found → x ∈ visitAll edges fuel queue found)
      ∧ ∀ a ∈ visitAll edges fuel queue found, ∀ b, Edge edges a b →
        b ∈ visitAll edges fuel queue found := by
  induction fuel generalizing queue found with
  | zero =>
      have hempty : queue = [] := List.eq_nil_of_length_eq_zero (by omega)
      subst hempty
      unfold visitAll
      refine ⟨fun x hx => hx.resolve_left List.not_mem_nil, ?_⟩
      intro a ha b hb
      exact (hclosed a ha b hb).resolve_right List.not_mem_nil
  | succ fuel ih =>
      cases queue with
      | nil =>
          unfold visitAll
          refine ⟨fun x hx => hx.resolve_left List.not_mem_nil, ?_⟩
          intro a ha b hb
          exact (hclosed a ha b hb).resolve_right List.not_mem_nil
      | cons id queue =>
          rw [List.length_cons] at hfuel
          unfold visitAll
          by_cases hid : id ∈ found
          · rw [if_pos hid]
            obtain ⟨hkept, hall⟩ := ih queue found (by omega) (by
              intro a ha b hb
              rcases hclosed a ha b hb with h | h
              · exact Or.inl h
              · rcases List.mem_cons.mp h with rfl | h
                · exact Or.inl hid
                · exact Or.inr h)
            refine ⟨?_, hall⟩
            rintro x (hx | hx)
            · rcases List.mem_cons.mp hx with rfl | hx
              · exact hkept _ (Or.inr hid)
              · exact hkept x (Or.inl hx)
            · exact hkept x (Or.inr hx)
          · rw [if_neg hid]
            have hcount := length_unfound_cons edges hid
            obtain ⟨hkept, hall⟩ := ih
              (queue ++ (outgoing edges id).map WorkflowEdge.target) (id :: found)
              (by
                rw [List.length_append, List.length_map]
                omega)
              (by
                intro a ha b hb
                rcases List.mem_cons.mp ha with rfl | ha
                · exact Or.inr (List.mem_append_right _ (mem_targets.mpr hb))
                · rcases hclosed a ha b hb with h | h
                  · exact Or.inl (List.mem_cons_of_mem _ h)
                  · rcases List.mem_cons.mp h with rfl | h
                    · exact Or.inl List.mem_cons_self
                    · exact Or.inr (List.mem_append_left _ h))
            refine ⟨?_, hall⟩
            rintro x (hx | hx)
            · rcases List.mem_cons.mp hx with rfl | hx
              · exact hkept _ (Or.inr List.mem_cons_self)
              · exact hkept x (Or.inl (List.mem_append_left _ hx))
            · exact hkept x (Or.inr (List.mem_cons_of_mem _ hx))

/-- **`reachable_from` finds the start and everything the edges lead to from there.** -/
theorem mem_reachableFrom_iff {start x : ι} :
    x ∈ reachableFrom start edges ↔ Relation.ReflTransGen (Edge edges) start x := by
  unfold reachableFrom
  constructor
  · refine visitAll_sound (P := Relation.ReflTransGen (Edge edges) start) ?_ ?_ ?_ x
    · exact fun a b ha hedge => ha.tail hedge
    · intro y hy
      rw [List.mem_singleton.mp hy]
    · simp
  · intro hreach
    obtain ⟨hkept, hall⟩ := @visitAll_complete _ _ edges (edges.length + 1) [start] []
      (by
        have : (unfound edges []).length ≤ edges.length := List.length_filter_le _ _
        rw [List.length_singleton]
        omega)
      (by simp)
    induction hreach with
    | refl => exact hkept start (Or.inl List.mem_cons_self)
    | tail _ hedge ih => exact hall _ ih _ hedge

/-- **A node is left on every walk to another exactly when `reachable_from` does not find
the other once the edges that leave the first are gone.** -/
theorem mem_every_walk_iff_reachableFrom {start s c : ι} :
    (∀ left, Walk (Edge edges) start left c → s ∈ left)
      ↔ c ∉ reachableFrom start (edges.filter fun edge => edge.source != s) := by
  rw [mem_every_walk_iff, mem_reachableFrom_iff, not_iff_not]
  have hsame : (fun a b => Edge edges a b ∧ a ≠ s)
      = Edge (edges.filter fun edge => edge.source != s) := by
    funext a b
    refine propext ⟨?_, ?_⟩
    · rintro ⟨⟨edge, hmem, rfl, rfl⟩, hne⟩
      exact ⟨edge, List.mem_filter.mpr ⟨hmem, bne_iff_ne.mpr hne⟩, rfl, rfl⟩
    · rintro ⟨edge, hmem, rfl, rfl⟩
      obtain ⟨hmem, hne⟩ := List.mem_filter.mp hmem
      exact ⟨⟨edge, hmem, rfl, rfl⟩, bne_iff_ne.mp hne⟩
  rw [hsame]

end Reachable

/-! ## §2. `has_cycle`. -/

section Cycle

/-- Dropping edges lowers the degree of each target by its edges, and makes a target
ready once, when its last edge goes. -/
theorem dropEdges_spec {dropped : List (WorkflowEdge ι)} (degree left : ι → Nat)
    (hdegree : ∀ x, degree x = (incoming dropped x).length + left x) (queue : List ι) :
    ∃ ready, dropEdges dropped degree queue = (left, queue ++ ready) ∧ ready.Nodup
      ∧ ∀ x, x ∈ ready ↔ left x = 0 ∧ incoming dropped x ≠ [] := by
  induction dropped generalizing degree queue with
  | nil =>
      have hsame : degree = left := by
        funext x
        rw [hdegree x]
        show 0 + left x = left x
        omega
      refine ⟨[], ?_, List.nodup_nil, fun x => iff_of_false List.not_mem_nil fun h => h.2 rfl⟩
      unfold dropEdges
      rw [hsame, List.append_nil]
  | cons edge rest ih =>
      have hcons : ∀ x, incoming (edge :: rest) x
          = if edge.target = x then edge :: incoming rest x else incoming rest x := by
        intro x
        unfold incoming
        simp only [List.filter_cons, beq_iff_eq]
      have htarget : degree edge.target = (incoming rest edge.target).length + 1
          + left edge.target := by
        rw [hdegree, hcons, if_pos rfl, List.length_cons]
      have hnext : ∀ x, (if x = edge.target then degree edge.target - 1 else degree x)
          = (incoming rest x).length + left x := by
        intro x
        by_cases hx : x = edge.target
        · subst hx
          rw [if_pos rfl]
          omega
        · rw [if_neg hx, hdegree x, hcons, if_neg (Ne.symm hx)]
      have hother : ∀ x, x ≠ edge.target → incoming (edge :: rest) x = incoming rest x := by
        intro x hx
        rw [hcons, if_neg (Ne.symm hx)]
      have hsome : incoming (edge :: rest) edge.target ≠ [] := by
        rw [hcons, if_pos rfl]
        exact List.cons_ne_nil _ _
      unfold dropEdges
      by_cases hzero : degree edge.target - 1 = 0
      · have hlast : incoming rest edge.target = [] :=
          List.eq_nil_of_length_eq_zero (by omega)
        obtain ⟨ready, heq, hnodup, hready⟩ := ih _ hnext (queue ++ [edge.target])
        refine ⟨edge.target :: ready, ?_, ?_, ?_⟩
        · dsimp only
          rw [if_pos hzero, heq, List.append_assoc, List.singleton_append]
        · -- the last edge to this target has just gone
          exact List.nodup_cons.mpr ⟨fun hmem => ((hready _).mp hmem).2 hlast, hnodup⟩
        · intro x
          by_cases hx : x = edge.target
          · subst hx
            exact iff_of_true List.mem_cons_self ⟨by omega, hsome⟩
          · rw [hother x hx, ← hready x, List.mem_cons]
            exact or_iff_right hx
      · obtain ⟨ready, heq, hnodup, hready⟩ := ih _ hnext queue
        refine ⟨ready, ?_, hnodup, fun x => ?_⟩
        · dsimp only
          rw [if_neg hzero, heq]
        · rw [hready x]
          by_cases hx : x = edge.target
          · subst hx
            -- its degree has not come to zero, so neither side holds or both do
            refine and_congr_right fun hleft => iff_of_true ?_ hsome
            intro hnil
            rw [hnil, List.length_nil] at htarget
            omega
          · rw [hother x hx]

/-- The edges to `x` whose source is still there. -/
def pending (edges : List (WorkflowEdge ι)) (removed : List ι) (x : ι) : List (WorkflowEdge ι) :=
  (incoming edges x).filter fun edge => decide (edge.source ∉ removed)

theorem pending_eq_nil {edges : List (WorkflowEdge ι)} {removed : List ι} {x : ι} :
    pending edges removed x = [] ↔ ∀ a, Edge edges a x → a ∈ removed := by
  unfold pending
  rw [List.filter_eq_nil_iff]
  constructor
  · rintro hnone a ⟨edge, hmem, rfl, rfl⟩
    by_contra hnot
    exact hnone edge (mem_incoming.mpr ⟨hmem, rfl⟩) (decide_eq_true hnot)
  · intro hall edge hmem hnot
    obtain ⟨hmem, htarget⟩ := mem_incoming.mp hmem
    exact of_decide_eq_true hnot (hall _ ⟨edge, hmem, rfl, htarget⟩)

/-- Removing a node takes its edges off the pending ones. -/
theorem length_pending (edges : List (WorkflowEdge ι)) {removed : List ι} {id : ι}
    (hid : id ∉ removed) (x : ι) :
    (pending edges removed x).length
      = (incoming (outgoing edges id) x).length + (pending edges (id :: removed) x).length := by
  have hswap : incoming (outgoing edges id) x = outgoing (incoming edges x) id := by
    unfold incoming outgoing
    rw [List.filter_filter, List.filter_filter]
    congr 1
    funext edge
    exact Bool.and_comm _ _
  have hcount := length_unfound_cons (incoming edges x) hid
  rw [hswap]
  unfold pending
  unfold unfound at hcount
  omega

/-- The removed nodes, latest first, with what is left: `removed` is sorted, and the
queue holds distinct nodes without pending edges. -/
structure Removing (edges : List (WorkflowEdge ι)) (removed queue : List ι) : Prop where
  sorted : Sorted (Edge edges) removed
  nodup : (queue ++ removed).Nodup
  ready : ∀ x ∈ queue, pending edges removed x = []

/-- No node without pending edges is left out, and there are no other nodes. -/
structure RemovingAll (edges : List (WorkflowEdge ι)) (nodes : ι → Prop) (removed queue : List ι) :
    Prop extends Removing edges removed queue where
  all : ∀ x, nodes x → x ∉ queue ++ removed → pending edges removed x ≠ []
  known : ∀ x ∈ queue ++ removed, nodes x

/-- Removing the first node of the queue. -/
theorem RemovingAll.next {edges : List (WorkflowEdge ι)} {nodes : ι → Prop}
    (hnodes : ∀ a b, Edge edges a b → nodes b) {id : ι} {removed queue : List ι}
    (h : RemovingAll edges nodes removed (id :: queue)) {ready : List ι} (hnodup : ready.Nodup)
    (hready : ∀ x, x ∈ ready ↔ (pending edges (id :: removed) x).length = 0
      ∧ incoming (outgoing edges id) x ≠ []) :
    RemovingAll edges nodes (id :: removed) (queue ++ ready) := by
  have hall : (id :: (queue ++ removed)).Nodup := h.nodup
  obtain ⟨hfresh, hrest⟩ := List.nodup_cons.mp hall
  rw [List.mem_append, not_or] at hfresh
  have hcount := length_pending edges hfresh.2
  have hlost : ∀ x ∈ ready, pending edges removed x ≠ [] := by
    intro x hx hnil
    have hx0 := hcount x
    rw [hnil, List.length_nil] at hx0
    exact ((hready x).mp hx).2 (List.eq_nil_of_length_eq_zero (by omega))
  have hperm : (queue ++ ready ++ id :: removed).Perm (id :: (queue ++ removed) ++ ready) := by
    rw [List.append_assoc, List.cons_append, List.append_assoc]
    refine (List.Perm.append_left queue ?_).trans List.perm_middle
    exact List.perm_append_comm
  refine ⟨⟨⟨?_, h.sorted⟩, ?_, ?_⟩, ?_, ?_⟩
  · exact pending_eq_nil.mp (h.ready id List.mem_cons_self)
  · -- the ready targets had pending edges until now, all the others had none
    have hkept : ∀ x ∈ id :: (queue ++ removed), x ∉ ready := by
      intro x hx hmem
      refine hlost x hmem ?_
      rw [← List.cons_append] at hx
      rcases List.mem_append.mp hx with hx | hx
      · exact h.ready x hx
      · exact pending_eq_nil.mpr fun a ha => h.sorted.source_mem hx ha
    rw [hperm.nodup_iff]
    exact List.nodup_append.mpr ⟨hall, hnodup, fun a ha b hb heq => hkept a ha (heq ▸ hb)⟩
  · intro x hx
    rcases List.mem_append.mp hx with hx | hx
    · have hx0 := hcount x
      rw [h.ready x (List.mem_cons_of_mem _ hx), List.length_nil] at hx0
      exact List.eq_nil_of_length_eq_zero (by omega)
    · exact List.eq_nil_of_length_eq_zero ((hready x).mp hx).1
  · intro x hx hleft hnil
    rw [hperm.mem_iff, List.mem_append, not_or] at hleft
    have hx0 := hcount x
    rw [hnil, List.length_nil] at hx0
    -- what has lost its last edge to this node has become ready
    have hnone : incoming (outgoing edges id) x = [] := by
      by_contra hsome
      exact hleft.2 ((hready x).mpr ⟨by rw [hnil]; rfl, hsome⟩)
    rw [hnone, List.length_nil] at hx0
    exact h.all x hx hleft.1 (List.eq_nil_of_length_eq_zero (by omega))
  · intro x hx
    rcases List.mem_append.mp (hperm.mem_iff.mp hx) with hx | hx
    · exact h.known x hx
    · obtain ⟨edge, hedge⟩ := List.exists_mem_of_ne_nil _ ((hready x).mp hx).2
      obtain ⟨hleaves, htarget⟩ := mem_incoming.mp hedge
      exact hnodes edge.source x ⟨edge, (mem_outgoing.mp hleaves).1, rfl, htarget⟩

/-- The queue and the removed nodes are at most all of them. -/
theorem RemovingAll.length_le {edges : List (WorkflowEdge ι)} {ids removed queue : List ι}
    (h : RemovingAll edges (· ∈ ids) removed queue) :
    queue.length + removed.length ≤ ids.length := by
  rw [← List.length_append]
  exact h.nodup.length_le_of_subset h.known

/-- **The loop removes nodes in a topological order, counts them, and leaves none that has
no pending edges.** -/
theorem removeReady_spec {edges : List (WorkflowEdge ι)} {ids : List ι}
    (hnodes : ∀ a b, Edge edges a b → b ∈ ids) (fuel : Nat) {removed queue : List ι}
    (h : RemovingAll edges (· ∈ ids) removed queue) (hfuel : ids.length ≤ removed.length + fuel) :
    ∃ order, RemovingAll edges (· ∈ ids) order [] ∧ order.length
        = removed.length
          + removeReady edges fuel (fun x => (pending edges removed x).length) queue := by
  induction fuel generalizing removed queue with
  | zero =>
      have hlength := h.length_le
      have hempty : queue = [] := List.eq_nil_of_length_eq_zero (by omega)
      subst hempty
      unfold removeReady
      exact ⟨removed, h, rfl⟩
  | succ fuel ih =>
      cases queue with
      | nil =>
          unfold removeReady
          exact ⟨removed, h, rfl⟩
      | cons id queue =>
          have hfresh : id ∉ removed := by
            intro hmem
            exact (List.nodup_cons.mp h.nodup).1 (List.mem_append_right _ hmem)
          obtain ⟨ready, heq, hnodup, hready⟩ := dropEdges_spec
            (fun x => (pending edges removed x).length)
            (fun x => (pending edges (id :: removed) x).length)
            (fun x => length_pending edges hfresh x) queue
          unfold removeReady
          dsimp only
          rw [heq]
          dsimp only
          obtain ⟨order, horder, hlength⟩ := ih (h.next hnodes hnodup hready) (by
            rw [List.length_cons]
            omega)
          refine ⟨order, horder, ?_⟩
          rw [hlength, List.length_cons]
          omega

/-- The nodes that no edge leads to, before any is removed. -/
theorem RemovingAll.start {edges : List (WorkflowEdge ι)} {ids ready : List ι}
    (hnodup : ready.Nodup) (hready : ∀ x, x ∈ ready ↔ x ∈ ids ∧ incoming edges x = []) :
    RemovingAll edges (· ∈ ids) [] ready := by
  have hpending : ∀ x, pending edges [] x = incoming edges x := by
    intro x
    unfold pending
    rw [List.filter_eq_self]
    simp
  refine ⟨⟨trivial, by rwa [List.append_nil], ?_⟩, ?_, ?_⟩
  · intro x hx
    rw [hpending]
    exact ((hready x).mp hx).2
  · intro x hx hnot hnil
    rw [List.append_nil] at hnot
    exact hnot ((hready x).mpr ⟨hx, by rwa [← hpending]⟩)
  · intro x hx
    rw [List.append_nil] at hx
    exact ((hready x).mp hx).1

/-- **All nodes are removed exactly when the graph has no cycle.** -/
theorem RemovingAll.complete_iff {edges : List (WorkflowEdge ι)} {ids order : List ι}
    (hids : ids.Nodup) (hknown : ∀ a b, Edge edges a b → a ∈ ids ∧ b ∈ ids)
    (h : RemovingAll edges (· ∈ ids) order []) :
    order.length = ids.length ↔ ¬ ∃ a, Relation.TransGen (Edge edges) a a := by
  have hmem : ∀ x ∈ order, x ∈ ids := fun x hx => h.known x hx
  have hnodup : order.Nodup := h.nodup
  constructor
  · intro hlength
    have hall : ∀ x ∈ ids, x ∈ order := fun x hx =>
      ((List.subperm_of_subset hnodup hmem).perm_of_length_le (by omega)).mem_iff.mpr hx
    rintro ⟨a, hcycle⟩
    exact h.sorted.acyclic hnodup (fun a b hedge => hall b (hknown a b hedge).2) a hcycle
  · intro hacyclic
    by_contra hlength
    -- the nodes that are left have sources among them
    apply hacyclic
    refine @exists_cycle ι (Edge edges) (ids.filter (· ∉ order)) ?_ ?_
    · intro hnil
      have hsub : ids ⊆ order := by
        intro x hx
        by_contra hnot
        have hleft : x ∈ ids.filter (· ∉ order) := List.mem_filter.mpr ⟨hx, by simpa using hnot⟩
        rw [hnil] at hleft
        exact List.not_mem_nil hleft
      have h1 := hids.length_le_of_subset hsub
      have h2 := hnodup.length_le_of_subset hmem
      omega
    · intro b hb
      obtain ⟨hb, hnot⟩ := List.mem_filter.mp hb
      have hsome := h.all b hb (by simpa using hnot)
      rw [ne_eq, pending_eq_nil, not_forall] at hsome
      obtain ⟨a, hsource⟩ := hsome
      obtain ⟨hedge, ha⟩ := Classical.not_imp.mp hsource
      exact ⟨a, List.mem_filter.mpr ⟨(hknown a b hedge).1, by simpa using ha⟩, hedge⟩

/-- What the loop removes of the nodes that no edge leads to. -/
theorem removed_of_ready {ids : List ι} {edges : List (WorkflowEdge ι)}
    (hnodes : ∀ a b, Edge edges a b → b ∈ ids) {ready : List ι} (hnodup : ready.Nodup)
    (hready : ∀ x, x ∈ ready ↔ x ∈ ids ∧ incoming edges x = []) :
    ∃ order, RemovingAll edges (· ∈ ids) order []
      ∧ order.length = removeReady edges ids.length (fun x => (incoming edges x).length) ready := by
  have hpending : ∀ x, (pending edges [] x).length = (incoming edges x).length := by
    intro x
    unfold pending
    rw [List.filter_eq_self.mpr (by simp)]
  obtain ⟨order, horder, hlength⟩ := removeReady_spec hnodes ids.length
    (RemovingAll.start hnodup hready) (by rw [List.length_nil, Nat.zero_add])
  simp only [hpending] at hlength
  rw [List.length_nil, Nat.zero_add] at hlength
  exact ⟨order, horder, hlength⟩

theorem removed_of_hasCycle {ids : List ι} {edges : List (WorkflowEdge ι)}
    (hnodes : ∀ a b, Edge edges a b → b ∈ ids) :
    ∃ order, RemovingAll edges (· ∈ ids.dedup) order []
      ∧ hasCycle ids edges = (order.length != ids.length) := by
  obtain ⟨order, horder, hlength⟩ := @removed_of_ready ι _ ids.dedup edges
    (fun a b hedge => List.mem_dedup.mpr (hnodes a b hedge))
    (ids.dedup.filter fun id => (incoming edges id).length == 0)
    ((List.nodup_dedup ids).filter _) (by
      intro x
      rw [List.mem_filter, beq_iff_eq, List.length_eq_zero_iff])
  refine ⟨order, horder, ?_⟩
  rw [hlength]
  rfl

/-- **Without a cycle the nodes have a topological order.** -/
theorem sorted_of_hasCycle {ids : List ι} {edges : List (WorkflowEdge ι)}
    (hnodes : ∀ a b, Edge edges a b → b ∈ ids) (h : hasCycle ids edges = false) :
    ∃ order, Sorted (Edge edges) order ∧ order.Nodup ∧ order.length = ids.length
      ∧ ∀ x, x ∈ order ↔ x ∈ ids := by
  obtain ⟨order, horder, hcycle⟩ := removed_of_hasCycle hnodes
  rw [h] at hcycle
  have hlength : order.length = ids.length := bne_eq_false_iff_eq.mp hcycle.symm
  have hmem : ∀ x ∈ order, x ∈ ids := fun x hx => List.mem_dedup.mp (horder.known x hx)
  have hnodup : order.Nodup := horder.nodup
  refine ⟨order, horder.sorted, hnodup, hlength, fun x => ⟨hmem x, fun hx => ?_⟩⟩
  -- as many distinct nodes as there are: none is left out
  exact ((List.subperm_of_subset hnodup hmem).perm_of_length_le (by omega)).mem_iff.mpr hx

end Cycle

/-! ## §3. Accepted graphs. -/

/-- What acceptance says about the edges that leave a node: a condition has one for each
result, another node has at most one, for success. -/
def Branching (ids : List ι) (edges : List (WorkflowEdge ι)) (node : WorkflowNode ι) : Prop :=
  match node.config with
  | .condition sourceNodeId _ =>
      ((outgoing edges node.id).filter fun edge => edge.branch == .true).length = 1
        ∧ ((outgoing edges node.id).filter fun edge => edge.branch == .false).length = 1
        ∧ sourceNodeId ∈ ids
  | _ =>
      (outgoing edges node.id).length ≤ 1
        ∧ ∀ edge ∈ outgoing edges node.id, edge.branch = .success

/-- The graph of an accepted draft. -/
structure AcceptedGraph (draft : WorkflowDraft ι) : Prop where
  known : ∀ edge ∈ draft.edges,
    edge.source ∈ draft.nodes.map WorkflowNode.id ∧ edge.target ∈ draft.nodes.map WorkflowNode.id
  nodup : (draft.nodes.map WorkflowNode.id).Nodup
  start : ∃ node, draft.nodes.filter isStart = [node]
  branching : ∀ node ∈ draft.nodes,
    Branching (draft.nodes.map WorkflowNode.id) draft.edges node
  order : ∃ order, Sorted (Edge draft.edges) order ∧ order.Nodup
    ∧ ∀ x, x ∈ order ↔ x ∈ draft.nodes.map WorkflowNode.id

omit [DecidableEq ι] in
theorem diagnose_eq_nil {bad : Bool} {code : WorkflowDiagnosticCode} {nodeId : Option ι}
    {message : String} : diagnose bad code nodeId message = [] ↔ bad = false := by
  unfold diagnose
  cases bad <;> simp

/-- Without diagnostics every edge is between nodes of the draft. -/
theorem known_of_edgeDiagnostics {ids : List ι} {seen edges : List (WorkflowEdge ι)}
    (h : edgeDiagnostics ids seen edges = []) :
    ∀ edge ∈ edges, edge.source ∈ ids ∧ edge.target ∈ ids := by
  induction edges generalizing seen with
  | nil => simp
  | cons first rest ih =>
      unfold edgeDiagnostics at h
      split at h
      next hknown =>
        rw [List.append_eq_nil_iff] at h
        rw [Bool.and_eq_true, List.contains_iff_mem, List.contains_iff_mem] at hknown
        intro edge hedge
        rcases List.mem_cons.mp hedge with rfl | hedge
        · exact hknown
        · exact ih h.2 edge hedge
      next =>
        rw [List.append_eq_nil_iff, diagnose_eq_nil] at h
        exact absurd h.1 (by simp)

omit [DecidableEq ι] in
/-- At most one edge, and that for success. -/
theorem plain_of_head {out : List (WorkflowEdge ι)} (hlength : out.length ≤ 1)
    (hhead : ∀ branch, (out.map WorkflowEdge.branch).head? = some branch → branch = .success) :
    out.length ≤ 1 ∧ ∀ edge ∈ out, edge.branch = .success := by
  refine ⟨hlength, ?_⟩
  intro edge hedge
  cases out with
  | nil => exact absurd hedge List.not_mem_nil
  | cons first rest =>
      rw [List.length_cons] at hlength
      have hrest : rest = [] := List.eq_nil_of_length_eq_zero (by omega)
      subst hrest
      rw [List.mem_singleton.mp hedge]
      exact hhead first.branch rfl

theorem branching_of_degreeDiagnostics {ids : List ι} {edges : List (WorkflowEdge ι)}
    {node : WorkflowNode ι} (h : degreeDiagnostics ids edges node = []) :
    Branching ids edges node := by
  have hcount : ∀ branch, ((outgoing edges node.id).map WorkflowEdge.branch).count branch
      = ((outgoing edges node.id).filter fun edge => edge.branch == branch).length := by
    intro branch
    rw [List.count_eq_length_filter, List.filter_map, List.length_map]
    rfl
  have hordinary : diagnose (decide (1 < (outgoing edges node.id).length)
        || ((outgoing edges node.id).map WorkflowEdge.branch).head?.any
          fun branch => branch != .success) .invalidBranch (some node.id)
        "普通节点最多只能有一条成功出边" = [] →
      (outgoing edges node.id).length ≤ 1
        ∧ ∀ edge ∈ outgoing edges node.id, edge.branch = .success := by
    intro hnone
    rw [diagnose_eq_nil, Bool.or_eq_false_iff, decide_eq_false_iff_not] at hnone
    refine plain_of_head (by omega) fun branch hbranch => ?_
    have hany := hnone.2
    rw [hbranch] at hany
    exact bne_eq_false_iff_eq.mp hany
  unfold degreeDiagnostics at h
  unfold Branching
  cases hconfig : node.config with
  | condition sourceNodeId predicate =>
      rw [hconfig] at h
      simp only [List.append_eq_nil_iff, diagnose_eq_nil, Bool.or_eq_false_iff,
        bne_eq_false_iff_eq, Bool.not_eq_false', List.contains_iff_mem] at h
      obtain ⟨⟨⟨⟨_, htrue⟩, hfalse⟩, _⟩, hsource, _⟩ := h
      exact ⟨(hcount .true).symm.trans htrue, (hcount .false).symm.trans hfalse, hsource⟩
  | start =>
      rw [hconfig] at h
      simp only [diagnose_eq_nil, Bool.or_eq_false_iff, bne_eq_false_iff_eq] at h
      have hlength := congrArg List.length h.2
      rw [List.length_map] at hlength
      refine plain_of_head (Nat.le_of_eq hlength) fun branch hbranch => ?_
      rw [h.2] at hbranch
      exact (Option.some.inj hbranch).symm
  | stop message =>
      rw [hconfig] at h
      simp only [diagnose_eq_nil, Bool.not_eq_false', List.isEmpty_iff] at h
      dsimp only
      rw [h]
      exact ⟨Nat.zero_le 1, by simp⟩
  | task taskId taskVersion parameters => exact hordinary (by simpa only [hconfig] using h)
  | custom mode content timeoutSeconds => exact hordinary (by simpa only [hconfig] using h)
  | upload localPath remotePath overwrite createRestorePoint =>
      exact hordinary (by simpa only [hconfig] using h)
  | download remotePath suggestedName overwrite =>
      exact hordinary (by simpa only [hconfig] using h)
  | logSearch path keyword caseSensitive contextLines limit startTime endTime =>
      exact hordinary (by simpa only [hconfig] using h)

/-- **An accepted draft has an accepted graph.** -/
theorem acceptedGraph_of_valid [UuidCrate] {catalog : List TaskDefinition}
    {pathIsAbsolute : Text → Bool} {draft : WorkflowDraft ι}
    (h : (validateWorkflow catalog pathIsAbsolute draft).valid = true) :
    AcceptedGraph draft := by
  have hnone : diagnostics catalog pathIsAbsolute draft = [] := List.isEmpty_iff.mp h
  unfold diagnostics at hnone
  simp only [List.append_eq_nil_iff, diagnose_eq_nil] at hnone
  obtain ⟨⟨⟨⟨⟨⟨_, _⟩, hstart⟩, hedges⟩, hdegrees⟩, hcycle⟩, _⟩ := hnone
  have hknown := known_of_edgeDiagnostics hedges
  have hsame : knownEdges (draft.nodes.map WorkflowNode.id) draft.edges = draft.edges := by
    unfold knownEdges
    rw [List.filter_eq_self]
    intro edge hedge
    rw [Bool.and_eq_true, List.contains_iff_mem, List.contains_iff_mem]
    exact hknown edge hedge
  rw [hsame] at hdegrees hcycle
  have hnodes : ∀ a b, Edge draft.edges a b → b ∈ draft.nodes.map WorkflowNode.id := by
    rintro a b ⟨edge, hmem, rfl, rfl⟩
    exact (hknown edge hmem).2
  obtain ⟨order, hsorted, hnodup, hlength, hmem⟩ := sorted_of_hasCycle hnodes hcycle
  refine ⟨hknown, ?_, ?_, ?_, order, hsorted, hnodup, hmem⟩
  · -- a topological order has no repetitions, and is no longer than the list of nodes
    have hsub : order ⊆ draft.nodes.map WorkflowNode.id := fun x hx => (hmem x).mp hx
    have hperm := (List.subperm_of_subset hnodup hsub).perm_of_length_le (by omega)
    exact hperm.nodup_iff.mp hnodup
  · unfold startNodeId at hstart
    split at hstart
    next node hfilter => exact ⟨node, hfilter⟩
    next => exact absurd hstart (by simp)
  · intro node hnode
    exact branching_of_degreeDiagnostics (List.flatMap_eq_nil_iff.mp hdegrees node hnode)

end QingzhouSSH.Core.Workflows
