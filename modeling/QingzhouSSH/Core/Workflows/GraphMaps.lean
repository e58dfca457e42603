/-
  QingzhouSSH.Core.Workflows.GraphMaps — the graph algorithms on their hash maps.

  The validation keeps the outgoing edges and the degrees in hash maps, whose entries are
  walked in no particular order.  Here the functions run on these maps, with any such order;
  a counter that would pass below zero and a loop that does not end give no result.

  Main results:
    * `hasCycle_exact` — `has_cycle` ends, and says whether the graph has a cycle;
    * `reachableFrom_exact` — `reachable_from` ends, with what the edges lead to;
    * `graph_analysis_exact` — both, for all orders of the maps and without regard to
      duplicate edges.
-/
import Mathlib.Algebra.GroupWithZero.Nat
import Mathlib.Data.List.AList
import QingzhouSSH.Core.Workflows.Graph

namespace QingzhouSSH.Core.Workflows.GraphMaps

open QingzhouSSH.Lib.Digraph
open QingzhouSSH.Domain

variable {ι : Type} [DecidableEq ι]

/-! ## §1. Hash maps. -/

/-- A hash map: its entries, of distinct keys. -/
abbrev HashMap (κ ν : Type) := AList fun _ : κ => ν

/-- The order in which a hash map is walked: some order of its entries. -/
structure IterationOrder (κ ν : Type) where
  order : HashMap κ ν → List (κ × ν)
  perm : ∀ m, (order m).Perm (m.entries.map fun entry => (entry.1, entry.2))

/-- `entry(edge.from).or_default().push(edge)`. -/
def pushEdge (outgoing : HashMap ι (List (WorkflowEdge ι))) (edge : WorkflowEdge ι) :
    HashMap ι (List (WorkflowEdge ι)) :=
  outgoing.insert edge.source ((outgoing.lookup edge.source).getD [] ++ [edge])

/-- The map that the loop over the edges builds. -/
def outgoingMap (edges : List (WorkflowEdge ι)) : HashMap ι (List (WorkflowEdge ι)) :=
  edges.foldl pushEdge ∅

/-- `outgoing.get(&id).map(Vec::as_slice).unwrap_or_default()`. -/
def edgesOf (outgoing : HashMap ι (List (WorkflowEdge ι))) (id : ι) : List (WorkflowEdge ι) :=
  (outgoing.lookup id).getD []

/-! ## §2. The functions. -/

/-- One more edge to its target, when that is a node. -/
def countTarget (indegree : HashMap ι Nat) (edge : WorkflowEdge ι) : HashMap ι Nat :=
  match indegree.lookup edge.target with
  | some value => indegree.insert edge.target (value + 1)
  | none => indegree

/-- Every node starts at zero. -/
def initialDegrees (nodes : List (WorkflowNode ι)) : HashMap ι Nat :=
  nodes.foldl (fun indegree node => indegree.insert node.id 0) ∅

/-- The degrees: one for each edge, map entry by map entry. -/
def countDegrees (values : IterationOrder ι (List (WorkflowEdge ι)))
    (nodes : List (WorkflowNode ι)) (outgoing : HashMap ι (List (WorkflowEdge ι))) :
    HashMap ι Nat :=
  (values.order outgoing).foldl (fun indegree entry => entry.2.foldl countTarget indegree)
    (initialDegrees nodes)

/-- The loop over the edges of a removed node; nothing, when a degree of zero were lowered. -/
def lowerTargets : List (WorkflowEdge ι) → HashMap ι Nat → List ι →
    Option (HashMap ι Nat × List ι)
  | [], indegree, queue => some (indegree, queue)
  | edge :: rest, indegree, queue =>
      match indegree.lookup edge.target with
      | none => lowerTargets rest indegree queue
      | some 0 => none
      | some (value + 1) =>
          lowerTargets rest (indegree.insert edge.target value)
            (if value = 0 then queue ++ [edge.target] else queue)

/-- The loop over the queue; nothing, when the fuel does not reach its end. -/
def visitReady (outgoing : HashMap ι (List (WorkflowEdge ι))) :
    Nat → HashMap ι Nat → List ι → Nat → Option Nat
  | _, _, [], visited => some visited
  | 0, _, _ :: _, _ => none
  | fuel + 1, indegree, id :: queue, visited => do
      let (indegree, queue) ← lowerTargets (edgesOf outgoing id) indegree queue
      visitReady outgoing fuel indegree queue (visited + 1)

/-- The nodes of degree zero, in the order of the entries. -/
def zeros {κ : Type} (entries : List (κ × Nat)) : List κ :=
  entries.filterMap fun entry => if entry.2 = 0 then some entry.1 else none

/-- `has_cycle`, with one unit of fuel for each node. -/
def hasCycle (values : IterationOrder ι (List (WorkflowEdge ι))) (degrees : IterationOrder ι Nat)
    (nodes : List (WorkflowNode ι)) (outgoing : HashMap ι (List (WorkflowEdge ι))) :
    Option Bool := do
  let indegree := countDegrees values nodes outgoing
  let visited ← visitReady outgoing nodes.length indegree (zeros (degrees.order indegree)) 0
  return visited != nodes.length

/-- The loop of `reachable_from`; nothing, when the fuel does not reach its end. -/
def searchFrom (outgoing : HashMap ι (List (WorkflowEdge ι))) :
    Nat → List ι → List ι → Option (List ι)
  | _, [], reachable => some reachable
  | 0, _ :: _, _ => none
  | fuel + 1, id :: queue, reachable =>
      if id ∈ reachable then searchFrom outgoing fuel queue reachable
      else searchFrom outgoing fuel (queue ++ (edgesOf outgoing id).map WorkflowEdge.target)
        (id :: reachable)

/-- `reachable_from`, with one unit of fuel for each edge and one for the start. -/
def reachableFrom (start : ι) (outgoing : HashMap ι (List (WorkflowEdge ι))) :
    Option (List ι) :=
  searchFrom outgoing ((outgoing.entries.map fun entry => entry.2.length).sum + 1) [start] []

/-! ## §3. The map of the outgoing edges. -/

section Maps

theorem edgesOf_pushEdge (outgoing : HashMap ι (List (WorkflowEdge ι))) (edge : WorkflowEdge ι)
    (id : ι) : edgesOf (pushEdge outgoing edge) id
      = if edge.source = id then edgesOf outgoing id ++ [edge] else edgesOf outgoing id := by
  unfold edgesOf pushEdge
  by_cases hid : edge.source = id
  · subst hid
    rw [if_pos rfl, AList.lookup_insert]
    rfl
  · rw [if_neg hid, AList.lookup_insert_ne (Ne.symm hid)]

/-- The entry of a node are its outgoing edges, in order. -/
theorem edgesOf_outgoingMap (edges : List (WorkflowEdge ι)) (id : ι) :
    edgesOf (outgoingMap edges) id = outgoing edges id := by
  have hfold : ∀ m : HashMap ι (List (WorkflowEdge ι)),
      edgesOf (edges.foldl pushEdge m) id = edgesOf m id ++ outgoing edges id := by
    induction edges with
    | nil =>
        intro m
        exact (List.append_nil _).symm
    | cons edge rest ih =>
        intro m
        rw [List.foldl_cons, ih, edgesOf_pushEdge]
        unfold outgoing
        by_cases hid : edge.source = id
        · rw [if_pos hid, List.filter_cons_of_pos (by simpa using hid), List.append_assoc]
          rfl
        · rw [if_neg hid, List.filter_cons_of_neg (by simpa using hid)]
  exact hfold ∅

/-- All edges of a map, entry by entry. -/
def allEdges (outgoing : HashMap ι (List (WorkflowEdge ι))) : List (WorkflowEdge ι) :=
  outgoing.entries.flatMap fun entry => entry.2

theorem allEdges_pushEdge (outgoing : HashMap ι (List (WorkflowEdge ι)))
    (edge : WorkflowEdge ι) :
    (allEdges (pushEdge outgoing edge)).Perm (edge :: allEdges outgoing) := by
  unfold allEdges pushEdge
  rw [AList.entries_insert, List.flatMap_cons]
  cases hlookup : outgoing.lookup edge.source with
  | none =>
      have hnew : edge.source ∉ outgoing.entries.keys := AList.lookup_eq_none.mp hlookup
      rw [List.kerase_of_notMem_keys hnew]
      exact List.Perm.refl _
  | some old =>
      have hkey : edge.source ∈ outgoing.entries.keys :=
        AList.lookup_isSome.mp (by rw [hlookup]; rfl)
      obtain ⟨value, before, after, -, hentries, hrest⟩ := List.exists_of_kerase hkey
      have hvalue : outgoing.lookup edge.source = some value := by
        rw [← Option.mem_def, AList.mem_lookup_iff, hentries]
        exact List.mem_append_right _ List.mem_cons_self
      obtain rfl : old = value := Option.some.inj (hlookup.symm.trans hvalue)
      rw [hrest, hentries]
      simp only [Option.getD_some, List.flatMap_append, List.flatMap_cons]
      have hmove := (@List.perm_append_comm _ old [edge]).append_right
        (before.flatMap (fun entry => entry.2) ++ after.flatMap fun entry => entry.2)
      refine hmove.trans ?_
      rw [List.append_assoc, List.singleton_append, List.perm_cons, ← List.append_assoc,
        ← List.append_assoc]
      exact List.perm_append_comm.append_right _

theorem allEdges_outgoingMap (edges : List (WorkflowEdge ι)) :
    (allEdges (outgoingMap edges)).Perm edges := by
  have hfold : ∀ m : HashMap ι (List (WorkflowEdge ι)),
      (allEdges (edges.foldl pushEdge m)).Perm (edges ++ allEdges m) := by
    induction edges with
    | nil => exact fun m => List.Perm.refl _
    | cons edge rest ih =>
        intro m
        rw [List.foldl_cons]
        refine (ih (pushEdge m edge)).trans ?_
        refine ((allEdges_pushEdge m edge).append_left rest).trans ?_
        exact List.perm_middle
  have hwhole := hfold ∅
  rwa [show allEdges (∅ : HashMap ι (List (WorkflowEdge ι))) = [] from rfl,
    List.append_nil] at hwhole

end Maps

/-! ## §4. The degrees. -/

section Degrees

/-- The map has these degrees of these nodes, and no others. -/
def Holds (indegree : HashMap ι Nat) (ids : List ι) (degree : ι → Nat) : Prop :=
  ∀ x, indegree.lookup x = if x ∈ ids then some (degree x) else none

theorem Holds.congr {indegree : HashMap ι Nat} {ids : List ι} {degree degree' : ι → Nat}
    (h : Holds indegree ids degree) (heq : ∀ x, degree x = degree' x) :
    Holds indegree ids degree' := by
  intro x
  rw [h x, heq x]

theorem Holds.insert {indegree : HashMap ι Nat} {ids : List ι} {degree : ι → Nat}
    (h : Holds indegree ids degree) {id : ι} (hid : id ∈ ids) (value : Nat) :
    Holds (indegree.insert id value) ids fun x => if x = id then value else degree x := by
  intro x
  dsimp only
  by_cases hx : x = id
  · subst hx
    rw [AList.lookup_insert, if_pos hid, if_pos rfl]
  · rw [AList.lookup_insert_ne hx, h x, if_neg hx]

theorem initialDegrees_holds (nodes : List (WorkflowNode ι)) :
    Holds (initialDegrees nodes) (nodes.map WorkflowNode.id) fun _ => 0 := by
  have hfold : ∀ (m : HashMap ι Nat) (known : List ι), Holds m known (fun _ => 0) →
      Holds (nodes.foldl (fun indegree node => indegree.insert node.id 0) m)
        (nodes.map WorkflowNode.id ++ known) fun _ => 0 := by
    induction nodes with
    | nil => exact fun m known h => h
    | cons node nodes ih =>
        intro m known h
        have hnext : Holds (m.insert node.id 0) (node.id :: known) fun _ => 0 := by
          intro x
          by_cases hx : x = node.id
          · subst hx
            rw [AList.lookup_insert, if_pos List.mem_cons_self]
          · rw [AList.lookup_insert_ne hx, h x]
            simp [hx]
        intro x
        rw [List.foldl_cons, ih _ _ hnext x]
        have hsame : x ∈ nodes.map WorkflowNode.id ++ node.id :: known
            ↔ x ∈ (node :: nodes).map WorkflowNode.id ++ known := by
          simp only [List.mem_append, List.mem_cons, List.map_cons]
          tauto
        simp only [hsame]
  have hwhole := hfold ∅ [] fun x => rfl
  rwa [List.append_nil] at hwhole

theorem incoming_cons (edge : WorkflowEdge ι) (rest : List (WorkflowEdge ι)) (x : ι) :
    (incoming (edge :: rest) x).length
      = (if x = edge.target then 1 else 0) + (incoming rest x).length := by
  unfold incoming
  by_cases hx : x = edge.target
  · rw [if_pos hx, List.filter_cons_of_pos (by simpa using hx.symm), List.length_cons, Nat.add_comm]
  · rw [if_neg hx, List.filter_cons_of_neg (by simpa using Ne.symm hx), Nat.zero_add]

theorem Holds.count {indegree : HashMap ι Nat} {ids : List ι} {degree : ι → Nat}
    (h : Holds indegree ids degree) (edges : List (WorkflowEdge ι)) :
    Holds (edges.foldl countTarget indegree) ids fun x => degree x + (incoming edges x).length := by
  induction edges generalizing indegree degree with
  | nil => exact h
  | cons edge rest ih =>
      rw [List.foldl_cons]
      by_cases hid : edge.target ∈ ids
      · have hstep : countTarget indegree edge
            = indegree.insert edge.target (degree edge.target + 1) := by
          unfold countTarget
          rw [h edge.target, if_pos hid]
        rw [hstep]
        refine (ih (h.insert hid _)).congr fun x => ?_
        rw [incoming_cons]
        by_cases hx : x = edge.target
        · subst hx
          rw [if_pos rfl, if_pos rfl]
          omega
        · rw [if_neg hx, if_neg hx]
          omega
      · have hstep : countTarget indegree edge = indegree := by
          unfold countTarget
          rw [h edge.target, if_neg hid]
        rw [hstep]
        intro x
        dsimp only
        rw [ih h x, incoming_cons]
        by_cases hx : x = edge.target
        · subst hx
          rw [if_neg hid, if_neg hid]
        · rw [if_neg hx, Nat.zero_add]

/-- **The counters are the numbers of incoming edges, in whatever order they are counted.** -/
theorem countDegrees_holds (values : IterationOrder ι (List (WorkflowEdge ι)))
    (nodes : List (WorkflowNode ι)) (edges : List (WorkflowEdge ι)) :
    Holds (countDegrees values nodes (outgoingMap edges)) (nodes.map WorkflowNode.id)
      fun x => (incoming edges x).length := by
  have hflat : countDegrees values nodes (outgoingMap edges)
      = ((values.order (outgoingMap edges)).flatMap fun entry => entry.2).foldl countTarget
        (initialDegrees nodes) := by
    unfold countDegrees
    rw [List.foldl_flatMap]
  have hperm : ((values.order (outgoingMap edges)).flatMap fun entry => entry.2).Perm edges := by
    refine ((values.perm _).flatMap_right _).trans ?_
    rw [List.flatMap_map]
    exact allEdges_outgoingMap edges
  rw [hflat]
  refine ((initialDegrees_holds nodes).count _).congr fun x => ?_
  rw [Nat.zero_add]
  exact (hperm.filter _).length_eq

/-- **Lowering the counters of the targets does not pass below zero while there are as many
edges to count.** -/
theorem lowerTargets_eq {ids : List ι} {dropped : List (WorkflowEdge ι)}
    (htargets : ∀ edge ∈ dropped, edge.target ∈ ids) {indegree : HashMap ι Nat}
    {degree : ι → Nat} (h : Holds indegree ids degree)
    (henough : ∀ x, (incoming dropped x).length ≤ degree x) (queue : List ι) :
    ∃ lowered, lowerTargets dropped indegree queue
        = some (lowered, (dropEdges dropped degree queue).2)
      ∧ Holds lowered ids (dropEdges dropped degree queue).1 := by
  induction dropped generalizing indegree degree queue with
  | nil => exact ⟨indegree, rfl, h⟩
  | cons edge rest ih =>
      have hid := htargets edge List.mem_cons_self
      have htarget := henough edge.target
      rw [incoming_cons, if_pos rfl] at htarget
      obtain ⟨value, hvalue⟩ := Nat.exists_eq_succ_of_ne_zero (n := degree edge.target) (by omega)
      have hvalue : degree edge.target = value + 1 := hvalue
      have hnext : ∀ x, (incoming rest x).length
          ≤ if x = edge.target then value else degree x := by
        intro x
        have hx0 := henough x
        rw [incoming_cons] at hx0
        by_cases hx : x = edge.target
        · subst hx
          rw [if_pos rfl] at hx0 ⊢
          omega
        · rw [if_neg hx] at hx0 ⊢
          omega
      obtain ⟨lowered, heq, hholds⟩ := ih
        (fun edge hedge => htargets edge (List.mem_cons_of_mem _ hedge)) (h.insert hid value) hnext
        (if value = 0 then queue ++ [edge.target] else queue)
      refine ⟨lowered, ?_, ?_⟩
      · unfold lowerTargets dropEdges
        rw [h edge.target, if_pos hid, hvalue]
        exact heq
      · unfold dropEdges
        rw [hvalue]
        exact hholds

end Degrees

/-! ## §5. The loops. -/

section Loops

/-- **The loop on the maps ends, without passing below zero, and counts the nodes that are
removed.** -/
theorem visitReady_eq {ids : List ι} {edges : List (WorkflowEdge ι)}
    (hnodes : ∀ a b, Edge edges a b → b ∈ ids) (fuel : Nat) {removed queue : List ι}
    (h : RemovingAll edges (· ∈ ids) removed queue) (hfuel : ids.length ≤ removed.length + fuel)
    {indegree : HashMap ι Nat}
    (hholds : Holds indegree ids fun x => (pending edges removed x).length) (visited : Nat) :
    visitReady (outgoingMap edges) fuel indegree queue visited
      = some (visited
        + removeReady edges fuel (fun x => (pending edges removed x).length) queue) := by
  induction fuel generalizing removed queue indegree visited with
  | zero =>
      have hlength := h.length_le
      have hempty : queue = [] := List.eq_nil_of_length_eq_zero (by omega)
      subst hempty
      rfl
  | succ fuel ih =>
      cases queue with
      | nil => rfl
      | cons id queue =>
          have hfresh : id ∉ removed := by
            intro hmem
            exact (List.nodup_cons.mp h.nodup).1 (List.mem_append_right _ hmem)
          have hcount := length_pending edges hfresh
          obtain ⟨ready, heq, hnodup, hready⟩ := dropEdges_spec
            (fun x => (pending edges removed x).length)
            (fun x => (pending edges (id :: removed) x).length) hcount queue
          have htargets : ∀ edge ∈ outgoing edges id, edge.target ∈ ids := by
            intro edge hedge
            exact hnodes edge.source edge.target ⟨edge, (mem_outgoing.mp hedge).1, rfl, rfl⟩
          have henough : ∀ x, (incoming (outgoing edges id) x).length
              ≤ (pending edges removed x).length := by
            intro x
            rw [hcount x]
            omega
          obtain ⟨lowered, hlower, hlowered⟩ := lowerTargets_eq htargets hholds henough queue
          rw [heq] at hlower hlowered
          unfold visitReady removeReady
          rw [edgesOf_outgoingMap, hlower]
          dsimp only
          rw [heq]
          dsimp only
          have hrest := ih (h.next hnodes hnodup hready)
            (by rw [List.length_cons]; omega) hlowered (visited + 1)
          rw [← Nat.add_assoc]
          exact hrest

omit [DecidableEq ι] in
theorem mem_zeros {entries : List (ι × Nat)} {x : ι} : x ∈ zeros entries ↔ (x, 0) ∈ entries := by
  unfold zeros
  rw [List.mem_filterMap]
  constructor
  · rintro ⟨entry, hmem, hzero⟩
    by_cases hdegree : entry.2 = 0
    · rw [if_pos hdegree] at hzero
      rwa [← Option.some.inj hzero, ← hdegree]
    · rw [if_neg hdegree] at hzero
      cases hzero
  · intro hmem
    exact ⟨(x, 0), hmem, rfl⟩

omit [DecidableEq ι] in
theorem zeros_sublist (entries : List (ι × Nat)) :
    (zeros entries).Sublist (entries.map Prod.fst) := by
  induction entries with
  | nil => exact List.Sublist.slnil
  | cons entry entries ih =>
      unfold zeros at ih ⊢
      rw [List.map_cons, List.filterMap_cons]
      by_cases hdegree : entry.2 = 0
      · rw [if_pos hdegree]
        exact ih.cons_cons entry.1
      · rw [if_neg hdegree]
        exact ih.cons entry.1

/-- What the queue starts with: the nodes that no edge leads to, in some order. -/
theorem start_queue {indegree : HashMap ι Nat} {ids : List ι} {edges : List (WorkflowEdge ι)}
    (h : Holds indegree ids fun x => (incoming edges x).length) (degrees : IterationOrder ι Nat) :
    RemovingAll edges (· ∈ ids) [] (zeros (degrees.order indegree)) := by
  apply RemovingAll.start
  · have hkeys : ((degrees.order indegree).map Prod.fst).Perm indegree.keys := by
      have hmapped := (degrees.perm indegree).map Prod.fst
      rwa [List.map_map] at hmapped
    exact (hkeys.nodup_iff.mpr indegree.keys_nodup).sublist (zeros_sublist _)
  · intro x
    have hentry : (x, 0) ∈ degrees.order indegree ↔ indegree.lookup x = some 0 := by
      rw [(degrees.perm indegree).mem_iff, List.mem_map, ← Option.mem_def, AList.mem_lookup_iff]
      constructor
      · rintro ⟨⟨id, degree⟩, hmem, heq⟩
        obtain ⟨rfl, rfl⟩ := Prod.mk.inj heq
        exact hmem
      · intro hmem
        exact ⟨⟨x, 0⟩, hmem, rfl⟩
    rw [mem_zeros, hentry, h x]
    by_cases hx : x ∈ ids
    · rw [if_pos hx, Option.some.injEq, List.length_eq_zero_iff]
      exact (and_iff_right hx).symm
    · rw [if_neg hx]
      exact iff_of_false nofun fun hand => hx hand.1

/-- **`has_cycle` ends, and says whether the graph has a cycle.** -/
theorem hasCycle_exact {nodes : List (WorkflowNode ι)} {edges : List (WorkflowEdge ι)}
    (hids : (nodes.map WorkflowNode.id).Nodup)
    (hknown : ∀ a b, Edge edges a b →
      a ∈ nodes.map WorkflowNode.id ∧ b ∈ nodes.map WorkflowNode.id)
    (values : IterationOrder ι (List (WorkflowEdge ι))) (degrees : IterationOrder ι Nat) :
    ∃ cyclic, hasCycle values degrees nodes (outgoingMap edges) = some cyclic
      ∧ (cyclic = true ↔ ∃ a, Relation.TransGen (Edge edges) a a) := by
  have hnodes : ∀ a b, Edge edges a b → b ∈ nodes.map WorkflowNode.id :=
    fun a b hedge => (hknown a b hedge).2
  have hdegrees := countDegrees_holds values nodes edges
  have hstart := start_queue hdegrees degrees
  have hpending : ∀ x, (incoming edges x).length = (pending edges [] x).length := by
    intro x
    unfold pending
    rw [List.filter_eq_self.mpr (by simp)]
  have hfuel : (nodes.map WorkflowNode.id).length ≤ ([] : List ι).length + nodes.length := by
    rw [List.length_map, List.length_nil, Nat.zero_add]
  obtain ⟨order, horder, hlength⟩ := removeReady_spec hnodes nodes.length hstart hfuel
  have hvisited := visitReady_eq hnodes nodes.length hstart hfuel (hdegrees.congr hpending) 0
  rw [List.length_nil] at hlength
  refine ⟨order.length != nodes.length, ?_, ?_⟩
  · show (visitReady (outgoingMap edges) nodes.length (countDegrees values nodes (outgoingMap edges))
      (zeros (degrees.order (countDegrees values nodes (outgoingMap edges)))) 0).bind
        (fun visited => some (visited != nodes.length)) = _
    rw [hvisited, ← hlength]
    rfl
  · have hall := horder.complete_iff hids hknown
    rw [List.length_map] at hall
    rw [bne_iff_ne, ne_eq, hall, not_not]

/-- The search on the map is the search along the edges. -/
theorem searchFrom_eq (edges : List (WorkflowEdge ι)) (fuel : Nat) (queue reachable : List ι)
    (hfuel : queue.length + (unfound edges reachable).length ≤ fuel) :
    searchFrom (outgoingMap edges) fuel queue reachable
      = some (visitAll edges fuel queue reachable) := by
  induction fuel generalizing queue reachable with
  | zero =>
      have hempty : queue = [] := List.eq_nil_of_length_eq_zero (by omega)
      subst hempty
      rfl
  | succ fuel ih =>
      cases queue with
      | nil => rfl
      | cons id queue =>
          rw [List.length_cons] at hfuel
          unfold searchFrom visitAll
          by_cases hid : id ∈ reachable
          · rw [if_pos hid, if_pos hid]
            exact ih queue reachable (by omega)
          · have hcount := length_unfound_cons edges hid
            rw [if_neg hid, if_neg hid, edgesOf_outgoingMap]
            apply ih
            rw [List.length_append, List.length_map]
            omega

theorem visitAll_nodup (edges : List (WorkflowEdge ι)) (fuel : Nat) (queue : List ι)
    {reachable : List ι} (h : reachable.Nodup) : (visitAll edges fuel queue reachable).Nodup := by
  induction fuel generalizing queue reachable with
  | zero =>
      unfold visitAll
      exact h
  | succ fuel ih =>
      cases queue with
      | nil =>
          unfold visitAll
          exact h
      | cons id queue =>
          unfold visitAll
          split
          next => exact ih queue h
          next hid => exact ih _ (List.nodup_cons.mpr ⟨hid, h⟩)

/-- **`reachable_from` ends, with the start and what the edges lead to, each once.** -/
theorem reachableFrom_exact (edges : List (WorkflowEdge ι)) (start : ι) :
    ∃ reachable, reachableFrom start (outgoingMap edges) = some reachable ∧ reachable.Nodup
      ∧ ∀ x, x ∈ reachable ↔ Relation.ReflTransGen (Edge edges) start x := by
  have hsum : ((outgoingMap edges).entries.map fun entry => entry.2.length).sum
      = edges.length := by
    rw [← List.length_flatMap]
    exact (allEdges_outgoingMap edges).length_eq
  have hfuel : [start].length + (unfound edges []).length ≤ edges.length + 1 := by
    have : (unfound edges []).length ≤ edges.length := List.length_filter_le _ _
    rw [List.length_singleton]
    omega
  have heq : reachableFrom start (outgoingMap edges)
      = some (Workflows.reachableFrom start edges) := by
    unfold reachableFrom
    rw [hsum]
    exact searchFrom_eq edges _ _ _ hfuel
  exact ⟨_, heq, visitAll_nodup edges _ _ List.nodup_nil, fun x => mem_reachableFrom_iff⟩

end Loops

/-! ## §6. Both. -/

/-- **The analysis of a graph is exact, does not depend on the order of its maps or on
duplicate edges, and lowers no counter below zero.** -/
theorem graph_analysis_exact {nodes : List (WorkflowNode ι)} {edges : List (WorkflowEdge ι)}
    (hids : (nodes.map WorkflowNode.id).Nodup)
    (hknown : ∀ edge ∈ edges, edge.source ∈ nodes.map WorkflowNode.id
      ∧ edge.target ∈ nodes.map WorkflowNode.id)
    (values : IterationOrder ι (List (WorkflowEdge ι))) (degrees : IterationOrder ι Nat) :
    (∃ cyclic, hasCycle values degrees nodes (outgoingMap edges) = some cyclic
        ∧ (cyclic = true ↔ ∃ a, Relation.TransGen (Edge edges) a a))
      ∧ (∀ start, ∃ reachable, reachableFrom start (outgoingMap edges) = some reachable
        ∧ reachable.Nodup ∧ ∀ x, x ∈ reachable ↔ Relation.ReflTransGen (Edge edges) start x)
      ∧ ∀ (edges' : List (WorkflowEdge ι)) (values' : IterationOrder ι (List (WorkflowEdge ι)))
        (degrees' : IterationOrder ι Nat), (∀ a b, Edge edges' a b ↔ Edge edges a b) →
        hasCycle values' degrees' nodes (outgoingMap edges')
            = hasCycle values degrees nodes (outgoingMap edges)
          ∧ ∀ start, ∃ reachable reachable',
            reachableFrom start (outgoingMap edges) = some reachable
            ∧ reachableFrom start (outgoingMap edges') = some reachable'
            ∧ ∀ x, x ∈ reachable' ↔ x ∈ reachable := by
  have hedge : ∀ a b, Edge edges a b →
      a ∈ nodes.map WorkflowNode.id ∧ b ∈ nodes.map WorkflowNode.id := by
    rintro a b ⟨edge, hmem, rfl, rfl⟩
    exact hknown edge hmem
  refine ⟨hasCycle_exact hids hedge values degrees, reachableFrom_exact edges, ?_⟩
  intro edges' values' degrees' hsame
  have hrelation : Edge edges' = Edge edges := by
    funext a b
    exact propext (hsame a b)
  constructor
  · obtain ⟨cyclic, hcyclic, hiff⟩ := hasCycle_exact hids hedge values degrees
    obtain ⟨cyclic', hcyclic', hiff'⟩ :=
      hasCycle_exact hids (hrelation ▸ hedge) values' degrees'
    rw [hrelation] at hiff'
    rw [hcyclic, hcyclic', Bool.eq_iff_iff.mpr (hiff'.trans hiff.symm)]
  · intro start
    obtain ⟨reachable, hreachable, -, hmem⟩ := reachableFrom_exact edges start
    obtain ⟨reachable', hreachable', -, hmem'⟩ := reachableFrom_exact edges' start
    refine ⟨reachable, reachable', hreachable, hreachable', fun x => ?_⟩
    rw [hmem, hmem', hrelation]

/-- The entries as they stand. -/
def storedOrder (κ ν : Type) : IterationOrder κ ν where
  order m := m.entries.map fun entry => (entry.1, entry.2)
  perm _ := List.Perm.refl _

def plainNode (id : Nat) : WorkflowNode Nat where
  id := id
  name := ['x']
  position := { x := .finite 0, y := .finite 0 }
  config := .start

def plainEdge (source target : Nat) : WorkflowEdge Nat where
  source := source
  target := target
  branch := .success

example : hasCycle (storedOrder _ _) (storedOrder _ _) [plainNode 0, plainNode 1, plainNode 2]
    (outgoingMap [plainEdge 0 1, plainEdge 1 2, plainEdge 2 1, plainEdge 1 2]) = some true := by
  decide

/-- Two nodes in a circle, one of the edges twice. -/
theorem circle_exact :
    ∃ cyclic, hasCycle (storedOrder _ _) (storedOrder _ _) [plainNode 0, plainNode 1]
        (outgoingMap [plainEdge 0 1, plainEdge 1 0, plainEdge 0 1]) = some cyclic
      ∧ (cyclic = true ↔ ∃ a, Relation.TransGen
        (Edge [plainEdge 0 1, plainEdge 1 0, plainEdge 0 1]) a a) :=
  (graph_analysis_exact (by decide) (by decide) (storedOrder _ _) (storedOrder _ _)).1

end QingzhouSSH.Core.Workflows.GraphMaps
