/-
  QingzhouSSH.Repositories.OperationRestoreItems — the items of restore points.

  Items are only ever added; their identifiers are unique, and an item that has been
  rolled back stays so.

  Main results:
    * `apart_after` — no two points and no two items have one identifier;
    * `everRolledBack_iff` — what was rolled back once is rolled back now;
    * `updateItem_one` — an accepted update of an item, seen from its point.
-/
import QingzhouSSH.Lib.Table
import QingzhouSSH.Repositories.OperationRestoreRepository

namespace QingzhouSSH.Repositories.OperationRestoreRepository

open QingzhouSSH.Lib (map_hit eq_of_key)
open QingzhouSSH.Domain

variable {ι : Type}

/-! ## §1. What calls do to items. -/

def allItems (table : Table ι) : List (OperationRestoreItem ι) := table.flatMap fun d => d.items

variable [DecidableEq ι]

/-- What an accepted update of an item does. -/
theorem updateItem_ok {id : ι} {allowed : List OperationRestoreItemStatus}
    {change : OperationRestoreItem ι → OperationRestoreItem ι} {refusal : AppError}
    {table table' : Table ι} (h : updateItem id allowed change refusal table = .ok table') :
    table' = table.map fun d =>
      { d with items := d.items.map fun item =>
        if item.id == id && allowed.contains item.status then change item else item } := by
  unfold updateItem at h
  dsimp only at h
  split at h
  next => exact (Except.ok.inj h).symm
  next => cases h

/-- What an accepted `add_item` does. -/
theorem addItem_ok {id : ι} {draft : NewOperationRestoreItem ι} {table table' : Table ι}
    (h : addItem id draft table = .ok table') :
    (∀ item ∈ allItems table, item.id ≠ id)
      ∧ ∃ item : OperationRestoreItem ι, item.id = id
      ∧ (∃ d, get draft.restorePointId table = some d)
      ∧ table' = table.map fun d =>
          if d.point.id = draft.restorePointId then { d with items := d.items ++ [item] } else d := by
  obtain ⟨_, _, h⟩ := bind_eq_ok.mp h
  cases hget : get draft.restorePointId table with
  | none =>
      rw [hget] at h
      cases h
  | some details =>
      rw [hget] at h
      dsimp only at h
      split at h
      next => cases h
      next =>
        obtain ⟨_, _, h⟩ := bind_eq_ok.mp h
        split at h
        next => cases h
        next =>
          split at h
          next => cases h
          next hfresh =>
            refine ⟨?_, _, rfl, ⟨details, rfl⟩, (Except.ok.inj h).symm⟩
            intro item hmem hid
            obtain ⟨d, hd, hitem⟩ := List.mem_flatMap.mp hmem
            apply hfresh
            rw [Bool.or_eq_true]
            exact .inl (List.any_eq_true.mpr ⟨d, hd, List.any_eq_true.mpr
              ⟨item, hitem, beq_iff_eq.mpr hid⟩⟩)

/-- Every call either adds a point without items, adds an item to one point, or changes
points in their places. -/
inductive ItemsStep (table : Table ι) : Table ι → Prop where
  | created (d : OperationRestoreDetails ι) : get d.point.id table = none → d.items = [] →
      ItemsStep table (table ++ [d])
  | added (id : ι) (item : OperationRestoreItem ι) : (∀ other ∈ allItems table, other.id ≠ item.id) →
      (∃ d, get id table = some d) →
      ItemsStep table (table.map fun d =>
        if d.point.id = id then { d with items := d.items ++ [item] } else d)
  | changed (point : OperationRestoreDetails ι → OperationRestorePoint ι)
      (change : OperationRestoreDetails ι → OperationRestoreItem ι → OperationRestoreItem ι) :
      (∀ d, (point d).id = d.point.id) → (∀ d item, (change d item).id = item.id) →
      (∀ d item, item.status = .rolledBack → (change d item).status = .rolledBack) →
      ItemsStep table (table.map fun d =>
        { point := point d, items := d.items.map (change d) })

/-- An update of points that leaves the items. -/
theorem itemsStep_updatePoint {id : ι} {allowed : OperationRestoreDetails ι → Bool}
    {change : OperationRestoreDetails ι → OperationRestoreDetails ι} {refusal : AppError}
    {table table' : Table ι} (h : updatePoint id allowed change refusal table = .ok table')
    (hid : ∀ d, (change d).point.id = d.point.id) (hitems : ∀ d, (change d).items = d.items) :
    ItemsStep table table' := by
  obtain ⟨_, _, _, rfl⟩ := updatePoint_ok h
  have hsame := @ItemsStep.changed ι _ table
    (fun d => if d.point.id = id then (change d).point else d.point) (fun _ item => item)
    (by intro d; split; exact hid d; rfl) (fun _ _ => rfl) (fun _ _ hitem => hitem)
  refine Eq.subst (motive := fun table' => ItemsStep table table') ?_ hsame
  refine List.map_congr_left fun d _ => ?_
  rw [List.map_id']
  split
  · rw [← hitems d]
  · rfl

theorem itemsStep_updateItem {id : ι} {allowed : List OperationRestoreItemStatus}
    {change : OperationRestoreItem ι → OperationRestoreItem ι} {refusal : AppError}
    {table table' : Table ι} (h : updateItem id allowed change refusal table = .ok table')
    (hid : ∀ item, (change item).id = item.id)
    (hallowed : OperationRestoreItemStatus.rolledBack ∉ allowed) : ItemsStep table table' := by
  rw [updateItem_ok h]
  refine .changed (fun d => d.point) (fun _ item =>
    if item.id == id && allowed.contains item.status then change item else item)
    (fun _ => rfl) ?_ ?_
  · intro _ item
    split
    · exact hid item
    · rfl
  · intro _ item hrolledBack
    split
    next hhit =>
      rw [Bool.and_eq_true, List.contains_iff_mem, hrolledBack] at hhit
      exact absurd hhit.2 hallowed
    next => exact hrolledBack

/-- **What an accepted call does to items.** -/
theorem itemsStep_of_apply {call : Call ι} {table table' : Table ι}
    (h : call.apply table = .ok table') : ItemsStep table table' := by
  cases call with
  | create id run draft =>
      obtain ⟨hnone, d, hid, _, hitems, rfl⟩ := create_ok h
      exact .created d (by rw [hid]; exact hnone) hitems
  | addItem id draft =>
      obtain ⟨hfresh, item, rfl, hpoint, rfl⟩ := addItem_ok h
      exact .added _ item hfresh hpoint
  | markAvailable id => exact itemsStep_updatePoint h (fun _ => rfl) (fun _ => rfl)
  | attachRemoteAsset id asset expiresAt =>
      have h : attachRemoteAsset id asset expiresAt table = .ok table' := h
      unfold attachRemoteAsset at h
      split at h
      next => cases h
      next => exact itemsStep_updatePoint h (fun _ => rfl) (fun _ => rfl)
  | beginCleanup id now => exact itemsStep_updatePoint h (fun _ => rfl) (fun _ => rfl)
  | finishCleanup id => exact itemsStep_updatePoint h (fun _ => rfl) (fun _ => rfl)
  | markRemoteRollbackObserved id =>
      obtain ⟨_, _, _, rfl⟩ := updatePoint_ok h
      have hstep := @ItemsStep.changed ι _ table
        (fun d => if d.point.id = id then { d.point with status := .rolledBack } else d.point)
        (fun d item => if d.point.id = id ∧ item.status = .available then
          { item with status := .rolledBack, errorSummary := none } else item)
        (by intro d; split <;> rfl) (by intro d item; split <;> rfl)
        (by
          intro d item hrolledBack
          split
          · rfl
          · exact hrolledBack)
      refine Eq.subst (motive := fun table' => ItemsStep table table') ?_ hstep
      refine List.map_congr_left fun d _ => ?_
      by_cases hpoint : d.point.id = id
      · rw [if_pos hpoint]
        simp only [hpoint, true_and, if_true, setStatus]
      · rw [if_neg hpoint]
        simp only [hpoint, false_and, if_false, List.map_id']
  | markCreationFailed id => exact itemsStep_updatePoint h (fun _ => rfl) (fun _ => rfl)
  | markItemRollingBack id => exact itemsStep_updateItem h (fun _ => rfl) (by decide)
  | finishItemRollback id status errorSummary =>
      have h : finishItemRollback id status errorSummary table = .ok table' := h
      unfold finishItemRollback at h
      split at h
      next => exact itemsStep_updateItem h (fun _ => rfl) (by decide)
      next => cases h
  | recoverInterrupted =>
      obtain rfl := Except.ok.inj h
      refine .changed _ (fun _ item => if item.status = .rollingBack then _ else item) ?_ ?_ ?_
      · intro d
        split <;> rfl
      · intro _ item
        split <;> rfl
      · intro _ item hrolledBack
        rw [if_neg (by rw [hrolledBack]; decide)]
        exact hrolledBack
  | beginRollback id => exact itemsStep_updatePoint h (fun _ => rfl) (fun _ => rfl)
  | finishRollback id status =>
      have h : finishRollback id status table = .ok table' := h
      unfold finishRollback at h
      split at h
      next => exact itemsStep_updatePoint h (fun _ => rfl) (fun _ => rfl)
      next => cases h

/-! ## §2. Identifiers. -/

omit [DecidableEq ι] in
/-- No two points and no two items have one identifier. -/
structure Apart (table : Table ι) : Prop where
  points : (table.map fun d => d.point.id).Nodup
  items : ((allItems table).map fun item => item.id).Nodup

/-- With an item added to one point, the items are the old ones and the new one. -/
theorem allItems_added {id : ι} (item : OperationRestoreItem ι) {table : Table ι}
    (hpoints : (table.map fun d => d.point.id).Nodup) (hpoint : ∃ d, get id table = some d) :
    (allItems (table.map fun d =>
      if d.point.id = id then { d with items := d.items ++ [item] } else d)).Perm
      (item :: allItems table) := by
  obtain ⟨d, hget⟩ := hpoint
  obtain ⟨before, after, hrows, _, hmap⟩ := map_hit (p := fun d => d.point.id = id) hpoints
    (List.mem_of_find?_eq_some hget) (get_id hget) (fun other hother => hother.trans (get_id hget).symm)
    fun d => { d with items := d.items ++ [item] }
  rw [hmap, hrows]
  unfold allItems
  simp only [List.flatMap_append, List.flatMap_cons]
  -- the new item moves to the front, over the items before it
  rw [← List.append_assoc, ← List.append_assoc, ← List.append_assoc,
    List.append_assoc _ [item], List.singleton_append]
  exact List.perm_middle

theorem Apart.step {table table' : Table ι} (h : Apart table) (hstep : ItemsStep table table') :
    Apart table' := by
  cases hstep with
  | created d hnone hitems =>
      refine ⟨?_, ?_⟩
      · rw [List.map_append, List.map_singleton, List.nodup_append_comm, List.singleton_append,
          List.nodup_cons]
        refine ⟨fun hmem => ?_, h.points⟩
        obtain ⟨other, hother, hid⟩ := List.mem_map.mp hmem
        exact absurd (beq_iff_eq.mpr hid) (List.find?_eq_none.mp hnone other hother)
      · unfold allItems
        rw [List.flatMap_append, List.flatMap_singleton, hitems, List.append_nil]
        exact h.items
  | added id item hfresh hpoint =>
      refine ⟨?_, ?_⟩
      · rw [List.map_map]
        refine Eq.subst (motive := List.Nodup) (List.map_congr_left fun d _ => ?_) h.points
        show d.point.id = (if d.point.id = id then { d with items := d.items ++ [item] }
          else d : OperationRestoreDetails ι).point.id
        split <;> rfl
      · rw [((allItems_added item h.points hpoint).map _).nodup_iff, List.map_cons, List.nodup_cons]
        refine ⟨fun hmem => ?_, h.items⟩
        obtain ⟨other, hother, hid⟩ := List.mem_map.mp hmem
        exact hfresh other hother hid
  | changed point change hpoint hitem _ =>
      refine ⟨?_, ?_⟩
      · rw [List.map_map]
        exact Eq.subst (motive := List.Nodup) (List.map_congr_left fun d _ => (hpoint d).symm) h.points
      · have hids : (allItems (table.map fun d =>
              { point := point d, items := d.items.map (change d) })).map (fun item => item.id)
            = (allItems table).map fun item => item.id := by
          unfold allItems
          rw [List.flatMap_map, List.map_flatMap, List.map_flatMap]
          refine congrArg (fun g => table.flatMap g) (funext fun d => ?_)
          rw [List.map_map]
          exact List.map_congr_left fun item _ => hitem d item
        rw [hids]
        exact h.items

/-- Calls keep what every accepted call keeps. -/
theorem itemsStep_snoc (calls : List (Call ι)) (call : Call ι) :
    tableAfter (calls ++ [call]) = tableAfter calls
      ∨ ItemsStep (tableAfter calls) (tableAfter (calls ++ [call])) := by
  rw [tableAfter_snoc]
  unfold Call.rows
  cases happly : call.apply (tableAfter calls) with
  | error e => exact .inl rfl
  | ok table => exact .inr (itemsStep_of_apply happly)

/-- **After any calls, no two points and no two items have one identifier.** -/
theorem apart_after (calls : List (Call ι)) : Apart (tableAfter calls) := by
  induction calls using List.reverseRecOn with
  | nil => exact ⟨List.nodup_nil, List.nodup_nil⟩
  | append_singleton calls call ih =>
      rcases itemsStep_snoc calls call with hsame | hstep
      · rw [hsame]
        exact ih
      · exact ih.step hstep

omit [DecidableEq ι] in
theorem Apart.point_items {table : Table ι} (h : Apart table) {d : OperationRestoreDetails ι}
    (hd : d ∈ table) : (d.items.map fun item => item.id).Nodup := by
  obtain ⟨before, after, rfl⟩ := List.append_of_mem hd
  refine h.items.sublist (List.Sublist.map _ ?_)
  unfold allItems
  rw [List.flatMap_append, List.flatMap_cons]
  exact (List.sublist_append_left _ _).trans (List.sublist_append_right _ _)

theorem items_apart {calls : List (Call ι)} {id : ι} {d : OperationRestoreDetails ι}
    (hget : get id (tableAfter calls) = some d) : (d.items.map fun item => item.id).Nodup :=
  (apart_after calls).point_items (List.mem_of_find?_eq_some hget)

/-! ## §3. What has been rolled back. -/

/-- An item of the point is rolled back. -/
def SomeRolledBack (id : ι) (table : Table ι) : Prop :=
  ∃ d, get id table = some d ∧ ∃ item ∈ d.items, item.status = .rolledBack

/-- At some time an item of the point was rolled back. -/
def EverRolledBack (id : ι) (calls : List (Call ι)) : Prop :=
  ∃ before, before <+: calls ∧ SomeRolledBack id (tableAfter before)

theorem SomeRolledBack.step {id : ι} {table table' : Table ι} (h : SomeRolledBack id table)
    (hstep : ItemsStep table table') : SomeRolledBack id table' := by
  obtain ⟨d, hget, item, hitem, hrolledBack⟩ := h
  cases hstep with
  | created other _ _ =>
      refine ⟨d, ?_, item, hitem, hrolledBack⟩
      unfold get at hget ⊢
      rw [List.find?_append, hget, Option.some_or]
  | added point item' _ _ =>
      rw [SomeRolledBack, get_map (by intro d; split <;> rfl), hget]
      refine ⟨_, rfl, item, ?_, hrolledBack⟩
      dsimp only
      split
      · exact List.mem_append_left _ hitem
      · exact hitem
  | changed point change hpoint hid hkeeps =>
      rw [SomeRolledBack, get_map hpoint, hget]
      exact ⟨_, rfl, change d item, List.mem_map_of_mem hitem, hkeeps d item hrolledBack⟩

/-- **What was rolled back once is rolled back now.** -/
theorem everRolledBack_iff (id : ι) (calls : List (Call ι)) :
    EverRolledBack id calls ↔ SomeRolledBack id (tableAfter calls) := by
  refine ⟨fun h => ?_, fun h => ⟨calls, List.prefix_rfl, h⟩⟩
  induction calls using List.reverseRecOn with
  | nil =>
      obtain ⟨before, hbefore, h⟩ := h
      rwa [List.prefix_nil.mp hbefore] at h
  | append_singleton calls call ih =>
      obtain ⟨before, hbefore, h⟩ := h
      rcases List.prefix_concat_iff.mp hbefore with heq | hbefore
      · rwa [heq] at h
      · rcases itemsStep_snoc calls call with hsame | hstep
        · rw [hsame]
          exact ih ⟨before, hbefore, h⟩
        · exact (ih ⟨before, hbefore, h⟩).step hstep

/-! ## §4. One item. -/

section

variable {point : ι} {table : Table ι} {d : OperationRestoreDetails ι}
  {item : OperationRestoreItem ι} {allowed : List OperationRestoreItemStatus}
  {change : OperationRestoreItem ι → OperationRestoreItem ι} {refusal : AppError}

/-- The items of a point with one of them changed. -/
def changeItem (id : ι) (change : OperationRestoreItem ι → OperationRestoreItem ι)
    (d : OperationRestoreDetails ι) : OperationRestoreDetails ι :=
  { d with items := d.items.map fun other => if other.id = id then change other else other }

/-- **An accepted update of an item, seen from its point.** -/
theorem updateItem_one (hget : get point table = some d)
    (hapart : (d.items.map fun item => item.id).Nodup) (hitem : item ∈ d.items)
    (hallowed : item.status ∈ allowed) :
    ∃ table', updateItem item.id allowed change refusal table = .ok table'
      ∧ get point table' = some (changeItem item.id change d) := by
  have hhit : (item.id == item.id && allowed.contains item.status) = true := by
    rw [beq_self_eq_true, Bool.true_and]
    exact List.contains_iff_mem.mpr hallowed
  refine ⟨_, if_pos ?_, ?_⟩
  · exact List.any_eq_true.mpr ⟨d, List.mem_of_find?_eq_some hget,
      List.any_eq_true.mpr ⟨item, hitem, hhit⟩⟩
  · have hmapped := get_map (f := fun d => { d with items := d.items.map fun other =>
      if (other.id == item.id && allowed.contains other.status) = true then change other
      else other }) (fun _ => rfl) point table
    rw [hget, Option.map_some] at hmapped
    rw [hmapped]
    refine congrArg (fun items => some { d with items := items }) ?_
    refine List.map_congr_left fun other hother => ?_
    by_cases hid : other.id = item.id
    · obtain rfl := eq_of_key hapart hother hitem hid
      rw [if_pos hhit, if_pos rfl]
    · rw [if_neg hid, if_neg]
      intro h
      exact hid (beq_iff_eq.mp (Bool.and_eq_true_iff.mp h).1)

/-- The items before and after the one that is changed. -/
theorem changeItem_items (change : OperationRestoreItem ι → OperationRestoreItem ι)
    (hapart : (d.items.map fun item => item.id).Nodup) (hitem : item ∈ d.items) :
    ∃ before after, d.items = before ++ item :: after
      ∧ (∀ other ∈ before ++ after, other.id ≠ item.id)
      ∧ (changeItem item.id change d).items = before ++ change item :: after :=
  map_hit (p := fun other => other.id = item.id) hapart hitem rfl (fun _ hother => hother) change

theorem countP_changeItem (change : OperationRestoreItem ι → OperationRestoreItem ι)
    (hapart : (d.items.map fun item => item.id).Nodup) (hitem : item ∈ d.items)
    (p : OperationRestoreItem ι → Bool) :
    (changeItem item.id change d).items.countP p + (p item).toNat
      = d.items.countP p + (p (change item)).toNat := by
  obtain ⟨before, after, hitems, _, hone⟩ := changeItem_items change hapart hitem
  rw [hone, hitems, List.countP_append, List.countP_append, List.countP_cons, List.countP_cons]
  cases p item <;> cases p (change item) <;> simp <;> omega

theorem changeItem_changeItem {first second : OperationRestoreItem ι → OperationRestoreItem ι}
    (hid : ∀ item, (first item).id = item.id) (id : ι) (d : OperationRestoreDetails ι) :
    changeItem id second (changeItem id first d) = changeItem id (fun item => second (first item)) d := by
  unfold changeItem
  dsimp only
  rw [List.map_map]
  refine congrArg (fun items => { d with items := items }) (List.map_congr_left fun other _ => ?_)
  show (if (if other.id = id then first other else other).id = id then _ else _) = _
  by_cases hother : other.id = id
  · simp only [if_pos hother, hid]
  · simp only [if_neg hother]

/-- An update of an item that is in none of the allowed statuses is refused. -/
theorem updateItem_refused (happart : Apart table) (hget : get point table = some d)
    (hitem : item ∈ d.items) (hallowed : item.status ∉ allowed) :
    updateItem item.id allowed change refusal table = .error refusal := by
  refine if_neg fun hany => ?_
  obtain ⟨d', hd', hany⟩ := List.any_eq_true.mp hany
  obtain ⟨other, hother, hhit⟩ := List.any_eq_true.mp hany
  rw [Bool.and_eq_true, beq_iff_eq, List.contains_iff_mem] at hhit
  have hsame : other = item := eq_of_key happart.items
    (List.mem_flatMap.mpr ⟨d', hd', hother⟩)
    (List.mem_flatMap.mpr ⟨d, List.mem_of_find?_eq_some hget, hitem⟩) hhit.1
  exact hallowed (hsame ▸ hhit.2)

end

end QingzhouSSH.Repositories.OperationRestoreRepository
