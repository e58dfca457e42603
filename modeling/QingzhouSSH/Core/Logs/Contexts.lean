/-
  QingzhouSSH.Core.Logs.Contexts — the contexts that a search returns.

  A search prints each match with the lines around it.  The limit and the time range choose
  among the matches; the parser takes the lines around any of them, since it has met those in
  front of a match before it knows what becomes of it.

  Main results:
    * `parseContentLines_keep` — what a search returns, as a selection of its records;
    * `length_le_of_beside` — how many lines lie beside some matches;
    * `returnsFirstMatches_iff` — when a search returns nothing but its first matches and
      their contexts.
-/
import Mathlib.Algebra.Order.BigOperators.Group.Finset
import Mathlib.Order.Interval.Finset.Nat
import QingzhouSSH.Core.Logs.Records

namespace QingzhouSSH.Core.Logs

open QingzhouSSH.Core.Redaction (Redactor)

/-! ## §1. The records of an output. -/

/-- The records among the lines, when all of them can be read. -/
def readRecords (request : LogSearchRequest) (redactor : Redactor) :
    List Text → AppResult (List LogMatch)
  | [] => .ok []
  | line :: rest =>
      match recordPrefix.isPrefixOf? line with
      | none => readRecords request redactor rest
      | some record => do
          let item ← parseContentRecord request redactor record
          let items ← readRecords request redactor rest
          .ok (item :: items)

/-- A match that the time range lets through. -/
def inRange (request : LogSearchRequest) (item : LogMatch) : Bool :=
  item.kind == .matched && withinTimeRange item.timestamp request

/-- What is returned of the records, after some matches have been taken. -/
def keep (request : LogSearchRequest) : Nat → List LogMatch → List LogMatch
  | _, [] => []
  | matched, item :: rest =>
      match item.kind with
      | .context => item :: keep request matched rest
      | .matched =>
          if takesMatch request matched item then item :: keep request (matched + 1) rest
          else keep request matched rest

/-- The line of a context is at most so far from that of the match, in the same file. -/
structure Beside (contextLines : Nat) (hit context : LogMatch) : Prop where
  path : hit.path = context.path
  before : hit.lineNumber ≤ context.lineNumber + contextLines
  behind : context.lineNumber ≤ hit.lineNumber + contextLines

/-- What a search prints: the records of an output can be read, each line of a file is there
once, and each context is beside some match. -/
structure WellFormed (request : LogSearchRequest) (redactor : Redactor) (output : Text)
    (records : List LogMatch) : Prop where
  read : readRecords request redactor (lines output) = .ok records
  once : (records.map fun item => (item.path, item.lineNumber)).Nodup
  beside : ∀ context ∈ records, context.kind = .context →
    ∃ hit ∈ records, hit.kind = .matched ∧ Beside request.contextLines hit context

/-- The first matches in range, up to the limit, and their contexts only. -/
structure ReturnsFirstMatches (request : LogSearchRequest) (records : List LogMatch)
    (items : List SearchResultItem) : Prop where
  matched : items.filter SearchResultItem.isHit
    = ((records.filter (inRange request)).take request.limit).map .content
  contexts : ∀ context, .content context ∈ items → context.kind = .context →
    ∃ hit, .content hit ∈ items ∧ hit.kind = .matched ∧ Beside request.contextLines hit context
  bounded : items.length ≤ request.limit * (1 + 2 * request.contextLines)

/-- The match is in range, and fewer than the limit are so before it. -/
def IsTaken (request : LogSearchRequest) (records : List LogMatch) (hit : LogMatch) : Prop :=
  ∃ before after, records = before ++ hit :: after ∧ inRange request hit = true
    ∧ before.countP (inRange request) < request.limit

/-- The contexts of the matches that are passed over are also beside one that is taken. -/
def NoneOrphaned (request : LogSearchRequest) (records : List LogMatch) : Prop :=
  ∀ dropped ∈ records, dropped.kind = .matched → ¬ IsTaken request records dropped →
    ∀ context ∈ records, context.kind = .context → Beside request.contextLines dropped context →
      ∃ hit, IsTaken request records hit ∧ Beside request.contextLines hit context

/-! ## §2. What is kept. -/

section Kept

variable {request : LogSearchRequest} {redactor : Redactor} {records : List LogMatch}

/-- **A search returns what is kept of its records.** -/
theorem parseContentLines_keep {remaining : List Text} (matched : Nat)
    (h : readRecords request redactor remaining = .ok records) :
    parseContentLines request redactor matched remaining
      = .ok ((keep request matched records).map .content) := by
  induction remaining generalizing records matched with
  | nil =>
      obtain rfl := Except.ok.inj h
      rfl
  | cons line rest ih =>
      unfold readRecords at h
      unfold parseContentLines
      cases hrecord : recordPrefix.isPrefixOf? line with
      | none =>
        rw [hrecord] at h
        exact ih matched h
      | some record =>
        rw [hrecord] at h
        obtain ⟨item, hitem, h⟩ := bind_eq_ok.mp h
        obtain ⟨others, hothers, h⟩ := bind_eq_ok.mp h
        obtain rfl := Except.ok.inj h
        refine bind_eq_ok.mpr ⟨item, hitem, ?_⟩
        unfold keep
        cases item.kind with
        | context => exact bind_eq_ok.mpr ⟨_, ih matched hothers, rfl⟩
        | matched =>
            dsimp only
            split
            · exact bind_eq_ok.mpr ⟨_, ih (matched + 1) hothers, rfl⟩
            · exact ih matched hothers

/-- The three ways of a record. -/
theorem keep_cons (matched : Nat) (item : LogMatch) (rest : List LogMatch) :
    item.kind = .context ∧ keep request matched (item :: rest) = item :: keep request matched rest
    ∨ (inRange request item = true ∧ matched < request.limit)
      ∧ keep request matched (item :: rest) = item :: keep request (matched + 1) rest
    ∨ (item.kind = .matched ∧ ¬ (inRange request item = true ∧ matched < request.limit))
      ∧ keep request matched (item :: rest) = keep request matched rest := by
  rw [keep]
  cases hkind : item.kind with
  | context => exact .inl ⟨rfl, rfl⟩
  | matched =>
      have htakes : takesMatch request matched item = true
          ↔ inRange request item = true ∧ matched < request.limit := by
        unfold takesMatch inRange
        rw [hkind, beq_self_eq_true, Bool.true_and, Bool.and_eq_true, decide_eq_true_eq]
      dsimp only
      by_cases htaken : takesMatch request matched item = true
      · rw [if_pos htaken]
        exact .inr (.inl ⟨htakes.mp htaken, rfl⟩)
      · rw [if_neg htaken]
        exact .inr (.inr ⟨⟨rfl, mt htakes.mpr htaken⟩, rfl⟩)

theorem kind_of_inRange {item : LogMatch} (h : inRange request item = true) :
    item.kind = .matched :=
  eq_of_beq (Bool.and_eq_true_iff.mp h).1

theorem not_inRange_of_context {item : LogMatch} (h : item.kind = .context) :
    ¬ inRange request item = true := by
  intro hrange
  rw [kind_of_inRange hrange] at h
  cases h

/-- The matches that are kept are the first ones. -/
theorem keep_matched (matched : Nat) (records : List LogMatch) :
    (keep request matched records).filter (fun item => item.kind == .matched)
      = (records.filter (inRange request)).take (request.limit - matched) := by
  induction records generalizing matched with
  | nil => rw [List.filter_nil, List.take_nil]; rfl
  | cons item rest ih =>
      rcases @keep_cons request matched item rest with
        ⟨hcontext, hkeep⟩ | ⟨⟨hrange, hroom⟩, hkeep⟩ | ⟨⟨hkind, hnot⟩, hkeep⟩
      · rw [hkeep, List.filter_cons_of_neg (by rw [hcontext]; decide),
          List.filter_cons_of_neg (not_inRange_of_context hcontext), ih]
      · have hmore : request.limit - matched = request.limit - (matched + 1) + 1 := by omega
        rw [hkeep, List.filter_cons_of_pos (by rw [kind_of_inRange hrange]; rfl),
          List.filter_cons_of_pos hrange, ih, hmore, List.take_succ_cons]
      · rw [hkeep, ih]
        by_cases hrange : inRange request item = true
        · -- there is no room for it, nor for any later one
          have hfull : request.limit - matched = 0 := by
            have hroom : ¬ matched < request.limit := fun hroom => hnot ⟨hrange, hroom⟩
            omega
          rw [hfull, List.take_zero, List.take_zero]
        · rw [List.filter_cons_of_neg hrange]

/-- Every context is kept. -/
theorem mem_keep_context {matched : Nat} {context : LogMatch} (hkind : context.kind = .context) :
    context ∈ keep request matched records ↔ context ∈ records := by
  induction records generalizing matched with
  | nil => exact Iff.rfl
  | cons item rest ih =>
      rcases @keep_cons request matched item rest with
        ⟨_, hkeep⟩ | ⟨_, hkeep⟩ | ⟨⟨hmatch, _⟩, hkeep⟩
      · rw [hkeep, List.mem_cons, List.mem_cons, ih]
      · rw [hkeep, List.mem_cons, List.mem_cons, ih]
      · rw [hkeep, List.mem_cons, ih]
        refine ⟨Or.inr, fun h => h.resolve_left ?_⟩
        rintro rfl
        rw [hkind] at hmatch
        cases hmatch

theorem keep_sublist (request : LogSearchRequest) (matched : Nat) (records : List LogMatch) :
    (keep request matched records).Sublist records := by
  induction records generalizing matched with
  | nil => exact List.Sublist.slnil
  | cons item rest ih =>
      rcases @keep_cons request matched item rest with ⟨_, hkeep⟩ | ⟨_, hkeep⟩ | ⟨_, hkeep⟩
      · rw [hkeep]
        exact (ih matched).cons_cons item
      · rw [hkeep]
        exact (ih (matched + 1)).cons_cons item
      · rw [hkeep]
        exact (ih matched).cons item

/-- The first elements of a selection are those before which there are few. -/
theorem mem_take_filter {α : Type} {p : α → Bool} {l : List α} {limit : Nat} {a : α} :
    a ∈ (l.filter p).take limit ↔
      ∃ before after, l = before ++ a :: after ∧ p a = true ∧ before.countP p < limit := by
  induction l generalizing limit with
  | nil =>
      refine iff_of_false (by simp) ?_
      rintro ⟨before, after, hsplit, -⟩
      exact absurd hsplit.symm (List.append_ne_nil_of_right_ne_nil _ (List.cons_ne_nil _ _))
  | cons b l ih =>
      by_cases hb : p b = true
      · rw [List.filter_cons_of_pos hb]
        cases limit with
        | zero =>
            refine iff_of_false (by simp) ?_
            rintro ⟨_, _, _, _, hfew⟩
            exact absurd hfew (Nat.not_lt_zero _)
        | succ limit =>
            rw [List.take_succ_cons, List.mem_cons, ih]
            constructor
            · rintro (rfl | ⟨before, after, rfl, ha, hfew⟩)
              · exact ⟨[], l, rfl, hb, Nat.zero_lt_succ _⟩
              · refine ⟨b :: before, after, rfl, ha, ?_⟩
                rw [List.countP_cons_of_pos hb]
                omega
            · rintro ⟨before, after, hsplit, ha, hfew⟩
              cases before with
              | nil => exact .inl (List.cons.inj hsplit).1.symm
              | cons c before =>
                  obtain ⟨rfl, rfl⟩ := List.cons.inj hsplit
                  rw [List.countP_cons_of_pos hb] at hfew
                  exact .inr ⟨before, after, rfl, ha, by omega⟩
      · rw [List.filter_cons_of_neg hb, ih]
        constructor
        · rintro ⟨before, after, rfl, ha, hfew⟩
          refine ⟨b :: before, after, rfl, ha, ?_⟩
          rw [List.countP_cons_of_neg hb]
          exact hfew
        · rintro ⟨before, after, hsplit, ha, hfew⟩
          cases before with
          | nil =>
              obtain ⟨rfl, rfl⟩ := List.cons.inj hsplit
              exact absurd ha hb
          | cons c before =>
              obtain ⟨rfl, rfl⟩ := List.cons.inj hsplit
              rw [List.countP_cons_of_neg hb] at hfew
              exact ⟨before, after, rfl, ha, hfew⟩

/-- **The matches that are kept are those that are taken.** -/
theorem mem_keep_matched {hit : LogMatch} :
    hit ∈ keep request 0 records ∧ hit.kind = .matched ↔ IsTaken request records hit := by
  unfold IsTaken
  rw [← mem_take_filter, ← Nat.sub_zero request.limit, ← keep_matched, List.mem_filter,
    beq_iff_eq]

end Kept

/-! ## §3. How much is kept. -/

/-- **Lines beside some matches, each of them once.** -/
theorem length_le_of_beside {contextLines : Nat} {hits items : List LogMatch}
    (honce : (items.map fun item => (item.path, item.lineNumber)).Nodup)
    (hbeside : ∀ item ∈ items, ∃ hit ∈ hits, Beside contextLines hit item) :
    items.length ≤ hits.length * (1 + 2 * contextLines) := by
  let around := fun hit : LogMatch =>
    (Finset.Icc (hit.lineNumber - contextLines) (hit.lineNumber + contextLines)).image
      fun lineNumber => (hit.path, lineNumber)
  have hwithin : (items.map fun item => (item.path, item.lineNumber)).toFinset
      ⊆ hits.toFinset.biUnion around := by
    intro place hplace
    obtain ⟨item, hitem, rfl⟩ := List.mem_map.mp (List.mem_toFinset.mp hplace)
    obtain ⟨hit, hhit, hpath, hbefore, hbehind⟩ := hbeside item hitem
    refine Finset.mem_biUnion.mpr ⟨hit, List.mem_toFinset.mpr hhit, ?_⟩
    refine Finset.mem_image.mpr ⟨item.lineNumber, Finset.mem_Icc.mpr ⟨?_, hbehind⟩, ?_⟩
    · omega
    · rw [hpath]
  have haround : ∀ hit ∈ hits.toFinset, (around hit).card ≤ 1 + 2 * contextLines := by
    intro hit _
    refine Finset.card_image_le.trans ?_
    rw [Nat.card_Icc]
    omega
  calc items.length
      = (items.map fun item => (item.path, item.lineNumber)).toFinset.card := by
        rw [List.toFinset_card_of_nodup honce, List.length_map]
    _ ≤ (hits.toFinset.biUnion around).card := Finset.card_le_card hwithin
    _ ≤ hits.toFinset.card * (1 + 2 * contextLines) :=
        Finset.card_biUnion_le_card_mul _ _ _ haround
    _ ≤ hits.length * (1 + 2 * contextLines) :=
        Nat.mul_le_mul_right _ (List.toFinset_card_le hits)

/-! ## §4. Contexts of matches that are passed over. -/

/-- **A search returns its first matches and only their contexts exactly when no match that it
passes over has a context of its own.** -/
theorem returnsFirstMatches_iff {request : LogSearchRequest} {redactor : Redactor} {output : Text}
    {records : List LogMatch} (hvalid : request.validate = .ok ())
    (htarget : request.target = .content) (hformed : WellFormed request redactor output records) :
    ∃ items, parseSearchOutput request output redactor = .ok items
      ∧ (ReturnsFirstMatches request records items ↔ NoneOrphaned request records) := by
  have hreturned : parseSearchOutput request output redactor
      = .ok ((keep request 0 records).map .content) := by
    unfold parseSearchOutput parseContentOutput
    rw [hvalid, htarget]
    exact parseContentLines_keep 0 hformed.read
  refine ⟨_, hreturned, ?_⟩
  have hmem : ∀ item, SearchResultItem.content item ∈ (keep request 0 records).map .content
      ↔ item ∈ keep request 0 records := fun item =>
    List.mem_map_of_injective fun _ _ heq => SearchResultItem.content.inj heq
  constructor
  · intro hfirst dropped hdropped hkind hnot context hcontext hkindContext hbeside
    obtain ⟨hit, hhit, hmatched, hnear⟩ :=
      hfirst.contexts context ((hmem _).mpr ((mem_keep_context hkindContext).mpr hcontext))
        hkindContext
    exact ⟨hit, mem_keep_matched.mp ⟨(hmem _).mp hhit, hmatched⟩, hnear⟩
  · intro hnone
    have hcontexts : ∀ context ∈ keep request 0 records, context.kind = .context →
        ∃ hit ∈ keep request 0 records, hit.kind = .matched
          ∧ Beside request.contextLines hit context := by
      intro context hkept hkind
      have hcontext := (mem_keep_context hkind).mp hkept
      obtain ⟨hit, hhit, hmatched, hnear⟩ := hformed.beside context hcontext hkind
      by_cases htaken : IsTaken request records hit
      · exact ⟨hit, (mem_keep_matched.mpr htaken).1, hmatched, hnear⟩
      · obtain ⟨other, hother, hnear⟩ := hnone hit hhit hmatched htaken context hcontext hkind hnear
        obtain ⟨hkept, hmatched⟩ := mem_keep_matched.mpr hother
        exact ⟨other, hkept, hmatched, hnear⟩
    refine ⟨?_, fun context hkept hkind => ?_, ?_⟩
    · rw [List.filter_map, ← Nat.sub_zero request.limit, ← keep_matched]
      rfl
    · obtain ⟨hit, hhit, hrest⟩ := hcontexts context ((hmem _).mp hkept) hkind
      exact ⟨hit, (hmem _).mpr hhit, hrest⟩
    · rw [List.length_map]
      have honce := hformed.once.sublist ((keep_sublist request 0 records).map
        fun item : LogMatch => (item.path, item.lineNumber))
      let hits := (keep request 0 records).filter fun item => item.kind == .matched
      refine (@length_le_of_beside request.contextLines hits _ honce fun item hitem => ?_).trans ?_
      · cases hkind : item.kind with
        | matched =>
            refine ⟨item, List.mem_filter.mpr ⟨hitem, beq_iff_eq.mpr hkind⟩, rfl, ?_, ?_⟩
            · exact Nat.le_add_right _ _
            · exact Nat.le_add_right _ _
        | context =>
            obtain ⟨hit, hhit, hmatched, hnear⟩ := hcontexts item hitem hkind
            exact ⟨hit, List.mem_filter.mpr ⟨hhit, beq_iff_eq.mpr hmatched⟩, hnear⟩
      · refine Nat.mul_le_mul_right _ ?_
        show ((keep request 0 records).filter fun item => item.kind == .matched).length ≤ _
        rw [keep_matched, List.length_take]
        omega

/-! ## §5. Examples of outputs. -/

/-- One match, with one line of context. -/
def contextRequest : LogSearchRequest := { fileRequest with contextLines := 1, limit := 1 }

def found (lineNumber : Nat) (kind : LogLineKind) : LogRecord where
  path := "/a".toList
  lineNumber := lineNumber
  kind := kind
  text := "k".toList

def printed (records : List LogRecord) : Text :=
  printLines (records.map (LogRecord.line contextRequest))

def foundItem (lineNumber : Nat) (kind : LogLineKind) : LogMatch where
  path := "/a".toList
  lineNumber := lineNumber
  kind := kind
  timestamp := none
  text := "k".toList

theorem oneMatch_returned :
    ∃ items, parseSearchOutput contextRequest (printed [found 1 .context, found 2 .matched])
        noSecrets = .ok items
      ∧ (ReturnsFirstMatches contextRequest [foundItem 1 .context, foundItem 2 .matched] items
        ↔ NoneOrphaned contextRequest [foundItem 1 .context, foundItem 2 .matched]) := by
  refine returnsFirstMatches_iff (by decide) rfl ⟨by decide, by decide, ?_⟩
  intro context hcontext hkind
  refine ⟨foundItem 2 .matched, by simp, rfl, ?_⟩
  rcases List.mem_pair.mp hcontext with rfl | rfl
  · exact ⟨rfl, by decide, by decide⟩
  · cases hkind

/-- **The context of a match beyond the limit is returned without it.** -/
theorem secondMatch_orphans_context :
    WellFormed contextRequest noSecrets
        (printed [found 1 .matched, found 8 .context, found 9 .matched])
        [foundItem 1 .matched, foundItem 8 .context, foundItem 9 .matched]
      ∧ parseSearchOutput contextRequest
          (printed [found 1 .matched, found 8 .context, found 9 .matched]) noSecrets
        = .ok [.content (foundItem 1 .matched), .content (foundItem 8 .context)]
      ∧ ¬ ReturnsFirstMatches contextRequest
          [foundItem 1 .matched, foundItem 8 .context, foundItem 9 .matched]
          [.content (foundItem 1 .matched), .content (foundItem 8 .context)] := by
  refine ⟨⟨by decide, by decide, ?_⟩, by decide, fun hfirst => ?_⟩
  · intro context hcontext hkind
    refine ⟨foundItem 9 .matched, by simp, rfl, ?_⟩
    simp only [List.mem_cons, List.not_mem_nil, or_false] at hcontext
    rcases hcontext with rfl | rfl | rfl
    · cases hkind
    · exact ⟨rfl, by decide, by decide⟩
    · cases hkind
  · obtain ⟨hit, hhit, hmatched, hnear⟩ := hfirst.contexts (foundItem 8 .context) (by simp) rfl
    rcases List.mem_pair.mp hhit with hsame | hsame
    · obtain rfl := SearchResultItem.content.inj hsame
      exact absurd hnear.behind (by decide)
    · obtain rfl := SearchResultItem.content.inj hsame
      cases hmatched

end QingzhouSSH.Core.Logs
