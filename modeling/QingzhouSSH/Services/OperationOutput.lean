/-
  QingzhouSSH.Services.OperationOutput — the output that an operation keeps of its steps.

  While a step runs, its events pass through a sink that keeps their texts, up to 1 MiB, and
  cuts the last one at a character.  The cut may leave up to three bytes.

  Main results:
    * `append_output` — an append adds the longest part of the text that fits;
    * `captured_le` — what is kept has at most 1 MiB;
    * `captured_prefix_iff` — when what is kept is a prefix of what was sent.
-/
import QingzhouSSH.Domain.Events

namespace QingzhouSSH.Services.OperationOutput

open String (utf8Len utf8Len_cons utf8Len_append)
open QingzhouSSH.Domain

/-! ## §1. The sink. -/

def maxCapturedOperationOutput : Nat := 1024 * 1024

/-- `OperationOutputSink`: the sink that it forwards to, and the output kept so far. -/
structure OperationOutputSink (σ : Type) where
  inner : σ
  output : Text

namespace OperationOutputSink

variable {σ : Type}

def append (sink : OperationOutputSink σ) (text : Text) : OperationOutputSink σ :=
  if maxCapturedOperationOutput ≤ utf8Len sink.output then sink
  else
    let remaining := maxCapturedOperationOutput - utf8Len sink.output
    if utf8Len text ≤ remaining then { sink with output := sink.output ++ text }
    -- the cut goes back from `remaining` to the start of a character
    else { sink with output := sink.output ++ takeUtf8 remaining text }

/-- Standard output and standard error are kept in the order they arrive in. -/
def send (innerSend : σ → ExecutionEvent → AppResult Unit × σ) (sink : OperationOutputSink σ)
    (event : ExecutionEvent) : AppResult Unit × OperationOutputSink σ :=
  let sink := sink.append event.text
  let (answer, inner) := innerSend sink.inner event
  (answer, { sink with inner := inner })

/-- The events of a run, one after the other. -/
def sendAll (innerSend : σ → ExecutionEvent → AppResult Unit × σ) (sink : OperationOutputSink σ)
    (events : List ExecutionEvent) : OperationOutputSink σ :=
  events.foldl (fun sink event => (sink.send innerSend event).2) sink

end OperationOutputSink

/-! ## §2. The longest part that fits. -/

/-- A text that is cut goes on with a character that does not fit. -/
theorem takeUtf8_cut {n : Nat} {s : Text} (h : n < utf8Len s) :
    ∃ c rest, s = takeUtf8 n s ++ c :: rest ∧ n - utf8Len (takeUtf8 n s) < c.utf8Size := by
  induction s generalizing n with
  | nil => exact absurd h (Nat.not_lt_zero n)
  | cons c s ih =>
      rw [utf8Len_cons] at h
      by_cases hfits : c.utf8Size ≤ n
      · obtain ⟨d, rest, hs, hwide⟩ := @ih (n - c.utf8Size) (by omega)
        have htake : takeUtf8 n (c :: s) = c :: takeUtf8 (n - c.utf8Size) s := if_pos hfits
        refine ⟨d, rest, ?_, ?_⟩
        · rw [htake, List.cons_append, ← hs]
        · rw [htake, utf8Len_cons]
          omega
      · have htake : takeUtf8 n (c :: s) = [] := if_neg hfits
        refine ⟨c, s, by rw [htake]; rfl, ?_⟩
        omega

/-- Nothing of a text fits when its first character does not. -/
theorem takeUtf8_eq_nil_iff {n : Nat} {s : Text} :
    takeUtf8 n s = [] ↔ ∀ c rest, s = c :: rest → n < c.utf8Size := by
  cases s with
  | nil => exact iff_of_true rfl nofun
  | cons c s =>
      show (if c.utf8Size ≤ n then c :: takeUtf8 (n - c.utf8Size) s else []) = [] ↔ _
      by_cases hfits : c.utf8Size ≤ n
      · rw [if_pos hfits]
        refine iff_of_false (List.cons_ne_nil _ _) fun h => ?_
        have := h c s rfl
        omega
      · rw [if_neg hfits]
        refine iff_of_true rfl fun d rest heq => ?_
        obtain ⟨rfl, -⟩ := List.cons.inj heq
        omega

/-! ## §3. What is kept. -/

section Kept

variable {σ : Type}

/-- **An append adds the longest part of the text that fits.** -/
theorem append_output (sink : OperationOutputSink σ) (text : Text) :
    (sink.append text).output
      = sink.output ++ takeUtf8 (maxCapturedOperationOutput - utf8Len sink.output) text := by
  unfold OperationOutputSink.append
  split
  next hfull =>
    have hnone : takeUtf8 (maxCapturedOperationOutput - utf8Len sink.output) text = [] := by
      rw [takeUtf8_eq_nil_iff]
      intro c _ _
      have := Char.utf8Size_pos c
      omega
    rw [hnone, List.append_nil]
  next =>
    dsimp only
    split
    next hfits => rw [takeUtf8_of_le hfits]
    next => rfl

/-- The output kept of these texts, when this much is kept already. -/
def kept (output : Text) : List Text → Text
  | [] => output
  | text :: texts =>
      kept (output ++ takeUtf8 (maxCapturedOperationOutput - utf8Len output) text) texts

theorem output_sendAll (innerSend : σ → ExecutionEvent → AppResult Unit × σ)
    (sink : OperationOutputSink σ) (events : List ExecutionEvent) :
    (sink.sendAll innerSend events).output = kept sink.output (events.map ExecutionEvent.text) := by
  induction events generalizing sink with
  | nil => rfl
  | cons event events ih =>
      have hsent : (sink.send innerSend event).2.output = (sink.append event.text).output := rfl
      show ((sink.send innerSend event).2.sendAll innerSend events).output = _
      rw [ih, hsent, append_output]
      rfl

theorem kept_append (output : Text) (before after : List Text) :
    kept output (before ++ after) = kept (kept output before) after := by
  induction before generalizing output with
  | nil => rfl
  | cons text before ih => exact ih _

/-- What is kept stays. -/
theorem prefix_kept (output : Text) (texts : List Text) : output <+: kept output texts := by
  induction texts generalizing output with
  | nil => exact List.prefix_rfl
  | cons text texts ih => exact (List.prefix_append _ _).trans (ih _)

theorem kept_le {output : Text} (h : utf8Len output ≤ maxCapturedOperationOutput)
    (texts : List Text) : utf8Len (kept output texts) ≤ maxCapturedOperationOutput := by
  induction texts generalizing output with
  | nil => exact h
  | cons text texts ih =>
      apply ih
      have := utf8Len_takeUtf8_le (maxCapturedOperationOutput - utf8Len output) text
      rw [utf8Len_append]
      omega

/-- Texts that fit are kept as they are. -/
theorem kept_of_le {output : Text} {texts : List Text}
    (h : utf8Len output + utf8Len texts.flatten ≤ maxCapturedOperationOutput) :
    kept output texts = output ++ texts.flatten := by
  induction texts generalizing output with
  | nil => exact (List.append_nil output).symm
  | cons text texts ih =>
      rw [List.flatten_cons, utf8Len_append] at h
      show kept (output ++ takeUtf8 _ text) texts = _
      rw [takeUtf8_of_le (by omega), ih (by rw [utf8Len_append]; omega), List.flatten_cons,
        List.append_assoc]

/-- Nothing is added exactly when of no text a character fits. -/
theorem kept_eq_self_iff {output : Text} {texts : List Text} :
    kept output texts = output ↔ ∀ c rest, c :: rest ∈ texts →
      maxCapturedOperationOutput - utf8Len output < c.utf8Size := by
  induction texts generalizing output with
  | nil => exact iff_of_true rfl nofun
  | cons text texts ih =>
      show kept (output ++ takeUtf8 _ text) texts = output ↔ _
      constructor
      · intro h
        have hgrown := prefix_kept (output ++ takeUtf8
          (maxCapturedOperationOutput - utf8Len output) text) texts
        rw [h] at hgrown
        have hnone : takeUtf8 (maxCapturedOperationOutput - utf8Len output) text = [] := by
          have hlength := hgrown.length_le
          rw [List.length_append] at hlength
          exact List.length_eq_zero_iff.mp (by omega)
        rw [hnone, List.append_nil, ih] at h
        intro c rest hmem
        rcases List.mem_cons.mp hmem with hhead | htail
        · exact takeUtf8_eq_nil_iff.mp hnone c rest hhead.symm
        · exact h c rest htail
      · intro h
        have hnone : takeUtf8 (maxCapturedOperationOutput - utf8Len output) text = [] :=
          takeUtf8_eq_nil_iff.mpr fun c rest heq => h c rest (heq ▸ List.mem_cons_self)
        rw [hnone, List.append_nil]
        exact ih.mpr fun c rest hmem => h c rest (List.mem_cons_of_mem _ hmem)

end Kept

/-! ## §4. When what is kept is a prefix. -/

/-- No text behind the first one that is cut starts with a character that fits into the bytes
that the cut has left. -/
def NothingRefills (texts : List Text) : Prop :=
  ∀ before cut after, texts = before ++ cut :: after →
    utf8Len before.flatten ≤ maxCapturedOperationOutput →
    maxCapturedOperationOutput < utf8Len (before ++ [cut]).flatten →
    ∀ c rest, c :: rest ∈ after →
      maxCapturedOperationOutput
        - utf8Len (takeUtf8 maxCapturedOperationOutput (before ++ [cut]).flatten) < c.utf8Size

/-- The first text that is cut. -/
theorem exists_cut {texts before : List Text}
    (hbefore : utf8Len before.flatten ≤ maxCapturedOperationOutput)
    (h : maxCapturedOperationOutput < utf8Len (before ++ texts).flatten) :
    ∃ more cut after, texts = more ++ cut :: after
      ∧ utf8Len (before ++ more).flatten ≤ maxCapturedOperationOutput
      ∧ maxCapturedOperationOutput < utf8Len (before ++ more ++ [cut]).flatten := by
  induction texts generalizing before with
  | nil =>
      rw [List.append_nil] at h
      omega
  | cons text texts ih =>
      by_cases hfits : utf8Len (before ++ [text]).flatten ≤ maxCapturedOperationOutput
      · rw [← List.singleton_append, ← List.append_assoc] at h
        obtain ⟨more, cut, after, rfl, hmore, hcut⟩ := ih hfits h
        refine ⟨text :: more, cut, after, rfl, ?_, ?_⟩
        · simpa using hmore
        · simpa using hcut
      · exact ⟨[], text, texts, rfl, by simpa using hbefore, by simpa using hfits⟩

/-- Behind a cut, what is kept is a prefix exactly when nothing more is added. -/
theorem prefix_iff_of_cut {before after : List Text} {cut : Text}
    (hbefore : utf8Len before.flatten ≤ maxCapturedOperationOutput)
    (hcut : maxCapturedOperationOutput < utf8Len (before ++ [cut]).flatten) :
    kept [] (before ++ cut :: after) <+: (before ++ cut :: after).flatten
      ↔ ∀ c rest, c :: rest ∈ after →
        maxCapturedOperationOutput
          - utf8Len (takeUtf8 maxCapturedOperationOutput (before ++ [cut]).flatten)
          < c.utf8Size := by
  obtain ⟨d, rest, hwhole, hwide⟩ := takeUtf8_cut hcut
  generalize hfirst : takeUtf8 maxCapturedOperationOutput (before ++ [cut]).flatten = first
    at hwhole hwide ⊢
  have hkept : kept [] (before ++ cut :: after) = kept first after := by
    have hjoined : (before ++ [cut]).flatten = before.flatten ++ cut := by simp
    have hstart : kept [] before = before.flatten := kept_of_le (by simpa using hbefore)
    rw [kept_append, hstart, ← hfirst, hjoined, takeUtf8_append hbefore]
    rfl
  have htexts : (before ++ cut :: after).flatten = first ++ d :: (rest ++ after.flatten) := by
    have hsplit : (before ++ cut :: after).flatten = (before ++ [cut]).flatten ++ after.flatten := by
      simp
    rw [hsplit, hwhole]
    simp
  rw [hkept, htexts, ← kept_eq_self_iff]
  constructor
  · intro hprefix
    obtain ⟨added, hadded⟩ := prefix_kept first after
    rw [← hadded, List.prefix_append_right_inj] at hprefix
    cases added with
    | nil => rw [← hadded, List.append_nil]
    | cons c added =>
        -- what is added fits, the character that comes next does not
        obtain ⟨rfl, -⟩ := List.cons_prefix_cons.mp hprefix
        have hfits : utf8Len first ≤ maxCapturedOperationOutput := by
          rw [← hfirst]
          exact utf8Len_takeUtf8_le _ _
        have hle := kept_le hfits after
        rw [← hadded, utf8Len_append, utf8Len_cons] at hle
        omega
  · intro hself
    rw [hself]
    exact List.prefix_append _ _

theorem kept_prefix_iff (texts : List Text) :
    kept [] texts <+: texts.flatten ↔ NothingRefills texts := by
  constructor
  · rintro hprefix before cut after rfl hbefore hcut
    exact (prefix_iff_of_cut hbefore hcut).mp hprefix
  · intro h
    by_cases hfits : utf8Len texts.flatten ≤ maxCapturedOperationOutput
    · rw [kept_of_le (by simpa using hfits)]
      exact List.prefix_rfl
    · obtain ⟨before, cut, after, rfl, hbefore, hcut⟩ :=
        @exists_cut texts [] (Nat.zero_le _) (by simpa using hfits)
      exact (prefix_iff_of_cut hbefore hcut).mpr (h before cut after rfl hbefore hcut)

/-- **What is kept of the events is a prefix of their texts, of at most 1 MiB, exactly when
nothing refills what the first cut has left.** -/
theorem captured_prefix_iff {σ : Type} (innerSend : σ → ExecutionEvent → AppResult Unit × σ)
    (inner : σ) (events : List ExecutionEvent) :
    ((({ inner := inner, output := [] } : OperationOutputSink σ).sendAll innerSend events).output
          <+: (events.map ExecutionEvent.text).flatten
        ∧ utf8Len (({ inner := inner, output := [] } : OperationOutputSink σ).sendAll innerSend
            events).output ≤ maxCapturedOperationOutput)
      ↔ NothingRefills (events.map ExecutionEvent.text) := by
  rw [output_sendAll, ← kept_prefix_iff]
  exact and_iff_left (kept_le (Nat.zero_le _) _)

/-! ## §5. A byte that is left. -/

def printed (text : Text) : ExecutionEvent where
  sequence := 0
  stream := .stdout
  text := text
  totalBytes := utf8Len text

/-- One byte short of the limit, then a character of two bytes, then one of one byte. -/
def refilling : List ExecutionEvent :=
  [printed (List.replicate (maxCapturedOperationOutput - 1) 'a'), printed ['é'], printed ['b']]

theorem utf8Len_letters (n : Nat) : utf8Len (List.replicate n 'a') = n :=
  (utf8Len_replicate n 'a').trans (Nat.mul_one n)

/-- **The last of these texts fills the byte that the cut has left.** -/
theorem refilling_not_prefix :
    ¬ (({ inner := (), output := [] } : OperationOutputSink Unit).sendAll
        (fun inner _ => (.ok (), inner)) refilling).output
      <+: (refilling.map ExecutionEvent.text).flatten := by
  rw [output_sendAll, kept_prefix_iff]
  intro h
  have hmax : maxCapturedOperationOutput = 1048576 := rfl
  have hwidth : utf8Len ['é'] = 2 := by decide
  have hlong : ([List.replicate (maxCapturedOperationOutput - 1) 'a']
      ++ [['é']]).flatten = List.replicate (maxCapturedOperationOutput - 1) 'a' ++ ['é'] := by
    simp
  have hcut : takeUtf8 maxCapturedOperationOutput
      (List.replicate (maxCapturedOperationOutput - 1) 'a' ++ ['é'])
      = List.replicate (maxCapturedOperationOutput - 1) 'a' := by
    rw [takeUtf8_append (by rw [utf8Len_letters]; omega), utf8Len_letters]
    have hroom : maxCapturedOperationOutput - (maxCapturedOperationOutput - 1) = 1 := by omega
    have hnone : takeUtf8 1 ['é'] = [] := by decide
    rw [hroom, hnone, List.append_nil]
  have hone : ('b' : Char).utf8Size = 1 := by decide
  have hroom : maxCapturedOperationOutput - utf8Len (takeUtf8 maxCapturedOperationOutput
      ([List.replicate (maxCapturedOperationOutput - 1) 'a'] ++ [['é']]).flatten)
      = 1 := by
    rw [hlong, hcut, utf8Len_letters]
    omega
  have hwide := h [List.replicate (maxCapturedOperationOutput - 1) 'a'] ['é'] [['b']] rfl
    (by
      rw [List.flatten_singleton, utf8Len_letters]
      omega)
    (by
      rw [hlong, utf8Len_append, utf8Len_letters, hwidth]
      omega)
    'b' [] List.mem_cons_self
  exact absurd (hroom.symm.trans_lt hwide) (by rw [hone]; omega)

end QingzhouSSH.Services.OperationOutput
