/-
  QingzhouSSH.Lib.ShellSpans — a shell command put together from spans of known origin.

  A program writes a command from text of its own, from values that it quotes, and
  from values of a checked class that it puts in as they are.  A list of `Span`s keeps
  the origins apart; `render` forgets them.  What the shell sees of the rendered command
  is an outline, which comes from the program's text alone, with the characters of the
  values as literal characters at its holes.

  Main results:
    * `visible_render` — the shell sees the outline, with the values spelled out in it;
    * `outline_congr` — spans that differ only in their values have the same outline.
-/
import QingzhouSSH.Lib.Shell

namespace QingzhouSSH.Lib.ShellSpans

open QingzhouSSH.Lib.Shell

variable {κ : Type*}

/-! ## §1. Spans. -/

/-- A part of a command, by its origin. -/
inductive Span (κ : Type*) where
  /-- Text of the program that writes the command. -/
  | program (text : List Char)
  /-- A value, written in single quotes. -/
  | quoted (value : List Char)
  /-- A value of the class `kind`, written as it is. -/
  | literal (kind : κ) (value : List Char)
  deriving Repr, DecidableEq

def Span.text : Span κ → List Char
  | .program text => text
  | .quoted value => Shell.quoted value
  | .literal _ value => value

/-- The text of a command. -/
def render (spans : List (Span κ)) : List Char := spans.flatMap Span.text

/-- The same spans without their values. -/
def Span.emptied : Span κ → Span κ
  | .program text => .program text
  | .quoted _ => .quoted []
  | .literal kind _ => .literal kind []

def Span.value? : Span κ → Option (List Char)
  | .program _ => none
  | .quoted value => some value
  | .literal _ value => some value

/-- The values in a command, in order. -/
def values (spans : List (Span κ)) : List (List Char) := spans.filterMap Span.value?

/-- The values that are written as they are, with their classes. -/
def literals : List (Span κ) → List (κ × List Char)
  | [] => []
  | .literal kind value :: spans => (kind, value) :: literals spans
  | _ :: spans => literals spans

@[simp] theorem render_cons (span : Span κ) (spans : List (Span κ)) :
    render (span :: spans) = span.text ++ render spans := rfl

@[simp] theorem literals_append (spans more : List (Span κ)) :
    literals (spans ++ more) = literals spans ++ literals more := by
  induction spans with
  | nil => rfl
  | cons span spans ih =>
      cases span with
      | program text => exact ih
      | quoted value => exact ih
      | literal kind value => exact congrArg ((kind, value) :: ·) ih

theorem literals_flatMap {α : Type*} (xs : List α) (f : α → List (Span κ)) :
    literals (xs.flatMap f) = xs.flatMap fun x => literals (f x) := by
  induction xs with
  | nil => rfl
  | cons x xs ih => rw [List.flatMap_cons, List.flatMap_cons, literals_append, ih]

/-! ## §2. What the shell sees. -/

/-- The characters that are left when the quoting is removed, each with its class. -/
def visible (s : LexState) (text : List Char) : List (Char × CharClass) :=
  (text.zip (scan s text).2).filter fun seen => seen.2 != .quo

theorem visible_append (s : LexState) (p q : List Char) :
    visible s (p ++ q) = visible s p ++ visible (scan s p).1 q := by
  unfold visible
  rw [scan_append, List.zip_append (scan_length s p).symm, List.filter_append]

/-- A value as literal characters. -/
def spelling (value : List Char) : List (Char × CharClass) := value.map (·, .lit)

/-- Where every class is literal or quoting, the literal characters are what is seen. -/
theorem filter_zip_harmless {text : List Char} {classes : List CharClass}
    (h : ∀ k ∈ classes, k = .lit ∨ k = .quo) :
    ((text.zip classes).filter fun seen => seen.2 != .quo)
      = spelling (Shell.literals text classes) := by
  induction text generalizing classes with
  | nil => rfl
  | cons c text ih =>
      cases classes with
      | nil => rfl
      | cons k classes =>
          have htail := ih fun j hj => h j (List.mem_cons_of_mem k hj)
          rw [List.zip_cons_cons]
          rcases h k List.mem_cons_self with rfl | rfl
          · exact congrArg ((c, CharClass.lit) :: ·) htail
          · exact htail

/-- A text that reads as one value is seen as its spelling. -/
theorem visible_of_readsAs {s : LexState} {text value : List Char} (h : ReadsAs s text value) :
    visible s text = spelling value := by
  unfold visible
  rw [filter_zip_harmless h.harmless, h.spells]

/-- Characters that have no meaning to the shell, outside quotes or in single quotes. -/
structure Inert (value : List Char) : Prop where
  nonempty : value ≠ []
  start : PlainStart value
  plain : Plain value

/-- A text of a class of characters that has none of the special ones. -/
theorem Inert.ofClass {value : List Char} (p : Char → Bool)
    (hp : ∀ d ∈ '#' :: '~' :: specials, p d = false) (hne : value ≠ [])
    (h : ∀ c ∈ value, p c = true) : Inert value := by
  have hhead : ∀ d ∈ ['#', '~'], value.head? ≠ some d := by
    intro d hd hhead
    have hclass := h d (List.mem_of_mem_head? hhead)
    rw [hp d (by
      simp only [List.mem_cons, List.not_mem_nil, or_false] at hd
      rcases hd with rfl | rfl
      · exact List.mem_cons_self
      · exact List.mem_cons_of_mem _ List.mem_cons_self)] at hclass
    exact absurd hclass (by simp)
  refine ⟨hne, ⟨hhead '#' (by simp), hhead '~' (by simp)⟩, ?_⟩
  intro c hc
  refine isPlain_of_class p (fun d hd => hp d ?_) (h c hc)
  exact List.mem_cons_of_mem _ (List.mem_cons_of_mem _ hd)

/-! ## §3. Holes. -/

/-- Outside quotes, escapes and comments. -/
def isBare (s : LexState) : Bool := s.quote == .bare && !s.escaped && !s.comment

/-- In single quotes. -/
def isSingle (s : LexState) : Bool := s.quote == .single && !s.escaped && !s.comment

theorem isBare_iff {s : LexState} : isBare s = true ↔ s.Bare := by
  constructor
  · intro h
    simp only [isBare, Bool.and_eq_true, beq_iff_eq, Bool.not_eq_true'] at h
    exact ⟨h.1.1, h.1.2, h.2⟩
  · intro h
    simp [isBare, h.quote, h.escaped, h.comment]

/-- The shell after a span.  It does not depend on the value of a hole. -/
def Span.after (s : LexState) : Span κ → LexState
  | .program text => (scan s text).1
  | .quoted _ => s.inside
  | .literal _ _ => if isBare s then s.inside else s

/-- A quoted value stands outside quotes, and a literal one there or in single quotes. -/
def Span.fits (s : LexState) : Span κ → Bool
  | .program _ => true
  | .quoted _ => isBare s
  | .literal _ _ => isBare s || isSingle s

def after (s : LexState) (spans : List (Span κ)) : LexState := spans.foldl Span.after s

def fits : LexState → List (Span κ) → Bool
  | _, [] => true
  | s, span :: spans => span.fits s && fits (span.after s) spans

theorem fits_append (s : LexState) (spans more : List (Span κ)) :
    fits s (spans ++ more) = (fits s spans && fits (after s spans) more) := by
  induction spans generalizing s with
  | nil => rfl
  | cons span spans ih =>
      show (span.fits s && fits (span.after s) (spans ++ more)) = _
      rw [ih, ← Bool.and_assoc]
      rfl

@[simp] theorem Span.fits_emptied (s : LexState) (span : Span κ) :
    span.emptied.fits s = span.fits s := by
  cases span <;> rfl

@[simp] theorem Span.after_emptied (s : LexState) (span : Span κ) :
    span.emptied.after s = span.after s := by
  cases span <;> rfl

/-- Whether the holes fit does not depend on the values. -/
theorem fits_emptied (s : LexState) (spans : List (Span κ)) :
    fits s (spans.map Span.emptied) = fits s spans := by
  induction spans generalizing s with
  | nil => rfl
  | cons span spans ih =>
      show (span.emptied.fits s && fits (span.emptied.after s) (spans.map Span.emptied)) = _
      rw [Span.fits_emptied, Span.after_emptied, ih]
      rfl

/-- In single quotes a text without a single quote is literal. -/
theorem scan_single_plain {s : LexState} (h : isSingle s = true) {text : List Char}
    (hp : Plain text) : scan s text = (s, List.replicate text.length .lit) := by
  simp only [isSingle, Bool.and_eq_true, beq_iff_eq, Bool.not_eq_true'] at h
  obtain ⟨⟨hquote, hescaped⟩, hcomment⟩ := h
  induction text with
  | nil => rfl
  | cons c text ih =>
      have hne : c ≠ '\'' := (isPlain_iff.mp (hp c List.mem_cons_self)).2.2.2.2.2.1
      have hstep : step s c = (s, .lit) := by
        unfold step
        rw [if_neg (by rw [hcomment]; simp), if_neg (by rw [hescaped]; simp), hquote]
        exact if_neg hne
      rw [scan_cons, hstep, ih fun d hd => hp d (List.mem_cons_of_mem c hd)]
      rfl

/-- A hole that fits is read as its value, and leaves the shell where `after` says. -/
theorem Span.reads {s : LexState} {span : Span κ} (hfits : span.fits s = true)
    (hinert : ∀ kind value, span = .literal kind value → Inert value) :
    (scan s span.text).1 = span.after s
      ∧ ∀ value ∈ span.value?, visible s span.text = spelling value := by
  cases span with
  | program text => exact ⟨rfl, fun value hvalue => by cases hvalue⟩
  | quoted v =>
      have hread := readsAs_quoted (isBare_iff.mp hfits) v
      refine ⟨hread.context, ?_⟩
      intro value hvalue
      obtain rfl := Option.some.inj hvalue
      exact visible_of_readsAs hread
  | literal kind v =>
      have hv := hinert kind v rfl
      by_cases hbare : isBare s = true
      · have hread := readsAs_of_plain (isBare_iff.mp hbare) hv.nonempty hv.start hv.plain
        refine ⟨by rw [Span.after, if_pos hbare]; exact hread.context, ?_⟩
        intro value hvalue
        obtain rfl := Option.some.inj hvalue
        exact visible_of_readsAs hread
      · have hsingle : isSingle s = true := by
          rcases Bool.or_eq_true_iff.mp hfits with h | h
          · exact absurd h hbare
          · exact h
        have hscan := scan_single_plain hsingle hv.plain
        refine ⟨by rw [Span.after, if_neg hbare]; exact congrArg Prod.fst hscan, ?_⟩
        intro value hvalue
        obtain rfl := Option.some.inj hvalue
        unfold visible
        show (v.zip (scan s v).2).filter _ = _
        rw [hscan, filter_zip_harmless fun k hk => Or.inl (List.eq_of_mem_replicate hk),
          literals_replicate_lit]

/-! ## §4. The outline of a command. -/

/-- What the program's text is read as; a hole is left open. -/
def outline : LexState → List (Span κ) → List (Option (List (Char × CharClass)))
  | _, [] => []
  | s, .program text :: spans => some (visible s text) :: outline (scan s text).1 spans
  | s, span :: spans => none :: outline (span.after s) spans

/-- An outline with the values spelled out at its holes. -/
def spelled : List (Option (List (Char × CharClass))) → List (List Char) →
    List (Char × CharClass)
  | [], _ => []
  | some seen :: rest, vs => seen ++ spelled rest vs
  | none :: rest, v :: vs => spelling v ++ spelled rest vs
  | none :: rest, [] => spelled rest []

/-- **The shell sees the outline of a command, with the values spelled out in it.** -/
theorem visible_render {s : LexState} {spans : List (Span κ)} (hfits : fits s spans = true)
    (hinert : ∀ entry ∈ literals spans, Inert entry.2) :
    visible s (render spans) = spelled (outline s spans) (values spans) := by
  induction spans generalizing s with
  | nil => rfl
  | cons span spans ih =>
      obtain ⟨hhead, htail⟩ := Bool.and_eq_true_iff.mp hfits
      have hmine : ∀ kind value, span = .literal kind value → Inert value := by
        rintro kind value rfl
        exact hinert (kind, value) List.mem_cons_self
      have hrest : ∀ entry ∈ literals spans, Inert entry.2 := by
        intro entry hentry
        refine hinert entry ?_
        cases span with
        | program text => exact hentry
        | quoted value => exact hentry
        | literal kind value => exact List.mem_cons_of_mem _ hentry
      obtain ⟨hcontext, hseen⟩ := Span.reads hhead hmine
      rw [render_cons, visible_append, hcontext, ih htail hrest]
      cases span with
      | program text => rfl
      | quoted value => rw [hseen value rfl]; rfl
      | literal kind value => rw [hseen value rfl]; rfl

theorem outline_emptied (s : LexState) (spans : List (Span κ)) :
    outline s (spans.map Span.emptied) = outline s spans := by
  induction spans generalizing s with
  | nil => rfl
  | cons span spans ih =>
      cases span with
      | program text => exact congrArg (some (visible s text) :: ·) (ih _)
      | quoted value => exact congrArg (none :: ·) (ih _)
      | literal kind value => exact congrArg (none :: ·) (ih _)

/-- **Spans that differ only in their values have the same outline.** -/
theorem outline_congr {spans spans' : List (Span κ)}
    (h : spans.map Span.emptied = spans'.map Span.emptied) (s : LexState) :
    outline s spans = outline s spans' := by
  rw [← outline_emptied, h, outline_emptied]

/-- A piece that brings the shell back to where it was can be repeated. -/
theorem repeated {α : Type*} {s : LexState} {xs : List α} {f : α → List (Span κ)}
    (hfits : ∀ x ∈ xs, fits s (f x) = true) (hafter : ∀ x ∈ xs, after s (f x) = s) :
    fits s (xs.flatMap f) = true ∧ after s (xs.flatMap f) = s := by
  induction xs with
  | nil => exact ⟨rfl, rfl⟩
  | cons x xs ih =>
      obtain ⟨hrest, hback⟩ := ih (fun y hy => hfits y (List.mem_cons_of_mem x hy))
        fun y hy => hafter y (List.mem_cons_of_mem x hy)
      have hmine := hafter x List.mem_cons_self
      rw [List.flatMap_cons]
      constructor
      · rw [fits_append, hfits x List.mem_cons_self, hmine, hrest]
        rfl
      · show (f x ++ xs.flatMap f).foldl Span.after s = s
        rw [List.foldl_append]
        show after (after s (f x)) (xs.flatMap f) = s
        rw [hmine, hback]

end QingzhouSSH.Lib.ShellSpans
