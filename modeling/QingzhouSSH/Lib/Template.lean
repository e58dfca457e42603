/-
  QingzhouSSH.Lib.Template — texts with `{{name}}` placeholders.

  A template is read once into pieces: literal characters and placeholders with
  brace-free names.  Filling replaces placeholders by values; it never looks at
  the values.  Replacing one placeholder after the other in the text agrees with
  filling as long as no brace pair appears outside the placeholders (`Calm`).

  Main results:
    * `text_pieces` — reading a template loses nothing;
    * `replace_placeholder` — textual replacement is filling, on calm pieces;
    * `replaceAll_text` — so is one replacement after the other;
    * `calm_fill` — filling with pair-free values keeps pieces calm;
    * `noPair_text_fill_iff` — when a filled template is free of brace pairs.
-/
import QingzhouSSH.Lib.Text
import Mathlib.Data.List.Chain
import Mathlib.Data.List.TakeWhile
import Mathlib.Tactic.Tauto

namespace QingzhouSSH.Lib.Template

/-! ## §1. Pieces. -/

inductive Piece where
  | lit (c : Char)
  | mark (name : List Char)
  deriving Repr, DecidableEq

def isBrace (c : Char) : Bool := c == '{' || c == '}'

def BraceFree (s : List Char) : Prop := ∀ c ∈ s, isBrace c = false

instance (s : List Char) : Decidable (BraceFree s) := by
  unfold BraceFree
  infer_instance

/-- The text `{{name}}`. -/
def placeholder (name : List Char) : List Char := '{' :: '{' :: (name ++ ['}', '}'])

def spell : Piece → List Char
  | .lit c => [c]
  | .mark name => placeholder name

def text (ps : List Piece) : List Char := ps.flatMap spell

/-- The name of the placeholder that starts a text. -/
def readMark : List Char → Option (List Char)
  | '{' :: '{' :: s =>
      if ['}', '}'].isPrefixOf (s.dropWhile fun c => !isBrace c) then
        some (s.takeWhile fun c => !isBrace c)
      else none
  | _ => none

/-- Read a text into pieces, first dropping `skip` characters of a placeholder. -/
def piecesFrom : Nat → List Char → List Piece
  | _, [] => []
  | k + 1, _ :: s => piecesFrom k s
  | 0, c :: s =>
      match readMark (c :: s) with
      | some name => .mark name :: piecesFrom (name.length + 3) s
      | none => .lit c :: piecesFrom 0 s

def pieces (t : List Char) : List Piece := piecesFrom 0 t

@[simp] theorem text_nil : text [] = [] := rfl

theorem text_cons (p : Piece) (ps : List Piece) : text (p :: ps) = spell p ++ text ps := rfl

theorem text_append (ps qs : List Piece) : text (ps ++ qs) = text ps ++ text qs :=
  List.flatMap_append

/-- Every piece spells at least one character. -/
theorem length_le_text (ps : List Piece) : ps.length ≤ (text ps).length := by
  induction ps with
  | nil => exact Nat.le_refl 0
  | cons p ps ih =>
      rw [text_cons, List.length_append, List.length_cons]
      have hp : 1 ≤ (spell p).length := by cases p <;> simp [spell, placeholder]
      omega

theorem text_map_lit (v : List Char) : text (v.map Piece.lit) = v := by
  induction v with
  | nil => rfl
  | cons c v ih =>
      rw [List.map_cons, text_cons, ih]
      rfl

theorem readMark_eq_some {t name : List Char} (h : readMark t = some name) :
    BraceFree name ∧ ∃ rest, t = placeholder name ++ rest := by
  unfold readMark at h
  split at h
  next s =>
    split at h
    next hp =>
      rw [Option.some.injEq] at h
      obtain ⟨rest, hrest⟩ := List.isPrefixOf_iff_prefix.mp hp
      refine ⟨?_, rest, ?_⟩
      · intro c hc
        rw [← h] at hc
        simpa using List.mem_takeWhile_imp hc
      · have hsplit : s.takeWhile (fun c => !isBrace c) ++ s.dropWhile (fun c => !isBrace c) = s :=
          List.takeWhile_append_dropWhile
        rw [← hrest, h] at hsplit
        rw [← hsplit]
        simp [placeholder]
    next => exact absurd h (by simp)
  next => exact absurd h (by simp)

theorem piecesFrom_drop (k : Nat) (s : List Char) : piecesFrom k s = pieces (s.drop k) := by
  induction k generalizing s with
  | zero => rfl
  | succ k ih =>
      cases s with
      | nil => rfl
      | cons c s => exact ih s

theorem pieces_cons (c : Char) (s : List Char) :
    pieces (c :: s) = match readMark (c :: s) with
      | some name => .mark name :: pieces (s.drop (name.length + 3))
      | none => .lit c :: pieces s := by
  show (match readMark (c :: s) with
      | some name => Piece.mark name :: piecesFrom (name.length + 3) s
      | none => .lit c :: piecesFrom 0 s) = _
  cases readMark (c :: s) with
  | none => rfl
  | some name =>
      simp only []
      rw [piecesFrom_drop]

/-- A text that starts with a placeholder: the placeholder, then the rest. -/
theorem pieces_step {c : Char} {s name : List Char} (h : readMark (c :: s) = some name) :
    ∃ rest, c :: s = placeholder name ++ rest ∧ pieces (c :: s) = .mark name :: pieces rest := by
  obtain ⟨_, rest, hrest⟩ := readMark_eq_some h
  refine ⟨rest, hrest, ?_⟩
  have hdrop : s.drop (name.length + 3) = rest := by
    have hd := congrArg (List.drop (name.length + 4)) hrest
    rw [List.drop_succ_cons] at hd
    rw [hd, List.drop_left' (by simp [placeholder])]
  rw [pieces_cons, h]
  simp only []
  rw [hdrop]

/-- **Reading a template into pieces loses nothing.** -/
theorem text_pieces (t : List Char) : text (pieces t) = t := by
  induction hn : t.length using Nat.strong_induction_on generalizing t with
  | _ n ih =>
      cases t with
      | nil => rfl
      | cons c s =>
          cases hm : readMark (c :: s) with
          | none =>
              rw [pieces_cons, hm]
              show [c] ++ text (pieces s) = _
              rw [ih s.length (by rw [← hn]; simp) s rfl]
              rfl
          | some name =>
              obtain ⟨rest, hrest, hps⟩ := pieces_step hm
              have hlen : rest.length < n := by
                rw [← hn, hrest]
                simp [placeholder]
                omega
              rw [hps, text_cons, ih rest.length hlen rest rfl, hrest]
              rfl

theorem braceFree_of_mem_pieces {t name : List Char} (h : Piece.mark name ∈ pieces t) :
    BraceFree name := by
  induction hn : t.length using Nat.strong_induction_on generalizing t with
  | _ n ih =>
      cases t with
      | nil => exact absurd h (by simp [pieces, piecesFrom])
      | cons c s =>
          cases hm : readMark (c :: s) with
          | none =>
              rw [pieces_cons, hm] at h
              rcases List.mem_cons.mp h with h | h
              · exact absurd h (by simp)
              · exact ih s.length (by rw [← hn]; simp) h rfl
          | some m =>
              obtain ⟨rest, hrest, hps⟩ := pieces_step hm
              have hlen : rest.length < n := by
                rw [← hn, hrest]
                simp [placeholder]
                omega
              rw [hps] at h
              rcases List.mem_cons.mp h with h | h
              · rw [Piece.mark.injEq] at h
                rw [h]
                exact (readMark_eq_some hm).1
              · exact ih rest.length hlen h rfl

/-! ## §2. Filling. -/

/-- What a piece becomes when the values of the names are known. -/
def fillPiece (value : List Char → Option (List Char)) : Piece → List Piece
  | .lit c => [.lit c]
  | .mark name =>
      match value name with
      | some v => v.map .lit
      | none => [.mark name]

def fill (value : List Char → Option (List Char)) (ps : List Piece) : List Piece :=
  ps.flatMap (fillPiece value)

@[simp] theorem fill_nil (value : List Char → Option (List Char)) : fill value [] = [] := rfl

theorem fill_cons (value : List Char → Option (List Char)) (p : Piece) (ps : List Piece) :
    fill value (p :: ps) = fillPiece value p ++ fill value ps := rfl

theorem fill_append (value : List Char → Option (List Char)) (ps qs : List Piece) :
    fill value (ps ++ qs) = fill value ps ++ fill value qs := List.flatMap_append

theorem fill_map_lit (value : List Char → Option (List Char)) (v : List Char) :
    fill value (v.map Piece.lit) = v.map Piece.lit := by
  induction v with
  | nil => rfl
  | cons c v ih =>
      rw [List.map_cons, fill_cons, ih]
      rfl

/-- Filling twice: the second values serve the names the first ones left. -/
theorem fill_fill (f g : List Char → Option (List Char)) (ps : List Piece) :
    fill g (fill f ps) = fill (fun n => (f n).or (g n)) ps := by
  induction ps with
  | nil => rfl
  | cons p ps ih =>
      rw [fill_cons, fill_append, ih, fill_cons]
      cases p with
      | lit c => rfl
      | mark n =>
          cases hf : f n with
          | none => simp [fillPiece, hf, fill]
          | some v =>
              simp only [fillPiece, hf, Option.some_or]
              rw [fill_map_lit]

theorem mem_fill_mark {f : List Char → Option (List Char)} {ps : List Piece} {n : List Char}
    (h : Piece.mark n ∈ fill f ps) : Piece.mark n ∈ ps ∧ f n = none := by
  unfold fill at h
  rw [List.mem_flatMap] at h
  obtain ⟨p, hp, hn⟩ := h
  cases p with
  | lit c => exact absurd hn (by simp [fillPiece])
  | mark m =>
      cases hf : f m with
      | none =>
          simp only [fillPiece, hf, List.mem_singleton, Piece.mark.injEq] at hn
          rw [hn]
          exact ⟨hp, hf⟩
      | some v => exact absurd hn (by simp [fillPiece, hf])

theorem fill_congr {f g : List Char → Option (List Char)} {ps : List Piece}
    (h : ∀ n, Piece.mark n ∈ ps → f n = g n) : fill f ps = fill g ps := by
  induction ps with
  | nil => rfl
  | cons p ps ih =>
      rw [fill_cons, fill_cons, ih fun n hn => h n (List.mem_cons_of_mem p hn)]
      cases p with
      | lit c => rfl
      | mark n => simp only [fillPiece, h n List.mem_cons_self]

/-- Values for one name only. -/
def single (name value : List Char) (n : List Char) : Option (List Char) :=
  if n = name then some value else none

/-! ## §3. Brace pairs. -/

def Pairless (a b : Char) : Prop := ¬ (a = '{' ∧ b = '{') ∧ ¬ (a = '}' ∧ b = '}')

instance (a b : Char) : Decidable (Pairless a b) := by
  unfold Pairless
  infer_instance

/-- No `{{` and no `}}`. -/
def NoPair (s : List Char) : Prop := s.IsChain Pairless

instance (s : List Char) : Decidable (NoPair s) := by
  unfold NoPair
  infer_instance

theorem pair_infix_iff {c : Char} {s : List Char} :
    [c, c] <:+: s ↔ ¬ s.IsChain fun a b => ¬ (a = c ∧ b = c) := by
  induction s with
  | nil => simp
  | cons a s ih =>
      rw [List.infix_cons_iff, ih]
      cases s with
      | nil => simp
      | cons b s =>
          rw [List.isChain_cons_cons, List.cons_prefix_cons, List.cons_prefix_cons]
          constructor
          · rintro (⟨rfl, rfl, _⟩ | h)
            · exact fun hc => hc.1 ⟨rfl, rfl⟩
            · exact fun hc => h hc.2
          · intro h
            by_cases hab : a = c ∧ b = c
            · exact Or.inl ⟨hab.1.symm, hab.2.symm, List.nil_prefix⟩
            · exact Or.inr fun hs => h ⟨hab, hs⟩

/-- The check by substring search is the check of adjacent characters. -/
theorem noPair_iff {s : List Char} :
    NoPair s ↔ Text.contains s ['{', '{'] = false ∧ Text.contains s ['}', '}'] = false := by
  rw [Text.contains_eq_false, Text.contains_eq_false, pair_infix_iff, pair_infix_iff, not_not,
    not_not]
  unfold NoPair
  rw [List.isChain_iff_forall_rel_of_append_cons_cons,
    List.isChain_iff_forall_rel_of_append_cons_cons,
    List.isChain_iff_forall_rel_of_append_cons_cons]
  constructor
  · intro h
    exact ⟨fun a b p q he => (h he).1, fun a b p q he => (h he).2⟩
  · rintro ⟨h1, h2⟩ a b p q he
    exact ⟨h1 he, h2 he⟩

/-- Literal characters that stand next to each other form no brace pair. -/
def calmNext : Piece → Piece → Prop
  | .lit a, .lit b => Pairless a b
  | _, _ => True

instance : ∀ p q : Piece, Decidable (calmNext p q)
  | .lit a, .lit b => inferInstanceAs (Decidable (Pairless a b))
  | .lit _, .mark _ => inferInstanceAs (Decidable True)
  | .mark _, _ => inferInstanceAs (Decidable True)

/-- No brace pair outside the placeholders. -/
def Calm (ps : List Piece) : Prop := ps.IsChain calmNext

instance (ps : List Piece) : Decidable (Calm ps) := by
  unfold Calm
  infer_instance

/-- A value that does not start with a brace. -/
structure Opens (v : List Char) : Prop where
  nonempty : v ≠ []
  first : ∀ c ∈ v.head?, isBrace c = false

/-- A value whose first and last characters are not braces. -/
structure Embeddable (v : List Char) : Prop extends Opens v where
  last : ∀ c ∈ v.getLast?, isBrace c = false

theorem calm_map_lit {v : List Char} : Calm (v.map Piece.lit) ↔ NoPair v :=
  List.isChain_map Piece.lit

theorem pairless_of_not_brace_left {a b : Char} (h : isBrace a = false) : Pairless a b := by
  simp only [isBrace, Bool.or_eq_false_iff, beq_eq_false_iff_ne, ne_eq] at h
  exact ⟨fun hab => h.1 hab.1, fun hab => h.2 hab.1⟩

theorem pairless_of_not_brace_right {a b : Char} (h : isBrace b = false) : Pairless a b := by
  simp only [isBrace, Bool.or_eq_false_iff, beq_eq_false_iff_ne, ne_eq] at h
  exact ⟨fun hab => h.1 hab.2, fun hab => h.2 hab.2⟩

/-- A neighbour of a value is calm with it. -/
theorem calmNext_head {v : List Char} (hv : Opens v) (p : Piece) :
    ∀ q ∈ (v.map Piece.lit).head?, calmNext p q := by
  intro q hq
  rw [List.head?_map, Option.mem_def, Option.map_eq_some_iff] at hq
  obtain ⟨c, hc, rfl⟩ := hq
  cases p with
  | lit a => exact pairless_of_not_brace_right (hv.first c hc)
  | mark n => trivial

theorem calmNext_last {v : List Char} (hv : Embeddable v) (q : Piece) :
    ∀ p ∈ (v.map Piece.lit).getLast?, calmNext p q := by
  intro p hp
  rw [List.getLast?_map, Option.mem_def, Option.map_eq_some_iff] at hp
  obtain ⟨c, hc, rfl⟩ := hp
  cases q with
  | lit a => exact pairless_of_not_brace_left (hv.last c hc)
  | mark n => trivial

/-- What may stand before some pieces may stand before what fills them. -/
theorem calmNext_fill_head {f : List Char → Option (List Char)} {ps : List Piece}
    (hf : ∀ n v, Piece.mark n ∈ ps → f n = some v → Opens v) (p : Piece) :
    (∀ q ∈ (fill f ps).head?, calmNext p q) ↔ ∀ q ∈ ps.head?, calmNext p q := by
  cases ps with
  | nil => rfl
  | cons r ps =>
      cases r with
      | lit c => rfl
      | mark n =>
          have hmark : ∀ q ∈ (Piece.mark n :: ps).head?, calmNext p q := by
            intro q hq
            rw [List.head?_cons, Option.mem_def, Option.some.injEq] at hq
            rw [← hq]
            cases p <;> trivial
          refine iff_of_true ?_ hmark
          cases hn : f n with
          | none =>
              rw [fill_cons, fillPiece, hn]
              exact hmark
          | some v =>
              have hv := hf n v List.mem_cons_self hn
              have hne : v.map Piece.lit ≠ [] := by simpa using hv.nonempty
              rw [fill_cons, fillPiece, hn]
              intro q hq
              rw [List.head?_append_of_ne_nil _ hne] at hq
              exact calmNext_head hv p q hq

/-- **Filling with pair-free values keeps pieces calm, and nothing else does.** -/
theorem calm_fill_iff {f : List Char → Option (List Char)} {ps : List Piece}
    (hf : ∀ n v, Piece.mark n ∈ ps → f n = some v → Embeddable v) :
    Calm (fill f ps) ↔
      Calm ps ∧ ∀ n v, Piece.mark n ∈ ps → f n = some v → NoPair v := by
  induction ps with
  | nil =>
      refine iff_of_true List.IsChain.nil ⟨List.IsChain.nil, ?_⟩
      intro n v hn
      exact absurd hn (by simp)
  | cons p ps ih =>
      have hf' : ∀ n v, Piece.mark n ∈ ps → f n = some v → Embeddable v :=
        fun n v hn => hf n v (List.mem_cons_of_mem p hn)
      have ih' := ih hf'
      have hhead := calmNext_fill_head (fun n v hn hv => (hf' n v hn hv).toOpens) p
      unfold Calm at ih' ⊢
      rw [fill_cons, List.isChain_cons, ← hhead]
      cases p with
      | lit c =>
          show (Piece.lit c :: fill f ps).IsChain calmNext ↔ _
          rw [List.isChain_cons, ih']
          simp only [List.mem_cons, reduceCtorEq, false_or]
          tauto
      | mark n =>
          cases hn : f n with
          | none =>
              rw [fillPiece, hn]
              show (Piece.mark n :: fill f ps).IsChain calmNext ↔ _
              rw [List.isChain_cons, ih']
              constructor
              · rintro ⟨h1, h2, h3⟩
                refine ⟨⟨h1, h2⟩, ?_⟩
                intro m v hm hv
                rcases List.mem_cons.mp hm with hm | hm
                · rw [Piece.mark.inj hm, hn] at hv
                  exact absurd hv (by simp)
                · exact h3 m v hm hv
              · rintro ⟨⟨h1, h2⟩, h3⟩
                exact ⟨h1, h2, fun m v hm => h3 m v (List.mem_cons_of_mem _ hm)⟩
          | some v =>
              have hv := hf n v List.mem_cons_self hn
              rw [fillPiece, hn]
              show (v.map Piece.lit ++ fill f ps).IsChain calmNext ↔ _
              rw [List.isChain_append, ih']
              constructor
              · rintro ⟨h1, ⟨h2, h3⟩, _⟩
                refine ⟨⟨?_, h2⟩, ?_⟩
                · intro q _
                  cases q <;> trivial
                · intro m u hm hu
                  rcases List.mem_cons.mp hm with hm | hm
                  · rw [Piece.mark.inj hm, hn, Option.some.injEq] at hu
                    rw [← hu]
                    exact calm_map_lit.mp h1
                  · exact h3 m u hm hu
              · rintro ⟨⟨_, h2⟩, h3⟩
                refine ⟨calm_map_lit.mpr (h3 n v List.mem_cons_self hn), ⟨h2, ?_⟩, ?_⟩
                · exact fun m u hm => h3 m u (List.mem_cons_of_mem _ hm)
                · intro q hq r _
                  exact calmNext_last hv r q hq

/-- Every placeholder is followed by a literal character that is not a brace. -/
def Spaced (ps : List Piece) : Prop :=
  ps.IsChain fun p q =>
    match p, q with
    | .mark _, .lit b => isBrace b = false
    | .mark _, .mark _ => False
    | .lit _, _ => True

instance (ps : List Piece) : Decidable (Spaced ps) := by
  unfold Spaced
  have hdec : DecidableRel fun p q : Piece =>
      match p, q with
      | .mark _, .lit b => isBrace b = false
      | .mark _, .mark _ => False
      | .lit _, _ => True := by
    intro p q
    cases p <;> cases q <;> infer_instance
  infer_instance

/-- In spaced pieces a value may end with a brace. -/
theorem calm_fill_of_spaced {f : List Char → Option (List Char)} {ps : List Piece}
    (hspaced : Spaced ps) (hcalm : Calm ps)
    (hf : ∀ n v, Piece.mark n ∈ ps → f n = some v → Opens v ∧ NoPair v) : Calm (fill f ps) := by
  induction ps with
  | nil => exact List.IsChain.nil
  | cons p ps ih =>
      have hf' : ∀ n v, Piece.mark n ∈ ps → f n = some v → Opens v ∧ NoPair v :=
        fun n v hn => hf n v (List.mem_cons_of_mem p hn)
      have htail := ih hspaced.tail hcalm.tail hf'
      have hhead := (calmNext_fill_head (fun n v hn hv => (hf' n v hn hv).1) p).mpr
        (List.isChain_cons.mp hcalm).1
      have hpiece : Calm (p :: fill f ps) := List.isChain_cons.mpr ⟨hhead, htail⟩
      rw [fill_cons]
      cases p with
      | lit c => exact hpiece
      | mark n =>
          cases hn : f n with
          | none =>
              rw [fillPiece, hn]
              exact hpiece
          | some v =>
              rw [fillPiece, hn]
              refine List.isChain_append.mpr
                ⟨calm_map_lit.mpr (hf n v List.mem_cons_self hn).2, htail, ?_⟩
              intro q hq r hr
              rw [List.getLast?_map, Option.mem_def, Option.map_eq_some_iff] at hq
              obtain ⟨c, _, rfl⟩ := hq
              -- the next piece is a literal that is not a brace
              cases ps with
              | nil => exact absurd hr (by simp)
              | cons d ps =>
                  have hnext := (List.isChain_cons_cons.mp hspaced).1
                  cases d with
                  | mark m => exact absurd hnext id
                  | lit b =>
                      rw [fill_cons, fillPiece, List.singleton_append, List.head?_cons,
                        Option.mem_def, Option.some.injEq] at hr
                      rw [← hr]
                      exact pairless_of_not_brace_right hnext

/-- A pair-free value may stand between any calm pieces. -/
theorem calm_insert {pre ps : List Piece} {v : List Char} (hpre : Calm pre) (hps : Calm ps)
    (hv : Embeddable v) (hpair : NoPair v) : Calm (pre ++ (v.map Piece.lit ++ ps)) := by
  have hne : v.map Piece.lit ≠ [] := by simpa using hv.nonempty
  have htail : Calm (v.map Piece.lit ++ ps) :=
    List.isChain_append.mpr ⟨calm_map_lit.mpr hpair, hps, fun p hp q _ => calmNext_last hv q p hp⟩
  refine List.isChain_append.mpr ⟨hpre, htail, ?_⟩
  intro p _ q hq
  rw [List.head?_append_of_ne_nil _ hne] at hq
  exact calmNext_head hv.toOpens p q hq

/-! ## §4. Replacing one placeholder in the text. -/

theorem name_eq_of_tag {w n s : List Char} (hw : BraceFree w) (hn : BraceFree n)
    (h : w ++ ['}', '}'] <+: n ++ '}' :: s) : w = n := by
  induction w generalizing n with
  | nil =>
      cases n with
      | nil => rfl
      | cons c n =>
          have hc := (List.cons_prefix_cons.mp h).1
          rw [← hc] at hn
          exact absurd (hn '}' List.mem_cons_self) (by decide)
  | cons d w ih =>
      cases n with
      | nil =>
          have hc := (List.cons_prefix_cons.mp h).1
          rw [hc] at hw
          exact absurd (hw '}' List.mem_cons_self) (by decide)
      | cons c n =>
          obtain ⟨rfl, htail⟩ := List.cons_prefix_cons.mp h
          rw [ih (fun e he => hw e (List.mem_cons_of_mem d he))
            (fun e he => hn e (List.mem_cons_of_mem d he)) htail]

/-- No placeholder starts with two braces of which the second opens another. -/
theorem not_prefix_of_third_brace {w s : List Char} (hw : BraceFree w) :
    ¬ placeholder w <+: '{' :: '{' :: '{' :: s := by
  intro h
  have h2 := (List.cons_prefix_cons.mp (List.cons_prefix_cons.mp h).2).2
  cases w with
  | nil => exact absurd (List.cons_prefix_cons.mp h2).1 (by decide)
  | cons c w =>
      have hc := (List.cons_prefix_cons.mp h2).1
      rw [hc] at hw
      exact absurd (hw '{' List.mem_cons_self) (by decide)

theorem not_prefix_lit {w : List Char} {c : Char} {ps : List Piece} (hw : BraceFree w)
    (h : Calm (.lit c :: ps)) : ¬ placeholder w <+: c :: text ps := by
  intro hp
  obtain ⟨hc, hp⟩ := List.cons_prefix_cons.mp hp
  cases ps with
  | nil => exact absurd (List.eq_nil_of_prefix_nil hp) (by simp)
  | cons p ps =>
      cases p with
      | lit d =>
          have hd := (List.cons_prefix_cons.mp hp).1
          have hne : Pairless c d := (List.isChain_cons_cons.mp h).1
          exact hne.1 ⟨hc.symm, hd.symm⟩
      | mark n =>
          exact not_prefix_of_third_brace hw (List.cons_prefix_cons.mpr ⟨rfl, hp⟩)

/-- Characters other than an opening brace start no placeholder. -/
theorem replace_skip (w v : List Char) {u : List Char} (s : List Char)
    (hu : ∀ c ∈ u, c ≠ '{') :
    Text.replace (placeholder w) v (u ++ s) = u ++ Text.replace (placeholder w) v s := by
  induction u with
  | nil => rfl
  | cons c u ih =>
      have hne : ¬ placeholder w <+: c :: (u ++ s) := by
        intro hp
        exact hu c List.mem_cons_self (List.cons_prefix_cons.mp hp).1.symm
      rw [List.cons_append, Text.replace_cons_of_ne v hne,
        ih fun d hd => hu d (List.mem_cons_of_mem c hd), List.cons_append]

theorem replace_other_mark {w n : List Char} (v s : List Char) (hw : BraceFree w)
    (hn : BraceFree n) (hne : w ≠ n) :
    Text.replace (placeholder w) v (placeholder n ++ s)
      = placeholder n ++ Text.replace (placeholder w) v s := by
  have hbody : ∀ c ∈ n ++ ['}', '}'], c ≠ '{' := by
    intro c hc
    rcases List.mem_append.mp hc with hc | hc
    · intro he
      rw [he] at hc
      exact absurd (hn '{' hc) (by decide)
    · simp only [List.mem_cons, List.not_mem_nil, or_false, or_self] at hc
      rw [hc]
      decide
  have h0 : ¬ placeholder w <+: '{' :: '{' :: ((n ++ ['}', '}']) ++ s) := by
    intro hp
    have hp2 := (List.cons_prefix_cons.mp (List.cons_prefix_cons.mp hp).2).2
    rw [List.append_assoc] at hp2
    exact hne (name_eq_of_tag hw hn hp2)
  have h1 : ¬ placeholder w <+: '{' :: ((n ++ ['}', '}']) ++ s) := by
    intro hp
    have hp1 := (List.cons_prefix_cons.mp hp).2
    cases n with
    | nil => exact absurd (List.cons_prefix_cons.mp hp1).1 (by decide)
    | cons c n =>
        exact hbody c List.mem_cons_self (List.cons_prefix_cons.mp hp1).1.symm
  show Text.replace (placeholder w) v ('{' :: '{' :: ((n ++ ['}', '}']) ++ s)) = _
  rw [Text.replace_cons_of_ne v h0, Text.replace_cons_of_ne v h1, replace_skip w v s hbody]
  rfl

/-- **On calm pieces, replacing a placeholder in the text is filling its name.** -/
theorem replace_placeholder {w : List Char} (v : List Char) {ps : List Piece} (hw : BraceFree w)
    (hcalm : Calm ps) (hps : ∀ n, Piece.mark n ∈ ps → BraceFree n) :
    Text.replace (placeholder w) v (text ps) = text (fill (single w v) ps) := by
  induction ps with
  | nil => rfl
  | cons p ps ih =>
      have ih' := ih hcalm.tail fun n hn => hps n (List.mem_cons_of_mem p hn)
      cases p with
      | lit c =>
          rw [text_cons, fill_cons, text_append, ← ih']
          exact Text.replace_cons_of_ne v (not_prefix_lit hw hcalm)
      | mark n =>
          rw [text_cons, fill_cons, text_append, ← ih']
          by_cases hwn : n = w
          · subst hwn
            simp only [fillPiece, single, if_true, text_map_lit]
            exact Text.replace_pat_append (by simp [placeholder]) v _
          · simp only [fillPiece, single, if_neg hwn]
            show _ = (placeholder n ++ []) ++ _
            rw [List.append_nil]
            exact replace_other_mark v _ hw (hps n List.mem_cons_self) (Ne.symm hwn)

/-! ## §5. Replacing several placeholders, one after the other. -/

/-- Each name in turn is replaced by its value in the whole text. -/
def replaceAll (es : List (List Char × List Char)) (t : List Char) : List Char :=
  es.foldl (fun t e => Text.replace (placeholder e.1) e.2 t) t

/-- Every filling with some of the values leaves calm pieces. -/
def StaysCalm (es : List (List Char × List Char)) (ps : List Piece) : Prop :=
  ∀ f : List Char → Option (List Char), (∀ n v, f n = some v → (n, v) ∈ es) → Calm (fill f ps)

theorem foldl_replace_fill {all es : List (List Char × List Char)} {ps : List Piece}
    (hcalm : StaysCalm all ps) (hps : ∀ n, Piece.mark n ∈ ps → BraceFree n)
    (hes : ∀ e ∈ es, e ∈ all ∧ BraceFree e.1) (f : List Char → Option (List Char))
    (hf : ∀ n v, f n = some v → (n, v) ∈ all) :
    es.foldl (fun t e => Text.replace (placeholder e.1) e.2 t) (text (fill f ps))
      = text (fill (fun n => (f n).or (es.lookup n)) ps) := by
  induction es generalizing f with
  | nil =>
      show text (fill f ps) = _
      congr 1
      exact fill_congr fun n _ => (Option.or_none).symm
  | cons e es ih =>
      obtain ⟨hmem, hbrace⟩ := hes e List.mem_cons_self
      -- one more name is known; the values still come from `all`
      have hf' : ∀ n v, (f n).or (single e.1 e.2 n) = some v → (n, v) ∈ all := by
        intro n v hv
        rcases Option.or_eq_some_iff.mp hv with hv | ⟨_, hv⟩
        · exact hf n v hv
        · unfold single at hv
          split at hv
          next hn =>
            rw [hn, ← Option.some.inj hv]
            exact hmem
          next => exact absurd hv (by simp)
      have hstep := replace_placeholder e.2 hbrace (hcalm f hf)
        fun n hn => hps n (mem_fill_mark hn).1
      rw [List.foldl_cons, hstep, fill_fill,
        ih (fun d hd => hes d (List.mem_cons_of_mem e hd)) _ hf']
      congr 1
      refine fill_congr ?_
      intro n _
      rw [List.lookup_cons, Option.or_assoc]
      unfold single
      by_cases hn : n = e.1
      · simp [hn]
      · simp [hn, beq_false_of_ne hn]

/-- **Replacing the names one after the other is one filling, when every partial
filling stays calm.** -/
theorem replaceAll_text {es : List (List Char × List Char)} {ps : List Piece}
    (hcalm : StaysCalm es ps) (hps : ∀ n, Piece.mark n ∈ ps → BraceFree n)
    (hes : ∀ e ∈ es, BraceFree e.1) :
    replaceAll es (text ps) = text (fill (fun n => es.lookup n) ps) := by
  have hnone : fill (fun _ => none) ps = ps := by
    induction ps with
    | nil => rfl
    | cons p ps ih =>
        rw [fill_cons, ih (fun f hf => (hcalm f hf).right_of_append)
          fun n hn => hps n (List.mem_cons_of_mem p hn)]
        cases p <;> rfl
  have h := foldl_replace_fill hcalm hps (fun e he => ⟨he, hes e he⟩) (fun _ => none)
    (fun n v hv => absurd hv (by simp))
  rw [hnone] at h
  exact h

/-! ## §6. When a filled template is free of brace pairs. -/

theorem lits_of_no_mark {ps : List Piece} (h : ∀ n, Piece.mark n ∉ ps) :
    ps = (text ps).map Piece.lit := by
  induction ps with
  | nil => rfl
  | cons p ps ih =>
      have ih' := ih fun n hn => h n (List.mem_cons_of_mem p hn)
      cases p with
      | lit c =>
          show _ = Piece.lit c :: (text ps).map Piece.lit
          rw [← ih']
      | mark n => exact absurd List.mem_cons_self (h n)

theorem noPair_text_iff {ps : List Piece} :
    NoPair (text ps) ↔ (∀ n, Piece.mark n ∉ ps) ∧ Calm ps := by
  constructor
  · intro h
    have hmark : ∀ n, Piece.mark n ∉ ps := by
      intro n hn
      obtain ⟨pre, post, rfl⟩ := List.append_of_mem hn
      have hpair := (noPair_iff.mp h).1
      rw [Text.contains_eq_false] at hpair
      apply hpair
      rw [text_append, text_cons]
      exact ⟨text pre, n ++ ['}', '}'] ++ text post, by simp [spell, placeholder]⟩
    refine ⟨hmark, ?_⟩
    rw [lits_of_no_mark hmark]
    exact calm_map_lit.mpr h
  · rintro ⟨hmark, hcalm⟩
    rw [lits_of_no_mark hmark] at hcalm
    exact calm_map_lit.mp hcalm

/-- A value used by a pair-free filling is pair-free. -/
theorem noPair_of_fill {f : List Char → Option (List Char)} {ps : List Piece}
    (h : NoPair (text (fill f ps))) {n v : List Char} (hn : Piece.mark n ∈ ps)
    (hv : f n = some v) : NoPair v := by
  obtain ⟨pre, post, rfl⟩ := List.append_of_mem hn
  rw [fill_append, fill_cons, text_append, text_append, fillPiece, hv] at h
  have hmid := h.right_of_append.left_of_append
  simp only [text_map_lit] at hmid
  exact hmid

/-- **A filled template has no brace pair exactly when every placeholder has a
value, no value has a brace pair, and neither has the text between them.** -/
theorem noPair_text_fill_iff {f : List Char → Option (List Char)} {ps : List Piece}
    (hf : ∀ n v, Piece.mark n ∈ ps → f n = some v → Embeddable v) :
    NoPair (text (fill f ps)) ↔
      Calm ps ∧ ∀ n, Piece.mark n ∈ ps → ∃ v, f n = some v ∧ NoPair v := by
  rw [noPair_text_iff, calm_fill_iff hf]
  constructor
  · rintro ⟨hmark, hcalm, hval⟩
    refine ⟨hcalm, ?_⟩
    intro n hn
    cases hv : f n with
    | some v => exact ⟨v, rfl, hval n v hn hv⟩
    | none =>
        refine absurd (List.mem_flatMap.mpr ⟨_, hn, ?_⟩) (hmark n)
        rw [fillPiece, hv]
        exact List.mem_singleton_self _
  · rintro ⟨hcalm, hval⟩
    refine ⟨?_, hcalm, ?_⟩
    · intro n hn
      obtain ⟨hmem, hnone⟩ := mem_fill_mark hn
      obtain ⟨v, hv, _⟩ := hval n hmem
      rw [hnone] at hv
      exact absurd hv (by simp)
    · intro n v hn hv
      obtain ⟨u, hu, hnp⟩ := hval n hn
      rw [hv, Option.some.injEq] at hu
      rw [hu]
      exact hnp

end QingzhouSSH.Lib.Template
