/-
  QingzhouSSH.Lib.ShellTemplate — holes in a shell command.

  A template is filled with unquoted values and the result is read by the shell.
  If every hole stands outside quotes, then each value reads as one word exactly
  when it has no character special to the shell: the lexer state at a hole does
  not depend on the values before it as long as those read as words.

  Main result: `holesRead_iff`.
-/
import QingzhouSSH.Lib.Shell
import QingzhouSSH.Lib.Template

namespace QingzhouSSH.Lib.ShellTemplate

open QingzhouSSH.Lib.Shell (LexState ReadsAs PlainStart Plain scan step)
open QingzhouSSH.Lib.Template (Piece text fill)

/-! ## §1. Reading a filled template. -/

/-- From `s`, the value at every hole reads as itself. -/
def HolesRead (f : List Char → Option (List Char)) : LexState → List Piece → Prop
  | _, [] => True
  | s, .lit c :: ps => HolesRead f (step s c).1 ps
  | s, .mark n :: ps => ∃ v, f n = some v ∧ ReadsAs s v v ∧ HolesRead f s.inside ps

/-- Every hole stands outside quotes, escapes and comments, if the values before
it read as words. -/
def holesBare : LexState → List Piece → Bool
  | _, [] => true
  | s, .lit c :: ps => holesBare (step s c).1 ps
  | s, .mark _ :: ps =>
      s.quote == .bare && !s.escaped && !s.comment && holesBare s.inside ps

theorem holesBare_mark {s : LexState} {n : List Char} {ps : List Piece}
    (h : holesBare s (.mark n :: ps) = true) : s.Bare ∧ holesBare s.inside ps = true := by
  simp only [holesBare, Bool.and_eq_true, beq_iff_eq, Bool.not_eq_true'] at h
  exact ⟨⟨h.1.1.1, h.1.1.2, h.1.2⟩, h.2⟩

/-- **In bare holes the values read as themselves exactly when they are plain.** -/
theorem holesRead_iff {f : List Char → Option (List Char)} {s : LexState} {ps : List Piece}
    (hbare : holesBare s ps = true)
    (hf : ∀ n v, Piece.mark n ∈ ps → f n = some v → v ≠ [] ∧ PlainStart v) :
    HolesRead f s ps ↔ ∀ n, Piece.mark n ∈ ps → ∃ v, f n = some v ∧ Plain v := by
  induction ps generalizing s with
  | nil =>
      refine iff_of_true trivial ?_
      intro n hn
      exact absurd hn (by simp)
  | cons p ps ih =>
      have hf' : ∀ n v, Piece.mark n ∈ ps → f n = some v → v ≠ [] ∧ PlainStart v :=
        fun n v hn => hf n v (List.mem_cons_of_mem p hn)
      cases p with
      | lit c =>
          have h := ih (s := (step s c).1) hbare hf'
          simp only [HolesRead, List.mem_cons, reduceCtorEq, false_or]
          exact h
      | mark m =>
          obtain ⟨hs, hrest⟩ := holesBare_mark hbare
          have h := ih hrest hf'
          constructor
          · rintro ⟨v, hv, hread, htail⟩ n hn
            rcases List.mem_cons.mp hn with hn | hn
            · obtain ⟨hne, hstart⟩ := hf m v List.mem_cons_self hv
              rw [Piece.mark.inj hn]
              exact ⟨v, hv, (Shell.readsAs_self_iff hs hne hstart).mp hread⟩
            · exact h.mp htail n hn
          · intro hall
            obtain ⟨v, hv, hplain⟩ := hall m List.mem_cons_self
            obtain ⟨hne, hstart⟩ := hf m v List.mem_cons_self hv
            exact ⟨v, hv, (Shell.readsAs_self_iff hs hne hstart).mpr hplain,
              h.mpr fun n hn => hall n (List.mem_cons_of_mem _ hn)⟩

/-! ## §2. The same, at a position of the filled text. -/

theorem scan_fill_lit (f : List Char → Option (List Char)) (s : LexState) (c : Char)
    (ps : List Piece) :
    (scan s (text (fill f (.lit c :: ps)))).1 = (scan (step s c).1 (text (fill f ps))).1 := rfl

theorem scan_fill_mark {f : List Char → Option (List Char)} {s : LexState} {n v : List Char}
    {ps : List Piece} (hv : f n = some v) (hread : ReadsAs s v v) :
    (scan s (text (fill f (.mark n :: ps)))).1 = (scan s.inside (text (fill f ps))).1 := by
  rw [Template.fill_cons, Template.text_append, Template.fillPiece, hv]
  simp only [Template.text_map_lit]
  rw [Shell.scan_append, hread.context]

/-- Reading hole after hole is reading at every split of the pieces. -/
theorem holesRead_iff_split {f : List Char → Option (List Char)} {s : LexState}
    {ps : List Piece} :
    HolesRead f s ps ↔ ∀ pre n post, ps = pre ++ .mark n :: post →
      ∃ v, f n = some v ∧ ReadsAs (scan s (text (fill f pre))).1 v v := by
  induction ps generalizing s with
  | nil =>
      refine iff_of_true trivial ?_
      intro pre n post h
      exact absurd h (by simp)
  | cons p ps ih =>
      cases p with
      | lit c =>
          show HolesRead f (step s c).1 ps ↔ _
          rw [ih]
          constructor
          · intro h pre n post hsplit
            cases pre with
            | nil => exact absurd (List.cons.inj hsplit).1 (by simp)
            | cons q pre =>
                obtain ⟨hq, hrest⟩ := List.cons.inj hsplit
                rw [← hq, scan_fill_lit]
                exact h pre n post hrest
          · intro h pre n post hsplit
            have hcons := h (.lit c :: pre) n post (by rw [hsplit]; rfl)
            rw [scan_fill_lit] at hcons
            exact hcons
      | mark m =>
          constructor
          · rintro ⟨v, hv, hread, htail⟩ pre n post hsplit
            cases pre with
            | nil =>
                rw [← Piece.mark.inj (List.cons.inj hsplit).1]
                exact ⟨v, hv, hread⟩
            | cons q pre =>
                obtain ⟨hq, hrest⟩ := List.cons.inj hsplit
                rw [← hq, scan_fill_mark hv hread]
                exact ih.mp htail pre n post hrest
          · intro h
            obtain ⟨v, hv, hread0⟩ := h [] m ps rfl
            have hread : ReadsAs s v v := hread0
            refine ⟨v, hv, hread, ih.mpr ?_⟩
            intro pre n post hsplit
            have hcons := h (.mark m :: pre) n post (by rw [hsplit]; rfl)
            rw [scan_fill_mark hv hread] at hcons
            exact hcons

end QingzhouSSH.Lib.ShellTemplate
