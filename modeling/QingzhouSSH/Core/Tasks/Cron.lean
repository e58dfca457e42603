/-
  QingzhouSSH.Core.Tasks.Cron — the schedules that `is_cron_expression` lets through.

  A schedule is one line of five fields, and a field is a comma list of `*`, `n` or `n-m`, each
  with an optional `/step`.  The check reads the numbers with `str::parse`, takes a range end
  that it cannot read for an absent one, and splits the fields at any whitespace.

  Main results:
    * `isCronPart_iff`, `isCronExpression_iff` — the grammar that the check reads;
    * `CronLine.read` — a standard schedule is accepted;
    * `cron_exact_iff` — the check and the standard grammar part exactly where an accepted
      value has a sign, an unreadable range end or whitespace that is not a blank.
-/
import Mathlib.Data.List.Forall2
import QingzhouSSH.Core.Tasks.Parameters
import QingzhouSSH.Lib.Digits
import QingzhouSSH.Lib.Splitting

namespace QingzhouSSH.Core.Tasks

open QingzhouSSH.Lib
open QingzhouSSH.Lib.Digits
open QingzhouSSH.Lib.Net (parseUnsigned)
open QingzhouSSH.Lib.Splitting

/-! ## §1. The grammar. -/

/-- The lexical choices of the grammar. -/
structure CronLexis where
  /-- The texts that are a number. -/
  number : Text → Nat → Prop
  /-- The texts that may stand for a range end without being one. -/
  noEnd : Text → Prop
  /-- The characters between two fields. -/
  blank : Char → Bool

/-- An item without its step. -/
inductive CronBase (lexis : CronLexis) (min max : Nat) : Text → Prop
  | every : CronBase lexis min max ['*']
  | one {s : Text} {n : Nat} (number : lexis.number s n) (lower : min ≤ n) (upper : n ≤ max) :
      CronBase lexis min max s
  | range {s t : Text} {n m : Nat} (first : lexis.number s n) (last : lexis.number t m)
      (lower : min ≤ n) (ordered : n ≤ m) (upper : m ≤ max) :
      CronBase lexis min max (s ++ '-' :: t)
  | endless {s t : Text} {n : Nat} (first : lexis.number s n) (noEnd : lexis.noEnd t)
      (lower : min ≤ n) (upper : n ≤ max) :
      CronBase lexis min max (s ++ '-' :: t)

inductive CronItem (lexis : CronLexis) (min max : Nat) : Text → Prop
  | plain {s : Text} (base : CronBase lexis min max s) : CronItem lexis min max s
  | stepped {s t : Text} {n : Nat} (base : CronBase lexis min max s) (step : lexis.number t n)
      (positive : 1 ≤ n) (upper : n ≤ max) :
      CronItem lexis min max (s ++ '/' :: t)

/-- A comma list of items. -/
def CronField (lexis : CronLexis) (min max : Nat) (field : Text) : Prop :=
  ∀ part ∈ field.splitOn ',', CronItem lexis min max part

/-- Five fields, each within its bounds. -/
def CronLine (lexis : CronLexis) (value : Text) : Prop :=
  List.Forall₂ (fun field bounds => CronField lexis bounds.1 bounds.2 field)
    (words lexis.blank value) cronBounds

def isBlank (c : Char) : Bool := c == ' ' || c == '\t'

/-- The standard grammar: plain digits, a number at both ends of a range, blanks. -/
def standardCron : CronLexis where
  number := Decimal
  noEnd := fun _ => False
  blank := isBlank

/-- A text behind the hyphen that is no number of eight bits. -/
def Unreadable (s : Text) : Prop := '/' ∉ s ∧ '-' ∉ s ∧ ∀ n, Signed s n → 256 ≤ n

/-- The grammar that the check reads. -/
def readCron : CronLexis where
  number := Signed
  noEnd := Unreadable
  blank := isWhitespace

/-! ## §2. The check reads its grammar. -/

/-- The check of an item without its step. -/
def isCronBase (base : Text) (min max : Nat) : Bool :=
  if base == ['*'] then true
  else match base.splitOn '-' with
    | start :: rest =>
        match parseUnsigned 256 start with
        | none => false
        | some first =>
            if 2 ≤ rest.length || !(min ≤ first && first ≤ max) then false
            else match rest.head?.bind (parseUnsigned 256) with
              | none => true
              | some last => first ≤ last && last ≤ max
    | [] => false

def isCronStep (step : Text) (max : Nat) : Bool :=
  match parseUnsigned 256 step with
  | some n => n != 0 && n ≤ max
  | none => false

theorem isCronStep_iff {step : Text} {max : Nat} :
    isCronStep step max = true ↔ ∃ n, parseUnsigned 256 step = some n ∧ 1 ≤ n ∧ n ≤ max := by
  unfold isCronStep
  cases hstep : parseUnsigned 256 step with
  | none => simp
  | some n =>
      simp only [Bool.and_eq_true, bne_iff_ne, decide_eq_true_eq, Option.some.injEq]
      constructor
      · rintro ⟨hpositive, hupper⟩
        exact ⟨n, rfl, by omega, hupper⟩
      · rintro ⟨_, rfl, hpositive, hupper⟩
        exact ⟨by omega, hupper⟩

theorem isCronPart_single {part base : Text} {min max : Nat} (h : part.splitOn '/' = [base]) :
    isCronPart part min max = (!part.isEmpty && isCronBase base min max) := by
  unfold isCronPart
  rw [h]
  cases part <;> rfl

theorem isCronPart_pair {part base step : Text} {min max : Nat}
    (h : part.splitOn '/' = [base, step]) :
    isCronPart part min max
      = (!part.isEmpty && isCronStep step max && isCronBase base min max) := by
  unfold isCronPart
  rw [h]
  show (if (part.isEmpty || !isCronStep step max) = true then false else isCronBase base min max) = _
  cases part.isEmpty
  · cases isCronStep step max <;> rfl
  · rfl

theorem isCronPart_many {part base step more : Text} {steps : List Text} {min max : Nat}
    (h : part.splitOn '/' = base :: step :: more :: steps) : isCronPart part min max = false := by
  unfold isCronPart
  rw [h]
  cases part <;> rfl

theorem CronBase.ne_nil {min max : Nat} {s : Text} (h : CronBase readCron min max s) : s ≠ [] := by
  cases h with
  | every => exact List.cons_ne_nil _ _
  | one number => exact Signed.ne_nil number
  | range first => simp
  | endless first => simp

theorem CronItem.ne_nil {min max : Nat} {s : Text} (h : CronItem readCron min max s) : s ≠ [] := by
  cases h with
  | plain base => exact base.ne_nil
  | stepped base => simp

/-- An item is parted from its step at the only slash. -/
theorem CronBase.not_slash {min max : Nat} {s : Text} (h : CronBase readCron min max s) :
    '/' ∉ s := by
  have hnumber : ∀ {s : Text} {n : Nat}, Signed s n → '/' ∉ s := fun hn =>
    hn.not_mem (by decide) (by decide)
  cases h with
  | every => decide
  | one number => exact hnumber number
  | range first last => simp [hnumber first, hnumber last]
  | endless first noEnd => simp [hnumber first, noEnd.1]

/-- **The check reads an item without its step as the grammar does.** -/
theorem isCronBase_iff {base : Text} {min max : Nat} (hmax : max < 256) (hslash : '/' ∉ base) :
    isCronBase base min max = true ↔ CronBase readCron min max base := by
  have hnumber : ∀ {s : Text} {n : Nat}, Signed s n → '-' ∉ s ∧ s ≠ ['*'] := by
    intro s n hn
    refine ⟨hn.not_mem (by decide) (by decide), ?_⟩
    rintro rfl
    exact hn.not_mem (c := '*') (by decide) (by decide) List.mem_cons_self
  have hrange : ∀ {s t : Text}, s ++ '-' :: t ≠ ['*'] := by
    intro s t heq
    have hmem : '-' ∈ ['*'] := heq ▸ List.mem_append_right s List.mem_cons_self
    exact absurd hmem (by decide)
  constructor
  · intro h
    unfold isCronBase at h
    by_cases hevery : base = ['*']
    · rw [hevery]
      exact .every
    · rw [if_neg (by simpa using hevery)] at h
      cases hparts : base.splitOn '-' with
      | nil => exact absurd hparts (List.splitOn_ne_nil _ _)
      | cons start rest =>
          rw [hparts] at h
          dsimp only at h
          cases hstart : parseUnsigned 256 start with
          | none =>
              rw [hstart] at h
              cases h
          | some first =>
              rw [hstart] at h
              dsimp only at h
              obtain ⟨hfirst, -⟩ := parseUnsigned_eq_some_iff.mp hstart
              split at h
              next => cases h
              next hguard =>
                simp only [Bool.or_eq_true, decide_eq_true_eq, Bool.not_eq_true', not_or,
                  Bool.not_eq_false, Bool.and_eq_true] at hguard
                obtain ⟨hshort, hlower, hupper⟩ := hguard
                cases rest with
                | nil =>
                    obtain ⟨rfl, -⟩ := splitOn_eq_single_iff.mp hparts
                    exact .one hfirst hlower hupper
                | cons last more =>
                    obtain rfl : more = [] := by
                      cases more with
                      | nil => rfl
                      | cons _ _ => exact absurd hshort (by simp)
                    obtain ⟨rfl, -, hhyphen⟩ := splitOn_eq_pair_iff.mp hparts
                    dsimp only [List.head?_cons, Option.bind_some] at h
                    cases hlast : parseUnsigned 256 last with
                    | none =>
                        refine .endless hfirst ⟨?_, hhyphen, parseUnsigned_eq_none_iff.mp hlast⟩
                          hlower hupper
                        exact fun hmem => hslash (by simp [hmem])
                    | some m =>
                        rw [hlast] at h
                        simp only [Bool.and_eq_true, decide_eq_true_eq] at h
                        obtain ⟨hm, -⟩ := parseUnsigned_eq_some_iff.mp hlast
                        exact .range hfirst hm hlower h.1 h.2
  · intro h
    unfold isCronBase
    cases h with
    | every => rfl
    | one number lower upper =>
        have hparse := parseUnsigned_eq_some_iff.mpr ⟨number, lt_of_le_of_lt upper hmax⟩
        rw [if_neg (by simpa using (hnumber number).2),
          splitOn_eq_single_iff.mpr ⟨rfl, (hnumber number).1⟩]
        simp [hparse, lower, upper]
    | range first last lower ordered upper =>
        have hfirst := parseUnsigned_eq_some_iff.mpr
          ⟨first, lt_of_le_of_lt (le_trans ordered upper) hmax⟩
        have hlast := parseUnsigned_eq_some_iff.mpr ⟨last, lt_of_le_of_lt upper hmax⟩
        rw [if_neg (by simpa using hrange),
          splitOn_eq_pair_iff.mpr ⟨rfl, (hnumber first).1, (hnumber last).1⟩]
        simp [hfirst, hlast, lower, ordered, upper, le_trans ordered upper]
    | endless first noEnd lower upper =>
        have hfirst := parseUnsigned_eq_some_iff.mpr ⟨first, lt_of_le_of_lt upper hmax⟩
        have hlast := parseUnsigned_eq_none_iff.mpr noEnd.2.2
        rw [if_neg (by simpa using hrange),
          splitOn_eq_pair_iff.mpr ⟨rfl, (hnumber first).1, noEnd.2.1⟩]
        simp [hfirst, hlast, lower, upper]

/-- **The check reads an item as the grammar does.** -/
theorem isCronPart_iff {part : Text} {min max : Nat} (hmax : max < 256) :
    isCronPart part min max = true ↔ CronItem readCron min max part := by
  constructor
  · intro h
    cases hparts : part.splitOn '/' with
    | nil => exact absurd hparts (List.splitOn_ne_nil _ _)
    | cons base steps =>
        cases steps with
        | nil =>
            rw [isCronPart_single hparts, Bool.and_eq_true] at h
            obtain ⟨rfl, hslash⟩ := splitOn_eq_single_iff.mp hparts
            exact .plain ((isCronBase_iff hmax hslash).mp h.2)
        | cons step steps =>
            cases steps with
            | nil =>
                rw [isCronPart_pair hparts, Bool.and_eq_true, Bool.and_eq_true] at h
                obtain ⟨⟨-, hstep⟩, hbase⟩ := h
                obtain ⟨n, hstep, hpositive, hupper⟩ := isCronStep_iff.mp hstep
                obtain ⟨rfl, hslash, -⟩ := splitOn_eq_pair_iff.mp hparts
                exact .stepped ((isCronBase_iff hmax hslash).mp hbase)
                  (parseUnsigned_eq_some_iff.mp hstep).1 hpositive hupper
            | cons more steps =>
                rw [isCronPart_many hparts] at h
                cases h
  · intro h
    cases h with
    | plain base =>
        rw [isCronPart_single (splitOn_eq_single_iff.mpr ⟨rfl, base.not_slash⟩),
          (isCronBase_iff hmax base.not_slash).mpr base]
        simp [base.ne_nil]
    | stepped base step positive upper =>
        have hparse := parseUnsigned_eq_some_iff.mpr ⟨step, lt_of_le_of_lt upper hmax⟩
        rw [isCronPart_pair (splitOn_eq_pair_iff.mpr
            ⟨rfl, base.not_slash, Signed.not_mem step (by decide) (by decide)⟩),
          (isCronBase_iff hmax base.not_slash).mpr base,
          isCronStep_iff.mpr ⟨_, hparse, positive, upper⟩]
        simp

theorem isCronField_iff {field : Text} {min max : Nat} (hmax : max < 256) :
    isCronField field min max = true ↔ CronField readCron min max field := by
  unfold isCronField CronField
  rw [Bool.and_eq_true, List.all_eq_true]
  constructor
  · intro h part hpart
    exact (isCronPart_iff hmax).mp (h.2 part hpart)
  · intro h
    refine ⟨?_, fun part hpart => (isCronPart_iff hmax).mpr (h part hpart)⟩
    -- an empty field has one part, and that is no item
    cases field with
    | nil => exact absurd rfl (h [] (by simp)).ne_nil
    | cons c field => rfl

/-- The numbers of every field have eight bits. -/
theorem cronBounds_lt {bounds : Nat × Nat} (h : bounds ∈ cronBounds) : bounds.2 < 256 := by
  have hall : ∀ bounds ∈ cronBounds, bounds.2 < 256 := by decide
  exact hall bounds h

/-- **The check accepts the lines of its grammar.** -/
theorem isCronExpression_iff {value : Text} :
    isCronExpression value = true ↔ CronLine readCron value := by
  unfold isCronExpression CronLine
  rw [List.forall₂_iff_zip, Bool.and_eq_true, beq_iff_eq, List.all_eq_true]
  refine and_congr_right fun _ => ?_
  constructor
  · intro h field bounds hmem
    exact (isCronField_iff (cronBounds_lt (List.of_mem_zip hmem).2)).mp (h _ hmem)
  · rintro h ⟨field, bounds⟩ hmem
    exact (isCronField_iff (cronBounds_lt (List.of_mem_zip hmem).2)).mpr (h hmem)

/-! ## §3. The standard grammar. -/

theorem CronBase.read {min max : Nat} {s : Text} (h : CronBase standardCron min max s) :
    CronBase readCron min max s := by
  cases h with
  | every => exact .every
  | one number lower upper => exact .one (.inl number) lower upper
  | range first last lower ordered upper =>
      exact .range (.inl first) (.inl last) lower ordered upper
  | endless first noEnd => exact absurd noEnd id

theorem CronItem.read {min max : Nat} {s : Text} (h : CronItem standardCron min max s) :
    CronItem readCron min max s := by
  cases h with
  | plain base => exact .plain base.read
  | stepped base step positive upper => exact .stepped base.read (.inl step) positive upper

/-- The characters of a standard field. -/
def isCronChar (c : Char) : Bool := c.isDigit || c == '*' || c == '-' || c == '/' || c == ','

theorem not_whitespace_of_cronChar {c : Char} (h : isCronChar c = true) :
    isWhitespace c = false := by
  have hcode : 42 ≤ c.toNat ∧ c.toNat ≤ 57 := by
    simp only [isCronChar, Char.isDigit, Bool.or_eq_true, Bool.and_eq_true, decide_eq_true_eq,
      beq_iff_eq] at h
    rcases h with (((⟨hlower, hupper⟩ | rfl) | rfl) | rfl) | rfl
    · have h48 : 48 ≤ c.toNat := hlower
      have h57 : c.toNat ≤ 57 := hupper
      omega
    all_goals decide
  unfold isWhitespace
  simp only [Bool.or_eq_false_iff, Bool.and_eq_false_iff, decide_eq_false_iff_not, beq_eq_false_iff_ne]
  omega

theorem isWhitespace_of_blank {c : Char} (h : isBlank c = true) : isWhitespace c = true := by
  simp only [isBlank, Bool.or_eq_true, beq_iff_eq] at h
  rcases h with rfl | rfl <;> decide

theorem Decimal.cronChars {s : Text} {n : Nat} (h : Decimal s n) :
    ∀ c ∈ s, isCronChar c = true := by
  intro c hc
  unfold isCronChar
  rw [h.2.1 c hc]
  rfl

theorem CronBase.cronChars {min max : Nat} {s : Text} (h : CronBase standardCron min max s) :
    ∀ c ∈ s, isCronChar c = true := by
  cases h with
  | every => decide
  | one number => exact Decimal.cronChars number
  | range first last =>
      intro c hc
      rcases List.mem_append.mp hc with hc | hc
      · exact Decimal.cronChars first c hc
      · rcases List.mem_cons.mp hc with rfl | hc
        · rfl
        · exact Decimal.cronChars last c hc
  | endless first noEnd => exact absurd noEnd id

theorem CronItem.cronChars {min max : Nat} {s : Text} (h : CronItem standardCron min max s) :
    ∀ c ∈ s, isCronChar c = true := by
  cases h with
  | plain base => exact base.cronChars
  | stepped base step =>
      intro c hc
      rcases List.mem_append.mp hc with hc | hc
      · exact base.cronChars c hc
      · rcases List.mem_cons.mp hc with rfl | hc
        · rfl
        · exact Decimal.cronChars step c hc

theorem CronField.cronChars {min max : Nat} {field : Text}
    (h : CronField standardCron min max field) : ∀ c ∈ field, isCronChar c = true := by
  intro c hc
  by_cases hcomma : c = ','
  · rw [hcomma]
    rfl
  · obtain ⟨part, hpart, hmem⟩ := mem_splitOnP (p := (· == ',')) hc (by simpa using hcomma)
    exact (h part (by rwa [List.splitOn_eq_splitOnP])).cronChars c hmem

/-- Every field of a line has its bounds. -/
theorem CronLine.field {lexis : CronLexis} {value field : Text} (h : CronLine lexis value)
    (hfield : field ∈ words lexis.blank value) :
    ∃ bounds ∈ cronBounds, CronField lexis bounds.1 bounds.2 field := by
  unfold CronLine at h
  generalize words lexis.blank value = fields at h hfield
  generalize cronBounds = every at h ⊢
  induction h with
  | nil => exact absurd hfield List.not_mem_nil
  | cons hhead _ ih =>
      rcases List.mem_cons.mp hfield with rfl | hfield
      · exact ⟨_, List.mem_cons_self, hhead⟩
      · obtain ⟨bounds, hbounds, hin⟩ := ih hfield
        exact ⟨bounds, List.mem_cons_of_mem _ hbounds, hin⟩

/-- **A standard line has blanks and the characters of its fields only.** -/
theorem CronLine.cronChars {value : Text} (h : CronLine standardCron value) {c : Char}
    (hc : c ∈ value) (hblank : isBlank c = false) : isCronChar c = true := by
  obtain ⟨field, hfield, hmem⟩ := mem_words hc hblank
  obtain ⟨bounds, -, hin⟩ := h.field hfield
  exact hin.cronChars c hmem

theorem CronLine.sameWords {value : Text} (h : CronLine standardCron value) :
    words isWhitespace value = words isBlank value := by
  apply words_congr
  intro c hc
  cases hblank : isBlank c with
  | true => exact isWhitespace_of_blank hblank
  | false => exact not_whitespace_of_cronChar (h.cronChars hc hblank)

/-- **A standard schedule is accepted.** -/
theorem CronLine.read {value : Text} (h : CronLine standardCron value) :
    CronLine readCron value := by
  unfold CronLine
  show List.Forall₂ _ (words isWhitespace value) cronBounds
  rw [h.sameWords]
  exact List.Forall₂.imp (fun field bounds hfield part hpart => (hfield part hpart).read) h

/-! ## §4. Where the check reads more. -/

/-- What an accepted line has that is not standard. -/
inductive CronSlack (value : Text) : Prop
  /-- Whitespace that is not a blank, such as a line break. -/
  | whitespace {c : Char} (mem : c ∈ value) (white : isWhitespace c = true)
      (odd : isBlank c = false)
  | sign (mem : '+' ∈ value)
  /-- A range end that is no number. -/
  | range {field part first last : Text} (field_mem : field ∈ words isWhitespace value)
      (part_mem : part ∈ field.splitOn ',')
      (base : (part.splitOn '/').head? = some (first ++ '-' :: last)) (noEnd : Unreadable last)

/-- The text behind the last hyphen. -/
theorem last_eq_of_append {s t first last : Text} (h : s ++ '-' :: t = first ++ '-' :: last)
    (ht : '-' ∉ t) (hlast : '-' ∉ last) : t = last := by
  rcases List.append_eq_append_iff.mp h with ⟨more, -, hrest⟩ | ⟨more, -, hrest⟩
  · cases more with
    | nil => exact (List.cons.inj hrest).2
    | cons d more =>
        refine absurd ?_ ht
        rw [(List.cons.inj hrest).2]
        exact List.mem_append_right _ List.mem_cons_self
  · cases more with
    | nil => exact (List.cons.inj hrest).2.symm
    | cons d more =>
        refine absurd ?_ hlast
        rw [(List.cons.inj hrest).2]
        exact List.mem_append_right _ List.mem_cons_self

/-- A standard range ends with a number. -/
theorem CronBase.noSlack {min max : Nat} (hmax : max < 256) {first last : Text}
    (h : CronBase standardCron min max (first ++ '-' :: last)) : ¬ Unreadable last := by
  have hhyphen : '-' ∈ first ++ '-' :: last := List.mem_append_right _ List.mem_cons_self
  have hnumber : ∀ {s : Text} {n : Nat}, Decimal s n → '-' ∉ s := fun hn =>
    hn.not_mem (by decide)
  rintro ⟨-, hlast, hnone⟩
  generalize hs : first ++ '-' :: last = s at h hhyphen
  cases h with
  | every => exact absurd hhyphen (by decide)
  | one number => exact hnumber number hhyphen
  | range number lastNumber lower ordered upper =>
      obtain rfl := last_eq_of_append hs hlast (hnumber lastNumber)
      have hbound := hnone _ (.inl lastNumber)
      omega
  | endless number noEnd => exact noEnd

theorem CronItem.base {min max : Nat} {part : Text} (h : CronItem standardCron min max part) :
    ∃ base, (part.splitOn '/').head? = some base ∧ CronBase standardCron min max base := by
  cases h with
  | plain base =>
      refine ⟨part, ?_, base⟩
      rw [splitOn_eq_single_iff.mpr ⟨rfl, base.read.not_slash⟩]
      rfl
  | stepped base step =>
      refine ⟨_, ?_, base⟩
      rw [splitOn_eq_pair_iff.mpr ⟨rfl, base.read.not_slash, Decimal.not_mem step (by decide)⟩]
      rfl

/-- **A standard line has none of it.** -/
theorem CronLine.noSlack {value : Text} (h : CronLine standardCron value) : ¬ CronSlack value := by
  rintro (⟨hmem, hwhite, hodd⟩ | ⟨hmem⟩ | ⟨hfield, hpart, hbase, hend⟩)
  · rw [not_whitespace_of_cronChar (h.cronChars hmem hodd)] at hwhite
    exact Bool.noConfusion hwhite
  · have hchar := h.cronChars hmem (by decide)
    exact absurd hchar (by decide)
  · rw [h.sameWords] at hfield
    obtain ⟨bounds, hbounds, hin⟩ := h.field hfield
    obtain ⟨base, hhead, hitem⟩ := (hin _ hpart).base
    obtain rfl := Option.some.inj (hhead.symm.trans hbase)
    exact hitem.noSlack (cronBounds_lt hbounds) hend

theorem CronBase.standard {min max : Nat} {s : Text} (h : CronBase readCron min max s)
    (hsign : '+' ∉ s) (hend : ∀ first last, s = first ++ '-' :: last → ¬ Unreadable last) :
    CronBase standardCron min max s := by
  cases h with
  | every => exact .every
  | one number lower upper => exact .one (Signed.plain number hsign) lower upper
  | range first last lower ordered upper =>
      simp only [List.mem_append, List.mem_cons, not_or] at hsign
      exact .range (Signed.plain first hsign.1) (Signed.plain last hsign.2.2) lower ordered upper
  | endless first noEnd => exact absurd noEnd (hend _ _ rfl)

theorem CronItem.standard {min max : Nat} {part : Text} (h : CronItem readCron min max part)
    (hsign : '+' ∉ part) (hend : ∀ first last,
      (part.splitOn '/').head? = some (first ++ '-' :: last) → ¬ Unreadable last) :
    CronItem standardCron min max part := by
  cases h with
  | plain base =>
      refine .plain (base.standard hsign ?_)
      rintro first last rfl
      apply hend first last
      rw [splitOn_eq_single_iff.mpr ⟨rfl, base.not_slash⟩]
      rfl
  | stepped base step positive upper =>
      simp only [List.mem_append, List.mem_cons, not_or] at hsign
      refine .stepped (base.standard hsign.1 ?_) (Signed.plain step hsign.2.2) positive upper
      rintro first last rfl
      apply hend first last
      rw [splitOn_eq_pair_iff.mpr
        ⟨rfl, base.not_slash, Signed.not_mem step (by decide) (by decide)⟩]
      rfl

/-- **An accepted line with none of it is standard.** -/
theorem CronLine.standard {value : Text} (h : CronLine readCron value)
    (hslack : ¬ CronSlack value) : CronLine standardCron value := by
  have hwords : words isWhitespace value = words isBlank value := by
    apply words_congr
    intro c hc
    cases hblank : isBlank c with
    | true => exact isWhitespace_of_blank hblank
    | false =>
        by_contra hwhite
        exact hslack (.whitespace hc (by simpa using hwhite) hblank)
  have hfields : ∀ field ∈ words isWhitespace value, ∀ bounds : Nat × Nat,
      CronField readCron bounds.1 bounds.2 field →
      CronField standardCron bounds.1 bounds.2 field := by
    intro field hfield bounds hin part hpart
    apply (hin part hpart).standard
    · intro hsign
      refine hslack (.sign (mem_of_mem_words hfield _ ?_))
      exact mem_of_mem_splitOnP (by rwa [← List.splitOn_eq_splitOnP]) _ hsign
    · intro first last hbase hend
      exact hslack (.range hfield hpart hbase hend)
  have hzip := List.forall₂_iff_zip.mp h
  unfold CronLine
  show List.Forall₂ _ (words isBlank value) cronBounds
  rw [← hwords]
  refine List.forall₂_iff_zip.mpr ⟨hzip.1, fun {field bounds} hmem => ?_⟩
  exact hfields field (List.of_mem_zip hmem).1 bounds (hzip.2 hmem)

/-! ## §5. Where the check is exact. -/

def isLineBreak (c : Char) : Bool := c == '\n' || c == '\r'

/-- The check accepts the standard schedules and no others, and so no line break. -/
structure CronExact (value : Text) : Prop where
  exactly : isCronExpression value = true ↔ CronLine standardCron value
  oneLine : isCronExpression value = true → ∀ c ∈ value, isLineBreak c = false

/-- A second line in a schedule. -/
theorem two_lines_accepted : ¬ CronExact "0 0\n1 1 0".toList := by
  intro h
  have hbreak := h.oneLine (by decide) '\n' (by decide)
  exact absurd hbreak (by decide)

/-- **The check is exact where the accepted values have no slack.** -/
theorem cron_exact_iff (value : Text) :
    CronExact value ↔ ¬ (CronLine readCron value ∧ CronSlack value) := by
  constructor
  · rintro h ⟨hread, hslack⟩
    exact (h.exactly.mp (isCronExpression_iff.mpr hread)).noSlack hslack
  · intro h
    have hstandard : isCronExpression value = true → CronLine standardCron value := by
      intro haccepted
      have hread := isCronExpression_iff.mp haccepted
      exact hread.standard fun hslack => h ⟨hread, hslack⟩
    refine ⟨⟨hstandard, fun hline => isCronExpression_iff.mpr hline.read⟩, ?_⟩
    intro haccepted c hc
    by_contra hbreak
    have hline := hstandard haccepted
    simp only [isLineBreak, Bool.not_eq_false, Bool.or_eq_true, beq_iff_eq] at hbreak
    rcases hbreak with rfl | rfl
    · exact absurd (hline.cronChars hc (by decide)) (by decide)
    · exact absurd (hline.cronChars hc (by decide)) (by decide)

end QingzhouSSH.Core.Tasks
