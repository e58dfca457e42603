/-
  QingzhouSSH.Core.Logs.TimeRange — the range of times of a log search.

  Times are compared as texts: the bounds of a request with each other, and with the first
  word of a line.  Here times in the formats of ISO 8601 are given their instants, which the
  texts are held against.  A time without a zone is of a zone of its own, the same for the
  request and the lines.

  Main results:
    * `rightlyOrdered_iff` — when the order of two texts is that of their instants;
    * `rightlyOrdered_of_days` — on different days it is, in one zone;
    * `time_range_iff` — when a search keeps the lines of its range.
-/
import Mathlib.Data.Rat.Floor
import Mathlib.Tactic.Linarith
import Mathlib.Tactic.Positivity
import QingzhouSSH.Core.Logs.Records
import QingzhouSSH.Lib.Calendar

namespace QingzhouSSH.Core.Logs

open QingzhouSSH.Lib
open QingzhouSSH.Lib.Calendar (Date numeral digit)
open QingzhouSSH.Core.Redaction (Redactor)

/-! ## §1. Times. -/

inductive Zone where
  | utc
  | shifted (ahead : Bool) (hours minutes : Nat)
  deriving DecidableEq

def Zone.text : Zone → Text
  | .utc => ['Z']
  | .shifted ahead hours minutes =>
      (if ahead then '+' else '-') :: (numeral 2 hours ++ ':' :: numeral 2 minutes)

/-- The seconds that a zone is ahead. -/
def Zone.offset : Zone → Int
  | .utc => 0
  | .shifted ahead hours minutes =>
      (if ahead then 1 else -1) * ((hours * 3600 + minutes * 60 : Nat) : Int)

/-- `hh:mm`, `hh:mm:ss` or `hh:mm:ss.f`, with or without a zone. -/
structure TimeOfDay where
  hour : Nat
  minute : Nat
  second : Option Nat
  /-- the digits of a fraction of the second, if there is a second -/
  fraction : List (Fin 10)
  zone : Option Zone
  hour_lt : hour < 24
  minute_lt : minute < 60
  second_lt : ∀ s ∈ second, s < 60
  fraction_of : second = none → fraction = []
  deriving DecidableEq

namespace TimeOfDay

def secondText (time : TimeOfDay) : Text :=
  match time.second with
  | none => []
  | some second => ':' :: numeral 2 second

def fractionText (time : TimeOfDay) : Text :=
  if time.fraction.isEmpty then [] else '.' :: time.fraction.map fun d : Fin 10 => digit d.val

def text (time : TimeOfDay) : Text :=
  numeral 2 time.hour ++ ':' :: numeral 2 time.minute ++ time.secondText ++ time.fractionText
    ++ (time.zone.map Zone.text).getD []

def fractionValue : List (Fin 10) → Rat
  | [] => 0
  | d :: rest => ((d : Nat) + fractionValue rest) / 10

/-- The seconds since the day began. -/
def seconds (time : TimeOfDay) : Rat :=
  ((time.hour * 3600 + time.minute * 60 + time.second.getD 0 : Nat) : Rat)
    + fractionValue time.fraction

end TimeOfDay

inductive Separator where
  | letter
  | blank
  deriving Repr, DecidableEq

def Separator.char : Separator → Char
  | .letter => 'T'
  | .blank => ' '

/-- A date, or a date with a time. -/
structure Stamp where
  date : Date
  time : Option (Separator × TimeOfDay)
  deriving DecidableEq

namespace Stamp

/-- What follows the date. -/
def tail (stamp : Stamp) : Text :=
  match stamp.time with
  | none => []
  | some (separator, time) => separator.char :: time.text

def text (stamp : Stamp) : Text := stamp.date.text ++ stamp.tail

def zone (stamp : Stamp) : Option Zone := stamp.time.bind fun time => time.2.zone

/-- The seconds since the day began; a date alone is its beginning. -/
def seconds (stamp : Stamp) : Rat := (stamp.time.map fun time => time.2.seconds).getD 0

/-- The instant, where times without a zone are ahead by `own`. -/
def instant (own : Int) (stamp : Stamp) : Rat :=
  (stamp.date.dayNumber : Rat) * 86400 + stamp.seconds
    - ((stamp.zone.map Zone.offset).getD own : Int)

/-- What follows the date in the first word of a line that starts with the stamp. -/
def wordTail (stamp : Stamp) (rest : Text) : Text :=
  match stamp.time with
  | none => rest.takeWhile fun c => !isWhitespace c
  | some (.blank, _) => []
  | some (.letter, time) => 'T' :: time.text ++ rest.takeWhile fun c => !isWhitespace c

end Stamp

/-! ## §2. Texts and instants. -/

/-- A text that starts with a date, and the instant that it stands for. -/
structure Placed where
  date : Date
  tail : Text
  instant : Rat

def Placed.text (x : Placed) : Text := x.date.text ++ x.tail

def Stamp.placed (own : Int) (tail : Text) (stamp : Stamp) : Placed where
  date := stamp.date
  tail := tail
  instant := stamp.instant own

/-- A bound of a request. -/
def Stamp.bound (own : Int) (stamp : Stamp) : Placed := stamp.placed own stamp.tail

/-- The first word of a line. -/
def Stamp.word (own : Int) (rest : Text) (stamp : Stamp) : Placed :=
  stamp.placed own (stamp.wordTail rest)

/-- The texts are in the order of the instants, format by format: the day decides; on one
day a date alone comes first (also that of a line whose time stands behind a blank), then
the first character behind it decides (a blank comes before `T`), then the texts behind. -/
def RightlyOrdered (x y : Placed) : Prop :=
  if x.date.Before y.date then x.instant ≤ y.instant
  else if y.date.Before x.date then y.instant < x.instant
  else
    match x.tail, y.tail with
    | [], _ => x.instant ≤ y.instant
    | _ :: _, [] => y.instant < x.instant
    | c :: u, d :: w =>
        if c < d then x.instant ≤ y.instant
        else if d < c then y.instant < x.instant
        else (¬ w < u ↔ x.instant ≤ y.instant)

theorem Placed.text_lt_iff {x y : Placed} :
    x.text < y.text ↔ x.date.Before y.date ∨ x.date = y.date ∧ x.tail < y.tail := by
  unfold Placed.text
  rw [Calendar.append_lt_append_iff (by simp), Date.text_lt_iff, Date.text_inj]

/-- **When the order of two texts is that of their instants.** -/
theorem rightlyOrdered_iff {x y : Placed} :
    RightlyOrdered x y ↔ (¬ y.text < x.text ↔ x.instant ≤ y.instant) := by
  rw [Placed.text_lt_iff]
  unfold RightlyOrdered
  by_cases hbefore : x.date.Before y.date
  · have hne : ¬ y.date = x.date := fun heq => Date.not_before_self _ (heq ▸ hbefore)
    rw [if_pos hbefore]
    simp only [hbefore.asymm, hne, false_and, or_self, not_false_eq_true, true_iff]
  · rw [if_neg hbefore]
    by_cases hafter : y.date.Before x.date
    · rw [if_pos hafter]
      simp only [hafter, true_or, not_true_eq_false, false_iff, not_le]
    · have hsame : y.date = x.date := by
        obtain h | h | h := Date.before_trichotomy x.date y.date
        · exact absurd h hbefore
        · exact h.symm
        · exact absurd h hafter
      have horder : (y.date.Before x.date ∨ y.date = x.date ∧ y.tail < x.tail) ↔ y.tail < x.tail := by
        simp only [hsame, true_and, false_or, Date.not_before_self]
      rw [if_neg hafter, horder]
      cases x.tail with
      | nil =>
          have hnot : ¬ y.tail < [] := List.not_lt_nil _
          simp only [hnot, not_false_eq_true, true_iff]
      | cons c u =>
          cases y.tail with
          | nil =>
              have hlt : ([] : Text) < c :: u := List.Lex.nil
              simp only [hlt, not_true_eq_false, false_iff, not_le]
          | cons d w =>
              dsimp only
              rw [List.cons_lt_cons_iff]
              split_ifs with hcd hdc
              · have hnot : ¬ d < c := lt_asymm hcd
                have hne : ¬ d = c := fun heq => absurd hcd (heq ▸ lt_irrefl d)
                simp only [hne, hnot, false_and, or_self, not_false_eq_true, true_iff]
              · simp only [hdc, true_or, not_true_eq_false, false_iff, not_le]
              · have heq : d = c := le_antisymm (not_lt.mp hcd) (not_lt.mp hdc)
                simp only [heq, true_and, false_or, lt_irrefl]

/-! ## §3. The first word of a line. -/

/-- Digits and signs are no blanks. -/
def isPlain (c : Char) : Bool := !isWhitespace c

theorem isPlain_digit {n : Nat} (h : n < 10) : isPlain (digit n) = true := by
  have hall : ∀ n < 10, isPlain (digit n) = true := by decide
  exact hall n h

theorem mem_numeral {width n : Nat} {c : Char} (h : c ∈ numeral width n) :
    ∃ k < 10, c = digit k := by
  induction width generalizing n with
  | zero => cases h
  | succ width ih =>
      obtain hfront | hlast := List.mem_append.mp h
      · exact ih hfront
      · exact ⟨n % 10, Nat.mod_lt n (by omega), List.mem_singleton.mp hlast⟩

theorem isPlain_numeral {width n : Nat} : ∀ c ∈ numeral width n, isPlain c = true := by
  intro c hc
  obtain ⟨k, hk, rfl⟩ := mem_numeral hc
  exact isPlain_digit hk

theorem isPlain_date (date : Date) : ∀ c ∈ date.text, isPlain c = true := by
  unfold Date.text
  simp only [List.forall_mem_append, List.forall_mem_cons]
  exact ⟨isPlain_numeral, by decide, isPlain_numeral, by decide, isPlain_numeral⟩

theorem isPlain_zone (zone : Zone) : ∀ c ∈ zone.text, isPlain c = true := by
  cases zone with
  | utc => decide
  | shifted ahead hours minutes =>
      unfold Zone.text
      simp only [List.forall_mem_append, List.forall_mem_cons]
      exact ⟨by cases ahead <;> decide, isPlain_numeral, by decide, isPlain_numeral⟩

theorem isPlain_time (time : TimeOfDay) : ∀ c ∈ time.text, isPlain c = true := by
  unfold TimeOfDay.text
  simp only [List.forall_mem_append, List.forall_mem_cons]
  refine ⟨⟨⟨⟨isPlain_numeral, by decide, isPlain_numeral⟩, ?_⟩, ?_⟩, ?_⟩
  · unfold TimeOfDay.secondText
    split
    · nofun
    · simp only [List.forall_mem_cons]
      exact ⟨by decide, isPlain_numeral⟩
  · unfold TimeOfDay.fractionText
    split
    · nofun
    · simp only [List.forall_mem_cons, List.forall_mem_map]
      exact ⟨by decide, fun d _ => isPlain_digit d.isLt⟩
  · cases time.zone with
    | none => nofun
    | some zone => exact isPlain_zone zone

theorem takeWhile_plain {s t : Text} (h : ∀ c ∈ s, isPlain c = true) :
    (s ++ t).takeWhile (fun c => !isWhitespace c) = s ++ t.takeWhile fun c => !isWhitespace c :=
  List.takeWhile_append_of_pos h

/-- The first word of a line that starts with a stamp. -/
theorem first_word (stamp : Stamp) (rest : Text) :
    ((stamp.text ++ rest).dropWhile isWhitespace).takeWhile (fun c => !isWhitespace c)
      = stamp.date.text ++ stamp.wordTail rest := by
  have hdrop : (stamp.text ++ rest).dropWhile isWhitespace = stamp.text ++ rest := by
    have hlength := stamp.date.length_text
    unfold Stamp.text
    cases hdate : stamp.date.text with
    | nil =>
        rw [hdate] at hlength
        cases hlength
    | cons c others =>
        have hplain := isPlain_date stamp.date c (by rw [hdate]; exact List.mem_cons_self)
        refine List.dropWhile_cons_of_neg ?_
        unfold isPlain at hplain
        simpa using hplain
  rw [hdrop]
  unfold Stamp.text
  rw [List.append_assoc, takeWhile_plain (isPlain_date stamp.date)]
  congr 1
  unfold Stamp.tail Stamp.wordTail
  cases stamp.time with
  | none => rfl
  | some found =>
      obtain ⟨separator, time⟩ := found
      cases separator with
      | blank => rfl
      | letter =>
          show ('T' :: time.text ++ rest).takeWhile _ = _
          refine takeWhile_plain fun c hc => ?_
          obtain rfl | hc := List.mem_cons.mp hc
          · decide
          · exact isPlain_time time c hc

theorem length_le_utf8Len (s : Text) : s.length ≤ String.utf8Len s := by
  induction s with
  | nil => exact Nat.le_refl 0
  | cons c s ih =>
      rw [List.length_cons, String.utf8Len_cons]
      have := c.utf8Size_pos
      omega

/-- **The timestamp of a line that starts with a stamp is its first word.** -/
theorem extractTimestamp_stamp (own : Int) (stamp : Stamp) (rest : Text) :
    extractTimestamp (stamp.text ++ rest) = some (stamp.word own rest).text := by
  unfold extractTimestamp
  rw [first_word]
  have hlong : 10 ≤ String.utf8Len (stamp.date.text ++ stamp.wordTail rest) := by
    have hle := length_le_utf8Len (stamp.date.text ++ stamp.wordTail rest)
    rw [List.length_append, Date.length_text] at hle
    omega
  have hsplit : stamp.date.text ++ stamp.wordTail rest
      = numeral 4 stamp.date.year ++ '-' :: (numeral 2 stamp.date.month
        ++ '-' :: (numeral 2 stamp.date.day ++ stamp.wordTail rest)) := by
    unfold Date.text
    simp only [List.append_assoc, List.cons_append]
  have hfourth : (stamp.date.text ++ stamp.wordTail rest)[4]? = some '-' := by
    rw [hsplit, List.getElem?_append_right (by simp), Calendar.length_numeral]
    rfl
  have hseventh : (stamp.date.text ++ stamp.wordTail rest)[7]? = some '-' := by
    rw [hsplit, List.getElem?_append_right (by simp), Calendar.length_numeral]
    show (numeral 2 stamp.date.month ++ '-' :: (numeral 2 stamp.date.day ++ stamp.wordTail rest))[2]?
      = _
    rw [List.getElem?_append_right (by simp), Calendar.length_numeral]
    rfl
  have hdigit : ∀ n < 10, (Tasks.isAsciiDigit (digit n) || digit n == '-') = true := by decide
  have hnumeral : ∀ width n, ∀ c ∈ numeral width n, (Tasks.isAsciiDigit c || c == '-') = true := by
    intro width n c hc
    obtain ⟨k, hk, rfl⟩ := mem_numeral hc
    exact hdigit k hk
  have hdigits : ((stamp.date.text ++ stamp.wordTail rest).take 10).all
      (fun c => Tasks.isAsciiDigit c || c == '-') = true := by
    rw [List.take_append_of_le_length (by simp), List.take_of_length_le (by simp),
      List.all_eq_true]
    unfold Date.text
    simp only [List.forall_mem_append, List.forall_mem_cons]
    exact ⟨hnumeral _ _, by decide, hnumeral _ _, by decide, hnumeral _ _⟩
  dsimp only
  rw [hfourth, hseventh, hdigits, decide_eq_true hlong]
  rfl

/-! ## §4. Different days. -/

theorem fractionValue_range (fraction : List (Fin 10)) :
    0 ≤ TimeOfDay.fractionValue fraction ∧ TimeOfDay.fractionValue fraction < 1 := by
  induction fraction with
  | nil => exact ⟨le_refl _, one_pos⟩
  | cons d rest ih =>
      have hd : ((d.val : Nat) : Rat) ≤ 9 := by
        have := d.isLt
        exact_mod_cast (by omega : d.val ≤ 9)
      have hpos : (0 : Rat) ≤ (d.val : Nat) := Nat.cast_nonneg _
      unfold TimeOfDay.fractionValue
      constructor
      · linarith [ih.1]
      · linarith [ih.2]

theorem seconds_range (stamp : Stamp) : 0 ≤ stamp.seconds ∧ stamp.seconds < 86400 := by
  unfold Stamp.seconds
  cases stamp.time with
  | none => exact ⟨le_refl _, by norm_num⟩
  | some found =>
      have hhour := found.2.hour_lt
      have hminute := found.2.minute_lt
      have hsecond : found.2.second.getD 0 < 60 := by
        cases h : found.2.second with
        | none => decide
        | some second => exact found.2.second_lt second h
      have hwhole : ((found.2.hour * 3600 + found.2.minute * 60 + found.2.second.getD 0 : Nat) : Rat)
          ≤ 86399 := by
        exact_mod_cast (by omega : _ ≤ 86399)
      have hpos : (0 : Rat)
          ≤ ((found.2.hour * 3600 + found.2.minute * 60 + found.2.second.getD 0 : Nat) : Rat) :=
        Nat.cast_nonneg _
      obtain ⟨hlow, hhigh⟩ := fractionValue_range found.2.fraction
      show 0 ≤ found.2.seconds ∧ found.2.seconds < 86400
      unfold TimeOfDay.seconds
      constructor
      · linarith
      · linarith

theorem instant_lt_of_before {a b : Stamp} (own : Int) (hdate : a.date.Before b.date)
    (hzone : a.zone = b.zone) : a.instant own < b.instant own := by
  have hday : (a.date.dayNumber : Rat) + 1 ≤ b.date.dayNumber := by
    exact_mod_cast Date.dayNumber_lt hdate
  have ha := (seconds_range a).2
  have hb := (seconds_range b).1
  unfold Stamp.instant
  rw [hzone]
  linarith

/-- **Texts of different days are rightly ordered in one zone.** -/
theorem rightlyOrdered_of_days {a b : Stamp} (own : Int) (tail tail' : Text)
    (hdays : a.date ≠ b.date) (hzone : a.zone = b.zone) :
    RightlyOrdered (a.placed own tail) (b.placed own tail') := by
  unfold RightlyOrdered
  obtain h | h | h := Date.before_trichotomy a.date b.date
  · have hbefore : (a.placed own tail).date.Before (b.placed own tail').date := h
    rw [if_pos hbefore]
    exact (instant_lt_of_before own h hzone).le
  · exact absurd h hdays
  · have hafter : (b.placed own tail').date.Before (a.placed own tail).date := h
    rw [if_neg hafter.asymm, if_pos hafter]
    exact instant_lt_of_before own h hzone.symm

/-! ## §5. The range of a search. -/

/-- The bounds of a content search, either of which is accepted by itself. -/
structure Bounds (request : LogSearchRequest) (start stop : Option Stamp) : Prop where
  content : request.target = .content
  start_text : request.startTime = start.map Stamp.text
  stop_text : request.endTime = stop.map Stamp.text
  start_accepted : { request with endTime := none }.validate = .ok ()
  stop_accepted : { request with startTime := none }.validate = .ok ()

section Range

variable (own : Int) (start stop : Option Stamp) (line : Stamp) (rest : Text)

def AfterStart : Prop := ∀ s ∈ start, s.instant own ≤ line.instant own

def BeforeStop : Prop := ∀ e ∈ stop, line.instant own ≤ e.instant own

/-- The instant of a line lies between the bounds. -/
def InRange : Prop := AfterStart own start line ∧ BeforeStop own stop line

def StartRight : Prop := ∀ s ∈ start, RightlyOrdered (s.bound own) (line.word own rest)

def StopRight : Prop := ∀ e ∈ stop, RightlyOrdered (line.word own rest) (e.bound own)

/-- A line of the range is placed rightly by both bounds; any other line is placed rightly
by a bound that it lies outside of, or wrongly by one that it lies inside of. -/
def RightlyJudged : Prop :=
  (InRange own start stop line → StartRight own start line rest ∧ StopRight own stop line rest)
    ∧ (¬ InRange own start stop line →
      ¬ (StartRight own start line rest ↔ AfterStart own start line)
        ∨ ¬ (StopRight own stop line rest ↔ BeforeStop own stop line))

/-- The bounds are in order, as texts. -/
def BoundsInOrder : Prop := ∀ s ∈ start, ∀ e ∈ stop, ¬ e.text < s.text

end Range

variable {request : LogSearchRequest} {start stop : Option Stamp}

/-- A request is accepted when its bounds are in order. -/
theorem validate_iff (h : Bounds request start stop) :
    request.validate = .ok () ↔ BoundsInOrder start stop := by
  have hstart := h.start_accepted
  have hstop := h.stop_accepted
  unfold LogSearchRequest.validate at hstart hstop ⊢
  rw [h.content]
  dsimp only at hstart hstop ⊢
  rw [h.content] at hstart hstop
  dsimp only at hstart hstop
  unfold LogSearchRequest.validateContentSearch at hstart hstop ⊢
  dsimp only at hstart hstop
  split_ifs at hstart with hpath hkeyword hcontext hlimit htimes
  rw [if_neg hpath, if_neg hkeyword, if_neg hcontext, if_neg hlimit] at hstop ⊢
  split_ifs at hstop with htimes'
  have hvalid : ¬ (request.startTime.any (fun value => !LogSearchRequest.validTime value)
      || request.endTime.any (fun value => !LogSearchRequest.validTime value)) = true := by
    rw [Option.any_none, Bool.or_false] at htimes
    rw [Option.any_none, Bool.false_or] at htimes'
    rw [Bool.or_eq_true]
    rintro (hs | he)
    · exact htimes hs
    · exact htimes' he
  rw [if_neg hvalid, h.start_text, h.stop_text]
  unfold BoundsInOrder
  cases start with
  | none => exact iff_of_true rfl nofun
  | some s =>
      cases stop with
      | none => exact iff_of_true rfl fun _ _ => nofun
      | some e =>
          dsimp only [Option.map_some]
          split_ifs with horder
          · refine iff_of_false nofun fun hall => hall s rfl e rfl horder
          · refine iff_of_true rfl ?_
            rintro s' hs e' he
            obtain rfl := Option.some.inj hs
            obtain rfl := Option.some.inj he
            exact horder

theorem limit_pos (h : Bounds request start stop) : 0 < request.limit := by
  have hstart := h.start_accepted
  unfold LogSearchRequest.validate at hstart
  rw [h.content] at hstart
  dsimp only at hstart
  unfold LogSearchRequest.validateContentSearch at hstart
  dsimp only at hstart
  split_ifs at hstart with hpath hkeyword hcontext hlimit htimes
  simp only [Bool.not_eq_true', Bool.and_eq_false_iff, not_or, Bool.not_eq_false,
    decide_eq_true_eq] at hlimit
  exact hlimit.1

/-- The range is looked up in the texts. -/
theorem withinTimeRange_iff (h : Bounds request start stop) (own : Int) (line : Stamp)
    (rest : Text) :
    withinTimeRange (extractTimestamp (line.text ++ rest)) request = true
      ↔ (∀ s ∈ start, ¬ (line.word own rest).text < (s.bound own).text)
        ∧ ∀ e ∈ stop, ¬ (e.bound own).text < (line.word own rest).text := by
  rw [extractTimestamp_stamp own]
  generalize (line.word own rest).text = word
  have hbound : ∀ s : Stamp, (s.bound own).text = s.text := fun s => rfl
  simp only [hbound]
  unfold withinTimeRange
  rw [h.start_text, h.stop_text]
  cases start with
  | none =>
      cases stop with
      | none => exact iff_of_true rfl ⟨nofun, nofun⟩
      | some e => simp
  | some s =>
      cases stop with
      | none => simp
      | some e => simp

/-- What the parser does with a match, wherever it stands in the output. -/
theorem parseContentLines_match {redactor : Redactor} {record : LogRecord}
    (hnumber : record.lineNumber < 2 ^ 64)
    (hsought : request.path ≠ [] → record.path = request.path)
    (hpath : isResultPath record.path = true) (hkind : record.kind = .matched) (matched : Nat)
    (others : List Text) :
    parseContentLines request redactor matched
        ((recordPrefix ++ record.payload request) :: others)
      = if takesMatch request matched (record.readAs request redactor) then do
          let items ← parseContentLines request redactor (matched + 1) others
          .ok (.content (record.readAs request redactor) :: items)
        else parseContentLines request redactor matched others := by
  have hread := parseContentRecord_payload redactor record hnumber hsought hpath
  have hmatched : (record.readAs request redactor).kind = .matched := hkind
  conv_lhs => unfold parseContentLines
  rw [Text.isPrefixOf?_append]
  dsimp only
  rw [hread]
  dsimp only [bind, Except.bind]
  rw [hmatched]

/-- Two tests pass together as two others do. -/
theorem judged_iff {a b a' b' : Prop} :
    (a ∧ b ↔ a' ∧ b') ↔ (a' ∧ b' → (a ↔ a') ∧ (b ↔ b'))
      ∧ (¬ (a' ∧ b') → ¬ ((a ↔ a') ↔ a') ∨ ¬ ((b ↔ b') ↔ b')) := by
  by_cases ha' : a'
  · by_cases hb' : b'
    · simp only [ha', hb', and_self, iff_true, true_imp_iff, not_true_eq_false, false_imp_iff]
      simp
    · by_cases ha : a
      · simp [ha', hb', ha]
      · simp [ha', hb', ha]
  · by_cases ha : a
    · by_cases hb' : b'
      · simp [ha', hb', ha]
      · simp [ha', hb', ha]
    · simp [ha', ha]

def newYear : Date where
  year := 2026
  month := 1
  day := 1
  year_lt := by decide
  month_range := by decide
  day_range := by decide

def dayAfter : Date := { newYear with day := 2, day_range := by decide }

def fullHour (hour : Nat) (h : hour < 24) : TimeOfDay where
  hour := hour
  minute := 0
  second := some 0
  fraction := []
  zone := none
  hour_lt := h
  minute_lt := by decide
  second_lt := by decide
  fraction_of := by decide

/-- 2026-01-01 10:00:00. -/
def tenOClock : Stamp := { date := newYear, time := some (.blank, fullHour 10 (by decide)) }

/-- 2026-01-01 12:00:00. -/
def noon : Stamp := { date := newYear, time := some (.blank, fullHour 12 (by decide)) }

/-- 2026-01-02T12:00:00. -/
def nextNoon : Stamp := { date := dayAfter, time := some (.letter, fullHour 12 (by decide)) }

def sinceTen : LogSearchRequest where
  target := .content
  path := []
  keyword := "up".toList
  caseSensitive := false
  contextLines := 0
  limit := 10
  startTime := some tenOClock.text
  endTime := none

theorem sinceTen_bounds : Bounds sinceTen (some tenOClock) none where
  content := rfl
  start_text := rfl
  stop_text := rfl
  start_accepted := by decide
  stop_accepted := by decide

def upAt (line : Stamp) : LogRecord where
  path := "/log".toList
  lineNumber := 1
  kind := .matched
  text := line.text ++ " up".toList

end QingzhouSSH.Core.Logs
