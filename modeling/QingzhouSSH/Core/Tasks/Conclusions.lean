/-
  QingzhouSSH.Core.Tasks.Conclusions — which lines of an output decide its conclusion.

  The conclusion of an output is stated over all its lines.  `parse_result` reads its
  markers from the technical details, which are the first 64 KiB of the redacted output,
  with the line in which they end cut off.

  Main results:
    * `parseResult_status` — the conclusion is that of the lines of the details;
    * `conclusion_covers_iff` — when it is that of the whole output.
-/
import QingzhouSSH.Core.Tasks.OperationResult

namespace QingzhouSSH.Core.Tasks

open String (utf8Len)
open QingzhouSSH.Core.Logs (lines linesFrom stripReturn)
open QingzhouSSH.Core.Redaction (Redactor EndsLine)
open QingzhouSSH.Lib
open QingzhouSSH.Lib.Net (parseUnsigned)
open QingzhouSSH.Lib.Text (contains)

/-! ## §1. Lines that decide. -/

/-- A known error marker. -/
def isErrorLine (line : Text) : Bool :=
  knownErrors.any fun code => line == "__QZ_ERROR__ ".toList ++ code

/-- A known warning marker. -/
def isWarningLine (line : Text) : Bool :=
  knownWarnings.any fun code => line == "__QZ_WARNING__ ".toList ++ code

/-- A capability that is missing. -/
def isUnsupportedLine (line : Text) : Bool :=
  (stripPrefix "__QZ_UNSUPPORTED__ ".toList line).any validMarkerToken

/-- The metric of the disk usage. -/
def diskValue (line : Text) : Option Text :=
  (stripPrefix "__QZ_METRIC__ disk_percent=".toList line).filter fun value => utf8Len value ≤ 256

/-- A network probe has had no answer. -/
def isNoResponse (parser : ResultParserKind) (line : Text) : Bool :=
  parser == .networkProbe && trim line == "probe=no_response".toList

/-- A service that does not run, or a container that is not healthy. -/
def isIndicator (parser : ResultParserKind) (line : Text) : Bool :=
  (parser == .serviceStatus
      && (contains line "ActiveState=failed".toList || contains line "ActiveState=inactive".toList))
    || (parser == .containerStatus && contains (line.map toAsciiLower) "unhealthy".toList)

/-- The disk usage that was reported last is 90 percent or more. -/
def diskFull (ls : List Text) : Bool :=
  ((ls.filterMap diskValue).getLast?.bind (parseUnsigned 256)).any fun value => decide (90 ≤ value)

def hasWarning (parser : ResultParserKind) (ls : List Text) : Bool :=
  diskFull ls || ls.any isWarningLine || ls.any (isIndicator parser)

/-- **The conclusion that lines call for.** -/
def conclusionOf (parser : ResultParserKind) (ls : List Text) : OperationConclusion :=
  if ls.any isErrorLine then .failed
  else if ls.any (isNoResponse parser) then .uncertain
  else if hasWarning parser ls then .warning
  else if ls.any isUnsupportedLine then .uncertain
  else .normal

/-! ## §2. What the loop reads. -/

theorem stripPrefix_eq_some {mark line value : Text} :
    stripPrefix mark line = some value ↔ line = mark ++ value := by
  unfold stripPrefix
  constructor
  · intro h
    split at h
    next hstart =>
      obtain ⟨rest, rfl⟩ := hstart
      rw [← Option.some.inj h, List.drop_left]
    next => cases h
  · rintro rfl
    rw [if_pos (List.prefix_append _ _), List.drop_left]

theorem stripPrefix_eq_none {mark line : Text} : stripPrefix mark line = none ↔ ¬ mark <+: line := by
  unfold stripPrefix
  split
  next hstart => simp [hstart]
  next hstart => simp [hstart]

/-- A line starts with one of two marks at most. -/
theorem stripPrefix_other {mark other line value : Text} (h : stripPrefix mark line = some value)
    (hmark : ¬ mark <+: other) (hother : ¬ other <+: mark) : stripPrefix other line = none := by
  rw [stripPrefix_eq_some] at h
  rw [stripPrefix_eq_none]
  intro hstart
  rcases List.prefix_or_prefix_of_prefix (h ▸ List.prefix_append mark value) hstart with hle | hle
  · exact hmark hle
  · exact hother hle

/-- A line that is a mark with one of the known codes. -/
theorem any_marker (mark line : Text) (known : List Text) :
    (known.any fun code => line == mark ++ code) = (stripPrefix mark line).any known.contains := by
  rw [Bool.eq_iff_iff, List.any_eq_true, Option.any_eq_true]
  constructor
  · rintro ⟨code, hcode, heq⟩
    exact ⟨code, stripPrefix_eq_some.mpr (beq_iff_eq.mp heq), List.contains_iff_mem.mpr hcode⟩
  · rintro ⟨code, hcode, hknown⟩
    exact ⟨code, List.contains_iff_mem.mp hknown, beq_iff_eq.mpr (stripPrefix_eq_some.mp hcode)⟩

/-- The metric of the disk is one of the metrics. -/
theorem diskValue_eq {line value : Text} (h : stripPrefix "__QZ_METRIC__ ".toList line = some value) :
    diskValue line = match splitOnce '=' value with
      | some (key, value) =>
          if key = "disk_percent".toList ∧ utf8Len value ≤ 256 then some value else none
      | none => none := by
  rw [stripPrefix_eq_some] at h
  subst h
  unfold diskValue
  cases hsplit : splitOnce '=' value with
  | none =>
      have hsign : ¬ ['='] <:+: value := Text.splitFirst_none.mp hsplit
      rw [stripPrefix_eq_none.mpr, Option.filter_none]
      rintro ⟨rest, heq⟩
      -- the metric of the disk has the sign that the value lacks
      have hvalue : value = "disk_percent=".toList ++ rest := List.append_cancel_left (heq.symm.trans rfl)
      exact hsign (hvalue ▸ ⟨"disk_percent".toList, rest, rfl⟩)
  | some parts =>
      obtain ⟨key, rest⟩ := parts
      have hvalue : value = key ++ ['='] ++ rest := Text.splitFirst_some hsplit
      dsimp only
      by_cases hkey : key = "disk_percent".toList
      · subst hkey
        have hstrip : stripPrefix "__QZ_METRIC__ disk_percent=".toList
            ("__QZ_METRIC__ ".toList ++ value) = some rest := by
          rw [stripPrefix_eq_some, hvalue]
          rfl
        rw [hstrip]
        by_cases hlong : utf8Len rest ≤ 256
        · rw [if_pos ⟨rfl, hlong⟩, Option.filter_some, if_pos (decide_eq_true hlong)]
        · rw [if_neg fun h => hlong h.2, Option.filter_some, if_neg (by simpa using hlong)]
      · rw [if_neg fun h => hkey h.1, stripPrefix_eq_none.mpr, Option.filter_none]
        rintro ⟨other, heq⟩
        have hdisk : value = "disk_percent".toList ++ '=' :: other :=
          List.append_cancel_left (heq.symm.trans rfl)
        have hfirst := @Text.splitFirst_singleton Char _ '=' "disk_percent".toList (by decide) other
        rw [← hdisk] at hfirst
        exact hkey (Prod.mk.inj (Option.some.inj (hsplit.symm.trans hfirst))).1

/-- What reading a line adds, as far as conclusions go. -/
structure Reads (markers : Markers) (line : Text) (after : Markers) : Prop where
  errors : after.errorCodes.isEmpty = (markers.errorCodes.isEmpty && !isErrorLine line)
  warnings : after.warningCodes.isEmpty = (markers.warningCodes.isEmpty && !isWarningLine line)
  unsupported : after.unsupported.isEmpty = (markers.unsupported.isEmpty && !isUnsupportedLine line)
  disk : after.metrics.get? "disk_percent".toList
    = (diskValue line).or (markers.metrics.get? "disk_percent".toList)

theorem diskValue_none {line : Text} (h : stripPrefix "__QZ_METRIC__ ".toList line = none) :
    diskValue line = none := by
  unfold diskValue
  rw [stripPrefix_eq_none] at h
  rw [stripPrefix_eq_none.mpr, Option.filter_none]
  rintro ⟨rest, rfl⟩
  exact h ⟨"disk_percent=".toList ++ rest, rfl⟩

/-- A line that adds nothing. -/
theorem Reads.nothing {markers : Markers} {line : Text} (herror : isErrorLine line = false)
    (hwarning : isWarningLine line = false) (hunsupported : isUnsupportedLine line = false)
    (hdisk : diskValue line = none) : Reads markers line markers where
  errors := by rw [herror, Bool.not_false, Bool.and_true]
  warnings := by rw [hwarning, Bool.not_false, Bool.and_true]
  unsupported := by rw [hunsupported, Bool.not_false, Bool.and_true]
  disk := by rw [hdisk, Option.none_or]

theorem reads (markers : Markers) (line : Text) : Reads markers line (markers.read line) := by
  have herror : isErrorLine line = (stripPrefix "__QZ_ERROR__ ".toList line).any knownErrors.contains :=
    any_marker _ _ _
  have hwarning : isWarningLine line
      = (stripPrefix "__QZ_WARNING__ ".toList line).any knownWarnings.contains := any_marker _ _ _
  have hunsupported : isUnsupportedLine line
      = (stripPrefix "__QZ_UNSUPPORTED__ ".toList line).any validMarkerToken := rfl
  unfold Markers.read
  cases hmetric : stripPrefix "__QZ_METRIC__ ".toList line with
  | some value =>
      have hdisk := diskValue_eq hmetric
      rw [stripPrefix_other hmetric (by decide) (by decide), Option.any_none] at herror
      rw [stripPrefix_other hmetric (by decide) (by decide), Option.any_none] at hwarning
      rw [stripPrefix_other hmetric (by decide) (by decide), Option.any_none] at hunsupported
      dsimp only
      cases hsplit : splitOnce '=' value with
      | none =>
          rw [hsplit] at hdisk
          exact .nothing herror hwarning hunsupported hdisk
      | some parts =>
          obtain ⟨key, rest⟩ := parts
          rw [hsplit] at hdisk
          dsimp only at hdisk ⊢
          have htoken : validMarkerToken "disk_percent".toList = true := by decide
          by_cases hvalid : (validMarkerToken key && decide (utf8Len rest ≤ 256)) = true
          · rw [if_pos hvalid]
            rw [Bool.and_eq_true, decide_eq_true_eq] at hvalid
            refine
              { errors := by rw [herror, Bool.not_false, Bool.and_true]
                warnings := by rw [hwarning, Bool.not_false, Bool.and_true]
                unsupported := by rw [hunsupported, Bool.not_false, Bool.and_true]
                disk := ?_ }
            dsimp only
            rw [OrdMap.get?_insert, hdisk]
            by_cases hkey : key = "disk_percent".toList
            · rw [if_pos hkey.symm, if_pos ⟨hkey, hvalid.2⟩, Option.some_or]
            · rw [if_neg (Ne.symm hkey), if_neg fun h => hkey h.1, Option.none_or]
          · rw [if_neg hvalid]
            refine .nothing herror hwarning hunsupported (hdisk.trans (if_neg fun h => hvalid ?_))
            rw [Bool.and_eq_true, decide_eq_true_eq, h.1]
            exact ⟨htoken, h.2⟩
  | none =>
      have hdisk := diskValue_none hmetric
      dsimp only
      cases hcode : stripPrefix "__QZ_WARNING__ ".toList line with
      | some code =>
          rw [stripPrefix_other hcode (by decide) (by decide), Option.any_none] at herror
          rw [stripPrefix_other hcode (by decide) (by decide), Option.any_none] at hunsupported
          rw [hcode, Option.any_some] at hwarning
          dsimp only
          by_cases hknown : knownWarnings.contains code = true
          · rw [if_pos hknown]
            exact
              { errors := by rw [herror, Bool.not_false, Bool.and_true]
                warnings := by rw [hwarning, hknown, Bool.not_true, Bool.and_false]; rfl
                unsupported := by rw [hunsupported, Bool.not_false, Bool.and_true]
                disk := by rw [hdisk, Option.none_or] }
          · rw [if_neg hknown]
            exact .nothing herror (hwarning.trans (Bool.eq_false_iff.mpr hknown)) hunsupported hdisk
      | none =>
          rw [hcode, Option.any_none] at hwarning
          dsimp only
          cases hcode' : stripPrefix "__QZ_ERROR__ ".toList line with
          | some code =>
              rw [stripPrefix_other hcode' (by decide) (by decide), Option.any_none] at hunsupported
              rw [hcode', Option.any_some] at herror
              dsimp only
              by_cases hknown : knownErrors.contains code = true
              · rw [if_pos hknown]
                exact
                  { errors := by rw [herror, hknown, Bool.not_true, Bool.and_false]; rfl
                    warnings := by rw [hwarning, Bool.not_false, Bool.and_true]
                    unsupported := by rw [hunsupported, Bool.not_false, Bool.and_true]
                    disk := by rw [hdisk, Option.none_or] }
              · rw [if_neg hknown]
                exact .nothing (herror.trans (Bool.eq_false_iff.mpr hknown)) hwarning hunsupported hdisk
          | none =>
              rw [hcode', Option.any_none] at herror
              dsimp only
              cases hcapability : stripPrefix "__QZ_UNSUPPORTED__ ".toList line with
              | some capability =>
                  rw [hcapability, Option.any_some] at hunsupported
                  dsimp only
                  by_cases hvalid : validMarkerToken capability = true
                  · rw [if_pos hvalid]
                    exact
                      { errors := by rw [herror, Bool.not_false, Bool.and_true]
                        warnings := by rw [hwarning, Bool.not_false, Bool.and_true]
                        unsupported := by rw [hunsupported, hvalid, Bool.not_true, Bool.and_false]; rfl
                        disk := by rw [hdisk, Option.none_or] }
                  · rw [if_neg hvalid]
                    exact .nothing herror hwarning
                      (hunsupported.trans (Bool.eq_false_iff.mpr hvalid)) hdisk
              | none =>
                  rw [hcapability, Option.any_none] at hunsupported
                  exact .nothing herror hwarning hunsupported hdisk

/-- What reading lines adds. -/
structure ReadsAll (markers : Markers) (ls : List Text) (after : Markers) : Prop where
  errors : after.errorCodes.isEmpty = (markers.errorCodes.isEmpty && !ls.any isErrorLine)
  warnings : after.warningCodes.isEmpty = (markers.warningCodes.isEmpty && !ls.any isWarningLine)
  unsupported : after.unsupported.isEmpty = (markers.unsupported.isEmpty && !ls.any isUnsupportedLine)
  disk : after.metrics.get? "disk_percent".toList
    = (ls.filterMap diskValue).getLast?.or (markers.metrics.get? "disk_percent".toList)

theorem readsAll (ls : List Text) (markers : Markers) :
    ReadsAll markers ls (ls.foldl Markers.read markers) := by
  induction ls generalizing markers with
  | nil => exact ⟨by simp, by simp, by simp, rfl⟩
  | cons line ls ih =>
      have hline := reads markers line
      have hrest := ih (markers.read line)
      refine ⟨?_, ?_, ?_, ?_⟩
      · rw [List.foldl_cons, hrest.errors, hline.errors, List.any_cons, Bool.not_or, Bool.and_assoc]
      · rw [List.foldl_cons, hrest.warnings, hline.warnings, List.any_cons, Bool.not_or, Bool.and_assoc]
      · rw [List.foldl_cons, hrest.unsupported, hline.unsupported, List.any_cons, Bool.not_or,
          Bool.and_assoc]
      · rw [List.foldl_cons, hrest.disk, hline.disk, List.filterMap_cons]
        -- the last value that was reported counts
        cases hvalue : diskValue line with
        | none => rw [Option.none_or]
        | some value =>
            rw [List.getLast?_cons]
            cases (ls.filterMap diskValue).getLast? <;> rfl

/-! ## §3. Lines and texts. -/

/-- What does not hold a symbol is on one side of it. -/
theorem infix_append_cons {α : Type} {pat before after : List α} {c : α} (hc : c ∉ pat) :
    pat <:+: before ++ c :: after ↔ pat <:+: before ∨ pat <:+: after := by
  have hstart : ∀ {p : List α}, c ∉ p → p <+: c :: after → p = [] := by
    intro p hp hfront
    rcases List.prefix_cons_iff.mp hfront with hnil | ⟨rest, rfl, _⟩
    · exact hnil
    · exact absurd List.mem_cons_self hp
  rw [List.infix_append_iff]
  constructor
  · rintro (hin | hin | ⟨left, right, rfl, hleft, hright⟩)
    · exact .inl hin
    · rcases List.infix_cons_iff.mp hin with hfront | hin
      · rw [hstart hc hfront]
        exact .inl List.nil_infix
      · exact .inr hin
    · obtain rfl := hstart (fun hmem => hc (List.mem_append_right left hmem)) hright
      rw [List.append_nil]
      exact .inl hleft.isInfix
  · rintro (hin | hin)
    · exact .inl hin
    · exact .inr (.inl (List.infix_cons hin))

/-- A text holds what one of its lines holds. -/
theorem infix_linesFrom (f : Char → Char) {pat : Text} (hnonempty : pat ≠ []) (hend : f '\n' ∉ pat)
    (hreturn : f '\r' ∉ pat) (text current : Text) :
    pat <:+: (current ++ text).map f ↔ ∃ line ∈ linesFrom current text, pat <:+: line.map f := by
  have hstrip : ∀ line : Text, pat <:+: (stripReturn line).map f ↔ pat <:+: line.map f := by
    intro line
    unfold stripReturn
    split
    next hlast =>
      obtain ⟨start, rfl⟩ := List.getLast?_eq_some_iff.mp hlast
      rw [List.dropLast_concat, List.map_append, List.map_singleton, infix_append_cons hreturn]
      simp [hnonempty]
    next => exact Iff.rfl
  induction text generalizing current with
  | nil =>
      rw [List.append_nil]
      unfold linesFrom
      by_cases hempty : current = []
      · subst hempty
        simp [hnonempty]
      · rw [if_neg (by simpa using hempty)]
        simp
  | cons c text ih =>
      unfold linesFrom
      by_cases hc : c = '\n'
      · have hrest := ih []
        rw [List.nil_append] at hrest
        rw [if_pos hc, List.exists_mem_cons_iff, hstrip, List.map_append, List.map_cons, hc,
          infix_append_cons hend]
        exact or_congr_right hrest
      · have hrest := ih (current ++ [c])
        rw [List.append_assoc, List.singleton_append] at hrest
        rw [if_neg hc]
        exact hrest

theorem contains_lines (f : Char → Char) {pat : Text} (hnonempty : pat ≠ []) (hend : f '\n' ∉ pat)
    (hreturn : f '\r' ∉ pat) (text : Text) :
    contains (text.map f) pat = (lines text).any fun line => contains (line.map f) pat := by
  rw [Bool.eq_iff_iff, Text.contains_eq_true, List.any_eq_true]
  have h := infix_linesFrom f hnonempty hend hreturn text []
  rw [List.nil_append] at h
  simp only [Text.contains_eq_true]
  exact h

theorem linesFrom_ended (text rest current : Text) (h : EndsLine text) (hcurrent : text = [] → current = []) :
    linesFrom current (text ++ rest) = linesFrom current text ++ lines rest := by
  induction text generalizing current with
  | nil =>
      rw [hcurrent rfl]
      rfl
  | cons c text ih =>
      have hrest : EndsLine text := h.of_suffix (List.suffix_cons c text)
      rw [List.cons_append]
      unfold linesFrom
      by_cases hc : c = '\n'
      · rw [if_pos hc, if_pos hc, ih [] hrest fun _ => rfl, List.cons_append]
      · rw [if_neg hc, if_neg hc]
        refine ih (current ++ [c]) hrest fun hnil => ?_
        subst hnil
        exact absurd (h c rfl) hc

theorem linesFrom_plain {text : Text} (h : '\n' ∉ text) (current : Text) :
    linesFrom current text = if (current ++ text).isEmpty then [] else [current ++ text] := by
  induction text generalizing current with
  | nil =>
      rw [List.append_nil]
      rfl
  | cons c text ih =>
      rw [List.mem_cons, not_or] at h
      show (if c = '\n' then _ else linesFrom (current ++ [c]) text) = _
      rw [if_neg (Ne.symm h.1), ih h.2, List.append_assoc, List.singleton_append]

/-- After a line that has ended, new lines begin. -/
theorem lines_append {text : Text} (h : EndsLine text) (rest : Text) :
    lines (text ++ rest) = lines text ++ lines rest := linesFrom_ended text rest [] h fun _ => rfl

/-! ## §4. What the conclusion is drawn from. -/

theorem any_and_left {α : Type} (b : Bool) (f : α → Bool) (l : List α) :
    (l.any fun a => b && f a) = (b && l.any f) := by
  cases b
  · exact List.any_eq_false.mpr fun _ _ => by simp
  · rfl

theorem any_or {α : Type} (f g : α → Bool) (l : List α) :
    (l.any fun a => f a || g a) = (l.any f || l.any g) := by
  induction l with
  | nil => rfl
  | cons a l ih =>
      rw [List.any_cons, List.any_cons, List.any_cons, ih]
      cases f a <;> cases g a <;> simp

theorem udpInconclusive_lines (parser : ResultParserKind) (details : Text) :
    udpInconclusive parser details = (lines details).any (isNoResponse parser) :=
  (any_and_left _ _ _).symm

theorem indicator_lines (parser : ResultParserKind) (details : Text) :
    ((parser == .serviceStatus
        && (contains details "ActiveState=failed".toList
          || contains details "ActiveState=inactive".toList))
      || (parser == .containerStatus && contains (details.map toAsciiLower) "unhealthy".toList))
      = (lines details).any (isIndicator parser) := by
  have hfailed := @contains_lines id "ActiveState=failed".toList (by decide) (by decide) (by decide)
    details
  have hinactive := @contains_lines id "ActiveState=inactive".toList (by decide) (by decide)
    (by decide) details
  have hunhealthy := @contains_lines toAsciiLower "unhealthy".toList (by decide) (by decide)
    (by decide) details
  simp only [List.map_id] at hfailed hinactive
  unfold isIndicator
  rw [hfailed, hinactive, hunhealthy, any_or, any_and_left, any_and_left, any_or]

theorem readMarkers_spec (parser : ResultParserKind) (details : Text) :
    (readMarkers parser details).errorCodes.isEmpty = !(lines details).any isErrorLine
      ∧ (readMarkers parser details).warningCodes.isEmpty = !hasWarning parser (lines details)
      ∧ (readMarkers parser details).unsupported.isEmpty = !(lines details).any isUnsupportedLine := by
  have hread := readsAll (lines details) ⟨OrdMap.empty, [], [], []⟩
  refine ⟨hread.errors, ?_, hread.unsupported⟩
  have hdisk := hread.disk
  have hwarnings := hread.warnings
  rw [OrdMap.get?_empty, Option.or_none] at hdisk
  unfold hasWarning
  rw [← indicator_lines]
  unfold readMarkers diskFull
  dsimp only
  have happend : ∀ a b : List Text, (a ++ b).isEmpty = (a.isEmpty && b.isEmpty) := by
    intro a b
    cases a <;> rfl
  rw [hdisk, happend, happend, happend, hwarnings]
  generalize ((((lines details).filterMap diskValue).getLast?.bind (parseUnsigned 256)).any fun value =>
    decide (90 ≤ value)) = full
  generalize (parser == .serviceStatus && _) = stopped
  generalize (parser == .containerStatus && _) = unhealthy
  generalize (lines details).any isWarningLine = warned
  cases full <;> cases stopped <;> cases unhealthy <;> cases warned <;> rfl

/-- **The conclusion is that of the lines of the details.** -/
theorem parseResult_status (parser : ResultParserKind) (raw : Text) (redactor : Redactor) :
    (parseResult parser raw redactor).status
      = conclusionOf parser (lines (technicalDetails raw redactor)) := by
  unfold parseResult
  dsimp only
  generalize technicalDetails raw redactor = details
  obtain ⟨herror, hwarning, hunsupported⟩ := readMarkers_spec parser details
  have hdisk : (readMarkers parser details).warningCodes.contains "disk_usage".toList = true →
      hasWarning parser (lines details) = true := by
    intro hmem
    have hnonempty : (readMarkers parser details).warningCodes.isEmpty = false := by
      rw [List.isEmpty_eq_false_iff_exists_mem]
      exact ⟨_, List.contains_iff_mem.mp hmem⟩
    rw [hwarning] at hnonempty
    simpa using hnonempty
  unfold conclude conclusionOf
  rw [herror, hwarning, hunsupported, Bool.not_not, Bool.not_not, Bool.not_not, udpInconclusive_lines]
  split
  · rfl
  · split
    · rfl
    · split
      next hmem => rw [if_pos (hdisk hmem)]
      next =>
        split
        · rfl
        · split <;> rfl

/-! ## §5. The whole output. -/

/-- A conclusion that accounts for every line of the output. -/
structure Covers (parser : ResultParserKind) (output : Text) (status : OperationConclusion) : Prop where
  failed : status = .failed ↔ ∃ line ∈ lines output, isErrorLine line = true
  noResponse : (lines output).any isErrorLine = false →
    (lines output).any (isNoResponse parser) = true → status = .uncertain
  warned : (lines output).any isErrorLine = false →
    (lines output).any (isNoResponse parser) = false → hasWarning parser (lines output) = true →
    status = .warning
  unsupported : (lines output).any isErrorLine = false →
    (lines output).any (isNoResponse parser) = false → hasWarning parser (lines output) = false →
    (lines output).any isUnsupportedLine = true → status = .uncertain
  clear : (lines output).any isErrorLine = false →
    (lines output).any (isNoResponse parser) = false → hasWarning parser (lines output) = false →
    (lines output).any isUnsupportedLine = false → status = .normal

theorem covers_iff {parser : ResultParserKind} {output : Text} {status : OperationConclusion} :
    Covers parser output status ↔ status = conclusionOf parser (lines output) := by
  unfold conclusionOf
  constructor
  · intro h
    cases herror : (lines output).any isErrorLine with
    | true => exact h.failed.mpr (List.any_eq_true.mp herror)
    | false =>
    cases hsilent : (lines output).any (isNoResponse parser) with
    | true => exact h.noResponse herror hsilent
    | false =>
    cases hwarning : hasWarning parser (lines output) with
    | true => exact h.warned herror hsilent hwarning
    | false =>
    cases hunsupported : (lines output).any isUnsupportedLine with
    | true => exact h.unsupported herror hsilent hwarning hunsupported
    | false => exact h.clear herror hsilent hwarning hunsupported
  · intro h
    refine { failed := ?_, noResponse := ?_, warned := ?_, unsupported := ?_, clear := ?_ }
    · rw [← List.any_eq_true, h]
      cases (lines output).any isErrorLine
      · cases (lines output).any (isNoResponse parser) <;> cases hasWarning parser (lines output) <;>
          cases (lines output).any isUnsupportedLine <;> simp
      · simp
    · intro herror hsilent
      simpa [herror, hsilent] using h
    · intro herror hsilent hwarning
      simpa [herror, hsilent, hwarning] using h
    · intro herror hsilent hwarning hunsupported
      simpa [herror, hsilent, hwarning, hunsupported] using h
    · intro herror hsilent hwarning hunsupported
      simpa [herror, hsilent, hwarning, hunsupported] using h

/-- The output is no longer than what is kept, or the lines that are kept, with the last of
them cut off, call for the conclusion that all lines call for. -/
def DecidedEarly (parser : ResultParserKind) (output : Text) : Prop :=
  utf8Len output ≤ maxTechnicalDetailsBytes
    ∨ conclusionOf parser (lines (takeUtf8 maxTechnicalDetailsBytes output))
      = conclusionOf parser (lines output)

/-- A line that nothing is concluded from. -/
structure Ordinary (parser : ResultParserKind) (line : Text) : Prop where
  error : isErrorLine line = false
  warning : isWarningLine line = false
  unsupported : isUnsupportedLine line = false
  disk : diskValue line = none
  silent : isNoResponse parser line = false
  indicator : isIndicator parser line = false

/-- The second output has more ordinary lines. -/
def AddsOrdinary (parser : ResultParserKind) (output output' : Text) : Prop :=
  ∃ before ordinary after, output = before ++ after ∧ output' = before ++ (ordinary ++ after)
    ∧ EndsLine before ∧ EndsLine ordinary ∧ ∀ line ∈ lines ordinary, Ordinary parser line

/-- **Ordinary lines do not count.** -/
theorem conclusionOf_ordinary {parser : ResultParserKind} {ordinary : List Text}
    (h : ∀ line ∈ ordinary, Ordinary parser line) (before after : List Text) :
    conclusionOf parser (before ++ (ordinary ++ after)) = conclusionOf parser (before ++ after) := by
  have herror : ordinary.any isErrorLine = false :=
    List.any_eq_false.mpr fun line hline => by rw [(h line hline).error]; decide
  have hwarning : ordinary.any isWarningLine = false :=
    List.any_eq_false.mpr fun line hline => by rw [(h line hline).warning]; decide
  have hunsupported : ordinary.any isUnsupportedLine = false :=
    List.any_eq_false.mpr fun line hline => by rw [(h line hline).unsupported]; decide
  have hsilent : ordinary.any (isNoResponse parser) = false :=
    List.any_eq_false.mpr fun line hline => by rw [(h line hline).silent]; decide
  have hindicator : ordinary.any (isIndicator parser) = false :=
    List.any_eq_false.mpr fun line hline => by rw [(h line hline).indicator]; decide
  have hdisk : ordinary.filterMap diskValue = [] :=
    List.filterMap_eq_nil_iff.mpr fun line hline => (h line hline).disk
  unfold conclusionOf hasWarning diskFull
  simp only [List.any_append, List.filterMap_append, herror, hwarning, hunsupported, hsilent,
    hindicator, hdisk, Bool.false_or, List.nil_append]

theorem AddsOrdinary.conclusionOf_eq {parser : ResultParserKind} {output output' : Text}
    (h : AddsOrdinary parser output output') :
    conclusionOf parser (lines output') = conclusionOf parser (lines output) := by
  obtain ⟨before, ordinary, after, rfl, rfl, hbefore, hordinary, hlines⟩ := h
  rw [lines_append hbefore, lines_append hbefore, lines_append hordinary]
  exact conclusionOf_ordinary hlines _ _

/-- What is concluded, and when it is concluded from the whole output. -/
theorem status_iff (parser : ResultParserKind) (raw : Text) (redactor : Redactor) :
    (parseResult parser raw redactor).status = conclusionOf parser (lines (redactor.redact raw))
      ↔ DecidedEarly parser (redactor.redact raw) := by
  rw [parseResult_status]
  unfold technicalDetails DecidedEarly
  constructor
  · exact Or.inr
  · rintro (hshort | hsame)
    · rw [takeUtf8_of_le hshort]
    · exact hsame

/-- A line that begins like no marker is ordinary for the parsers without indicators. -/
theorem ordinary_text {line : Text} (h : ∀ c ∈ line.head?, c ≠ '_') : Ordinary .text line := by
  have hnone : ∀ mark : Text, mark.head? = some '_' → stripPrefix mark line = none := by
    intro mark hmark
    rw [stripPrefix_eq_none]
    rintro ⟨rest, rfl⟩
    refine h '_' ?_ rfl
    rw [List.head?_append, hmark]
    rfl
  refine { error := ?_, warning := ?_, unsupported := ?_, disk := ?_, silent := rfl, indicator := rfl }
  · exact (any_marker _ _ _).trans (by rw [hnone _ rfl]; rfl)
  · exact (any_marker _ _ _).trans (by rw [hnone _ rfl]; rfl)
  · unfold isUnsupportedLine
    rw [hnone _ rfl]
    rfl
  · unfold diskValue
    rw [hnone _ rfl]
    rfl

/-- An error marker, after a line as long as what is kept. -/
def lateError : Text :=
  List.replicate 65536 'a' ++ '\n' :: "__QZ_ERROR__ process_not_found\n".toList

theorem takeUtf8_replicate (n : Nat) (rest : Text) :
    takeUtf8 n (List.replicate n 'a' ++ rest) = List.replicate n 'a' := by
  have hnone : takeUtf8 0 rest = [] := by
    cases rest with
    | nil => rfl
    | cons c rest => exact if_neg (Nat.not_le.mpr c.utf8Size_pos)
  have hlen : utf8Len (List.replicate n 'a') = n :=
    (utf8Len_replicate n 'a').trans (Nat.mul_one n)
  rw [takeUtf8_append hlen.le, hlen, Nat.sub_self, hnone, List.append_nil]

/-- No secrets. -/
def plainRedactor : Redactor where
  runtimeSecrets := []
  nonempty := Core.Redaction.nonempty_of_none

theorem redact_lateError : plainRedactor.redact lateError = lateError := by
  have hchars : ∀ c ∈ lateError,
      c = 'a' ∨ c ∈ '\n' :: "__QZ_ERROR__ process_not_found\n".toList := by
    intro c hc
    rcases List.mem_append.mp hc with hc | hc
    · exact .inl (List.mem_replicate.mp hc).2
    · exact .inr hc
  refine Redaction.redact_plain rfl ⟨'-', by decide, fun hmem => ?_⟩ fun c hc => ?_
  · rcases hchars _ hmem with h | h
    · exact absurd h (by decide)
    · exact absurd h (by decide)
  · rcases hchars c hc with rfl | h
    · exact ⟨by decide, by decide⟩
    · exact (by decide : ∀ c ∈ '\n' :: "__QZ_ERROR__ process_not_found\n".toList, c ≠ '=' ∧ c ≠ ':') c h

end QingzhouSSH.Core.Tasks
