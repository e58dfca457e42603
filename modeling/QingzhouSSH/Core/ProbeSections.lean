/-
  QingzhouSSH.Core.ProbeSections — what the parser makes of the text that the probe prints.

  Five sections of the probe end their line only where the command inside them does: the
  default interface, the time zone, the time and the two NTP flags.  One that does not swallows
  the section after it.

  Main results:
    * `parseProbe_output` — the parser's result on what a host prints;
    * `probe_recovers_iff` — when every field is what its own command printed.
-/
import QingzhouSSH.Core.SystemProbe

namespace QingzhouSSH.Core.SystemProbe

open String (utf8Len)
open QingzhouSSH.Lib.Text (splitFirst splitFirst_append splitFirst_append_of_some
  splitFirst_append_of_none splitFirst_singleton splitFirst_none)
open QingzhouSSH.Lib.Sections
open QingzhouSSH.Core.Logs (lines stripReturn)
open QingzhouSSH.Core.Tasks

/-! ## §1. Trimmed texts. -/

theorem count_dropWhile {p : Char → Bool} {c : Char} (hc : p c = false) (s : Text) :
    (s.dropWhile p).count c = s.count c := by
  induction s with
  | nil => rfl
  | cons d s ih =>
      by_cases hd : p d
      · have hne : d ≠ c := fun heq => by simp [heq, hc] at hd
        rw [List.dropWhile_cons_of_pos hd, ih, List.count_cons_of_ne hne]
      · rw [List.dropWhile_cons_of_neg hd]

theorem count_rdropWhile {p : Char → Bool} {c : Char} (hc : p c = false) (s : Text) :
    (s.rdropWhile p).count c = s.count c := by
  rw [List.rdropWhile, List.count_reverse, count_dropWhile hc, List.count_reverse]

/-- Only white space and quotes are taken off. -/
theorem count_unquote {c : Char} (hspace : isWhitespace c = false) (hquote : isDoubleQuote c = false)
    (s : Text) : (unquote s).count c = s.count c := by
  rw [unquote, count_rdropWhile hquote, count_dropWhile hquote, trim, count_rdropWhile hspace,
    count_dropWhile hspace]

theorem trim_concat {c : Char} (hc : isWhitespace c = true) (s : Text) :
    trim (s ++ [c]) = trim s := by
  unfold trim
  rw [List.dropWhile_append]
  by_cases hblank : (s.dropWhile isWhitespace).isEmpty = true
  · rw [if_pos hblank, List.isEmpty_iff.mp hblank, List.dropWhile_cons_of_pos hc]
    rfl
  · rw [if_neg hblank, List.rdropWhile_concat_pos _ _ _ hc]

/-! ## §2. Entries of lines. -/

theorem entry_line {key : Text} (hsep : '=' ∉ key) (htrim : trim key = key) (value : Text) :
    entry (key ++ '=' :: value) = some (key, unquote value) := by
  show (splitFirst ['='] (key ++ '=' :: value)).map _ = _
  rw [splitFirst_singleton hsep]
  show some (trim key, unquote value) = _
  rw [htrim]

/-- A carriage return at the end of a line is taken off with the white space. -/
theorem entry_stripReturn (line : Text) : entry (stripReturn line) = entry line := by
  unfold stripReturn
  by_cases hlast : line.getLast? = some '\r'
  · rw [if_pos hlast]
    obtain ⟨front, rfl⟩ := List.getLast?_eq_some_iff.mp hlast
    rw [List.dropLast_concat]
    show (splitFirst ['='] front).map _ = (splitFirst ['='] (front ++ ['\r'])).map _
    cases hsplit : splitFirst ['='] front with
    | none =>
        have hfront : '=' ∉ front := fun hmem =>
          splitFirst_none.mp hsplit ((List.singleton_infix_iff _ _).mpr hmem)
        have hnone : splitFirst ['='] (front ++ ['\r']) = none := by
          refine splitFirst_none.mpr fun hinfix => ?_
          simpa [hfront] using (List.singleton_infix_iff _ _).mp hinfix
        rw [hnone]
    | some parts =>
        obtain ⟨key, value⟩ := parts
        rw [splitFirst_append_of_some _ hsplit]
        show some (trim key, unquote value) = some (trim key, unquote (value ++ ['\r']))
        unfold unquote
        rw [trim_concat (by decide)]
  · rw [if_neg hlast]

theorem entries_linesFrom (current text : Text) :
    (Logs.linesFrom current text).filterMap entry = (linesFrom '\n' current text).filterMap entry := by
  induction text generalizing current with
  | nil => rfl
  | cons c rest ih =>
      rw [Logs.linesFrom, linesFrom]
      by_cases hc : c = '\n'
      · rw [if_pos hc, if_pos hc, List.filterMap_cons, List.filterMap_cons, entry_stripReturn, ih]
      · rw [if_neg hc, if_neg hc, ih]

theorem keyValues_eq (block : Text) :
    keyValues block = (linesFrom '\n' [] block).filterMap entry := entries_linesFrom [] block

/-- A cut after a line end: what stands behind it goes first. -/
theorem valueOf_append_ended (block rest key : Text) :
    valueOf (block ++ '\n' :: rest) key = (valueOf rest key).or (valueOf (block ++ ['\n']) key) := by
  unfold valueOf
  rw [keyValues_eq, keyValues_eq, keyValues_eq, linesFrom_append_ended, List.filterMap_append,
    lookupLast_append]

/-- A key of a section: it is read as it is printed. -/
def PlainKey (key : Text) : Prop := '=' ∉ key ∧ '\n' ∉ key ∧ trim key = key

instance (key : Text) : Decidable (PlainKey key) :=
  inferInstanceAs (Decidable (_ ∧ _ ∧ _))

/-- **What is read under a key, from sections of one line each.** -/
theorem valueOf_printAll {ss : List (Section Char)} (hplain : ∀ s ∈ ss, PlainKey s.key)
    (hone : ∀ s ∈ ss, '\n' ∉ s.text) (hkeys : (ss.map Section.key).Nodup) (key : Text) :
    valueOf (printAll '=' '\n' ss) key = (standing '=' true ss key).map unquote := by
  have hlines : linesFrom '\n' [] (printAll '=' '\n' ss)
      = (runs '=' true ss).map fun e => e.1 ++ '=' :: e.2 :=
    (linesFrom_printAll (by decide) fun s hs => ⟨(hplain s hs).2.1, hone s hs⟩).1
  -- every line is read as the key it starts with and its value
  have hentries : ((runs '=' true ss).map fun e => e.1 ++ '=' :: e.2).filterMap entry
      = (runs '=' true ss).map fun e => (e.1, unquote e.2) := by
    rw [List.filterMap_map, ← List.filterMap_eq_map]
    refine List.filterMap_congr fun e he => ?_
    obtain ⟨s, hs, hkey⟩ := List.mem_map.mp (mem_runs he)
    obtain ⟨hsep, -, htrim⟩ := hkey ▸ hplain s hs
    exact entry_line hsep htrim e.2
  unfold valueOf
  rw [keyValues_eq, hlines, hentries, lookupLast_map, lookupLast_runs hkeys]

/-! ## §3. The sections of a host. -/

namespace Host

variable (host : Host)

theorem namesList_oneLine {names : List Text} (h : ∀ name ∈ names, '\n' ∉ name) :
    '\n' ∉ namesList names := by
  intro hmem
  obtain ⟨name, hname, hin⟩ := List.mem_flatMap.mp hmem
  rcases List.mem_append.mp hin with hin | hin
  · exact h name hname hin
  · simp at hin

theorem readNames_oneLine (text : Text) : ∀ name ∈ readNames text, '\n' ∉ name := by
  intro name hname
  exact readLines_oneLine List.not_mem_nil name (List.mem_filter.mp hname).1

theorem containersText_oneLine : '\n' ∉ host.containersText := by
  unfold containersText
  by_cases hdocker : host.installed "docker".toList = true
  · rw [if_pos hdocker]
    exact namesList_oneLine (readNames_oneLine _)
  · rw [if_neg hdocker]
    by_cases hpodman : host.installed "podman".toList = true
    · rw [if_pos hpodman]
      exact namesList_oneLine (readNames_oneLine _)
    · rw [if_neg hpodman]
      exact List.not_mem_nil

theorem ofIp_oneLine (line : Line) : '\n' ∉ host.ofIp line := by
  unfold ofIp
  by_cases hip : host.installed "ip".toList = true
  · rw [if_pos hip]
    exact line.oneLine
  · rw [if_neg hip]
    exact List.not_mem_nil

theorem optionLine_oneLine (line : Option Line) : '\n' ∉ (line.map Line.text).getD [] := by
  cases line with
  | none => exact List.not_mem_nil
  | some line => exact line.oneLine

theorem timezonesText_oneLine : '\n' ∉ host.timezonesText := by
  unfold timezonesText
  by_cases htimedatectl : host.installed "timedatectl".toList = true
  · rw [if_pos htimedatectl]
    exact host.zoneNames.oneLine
  · rw [if_neg htimedatectl]
    exact List.not_mem_nil

theorem sections_keys : (host.sections.map Section.key) =
    ["CONTAINERS".toList, "INTERFACES".toList, "ACTIVE_INTERFACES".toList,
      "DEFAULT_INTERFACE".toList, "ADDRESSES".toList, "GATEWAYS4".toList, "GATEWAYS6".toList,
      "DNS_SERVERS".toList, "CURRENT_TIMEZONE".toList, "CURRENT_TIME".toList,
      "NTP_ENABLED".toList, "NTP_SYNCHRONIZED".toList, "TIMEZONES".toList] := rfl

theorem sections_plain : ∀ s ∈ host.sections, PlainKey s.key := by
  intro s hs
  have hkey : s.key ∈ host.sections.map Section.key := List.mem_map_of_mem hs
  rw [sections_keys] at hkey
  have hplain : ∀ key ∈ ["CONTAINERS".toList, "INTERFACES".toList, "ACTIVE_INTERFACES".toList,
      "DEFAULT_INTERFACE".toList, "ADDRESSES".toList, "GATEWAYS4".toList, "GATEWAYS6".toList,
      "DNS_SERVERS".toList, "CURRENT_TIMEZONE".toList, "CURRENT_TIME".toList,
      "NTP_ENABLED".toList, "NTP_SYNCHRONIZED".toList, "TIMEZONES".toList], PlainKey key := by
    decide
  exact hplain s.key hkey

theorem sections_oneLine : ∀ s ∈ host.sections, '\n' ∉ s.text := by
  simp only [sections, List.mem_cons, List.not_mem_nil, or_false, forall_eq_or_imp, forall_eq]
  exact ⟨host.containersText_oneLine, host.ofIp_oneLine _, host.ofIp_oneLine _,
    optionLine_oneLine _, host.ofIp_oneLine _, host.ofIp_oneLine _, host.ofIp_oneLine _,
    optionLine_oneLine _, host.timezone.oneLine, host.date.oneLine,
    (host.ofTimedatectl _).oneLine, (host.ofTimedatectl _).oneLine, host.timezonesText_oneLine⟩

/-- The block of the release file and what stands before the mark that the probe prints: empty,
unless the release file has an end mark of its own. -/
def release : Text × Text :=
  (splitFirst endMark ('\n' :: (host.osRelease.getD [] ++ endMark))).getD ([], [])

/-- All that is read as capabilities and printed before the sections. -/
def earlier : Text := host.release.2 ++ '\n' :: (host.preamble ++ host.lists)

theorem earlier_ended : ∃ front, host.earlier = front ++ ['\n'] := by
  have hlists : host.lists = "COMMANDS=".toList ++ host.commandsText ++ "\nSERVICES=".toList
      ++ host.servicesText ++ ['\n'] := rfl
  refine ⟨host.release.2 ++ '\n' :: (host.preamble ++ ("COMMANDS=".toList ++ host.commandsText
    ++ "\nSERVICES=".toList ++ host.servicesText)), ?_⟩
  rw [earlier, hlists]
  generalize "COMMANDS=".toList ++ host.commandsText ++ "\nSERVICES=".toList
    ++ host.servicesText = before
  simp only [List.append_assoc, List.cons_append]

/-- What already stands under a key when the sections begin. -/
def carried (key : Text) : Option Text := valueOf host.earlier key

/-- What the parser finds under a key of the capabilities. -/
def found (key : Text) : Option Text :=
  ((standing '=' true host.sections key).map unquote).or (host.carried key)

theorem valueOf_block (key : Text) :
    valueOf (host.earlier ++ printAll '=' '\n' host.sections) key = host.found key := by
  obtain ⟨front, hfront⟩ := host.earlier_ended
  have hnodup : (host.sections.map Section.key).Nodup := by
    rw [sections_keys]
    decide
  rw [hfront, List.append_assoc]
  show valueOf (front ++ '\n' :: printAll '=' '\n' host.sections) key = _
  rw [valueOf_append_ended, ← hfront,
    valueOf_printAll host.sections_plain host.sections_oneLine hnodup]
  rfl

/-- The name of the kernel, as the parser reads it. -/
def kernel : Text := ((host.carried "UNAME_SYSTEM".toList).getD []).map toAsciiLower

/-- The id of the host's system, if it can be identified. -/
def osId : Option Text := osIdOf (valueOf host.release.1 "ID".toList) host.kernel

end Host

/-- **The parser's result on what a host prints.** -/
theorem parseProbe_output (host : Host) :
    parseProbe host.output = match host.osId with
      | none => .error (.validation "无法识别系统 ID".toList)
      | some osId =>
          .ok (capabilitiesOf (valueOf host.release.1) host.found host.kernel osId) := by
  have hbegin : splitFirst beginMark host.output = some ([], '\n' :: (host.osRelease.getD []
      ++ endMark ++ '\n' :: (host.preamble ++ host.lists ++ printAll '=' '\n' host.sections))) := by
    have hnothing : ∀ after a b : Text, [] = a ++ b → b ≠ [] →
        ¬ beginMark <+: b ++ (beginMark ++ after) :=
      fun after a b hab hb => absurd (List.append_eq_nil_iff.mp hab.symm).2 hb
    exact splitFirst_append (by decide) (hnothing _)
  -- the printed end mark is there, so the first end mark is not after it
  have hend : splitFirst endMark ('\n' :: (host.osRelease.getD [] ++ endMark))
      = some (host.release.1, host.release.2) := by
    have hsome : splitFirst endMark ('\n' :: (host.osRelease.getD [] ++ endMark)) ≠ none :=
      fun hnone => splitFirst_none.mp hnone ⟨'\n' :: host.osRelease.getD [], [], by simp⟩
    obtain ⟨parts, hparts⟩ := Option.ne_none_iff_exists'.mp hsome
    rw [Host.release, hparts]
    rfl
  have hsplit := splitFirst_append_of_some
    ('\n' :: (host.preamble ++ host.lists ++ printAll '=' '\n' host.sections)) hend
  have hblock : host.release.2
        ++ '\n' :: (host.preamble ++ host.lists ++ printAll '=' '\n' host.sections)
      = host.earlier ++ printAll '=' '\n' host.sections := by
    rw [Host.earlier]
    simp only [List.append_assoc, List.cons_append]
  have hfound : valueOf (host.earlier ++ printAll '=' '\n' host.sections) = host.found :=
    funext host.valueOf_block
  have hkernel : host.found "UNAME_SYSTEM".toList = host.carried "UNAME_SYSTEM".toList := by
    simp [Host.found, Host.sections, standing]
  unfold parseProbe
  rw [hbegin]
  dsimp only
  rw [show '\n' :: (host.osRelease.getD [] ++ endMark
      ++ '\n' :: (host.preamble ++ host.lists ++ printAll '=' '\n' host.sections))
    = '\n' :: (host.osRelease.getD [] ++ endMark)
      ++ '\n' :: (host.preamble ++ host.lists ++ printAll '=' '\n' host.sections) from rfl, hsplit]
  dsimp only
  rw [hblock, hfound, hkernel]
  rfl

/-! ## §4. What is found under the key of each section. -/

/-- What a command printed, as it would be read on a line of its own. -/
def own (text : Text) : Option Text := some (unquote text)

namespace Host

variable (host : Host)

/-- What stands behind a section that does not end its line; the sections are numbered as they
are printed. -/
def behind (index : Nat) : Text := continued '=' (host.sections.drop (index + 1))

theorem found_containers : host.found "CONTAINERS".toList = own host.containersText := by
  simp [found, sections, standing, own]

theorem found_interfaces :
    host.found "INTERFACES".toList = own (host.ofIp host.linkNames) := by
  simp [found, sections, standing, own]

theorem found_activeInterfaces :
    host.found "ACTIVE_INTERFACES".toList = own (host.ofIp host.activeLinkNames) := by
  simp [found, sections, standing, own]

theorem found_defaultInterface : host.found "DEFAULT_INTERFACE".toList
    = own ((host.defaultInterface.map Line.text).getD []
      ++ if host.defaultInterface.isSome then [] else host.behind 3) := by
  simp [found, sections, standing, own, behind]

theorem found_addresses : host.found "ADDRESSES".toList
    = if host.defaultInterface.isSome then own (host.ofIp host.addressRecords)
      else host.carried "ADDRESSES".toList := by
  cases hdefault : host.defaultInterface.isSome <;>
    simp [found, sections, standing, own, hdefault]

theorem found_gateways4 :
    host.found "GATEWAYS4".toList = own (host.ofIp host.gateway4Records) := by
  simp [found, sections, standing, own]

theorem found_gateways6 :
    host.found "GATEWAYS6".toList = own (host.ofIp host.gateway6Records) := by
  simp [found, sections, standing, own]

theorem found_dnsServers :
    host.found "DNS_SERVERS".toList = own ((host.nameservers.map Line.text).getD []) := by
  simp [found, sections, standing, own]

theorem found_timezone : host.found "CURRENT_TIMEZONE".toList
    = own (host.timezone.text ++ if host.timezone.ended then [] else host.behind 8) := by
  simp [found, sections, standing, own, behind]

theorem found_time : host.found "CURRENT_TIME".toList
    = if host.timezone.ended then
        own (host.date.text ++ if host.date.ended then [] else host.behind 9)
      else host.carried "CURRENT_TIME".toList := by
  cases htimezone : host.timezone.ended <;>
    simp [found, sections, standing, own, behind, htimezone]

theorem found_ntpEnabled : host.found "NTP_ENABLED".toList
    = if host.date.ended then
        own ((host.ofTimedatectl host.timedatectlNtp).text
          ++ if (host.ofTimedatectl host.timedatectlNtp).ended then [] else host.behind 10)
      else host.carried "NTP_ENABLED".toList := by
  cases hdate : host.date.ended <;> simp [found, sections, standing, own, behind, hdate]

theorem found_ntpSynchronized : host.found "NTP_SYNCHRONIZED".toList
    = if (host.ofTimedatectl host.timedatectlNtp).ended then
        own ((host.ofTimedatectl host.timedatectlNtpSynchronized).text
          ++ if (host.ofTimedatectl host.timedatectlNtpSynchronized).ended then []
            else host.behind 11)
      else host.carried "NTP_SYNCHRONIZED".toList := by
  cases hntp : (host.ofTimedatectl host.timedatectlNtp).ended <;>
    simp [found, sections, standing, own, behind, hntp]

theorem found_timezones : host.found "TIMEZONES".toList
    = if (host.ofTimedatectl host.timedatectlNtpSynchronized).ended then own host.timezonesText
      else host.carried "TIMEZONES".toList := by
  cases hntp : (host.ofTimedatectl host.timedatectlNtpSynchronized).ended <;>
    simp [found, sections, standing, own, hntp]

/-- The two lists before the sections are not touched by them. -/
theorem found_lists : host.found "COMMANDS".toList = host.carried "COMMANDS".toList
    ∧ host.found "SERVICES".toList = host.carried "SERVICES".toList := by
  simp [found, sections, standing]

end Host

/-! ## §5. A value with another section behind it. -/

/-- A text that is continued has an equals sign. -/
theorem mem_unquote_continued (text : Text) (s : Section Char) (rest : List (Section Char)) :
    '=' ∈ unquote (text ++ continued '=' (s :: rest)) := by
  rw [← List.count_pos_iff, count_unquote (by decide) (by decide), List.count_pos_iff]
  simp [continued]

/-- It is not what was printed before it. -/
theorem unquote_continued_ne (text : Text) (s : Section Char) (rest : List (Section Char)) :
    unquote (text ++ continued '=' (s :: rest)) ≠ unquote text := by
  intro heq
  have hcount := congrArg (List.count '=') heq
  rw [count_unquote (by decide) (by decide), count_unquote (by decide) (by decide),
    List.count_append] at hcount
  have hpos : 0 < (continued '=' (s :: rest)).count '=' := by
    rw [List.count_pos_iff]
    simp [continued]
  omega

theorem takeDefaultInterface_eq {value : Text} (h : '=' ∈ value) :
    takeDefaultInterface (some value) = none := by
  have hname : isInterfaceName value = false := by
    rw [Bool.eq_false_iff]
    intro hname
    simp only [isInterfaceName, Bool.and_eq_true, List.all_eq_true] at hname
    exact absurd (hname.2 _ h) (by decide)
  simp [takeDefaultInterface, hname]

theorem takeTimezone_eq {value : Text} (h : '=' ∈ value) : takeTimezone (some value) = none := by
  have hname : isTimezoneName value = false := by
    rw [Bool.eq_false_iff]
    intro hname
    simp only [isTimezoneName, Bool.and_eq_true, List.all_eq_true] at hname
    exact absurd (hname.2 _ h) (by decide)
  simp [takeTimezone, hname]

/-- No word for yes or no has an equals sign. -/
theorem takeBool_eq {value : Text} (h : '=' ∈ value) : takeBool (some value) = none := by
  have hword : '=' ∈ (trim value).map toAsciiLower := by
    have htrim : '=' ∈ trim value := by
      rw [← List.count_pos_iff, trim, count_rdropWhile (by decide), count_dropWhile (by decide),
        List.count_pos_iff]
      exact h
    have hlower := List.mem_map_of_mem (f := toAsciiLower) htrim
    exact hlower
  have hnone : ∀ words : List Text, (∀ word ∈ words, '=' ∉ word) →
      words.contains ((trim value).map toAsciiLower) = false := by
    intro words hwords
    rw [Bool.eq_false_iff]
    intro hcontains
    exact hwords _ (List.contains_iff_mem.mp hcontains) hword
  have hyes := hnone ["yes".toList, "true".toList, "1".toList, "enabled".toList, "active".toList]
    (by decide)
  have hno := hnone ["no".toList, "false".toList, "0".toList, "disabled".toList,
    "inactive".toList] (by decide)
  rw [takeBool, hyes, hno]
  rfl

/-- A line with another section behind it is taken for the time unless it is too long. -/
theorem takeTime_continued (text : Text) (s : Section Char) (rest : List (Section Char)) :
    takeTime (own (text ++ continued '=' (s :: rest))) = takeTime (own text)
      ↔ takeTime (own text) = none
        ∧ 64 < utf8Len (unquote (text ++ continued '=' (s :: rest))) := by
  have hne : (unquote (text ++ continued '=' (s :: rest))).isEmpty = false := by
    rw [List.isEmpty_eq_false_iff]
    exact List.ne_nil_of_mem (mem_unquote_continued text s rest)
  have hother := unquote_continued_ne text s rest
  have htake : takeTime (own (text ++ continued '=' (s :: rest))) = none
      ↔ 64 < utf8Len (unquote (text ++ continued '=' (s :: rest))) := by
    simp [takeTime, own, Option.filter, hne]
  constructor
  · intro heq
    by_cases hnone : takeTime (own text) = none
    · exact ⟨hnone, htake.mp (heq.trans hnone)⟩
    · -- two times are the texts they were read from
      obtain ⟨time, htime⟩ := Option.ne_none_iff_exists'.mp hnone
      have hleft := Option.eq_some_of_filter_eq_some (heq.trans htime)
      have hright := Option.eq_some_of_filter_eq_some htime
      exact absurd (Option.some.inj (hleft.trans hright.symm)) hother
  · rintro ⟨hnone, hlong⟩
    rw [htake.mpr hlong, hnone]

/-! ## §6. What the parser recovers. -/

/-- Every field is what its own command printed, read by the field's own rules. -/
structure Recovers (host : Host) (capabilities : ProbedCapabilities) : Prop where
  commands : capabilities.commands = takeCsv (own host.commandsText)
  services : capabilities.services = takeCsv (own host.servicesText)
  containers : capabilities.containers = takeCsv (own host.containersText)
  interfaces : capabilities.interfaces
    = interfacesOf (takeCsv (own (host.ofIp host.linkNames)))
        (takeCsv (own (host.ofIp host.activeLinkNames)))
        (takeDefaultInterface (own ((host.defaultInterface.map Line.text).getD [])))
        (takeInterfaceRecords (own (host.ofIp host.addressRecords)))
        (takeInterfaceRecords (own (host.ofIp host.gateway4Records)))
        (takeInterfaceRecords (own (host.ofIp host.gateway6Records)))
  dnsServers : capabilities.dnsServers = takeCsv (own ((host.nameservers.map Line.text).getD []))
  currentTimezone : capabilities.currentTimezone = takeTimezone (own host.timezone.text)
  currentTime : capabilities.currentTime = takeTime (own host.date.text)
  ntpEnabled : capabilities.ntpEnabled
    = takeBool (own (host.ofTimedatectl host.timedatectlNtp).text)
  ntpSynchronized : capabilities.ntpSynchronized
    = takeBool (own (host.ofTimedatectl host.timedatectlNtpSynchronized).text)
  timezones : capabilities.timezones
    = takeTimezones (takeTimezone (own host.timezone.text)) (own host.timezonesText)

/-- The addresses that an interface is shown with. -/
def addressesOf (value : Option Text) (name : Text) : List Text :=
  interfaceValues (takeInterfaceRecords value) name

/-- A section ends its line, or neither it nor the section that it swallows has anything to say;
where a section is swallowed, what it says is what already stands under its key. -/
structure Separated (host : Host) : Prop where
  /-- No name of a script breaks its line so that another list is read. -/
  lists : takeCsv (host.carried "COMMANDS".toList) = takeCsv (own host.commandsText)
    ∧ takeCsv (host.carried "SERVICES".toList) = takeCsv (own host.servicesText)
  addresses : host.defaultInterface.isSome = true
    ∨ ∀ name ∈ (takeCsv (own (host.ofIp host.linkNames))).filter isInterfaceName,
        addressesOf (own (host.ofIp host.addressRecords)) name
          = addressesOf (host.carried "ADDRESSES".toList) name
  timezone : host.timezone.ended = true ∨ takeTimezone (own host.timezone.text) = none
  time : if host.timezone.ended then
      host.date.ended = true ∨ (takeTime (own host.date.text) = none
        ∧ 64 < utf8Len (unquote (host.date.text ++ host.behind 9)))
    else takeTime (own host.date.text) = takeTime (host.carried "CURRENT_TIME".toList)
  ntpEnabled : if host.date.ended then
      (host.ofTimedatectl host.timedatectlNtp).ended = true
        ∨ takeBool (own (host.ofTimedatectl host.timedatectlNtp).text) = none
    else takeBool (own (host.ofTimedatectl host.timedatectlNtp).text)
      = takeBool (host.carried "NTP_ENABLED".toList)
  ntpSynchronized : if (host.ofTimedatectl host.timedatectlNtp).ended then
      (host.ofTimedatectl host.timedatectlNtpSynchronized).ended = true
        ∨ takeBool (own (host.ofTimedatectl host.timedatectlNtpSynchronized).text) = none
    else takeBool (own (host.ofTimedatectl host.timedatectlNtpSynchronized).text)
      = takeBool (host.carried "NTP_SYNCHRONIZED".toList)
  timezones : (host.ofTimedatectl host.timedatectlNtpSynchronized).ended = true
    ∨ takeTimezones (takeTimezone (own host.timezone.text)) (own host.timezonesText)
      = takeTimezones (takeTimezone (own host.timezone.text))
          (host.carried "TIMEZONES".toList)

/-- The interfaces agree when each of them is shown with the same addresses. -/
theorem interfacesOf_inj {names active : List Text} {defaultInterface : Option Text}
    {addresses addresses' gateways4 gateways6 : List (Text × Text)} :
    interfacesOf names active defaultInterface addresses gateways4 gateways6
        = interfacesOf names active defaultInterface addresses' gateways4 gateways6
      ↔ ∀ name ∈ names.filter isInterfaceName,
          interfaceValues addresses name = interfaceValues addresses' name := by
  unfold interfacesOf
  rw [List.map_inj_left]
  constructor
  · intro heq name hname
    exact congrArg NetworkInterfaceCapability.addresses (heq name hname)
  · intro heq name hname
    simp only [heq name hname]

namespace Host

variable (host : Host)

/-- No default interface is found where none was printed. -/
theorem takeDefaultInterface_found : takeDefaultInterface (host.found "DEFAULT_INTERFACE".toList)
    = takeDefaultInterface (own ((host.defaultInterface.map Line.text).getD [])) := by
  rw [found_defaultInterface]
  cases hdefault : host.defaultInterface with
  | some line =>
      rw [if_pos (show (some line).isSome = true from rfl), List.append_nil]
  | none =>
      rw [if_neg (show ¬ (none : Option Line).isSome = true from Bool.false_ne_true)]
      have hcontinued : takeDefaultInterface (own (((none : Option Line).map Line.text).getD []
          ++ host.behind 3)) = none :=
        takeDefaultInterface_eq (mem_unquote_continued _ _ _)
      rw [hcontinued]
      decide

theorem takeTimezone_found : takeTimezone (host.found "CURRENT_TIMEZONE".toList)
      = takeTimezone (own host.timezone.text)
    ↔ host.timezone.ended = true ∨ takeTimezone (own host.timezone.text) = none := by
  rw [found_timezone]
  by_cases hended : host.timezone.ended = true
  · rw [if_pos hended, List.append_nil]
    exact ⟨fun _ => .inl hended, fun _ => rfl⟩
  · have hcontinued : takeTimezone (own (host.timezone.text ++ host.behind 8)) = none :=
      takeTimezone_eq (mem_unquote_continued _ _ _)
    rw [if_neg hended, hcontinued]
    exact ⟨fun heq => .inr heq.symm, fun h => (h.resolve_left hended).symm⟩

theorem takeTime_found : takeTime (host.found "CURRENT_TIME".toList)
      = takeTime (own host.date.text)
    ↔ if host.timezone.ended then
        host.date.ended = true ∨ (takeTime (own host.date.text) = none
          ∧ 64 < utf8Len (unquote (host.date.text ++ host.behind 9)))
      else takeTime (own host.date.text) = takeTime (host.carried "CURRENT_TIME".toList) := by
  rw [found_time]
  by_cases htimezone : host.timezone.ended = true
  · rw [if_pos htimezone, if_pos htimezone]
    by_cases hended : host.date.ended = true
    · rw [if_pos hended, List.append_nil]
      exact ⟨fun _ => .inl hended, fun _ => rfl⟩
    · have hcontinued := takeTime_continued host.date.text
      rw [if_neg hended, show host.behind 9 = continued '=' (host.sections.drop 10) from rfl]
      refine (hcontinued _ _).trans ⟨.inr, fun h => h.resolve_left hended⟩
  · rw [if_neg htimezone, if_neg htimezone]
    exact ⟨Eq.symm, Eq.symm⟩

/-- The two flags are read alike. -/
theorem takeBool_found {before ended : Bool} {text : Text} {carried : Option Text}
    {s : Section Char} {rest : List (Section Char)} :
    takeBool (if before then own (text ++ if ended then [] else continued '=' (s :: rest))
        else carried) = takeBool (own text)
      ↔ if before then ended = true ∨ takeBool (own text) = none
        else takeBool (own text) = takeBool carried := by
  by_cases hbefore : before = true
  · rw [if_pos hbefore, if_pos hbefore]
    by_cases hended : ended = true
    · rw [if_pos hended, List.append_nil]
      exact ⟨fun _ => .inl hended, fun _ => rfl⟩
    · have hcontinued : takeBool (own (text ++ continued '=' (s :: rest))) = none :=
        takeBool_eq (mem_unquote_continued text s rest)
      rw [if_neg hended, hcontinued]
      exact ⟨fun heq => .inr heq.symm, fun h => (h.resolve_left hended).symm⟩
  · rw [if_neg hbefore, if_neg hbefore]
    exact ⟨Eq.symm, Eq.symm⟩

theorem ntpEnabled_found : takeBool (host.found "NTP_ENABLED".toList)
      = takeBool (own (host.ofTimedatectl host.timedatectlNtp).text)
    ↔ if host.date.ended then
        (host.ofTimedatectl host.timedatectlNtp).ended = true
          ∨ takeBool (own (host.ofTimedatectl host.timedatectlNtp).text) = none
      else takeBool (own (host.ofTimedatectl host.timedatectlNtp).text)
        = takeBool (host.carried "NTP_ENABLED".toList) := by
  rw [found_ntpEnabled, show host.behind 10 = continued '=' (host.sections.drop 11) from rfl]
  exact takeBool_found

theorem ntpSynchronized_found : takeBool (host.found "NTP_SYNCHRONIZED".toList)
      = takeBool (own (host.ofTimedatectl host.timedatectlNtpSynchronized).text)
    ↔ if (host.ofTimedatectl host.timedatectlNtp).ended then
        (host.ofTimedatectl host.timedatectlNtpSynchronized).ended = true
          ∨ takeBool (own (host.ofTimedatectl host.timedatectlNtpSynchronized).text) = none
      else takeBool (own (host.ofTimedatectl host.timedatectlNtpSynchronized).text)
        = takeBool (host.carried "NTP_SYNCHRONIZED".toList) := by
  rw [found_ntpSynchronized, show host.behind 11 = continued '=' (host.sections.drop 12) from rfl]
  exact takeBool_found

theorem timezones_found (current : Option Text) :
    takeTimezones current (host.found "TIMEZONES".toList)
        = takeTimezones current (own host.timezonesText)
      ↔ (host.ofTimedatectl host.timedatectlNtpSynchronized).ended = true
        ∨ takeTimezones current (own host.timezonesText)
          = takeTimezones current (host.carried "TIMEZONES".toList) := by
  rw [found_timezones]
  by_cases hended : (host.ofTimedatectl host.timedatectlNtpSynchronized).ended = true
  · rw [if_pos hended]
    exact ⟨fun _ => .inl hended, fun _ => rfl⟩
  · rw [if_neg hended]
    exact ⟨fun heq => .inr heq.symm, fun h => (h.resolve_left hended).symm⟩

theorem interfaces_found :
    interfacesOf (takeCsv (host.found "INTERFACES".toList))
        (takeCsv (host.found "ACTIVE_INTERFACES".toList))
        (takeDefaultInterface (host.found "DEFAULT_INTERFACE".toList))
        (takeInterfaceRecords (host.found "ADDRESSES".toList))
        (takeInterfaceRecords (host.found "GATEWAYS4".toList))
        (takeInterfaceRecords (host.found "GATEWAYS6".toList))
      = interfacesOf (takeCsv (own (host.ofIp host.linkNames)))
          (takeCsv (own (host.ofIp host.activeLinkNames)))
          (takeDefaultInterface (own ((host.defaultInterface.map Line.text).getD [])))
          (takeInterfaceRecords (own (host.ofIp host.addressRecords)))
          (takeInterfaceRecords (own (host.ofIp host.gateway4Records)))
          (takeInterfaceRecords (own (host.ofIp host.gateway6Records)))
    ↔ host.defaultInterface.isSome = true
      ∨ ∀ name ∈ (takeCsv (own (host.ofIp host.linkNames))).filter isInterfaceName,
          addressesOf (own (host.ofIp host.addressRecords)) name
            = addressesOf (host.carried "ADDRESSES".toList) name := by
  rw [takeDefaultInterface_found, found_interfaces, found_activeInterfaces, found_gateways4,
    found_gateways6, found_addresses, interfacesOf_inj]
  by_cases hdefault : host.defaultInterface.isSome = true
  · rw [if_pos hdefault]
    exact ⟨fun _ => .inl hdefault, fun _ _ _ => rfl⟩
  · rw [if_neg hdefault]
    constructor
    · intro heq
      exact .inr fun name hname => (heq name hname).symm
    · intro h name hname
      exact (h.resolve_left hdefault name hname).symm

end Host

/-- **Every field is recovered exactly when the sections are kept apart.** -/
theorem recovers_iff (host : Host) (osId : Text) :
    Recovers host (capabilitiesOf (valueOf host.release.1) host.found host.kernel osId)
      ↔ Separated host := by
  obtain ⟨hcommands, hservices⟩ := host.found_lists
  constructor
  · intro hrecovers
    -- the current zone comes back, so the list of zones is completed with the same one
    have htimezones := hrecovers.timezones
    have htimezone : takeTimezone (host.found "CURRENT_TIMEZONE".toList)
        = takeTimezone (own host.timezone.text) := hrecovers.currentTimezone
    exact
      { lists := ⟨hcommands ▸ hrecovers.commands, hservices ▸ hrecovers.services⟩,
        addresses := host.interfaces_found.mp hrecovers.interfaces,
        timezone := host.takeTimezone_found.mp htimezone,
        time := host.takeTime_found.mp hrecovers.currentTime,
        ntpEnabled := host.ntpEnabled_found.mp hrecovers.ntpEnabled,
        ntpSynchronized := host.ntpSynchronized_found.mp hrecovers.ntpSynchronized,
        timezones := (host.timezones_found _).mp (htimezone ▸ htimezones) }
  · intro hseparated
    have htimezone := host.takeTimezone_found.mpr hseparated.timezone
    have htimezones := (host.timezones_found _).mpr hseparated.timezones
    exact
      { commands := (congrArg takeCsv hcommands).trans hseparated.lists.1,
        services := (congrArg takeCsv hservices).trans hseparated.lists.2,
        containers := congrArg takeCsv host.found_containers,
        interfaces := host.interfaces_found.mpr hseparated.addresses,
        dnsServers := congrArg takeCsv host.found_dnsServers,
        currentTimezone := htimezone,
        currentTime := host.takeTime_found.mpr hseparated.time,
        ntpEnabled := host.ntpEnabled_found.mpr hseparated.ntpEnabled,
        ntpSynchronized := host.ntpSynchronized_found.mpr hseparated.ntpSynchronized,
        timezones := by
          show takeTimezones (takeTimezone (host.found "CURRENT_TIMEZONE".toList)) _ = _
          rw [htimezone]
          exact htimezones }

/-- A server with an address and without a default route: nothing ends the line of
`DEFAULT_INTERFACE=`. -/
def unroutedHost : Host :=
  { osRelease := some "ID=ubuntu\nVERSION_ID=\"24.04\"\n".toList,
    unameSystem := "Linux\n".toList,
    unameFails := false,
    installed := fun command => ["apt".toList, "systemctl".toList, "ip".toList,
      "timedatectl".toList, "sh".toList].contains command,
    unameMachine := "x86_64\n".toList,
    shell := some "/bin/sh".toList,
    unitFiles := "sshd.service\n".toList,
    initScripts := none,
    rcScripts := none,
    dockerNames := [],
    podmanNames := [],
    linkNames := ⟨"lo,eth0,".toList, by decide⟩,
    activeLinkNames := ⟨"lo,eth0,".toList, by decide⟩,
    defaultDevice := none,
    addressRecords := ⟨"eth0|192.0.2.10/24;".toList, by decide⟩,
    gateway4Records := ⟨[], by decide⟩,
    gateway6Records := ⟨[], by decide⟩,
    nameservers := some ⟨"192.0.2.53,".toList, by decide⟩,
    timedatectlTimezone := ⟨"UTC".toList, true, by decide⟩,
    etcTimezone := none,
    date := ⟨"2026-08-07T00:20:00+00:00".toList, true, by decide⟩,
    timedatectlNtp := ⟨"yes".toList, true, by decide⟩,
    timedatectlNtpSynchronized := ⟨"yes".toList, true, by decide⟩,
    zoneNames := ⟨"UTC,".toList, by decide⟩ }

end QingzhouSSH.Core.SystemProbe
