/-
  QingzhouSSH.Core.Redaction — removing secrets from output.

  `redact` replaces private key blocks, then each registered secret, then the values
  assigned to sensitive names.  The first and the last stage are scans that read one
  block or one assignment after the other; what is still open at the end of a text
  decides whether the text may be cut there.

  Main results:
    * `redactPrivateKeyBlocks_append`, `redactMarker_append` — a stage over a cut;
    * `redact_append` — redaction of a text is that of its parts, at a safe cut;
    * `redact_flatten` — the same for any number of parts.
-/
import Mathlib.Data.List.Sort
import Mathlib.Data.List.Destutter
import Mathlib.Data.List.TakeWhile
import QingzhouSSH.Core.Tasks.Parameters
import QingzhouSSH.Lib.Scan

namespace QingzhouSSH.Core.Redaction

open String (utf8Len)
open QingzhouSSH.Lib
open QingzhouSSH.Lib.Text
open QingzhouSSH.Core.Tasks (toAsciiLower)

def redacted : Text := "[REDACTED]".toList

/-! ## §1. Private key blocks. -/

def beginMark : Text := "-----BEGIN ".toList

def endMark : Text := "-----END ".toList

def dashes : Text := "-----".toList

/-- A header line with this title. -/
def header (title : Text) : Text := beginMark ++ title ++ dashes

def isPrivateKey (title : Text) : Bool := contains (header title) "PRIVATE KEY".toList

/-- The loop of `redact_private_key_blocks` over what remains.  Every turn goes past
a header, so the length is fuel enough. -/
def keyBlocksFrom : Nat → Text → Text
  | 0, remaining => remaining
  | fuel + 1, remaining =>
      match splitFirst beginMark remaining with
      | none => remaining
      | some (before, block) =>
          match splitFirst dashes block with
          | none => before ++ beginMark ++ block
          | some (title, afterHeader) =>
              if !isPrivateKey title then
                before ++ header title ++ keyBlocksFrom fuel afterHeader
              else
                match splitFirst endMark afterHeader with
                | none => before ++ redacted
                | some (_, endBlock) =>
                    match splitFirst dashes ("END ".toList ++ endBlock) with
                    | none => before ++ redacted
                    | some (_, rest) => before ++ redacted ++ keyBlocksFrom fuel rest

/-- `redact_private_key_blocks`. -/
def redactPrivateKeyBlocks (input : Text) : Text := keyBlocksFrom input.length input

/-! ## §2. Named assignments. -/

def markers : List Text :=
  ["password=".toList, "password:".toList, "passphrase=".toList, "passphrase:".toList,
    "token=".toList, "token:".toList, "secret=".toList, "secret:".toList,
    "credential=".toList, "credential:".toList, "private_key=".toList, "private_key:".toList]

/-- The text up to the end of the first marker in any case, and the text after it. -/
def splitMarker (marker text : Text) : Option (Text × Text) :=
  (splitFirst marker (text.map toAsciiLower)).map fun found =>
    text.splitAt (found.1.length + marker.length)

/-- A value goes on up to a blank, a comma or a semicolon. -/
def isValueChar (c : Char) : Bool := !(isWhitespace c || c == ',' || c == ';')

/-- The value that follows a marker, after blanks. -/
def assignedValue (text : Text) : Text := (text.dropWhile isWhitespace).takeWhile isValueChar

def afterValue (text : Text) : Text := (text.dropWhile isWhitespace).dropWhile isValueChar

/-- What stands between a marker and the end of its value, redacted. -/
def redactValue (text : Text) : Text :=
  text.takeWhile isWhitespace
    ++ if assignedValue text ≠ [] ∧ assignedValue text ≠ redacted then redacted
      else assignedValue text

/-- The loop of `redact_named_assignments` for one marker; every turn goes past the
marker. -/
def markerFrom (marker : Text) : Nat → Text → Text
  | 0, output => output
  | fuel + 1, output =>
      match splitMarker marker output with
      | none => output
      | some (head, value) =>
          head ++ redactValue value ++ markerFrom marker fuel (afterValue value)

def redactMarker (output marker : Text) : Text := markerFrom marker output.length output

/-- `redact_named_assignments`. -/
def redactNamedAssignments (input : Text) : Text := markers.foldl redactMarker input

/-! ## §3. The redactor. -/

/-- The registered secrets, none of them empty. -/
structure Redactor where
  runtimeSecrets : List Text
  nonempty : ∀ secret ∈ runtimeSecrets, secret ≠ []

theorem nonempty_of_none : ∀ secret ∈ ([] : List Text), secret ≠ [] := by simp

/-- `Redactor::new`: longest first. -/
def Redactor.new (secrets : List Text) : Redactor where
  runtimeSecrets := ((secrets.filter fun secret => !secret.isEmpty).mergeSort fun s t =>
    decide (utf8Len t ≤ utf8Len s)).destutter (· ≠ ·)
  nonempty := by
    intro secret h
    have hmem := List.mem_mergeSort.mp ((List.destutter_sublist _ _).subset h)
    have := (List.mem_filter.mp hmem).2
    intro hnil
    rw [hnil] at this
    exact absurd this (by decide)

def replaceSecrets (secrets : List Text) (text : Text) : Text :=
  secrets.foldl (fun output secret => replace secret redacted output) text

/-- `redact`. -/
def Redactor.redact (redactor : Redactor) (input : Text) : Text :=
  redactNamedAssignments (replaceSecrets redactor.runtimeSecrets (redactPrivateKeyBlocks input))

/-- `is_sensitive_key`. -/
def isSensitiveKey (key : Text) : Bool :=
  let normalized := (key.map toAsciiLower).map fun c => if c = '-' then '_' else c
  contains normalized "password".toList || contains normalized "passphrase".toList
    || contains normalized "private_key".toList || contains normalized "credential".toList
    || normalized == "token".toList || "_token".toList.isSuffixOf normalized
    || normalized == "secret".toList || "_secret".toList.isSuffixOf normalized

mutual

/-- `redact_json_with_key`, for a key that is not sensitive. -/
def Redactor.redactJson (redactor : Redactor) : Value → Value
  | .string s => .string (redactor.redact s)
  | .array items => .array (redactor.redactItems items)
  | .object fields => .object (redactor.redactFields fields)
  | .null => .null
  | .bool b => .bool b
  | .int n => .int n
  | .float f => .float f

def Redactor.redactItems (redactor : Redactor) : List Value → List Value
  | [] => []
  | item :: rest => redactor.redactJson item :: redactor.redactItems rest

/-- The value of a sensitive key is replaced, whatever it is. -/
def Redactor.redactFields (redactor : Redactor) : List (Text × Value) → List (Text × Value)
  | [] => []
  | (key, value) :: rest =>
      (key, if isSensitiveKey key then .string redacted else redactor.redactJson value)
        :: redactor.redactFields rest

end

/-! ## §4. The stages as scans. -/

/-- The next complete block: a header that is not a key's is kept, a key goes. -/
def readKeyBlock : Scan.Reader Char Text := fun text =>
  match splitFirst beginMark text with
  | none => none
  | some (before, block) =>
      match splitFirst dashes block with
      | none => none
      | some (title, afterHeader) =>
          if !isPrivateKey title then some (before ++ header title, afterHeader)
          else
            match splitFirst endMark afterHeader with
            | none => none
            | some (_, endBlock) =>
                match splitFirst dashes ("END ".toList ++ endBlock) with
                | none => none
                | some (_, rest) => some (before ++ redacted, rest)

/-- A text without a complete block: an open key goes. -/
def lastKeyBlock (text : Text) : Text :=
  match splitFirst beginMark text with
  | none => text
  | some (before, block) =>
      if (splitFirst dashes block).isNone then text else before ++ redacted

theorem length_splitFirst {pat s before after : Text} (h : splitFirst pat s = some (before, after)) :
    s.length = before.length + pat.length + after.length := by
  rw [splitFirst_some h, List.length_append, List.length_append]

theorem readKeyBlock_incremental : Scan.Incremental readKeyBlock where
  advances := by
    intro s b r h
    unfold readKeyBlock at h
    split at h
    next => exact absurd h (by simp)
    next before block hbegin =>
      have h1 := length_splitFirst hbegin
      split at h
      next => exact absurd h (by simp)
      next title afterHeader hheader =>
        have h2 := length_splitFirst hheader
        have hdashes : dashes.length = 5 := rfl
        split at h
        next =>
          obtain ⟨_, rfl⟩ := Prod.mk.inj (Option.some.inj h)
          omega
        next =>
          split at h
          next => exact absurd h (by simp)
          next _ endBlock hend =>
            have h3 := length_splitFirst hend
            split at h
            next => exact absurd h (by simp)
            next _ rest hrest =>
              have h4 := length_splitFirst hrest
              rw [List.length_append] at h4
              have hword : "END ".toList.length = 4 := rfl
              obtain ⟨_, rfl⟩ := Prod.mk.inj (Option.some.inj h)
              omega
  stable := by
    intro s b r t h
    unfold readKeyBlock at h ⊢
    split at h
    next => exact absurd h (by simp)
    next before block hbegin =>
      rw [splitFirst_append_of_some t hbegin]
      dsimp only
      split at h
      next => exact absurd h (by simp)
      next title afterHeader hheader =>
        rw [splitFirst_append_of_some t hheader]
        dsimp only
        split at h
        next hpublic =>
          obtain ⟨rfl, rfl⟩ := Prod.mk.inj (Option.some.inj h)
          rw [if_pos hpublic]
        next hprivate =>
          rw [if_neg hprivate]
          split at h
          next => exact absurd h (by simp)
          next _ endBlock hend =>
            rw [splitFirst_append_of_some t hend]
            dsimp only
            split at h
            next => exact absurd h (by simp)
            next _ rest hrest =>
              rw [← List.append_assoc, splitFirst_append_of_some t hrest]
              obtain ⟨rfl, rfl⟩ := Prod.mk.inj (Option.some.inj h)
              rfl

/-- One turn of the loop. -/
theorem keyBlocksFrom_succ (n : Nat) (s : Text) :
    keyBlocksFrom (n + 1) s = match readKeyBlock s with
      | none => lastKeyBlock s
      | some (b, r) => b ++ keyBlocksFrom n r := by
  rw [keyBlocksFrom]
  unfold readKeyBlock lastKeyBlock
  cases hbegin : splitFirst beginMark s with
  | none => rfl
  | some found =>
      obtain ⟨before, block⟩ := found
      dsimp only
      cases hheader : splitFirst dashes block with
      | none =>
          rw [splitFirst_some hbegin]
          rfl
      | some found =>
          obtain ⟨title, afterHeader⟩ := found
          dsimp only
          by_cases hpublic : (!isPrivateKey title) = true
          · rw [if_pos hpublic, if_pos hpublic]
          · rw [if_neg hpublic, if_neg hpublic]
            cases splitFirst endMark afterHeader with
            | none => rfl
            | some found =>
                obtain ⟨_, endBlock⟩ := found
                dsimp only
                cases splitFirst dashes ("END ".toList ++ endBlock) with
                | none => rfl
                | some found => rfl

theorem keyBlocksFrom_eq (n : Nat) : ∀ s : Text, s.length ≤ n →
    keyBlocksFrom n s = Scan.rewrite readKeyBlock lastKeyBlock s := by
  have hinc := readKeyBlock_incremental
  induction n with
  | zero =>
      intro s hn
      obtain rfl := List.length_eq_zero_iff.mp (Nat.le_zero.mp hn)
      rfl
  | succ n ih =>
      intro s hn
      rw [keyBlocksFrom_succ]
      cases hread : readKeyBlock s with
      | none => rw [Scan.rewrite_of_none hread]
      | some out =>
          have hless := hinc.advances (b := out.1) (r := out.2) hread
          rw [Scan.rewrite_of_some hinc (b := out.1) (r := out.2) hread, ← ih out.2 (by omega)]

theorem redactPrivateKeyBlocks_eq (s : Text) :
    redactPrivateKeyBlocks s = Scan.rewrite readKeyBlock lastKeyBlock s :=
  keyBlocksFrom_eq s.length s (Nat.le_refl _)

/-! ## §5. Cutting inside or outside a block. -/

/-- What is left of a text after its complete blocks. -/
def unreadBlock (text : Text) : Text := (Scan.readAll readKeyBlock text).2

/-- No key block is open where a text ends: there is no header, or one that the next
text does not complete, or completes as that of something else than a key. -/
def BlockClosed (left next : Text) : Prop :=
  match splitFirst beginMark left with
  | none => True
  | some (_, title) =>
      splitFirst dashes title = none
        ∧ ∀ t r, splitFirst dashes next = some (t, r) →
            isPrivateKey (title ++ t) = false ∧ NoStraddle beginMark (t ++ dashes) r

/-- A text without a header, in front of another one, is kept. -/
theorem readKeyBlock_prefix {q s : Text} (hq : splitFirst beginMark q = none)
    (hcut : NoStraddle beginMark q s) :
    readKeyBlock (q ++ s) = (readKeyBlock s).map (fun out => (q ++ out.1, out.2))
      ∧ lastKeyBlock (q ++ s) = q ++ lastKeyBlock s := by
  unfold readKeyBlock lastKeyBlock
  rw [splitFirst_append_of_none hq hcut]
  cases splitFirst beginMark s with
  | none => exact ⟨rfl, rfl⟩
  | some found =>
      obtain ⟨before, block⟩ := found
      dsimp only [Option.map_some]
      cases splitFirst dashes block with
      | none => exact ⟨rfl, rfl⟩
      | some found =>
          obtain ⟨title, afterHeader⟩ := found
          dsimp only
          refine ⟨?_, by simp⟩
          split
          next => simp
          next =>
            cases splitFirst endMark afterHeader with
            | none => rfl
            | some found =>
                obtain ⟨_, endBlock⟩ := found
                dsimp only
                cases splitFirst dashes ("END ".toList ++ endBlock) with
                | none => rfl
                | some found => simp

theorem redactPrivateKeyBlocks_unfinished {q s : Text} (hq : splitFirst beginMark q = none)
    (hcut : NoStraddle beginMark q s) :
    redactPrivateKeyBlocks (q ++ s) = q ++ redactPrivateKeyBlocks s := by
  have hinc := readKeyBlock_incremental
  obtain ⟨hread, hlast⟩ := readKeyBlock_prefix hq hcut
  rw [redactPrivateKeyBlocks_eq, redactPrivateKeyBlocks_eq]
  cases hs : readKeyBlock s with
  | none =>
      rw [hs] at hread
      rw [Scan.rewrite_of_none hread, Scan.rewrite_of_none hs, hlast]
  | some out =>
      rw [hs] at hread
      rw [Scan.rewrite_of_some hinc hread,
        Scan.rewrite_of_some hinc (b := out.1) (r := out.2) hs, List.append_assoc]

/-- A mark that starts with dashes does not occur up to the first dashes. -/
theorem beginMark_after_dashes {s t r : Text} (h : splitFirst dashes s = some (t, r)) :
    splitFirst beginMark (t ++ dashes) = none := by
  rw [splitFirst_none]
  rintro ⟨u, v, huv⟩
  have hbegin : beginMark = dashes ++ "BEGIN ".toList := by decide
  have hs : s = u ++ (dashes ++ ("BEGIN ".toList ++ v ++ r)) := by
    rw [splitFirst_some h, ← huv, hbegin]
    simp only [List.append_assoc]
  have hleast := splitFirst_least h hs
  have hlen := congrArg List.length huv
  simp only [List.length_append] at hlen
  have h1 : beginMark.length = 11 := by decide
  have h2 : dashes.length = 5 := by decide
  omega

/-- A block ends in dashes. -/
theorem readKeyBlock_dashes {s b r : Text} (h : readKeyBlock s = some (b, r)) :
    dashes ++ r <:+ s := by
  unfold readKeyBlock at h
  split at h
  next => exact absurd h (by simp)
  next before block hbegin =>
    have hblock : block <:+ s := ⟨before ++ beginMark, (splitFirst_some hbegin).symm⟩
    split at h
    next => exact absurd h (by simp)
    next title afterHeader hheader =>
      have hafter : dashes ++ afterHeader <:+ block :=
        ⟨title, by rw [splitFirst_some hheader, List.append_assoc]⟩
      split at h
      next =>
        obtain ⟨_, rfl⟩ := Prod.mk.inj (Option.some.inj h)
        exact hafter.trans hblock
      next =>
        split at h
        next => exact absurd h (by simp)
        next skipped endBlock hend =>
          have hend' : "END ".toList ++ endBlock <:+ afterHeader :=
            ⟨skipped ++ dashes, by
              rw [splitFirst_some hend, show endMark = dashes ++ "END ".toList from by decide]
              simp only [List.append_assoc]⟩
          split at h
          next => exact absurd h (by simp)
          next word rest hrest =>
            have hrest' : dashes ++ rest <:+ "END ".toList ++ endBlock :=
              ⟨word, by rw [splitFirst_some hrest, List.append_assoc]⟩
            obtain ⟨_, rfl⟩ := Prod.mk.inj (Option.some.inj h)
            exact hrest'.trans (hend'.trans
              ((List.suffix_append dashes afterHeader).trans (hafter.trans hblock)))

theorem unreadBlock_suffix (s : Text) : unreadBlock s <:+ s := by
  have hinc := readKeyBlock_incremental
  unfold unreadBlock
  induction s using Scan.readAll_induction hinc with
  | stop s hread =>
      rw [Scan.readAll_of_none hread]
  | next s b r hread ih =>
      rw [Scan.readAll_of_some hinc hread]
      exact ih.trans ((List.suffix_append dashes r).trans (readKeyBlock_dashes hread))

/-- **Where no block is open, the blocks of a text are those of its parts.** -/
theorem redactPrivateKeyBlocks_append {p s : Text} (hbegin : EndsOff beginMark p)
    (hdashes : EndsOff dashes p) (hclosed : BlockClosed (unreadBlock p) s) :
    redactPrivateKeyBlocks (p ++ s) = redactPrivateKeyBlocks p ++ redactPrivateKeyBlocks s := by
  have hinc := readKeyBlock_incremental
  have hsuffix := unreadBlock_suffix p
  have hread : readKeyBlock (unreadBlock p) = none := Scan.read_readAll hinc p
  -- it is enough to go on from the rest at the cut
  suffices hrest : redactPrivateKeyBlocks (unreadBlock p ++ s)
      = lastKeyBlock (unreadBlock p) ++ redactPrivateKeyBlocks s by
    rw [redactPrivateKeyBlocks_eq, redactPrivateKeyBlocks_eq p, redactPrivateKeyBlocks_eq s]
    refine Scan.rewrite_append hinc ?_
    rw [← redactPrivateKeyBlocks_eq, ← redactPrivateKeyBlocks_eq]
    exact hrest
  generalize unreadBlock p = left at *
  unfold BlockClosed at hclosed
  cases hleft : splitFirst beginMark left with
  | none =>
      rw [redactPrivateKeyBlocks_unfinished hleft ((hbegin.of_suffix hsuffix).noStraddle s)]
      unfold lastKeyBlock
      rw [hleft]
  | some found =>
      obtain ⟨before, title⟩ := found
      rw [hleft] at hclosed
      obtain ⟨hopen, hnext⟩ := hclosed
      have hlast : lastKeyBlock left = left := by
        unfold lastKeyBlock
        rw [hleft]
        dsimp only
        rw [hopen]
        rfl
      have htitle : EndsOff dashes title :=
        hdashes.of_suffix (List.IsSuffix.trans
          ⟨before ++ beginMark, (splitFirst_some hleft).symm⟩ hsuffix)
      have hgo : splitFirst dashes (title ++ s)
          = (splitFirst dashes s).map fun r => (title ++ r.1, r.2) :=
        splitFirst_append_of_none hopen (htitle.noStraddle s)
      rw [hlast]
      cases hs : splitFirst dashes s with
      | none =>
          -- the header stays open, and the next text has no block of its own
          have hreadWhole : readKeyBlock (left ++ s) = none := by
            unfold readKeyBlock
            rw [splitFirst_append_of_some s hleft]
            dsimp only
            rw [hgo, hs]
            rfl
          have hlastWhole : lastKeyBlock (left ++ s) = left ++ s := by
            unfold lastKeyBlock
            rw [splitFirst_append_of_some s hleft]
            dsimp only
            rw [hgo, hs]
            rfl
          have hnone : splitFirst beginMark s = none := by
            rw [splitFirst_none] at hs ⊢
            intro hinfix
            exact hs (List.IsInfix.trans ⟨[], "BEGIN ".toList, by decide⟩ hinfix)
          have hplain := redactPrivateKeyBlocks_unfinished hnone (s := [])
            (fun a b hab hb hp => by rwa [List.append_nil] at hp)
          rw [List.append_nil] at hplain
          rw [redactPrivateKeyBlocks_eq, Scan.rewrite_of_none hreadWhole, hlastWhole, hplain]
          show left ++ s = left ++ (s ++ [])
          rw [List.append_nil]
      | some found =>
          obtain ⟨t, r⟩ := found
          obtain ⟨hpublic, hcut⟩ := hnext t r hs
          have hreadWhole : readKeyBlock (left ++ s) = some (before ++ header (title ++ t), r) := by
            unfold readKeyBlock
            rw [splitFirst_append_of_some s hleft]
            dsimp only
            rw [hgo, hs]
            dsimp only [Option.map_some]
            rw [hpublic, if_pos (by decide)]
          have hsplit : s = t ++ dashes ++ r := splitFirst_some hs
          rw [redactPrivateKeyBlocks_eq, Scan.rewrite_of_some hinc hreadWhole,
            ← redactPrivateKeyBlocks_eq]
          conv_rhs => rw [hsplit, redactPrivateKeyBlocks_unfinished (beginMark_after_dashes hs) hcut,
            splitFirst_some hleft]
          simp only [header, List.append_assoc]

/-! ## §6. Assignments as a scan. -/

/-- The next assignment whose value ends before the text does. -/
def readAssignment (marker : Text) : Scan.Reader Char Text := fun text =>
  match splitMarker marker text with
  | none => none
  | some (head, value) =>
      if afterValue value = [] then none else some (head ++ redactValue value, afterValue value)

/-- A text in which the last value, if there is one, goes on to the end. -/
def lastAssignment (marker text : Text) : Text :=
  match splitMarker marker text with
  | none => text
  | some (head, value) => head ++ redactValue value

theorem splitMarker_some {marker text head value : Text} (hmarker : marker ≠ [])
    (h : splitMarker marker text = some (head, value)) :
    text = head ++ value ∧ head ≠ [] ∧ value.length < text.length := by
  obtain ⟨found, hfound, hsplit⟩ := Option.map_eq_some_iff.mp h
  rw [List.splitAt_eq, Prod.mk.injEq] at hsplit
  obtain ⟨rfl, rfl⟩ := hsplit
  have hlen := @length_splitFirst _ _ found.1 found.2 hfound
  rw [List.length_map] at hlen
  have hpos := List.length_pos_of_ne_nil hmarker
  refine ⟨(List.take_append_drop _ text).symm, ?_, ?_⟩
  · intro hnil
    have := congrArg List.length hnil
    rw [List.length_take, List.length_nil] at this
    omega
  · rw [List.length_drop]
    omega

theorem splitMarker_append_of_some {marker text head value : Text} (t : Text)
    (h : splitMarker marker text = some (head, value)) :
    splitMarker marker (text ++ t) = some (head, value ++ t) := by
  obtain ⟨⟨before, after⟩, hfound, hsplit⟩ := Option.map_eq_some_iff.mp h
  have hlen := length_splitFirst hfound
  rw [List.length_map] at hlen
  rw [List.splitAt_eq, Prod.mk.injEq] at hsplit
  obtain ⟨rfl, rfl⟩ := hsplit
  unfold splitMarker
  rw [List.map_append, splitFirst_append_of_some (t.map toAsciiLower) hfound, Option.map_some,
    List.splitAt_eq]
  dsimp only
  rw [List.take_append_of_le_length (by omega), List.drop_append_of_le_length (by omega)]

theorem splitMarker_append_of_none {marker text t : Text} (h : splitMarker marker text = none)
    (hcut : NoStraddle marker (text.map toAsciiLower) (t.map toAsciiLower)) :
    splitMarker marker (text ++ t)
      = (splitMarker marker t).map fun r => (text ++ r.1, r.2) := by
  have hnone := Option.map_eq_none_iff.mp h
  unfold splitMarker
  rw [List.map_append, splitFirst_append_of_none hnone hcut]
  cases splitFirst marker (t.map toAsciiLower) with
  | none => rfl
  | some found =>
      simp only [Option.map_some, List.splitAt_eq, List.length_append, List.length_map,
        Nat.add_assoc, List.take_length_add_append, List.drop_length_add_append]

theorem takeWhile_append_of_dropWhile {p : Char → Bool} {s : Text} (t : Text)
    (h : s.dropWhile p ≠ []) :
    (s ++ t).takeWhile p = s.takeWhile p ∧ (s ++ t).dropWhile p = s.dropWhile p ++ t := by
  induction s with
  | nil => exact absurd rfl h
  | cons c s ih =>
      by_cases hc : p c = true
      · rw [List.dropWhile_cons_of_pos hc] at h
        obtain ⟨htake, hdrop⟩ := ih h
        rw [List.cons_append, List.takeWhile_cons_of_pos hc, List.dropWhile_cons_of_pos hc,
          List.takeWhile_cons_of_pos hc, List.dropWhile_cons_of_pos hc, htake, hdrop]
        exact ⟨rfl, rfl⟩
      · rw [List.cons_append, List.takeWhile_cons_of_neg hc, List.dropWhile_cons_of_neg hc,
          List.takeWhile_cons_of_neg hc, List.dropWhile_cons_of_neg hc]
        exact ⟨rfl, rfl⟩

theorem takeWhile_append_of_all {p : Char → Bool} {s : Text} (t : Text)
    (h : s.dropWhile p = []) :
    (s ++ t).takeWhile p = s ++ t.takeWhile p ∧ (s ++ t).dropWhile p = t.dropWhile p := by
  rw [List.dropWhile_eq_nil_iff] at h
  exact ⟨List.takeWhile_append_of_pos h, List.dropWhile_append_of_pos h⟩

/-- A value that ends within a text is not changed by what follows. -/
theorem value_append {value : Text} (t : Text) (h : afterValue value ≠ []) :
    redactValue (value ++ t) = redactValue value
      ∧ afterValue (value ++ t) = afterValue value ++ t := by
  have hblank : value.dropWhile isWhitespace ≠ [] := by
    intro hnil
    rw [afterValue, hnil] at h
    exact h rfl
  obtain ⟨htake, hdrop⟩ := takeWhile_append_of_dropWhile t hblank
  obtain ⟨htake', hdrop'⟩ := takeWhile_append_of_dropWhile (p := isValueChar) t h
  unfold redactValue afterValue assignedValue
  rw [htake, hdrop, htake', hdrop']
  exact ⟨rfl, rfl⟩

theorem length_afterValue (value : Text) : (afterValue value).length ≤ value.length :=
  (List.dropWhile_sublist _).length_le.trans (List.dropWhile_sublist _).length_le

theorem readAssignment_incremental {marker : Text} (hmarker : marker ≠ []) :
    Scan.Incremental (readAssignment marker) where
  advances := by
    intro s b r h
    unfold readAssignment at h
    split at h
    next => exact absurd h (by simp)
    next head value hsplit =>
      have hlen := (splitMarker_some hmarker hsplit).2.2
      have hafter := length_afterValue value
      split at h
      next => exact absurd h (by simp)
      next =>
        obtain ⟨_, rfl⟩ := Prod.mk.inj (Option.some.inj h)
        omega
  stable := by
    intro s b r t h
    unfold readAssignment at h ⊢
    split at h
    next => exact absurd h (by simp)
    next head value hsplit =>
      rw [splitMarker_append_of_some t hsplit]
      dsimp only
      split at h
      next => exact absurd h (by simp)
      next hends =>
        obtain ⟨rfl, rfl⟩ := Prod.mk.inj (Option.some.inj h)
        obtain ⟨hvalue, hafter⟩ := value_append t hends
        rw [hvalue, hafter, if_neg (by simp [hends])]

theorem markerFrom_eq {marker : Text} (hmarker : marker ≠ []) (n : Nat) :
    ∀ s : Text, s.length ≤ n →
      markerFrom marker n s = Scan.rewrite (readAssignment marker) (lastAssignment marker) s := by
  have hinc := readAssignment_incremental hmarker
  induction n with
  | zero =>
      intro s hn
      obtain rfl := List.length_eq_zero_iff.mp (Nat.le_zero.mp hn)
      have hnone : splitMarker marker [] = none := by
        cases h : splitMarker marker [] with
        | none => rfl
        | some r =>
            have := (@splitMarker_some _ _ r.1 r.2 hmarker h).2.2
            exact absurd this (by simp)
      have hread : readAssignment marker [] = none := by
        unfold readAssignment
        rw [hnone]
      rw [Scan.rewrite_of_none hread, lastAssignment, hnone, markerFrom]
  | succ n ih =>
      intro s hn
      rw [markerFrom]
      cases hsplit : splitMarker marker s with
      | none =>
          have hread : readAssignment marker s = none := by
            unfold readAssignment
            rw [hsplit]
          rw [Scan.rewrite_of_none hread, lastAssignment, hsplit]
      | some found =>
          obtain ⟨head, value⟩ := found
          have hlen := (splitMarker_some hmarker hsplit).2.2
          have hafter := length_afterValue value
          dsimp only
          rw [ih _ (by omega)]
          by_cases hends : afterValue value = []
          · -- the last value: nothing is left for another turn
            have hread : readAssignment marker s = none := by
              unfold readAssignment
              rw [hsplit]
              exact if_pos hends
            rw [Scan.rewrite_of_none hread, lastAssignment, hsplit, hends,
              ← ih [] (Nat.zero_le n)]
            cases n with
            | zero => simp [markerFrom]
            | succ n =>
                have hnil : splitMarker marker [] = none := by
                  cases h : splitMarker marker [] with
                  | none => rfl
                  | some r =>
                      have := (@splitMarker_some _ _ r.1 r.2 hmarker h).2.2
                      exact absurd this (by simp)
                rw [markerFrom, hnil]
                simp
          · have hread : readAssignment marker s
                = some (head ++ redactValue value, afterValue value) := by
              unfold readAssignment
              rw [hsplit]
              exact if_neg hends
            rw [Scan.rewrite_of_some hinc hread]

/-! ## §7. Cutting inside or outside an assignment. -/

theorem redactMarker_eq {marker : Text} (hmarker : marker ≠ []) (s : Text) :
    redactMarker s marker = Scan.rewrite (readAssignment marker) (lastAssignment marker) s :=
  markerFrom_eq hmarker s.length s (Nat.le_refl _)

theorem redactMarker_of_none {marker s : Text} (hmarker : marker ≠ [])
    (h : splitMarker marker s = none) : redactMarker s marker = s := by
  have hread : readAssignment marker s = none := by
    unfold readAssignment
    rw [h]
  rw [redactMarker_eq hmarker, Scan.rewrite_of_none hread, lastAssignment, h]

/-- One turn of the loop. -/
theorem redactMarker_of_some {marker s head value : Text} (hmarker : marker ≠ [])
    (h : splitMarker marker s = some (head, value)) :
    redactMarker s marker = head ++ redactValue value ++ redactMarker (afterValue value) marker := by
  rw [redactMarker_eq hmarker]
  by_cases hends : afterValue value = []
  · have hread : readAssignment marker s = none := by
      unfold readAssignment
      rw [h]
      exact if_pos hends
    rw [Scan.rewrite_of_none hread, lastAssignment, h, hends]
    show _ = _ ++ []
    rw [List.append_nil]
  · have hread : readAssignment marker s = some (head ++ redactValue value, afterValue value) := by
      unfold readAssignment
      rw [h]
      exact if_neg hends
    rw [Scan.rewrite_of_some (readAssignment_incremental hmarker) hread, redactMarker_eq hmarker]

/-- What is left of a text after the assignments that end within it. -/
def unreadAssignment (marker text : Text) : Text :=
  (Scan.readAll (readAssignment marker) text).2

/-- No assignment is open where a text ends: there is none, or only its blanks have
been read and the next text gives no value that is still to be redacted, or its value
ends with the text. -/
def AssignmentClosed (marker left next : Text) : Prop :=
  match splitMarker marker left with
  | none => True
  | some (_, value) =>
      if assignedValue value = [] then
        assignedValue next = [] ∨ assignedValue next = redacted
      else ∀ c ∈ next.head?, isValueChar c = false

/-- A text that ends in a blank or where a value was replaced. -/
def Sealed (text : Text) : Prop := ∀ c ∈ text.getLast?, isWhitespace c = true ∨ c = ']'

theorem marker_chars : ∀ marker ∈ markers, ∀ c ∈ marker, isWhitespace c = false ∧ c ≠ ']' := by
  decide

/-- A marker ends in a sign that no replaced value has. -/
theorem marker_sign : ∀ marker ∈ markers, ∃ c ∈ marker, c = '=' ∨ c = ':' := by decide

theorem redacted_sign : ∀ c ∈ redacted, ¬ (toAsciiLower c = '=' ∨ toAsciiLower c = ':') := by
  decide

theorem toAsciiLower_of_not_letter {c : Char} (h : isWhitespace c = true ∨ c = ']') :
    toAsciiLower c = c := by
  unfold toAsciiLower
  refine if_neg ?_
  rintro ⟨hlow, hhigh⟩
  have hlow' : 65 ≤ c.toNat := UInt32.le_iff_toNat_le.mp hlow
  have hhigh' : c.toNat ≤ 90 := UInt32.le_iff_toNat_le.mp hhigh
  rcases h with h | rfl
  · simp only [isWhitespace, Bool.or_eq_true, Bool.and_eq_true, decide_eq_true_eq, beq_iff_eq] at h
    omega
  · exact absurd hhigh' (by decide)

theorem Sealed.endsOff {marker s : Text} (hmem : marker ∈ markers) (h : Sealed s) :
    EndsOff marker (s.map toAsciiLower) := by
  intro c hc hin
  rw [List.getLast?_map, Option.mem_def, Option.map_eq_some_iff] at hc
  obtain ⟨d, hd, rfl⟩ := hc
  have hseal := h d hd
  rw [toAsciiLower_of_not_letter hseal] at hin
  obtain ⟨hblank, hbracket⟩ := marker_chars marker hmem d hin
  rcases hseal with hd | hd
  · rw [hblank] at hd
    exact absurd hd (by simp)
  · exact hbracket hd

theorem marker_ne_nil : ∀ marker ∈ markers, marker ≠ [] := by decide

theorem Sealed.of_suffix {r s : Text} (h : Sealed s) (hr : r <:+ s) : Sealed r := by
  intro c hc
  refine h c ?_
  obtain ⟨a, rfl⟩ := hr
  rw [Option.mem_def] at hc ⊢
  rw [List.getLast?_append, hc]
  rfl

theorem unreadAssignment_suffix {marker : Text} (hmarker : marker ≠ []) (s : Text) :
    unreadAssignment marker s <:+ s := by
  have hinc := readAssignment_incremental hmarker
  unfold unreadAssignment
  induction s using Scan.readAll_induction hinc with
  | stop s hread => rw [Scan.readAll_of_none hread]
  | next s b r hread ih =>
      rw [Scan.readAll_of_some hinc hread]
      refine ih.trans ?_
      unfold readAssignment at hread
      split at hread
      next => exact absurd hread (by simp)
      next head value hsplit =>
        split at hread
        next => exact absurd hread (by simp)
        next =>
          obtain ⟨_, rfl⟩ := Prod.mk.inj (Option.some.inj hread)
          have htext := (splitMarker_some hmarker hsplit).1
          exact ((List.dropWhile_suffix _).trans (List.dropWhile_suffix _)).trans
            ⟨head, htext.symm⟩

/-- A text without a marker, in front of another one, is kept. -/
theorem redactMarker_prefix {marker q : Text} (hmem : marker ∈ markers)
    (hq : splitMarker marker q = none) (hsealed : Sealed q) (s : Text) :
    redactMarker (q ++ s) marker = q ++ redactMarker s marker := by
  have hmarker : marker ≠ [] := marker_ne_nil marker hmem
  have hsplit := splitMarker_append_of_none hq ((hsealed.endsOff hmem).noStraddle
    (s.map toAsciiLower))
  cases hs : splitMarker marker s with
  | none =>
      rw [hs] at hsplit
      rw [redactMarker_of_none hmarker hsplit, redactMarker_of_none hmarker hs]
  | some found =>
      obtain ⟨head, value⟩ := found
      rw [hs] at hsplit
      rw [redactMarker_of_some hmarker hsplit, redactMarker_of_some hmarker hs]
      simp only [List.append_assoc]

/-- Blanks and a replaced value hold no marker. -/
theorem splitMarker_blanks {marker : Text} (hmem : marker ∈ markers) {q : Text}
    (hq : ∀ c ∈ q, isWhitespace c = true ∨ c ∈ redacted) : splitMarker marker q = none := by
  unfold splitMarker
  rw [Option.map_eq_none_iff, splitFirst_none]
  intro hmember
  obtain ⟨d, hd, hsign⟩ := marker_sign marker hmem
  obtain ⟨c, hc, rfl⟩ := List.mem_map.mp (hmember.subset hd)
  rcases hq c hc with hblank | hin
  · rw [toAsciiLower_of_not_letter (Or.inl hblank)] at hd
    rw [(marker_chars marker hmem c hd).1] at hblank
    exact absurd hblank (by simp)
  · exact absurd hsign (redacted_sign c hin)

/-- The blanks after a marker go on into the next text. -/
theorem redact_open_blanks {marker value s : Text} (hmem : marker ∈ markers)
    (hvalue : assignedValue value = []) (hends : afterValue value = [])
    (hnext : assignedValue s = [] ∨ assignedValue s = redacted) :
    redactValue (value ++ s) ++ redactMarker (afterValue (value ++ s)) marker
      = redactValue value ++ redactMarker s marker := by
  have hblank : value.dropWhile isWhitespace = [] := by
    have hsplit := List.takeWhile_append_dropWhile (p := isValueChar)
      (l := value.dropWhile isWhitespace)
    rw [← hsplit]
    show assignedValue value ++ afterValue value = []
    rw [hvalue, hends]
    rfl
  obtain ⟨htake, hdrop⟩ := takeWhile_append_of_all s hblank
  have hkeep : ∀ t : Text, assignedValue t = [] ∨ assignedValue t = redacted →
      redactValue t = t.takeWhile isWhitespace ++ assignedValue t := by
    intro t ht
    unfold redactValue
    rcases ht with ht | ht
    · rw [if_neg (by simp [ht])]
    · rw [if_neg (by simp [ht])]
  have hsame : assignedValue (value ++ s) = assignedValue s := by
    unfold assignedValue
    rw [hdrop]
  have hafter : afterValue (value ++ s) = afterValue s := by
    unfold afterValue
    rw [hdrop]
  have hall : value.takeWhile isWhitespace = value := by
    rw [List.takeWhile_eq_self_iff]
    exact List.dropWhile_eq_nil_iff.mp hblank
  rw [hkeep _ (by rw [hsame]; exact hnext), hkeep value (Or.inl hvalue), hsame, hafter, htake,
    hall, hvalue, List.append_nil]
  -- the next text starts with the same blanks and the same value
  have hparts : s = (s.takeWhile isWhitespace ++ assignedValue s) ++ afterValue s := by
    have h1 := List.takeWhile_append_dropWhile (p := isWhitespace) (l := s)
    have h2 := List.takeWhile_append_dropWhile (p := isValueChar) (l := s.dropWhile isWhitespace)
    conv_lhs => rw [← h1, ← h2]
    exact (List.append_assoc _ _ _).symm
  have hchars : ∀ c ∈ s.takeWhile isWhitespace ++ assignedValue s,
      isWhitespace c = true ∨ c ∈ redacted := by
    intro c hc
    rcases List.mem_append.mp hc with hc | hc
    · exact Or.inl (List.mem_takeWhile_imp hc)
    · rcases hnext with hnext | hnext
      · rw [hnext] at hc
        exact absurd hc List.not_mem_nil
      · rw [hnext] at hc
        exact Or.inr hc
  have hsealed : Sealed (s.takeWhile isWhitespace ++ assignedValue s) := by
    intro c hc
    rcases hnext with hnext | hnext
    · rw [hnext, List.append_nil] at hc
      exact Or.inl (List.mem_takeWhile_imp (List.mem_of_getLast? hc))
    · rw [hnext, List.getLast?_append, show redacted.getLast? = some ']' from rfl] at hc
      exact Or.inr (Option.some.inj hc).symm
  conv_rhs => rw [hparts, redactMarker_prefix hmem (splitMarker_blanks hmem hchars) hsealed]
  simp only [List.append_assoc]

/-- A value that ends where the text does. -/
theorem redact_closed_value {marker value s : Text} (hvalue : assignedValue value ≠ [])
    (hends : afterValue value = []) (hnext : ∀ c ∈ s.head?, isValueChar c = false) :
    redactValue (value ++ s) ++ redactMarker (afterValue (value ++ s)) marker
      = redactValue value ++ redactMarker s marker := by
  have hstart : value.dropWhile isWhitespace ≠ [] := by
    intro hnil
    rw [assignedValue, hnil] at hvalue
    exact hvalue rfl
  obtain ⟨htake, hdrop⟩ := takeWhile_append_of_dropWhile s hstart
  obtain ⟨htake', hdrop'⟩ := takeWhile_append_of_all (p := isValueChar) s hends
  have hnone : s.takeWhile isValueChar = [] ∧ s.dropWhile isValueChar = s := by
    cases s with
    | nil => exact ⟨rfl, rfl⟩
    | cons c s =>
        have hc := hnext c rfl
        exact ⟨List.takeWhile_cons_of_neg (by simp [hc]), List.dropWhile_cons_of_neg (by simp [hc])⟩
  have hwhole : (value.dropWhile isWhitespace).takeWhile isValueChar
      = value.dropWhile isWhitespace := by
    rw [List.takeWhile_eq_self_iff]
    exact List.dropWhile_eq_nil_iff.mp hends
  unfold redactValue afterValue assignedValue
  rw [htake, hdrop, htake', hdrop', hnone.1, hnone.2, List.append_nil, hwhole]

/-- **Where no assignment is open, the assignments of a text are those of its parts.** -/
theorem redactMarker_append {marker p s : Text} (hmem : marker ∈ markers) (hsealed : Sealed p)
    (hclosed : AssignmentClosed marker (unreadAssignment marker p) s) :
    redactMarker (p ++ s) marker = redactMarker p marker ++ redactMarker s marker := by
  have hmarker : marker ≠ [] := marker_ne_nil marker hmem
  have hinc := readAssignment_incremental hmarker
  have hsuffix := unreadAssignment_suffix hmarker p
  have hread : readAssignment marker (unreadAssignment marker p) = none :=
    Scan.read_readAll hinc p
  -- it is enough to go on from the rest at the cut
  suffices hrest : redactMarker (unreadAssignment marker p ++ s) marker
      = lastAssignment marker (unreadAssignment marker p) ++ redactMarker s marker by
    rw [redactMarker_eq hmarker, redactMarker_eq hmarker p, redactMarker_eq hmarker s]
    refine Scan.rewrite_append hinc ?_
    rw [← redactMarker_eq hmarker, ← redactMarker_eq hmarker]
    exact hrest
  generalize unreadAssignment marker p = left at *
  unfold AssignmentClosed at hclosed
  unfold lastAssignment
  cases hleft : splitMarker marker left with
  | none =>
      exact redactMarker_prefix hmem hleft (hsealed.of_suffix hsuffix) s
  | some found =>
      obtain ⟨head, value⟩ := found
      rw [hleft] at hclosed
      have hends : afterValue value = [] := by
        by_contra hne
        unfold readAssignment at hread
        rw [hleft] at hread
        dsimp only at hread
        rw [if_neg hne] at hread
        exact absurd hread (by simp)
      rw [redactMarker_of_some hmarker (splitMarker_append_of_some s hleft)]
      dsimp only at hclosed ⊢
      rw [List.append_assoc, List.append_assoc]
      refine congrArg (head ++ ·) ?_
      by_cases hvalue : assignedValue value = []
      · rw [if_pos hvalue] at hclosed
        exact redact_open_blanks hmem hvalue hends hclosed
      · rw [if_neg hvalue] at hclosed
        exact redact_closed_value hvalue hends hclosed

/-! ## §8. Cutting a text. -/

/-- No registered secret lies across the cut, when its turn comes. -/
def SecretsClosed : List Text → Text → Text → Prop
  | [], _, _ => True
  | secret :: rest, p, s =>
      NoStraddle secret p s
        ∧ SecretsClosed rest (replace secret redacted p) (replace secret redacted s)

/-- No assignment is open at the cut, when the turn of its marker comes. -/
def AssignmentsClosed : List Text → Text → Text → Prop
  | [], _, _ => True
  | marker :: rest, p, s =>
      AssignmentClosed marker (unreadAssignment marker p) s
        ∧ AssignmentsClosed rest (redactMarker p marker) (redactMarker s marker)

/-- The cut between two texts falls inside nothing that would be redacted. -/
structure CutSafe (redactor : Redactor) (p s : Text) : Prop where
  blocks : BlockClosed (unreadBlock p) s
  secrets : SecretsClosed redactor.runtimeSecrets (redactPrivateKeyBlocks p)
    (redactPrivateKeyBlocks s)
  assignments : AssignmentsClosed markers
    (replaceSecrets redactor.runtimeSecrets (redactPrivateKeyBlocks p))
    (replaceSecrets redactor.runtimeSecrets (redactPrivateKeyBlocks s))

/-- A text of complete lines. -/
def EndsLine (text : Text) : Prop := ∀ c ∈ text.getLast?, c = '\n'

theorem EndsLine.endsOff {pat s : Text} (h : EndsLine s) (hpat : '\n' ∉ pat) : EndsOff pat s := by
  intro c hc
  rw [h c hc]
  exact hpat

theorem EndsLine.of_suffix {r s : Text} (h : EndsLine s) (hr : r <:+ s) : EndsLine r := by
  intro c hc
  refine h c ?_
  obtain ⟨a, rfl⟩ := hr
  rw [Option.mem_def] at hc ⊢
  rw [List.getLast?_append, hc]
  rfl

theorem EndsLine.append {p s : Text} (hp : EndsLine p) (hs : EndsLine s) : EndsLine (p ++ s) := by
  intro c hc
  by_cases hnil : s = []
  · rw [hnil, List.append_nil] at hc
    exact hp c hc
  · rw [List.getLast?_append_of_ne_nil _ hnil] at hc
    exact hs c hc

theorem EndsLine.flatten {texts : List Text} (h : ∀ t ∈ texts, EndsLine t) :
    EndsLine texts.flatten := by
  induction texts with
  | nil => exact fun c hc => absurd hc (by simp)
  | cons t rest ih =>
      exact (h t List.mem_cons_self).append (ih fun u hu => h u (List.mem_cons_of_mem _ hu))

theorem Sealed.append_right {b s : Text} (hne : s ≠ []) (h : Sealed s) : Sealed (b ++ s) := by
  intro c hc
  rw [List.getLast?_append_of_ne_nil _ hne] at hc
  exact h c hc

/-- Complete lines outside of a key stay complete lines. -/
theorem redactPrivateKeyBlocks_endsLine {p : Text} (hline : EndsLine p)
    (hkept : lastKeyBlock (unreadBlock p) = unreadBlock p) :
    EndsLine (redactPrivateKeyBlocks p) ∧ (p ≠ [] → redactPrivateKeyBlocks p ≠ []) := by
  have hinc := readKeyBlock_incremental
  rw [redactPrivateKeyBlocks_eq]
  unfold unreadBlock at hkept
  induction p using Scan.readAll_induction hinc with
  | stop s hread =>
      rw [Scan.readAll_of_none hread] at hkept
      rw [Scan.rewrite_of_none hread, hkept]
      exact ⟨hline, fun h => h⟩
  | next s b r hread ih =>
      have hdashes := readKeyBlock_dashes hread
      rw [Scan.readAll_of_some hinc hread] at hkept
      -- the dashes are not the end of a line
      have hr : r ≠ [] := by
        rintro rfl
        have hlast := hline.of_suffix hdashes '-' rfl
        exact absurd hlast (by decide)
      obtain ⟨hends, hne⟩ :=
        ih (hline.of_suffix ((List.suffix_append dashes r).trans hdashes)) hkept
      rw [Scan.rewrite_of_some hinc hread]
      refine ⟨?_, fun _ => by simp [hne hr]⟩
      intro c hc
      rw [List.getLast?_append_of_ne_nil _ (hne hr)] at hc
      exact hends c hc

theorem BlockClosed.kept {left s : Text} (h : BlockClosed left s) : lastKeyBlock left = left := by
  unfold BlockClosed at h
  unfold lastKeyBlock
  cases hleft : splitFirst beginMark left with
  | none => rfl
  | some found =>
      rw [hleft] at h
      dsimp only at h ⊢
      rw [h.1]
      rfl

theorem replace_sealed {secret : Text} (hsecret : secret ≠ []) :
    ∀ (n : Nat) (s : Text), s.length ≤ n → Sealed s →
      Sealed (replace secret redacted s) ∧ (s ≠ [] → replace secret redacted s ≠ []) := by
  intro n
  induction n with
  | zero =>
      intro s hn hs
      obtain rfl := List.length_eq_zero_iff.mp (Nat.le_zero.mp hn)
      exact ⟨hs, fun h => absurd rfl h⟩
  | succ n ih =>
      intro s hn hs
      cases s with
      | nil => exact ⟨hs, fun h => absurd rfl h⟩
      | cons c s =>
          by_cases hpre : secret <+: c :: s
          · obtain ⟨rest, hrest⟩ := hpre
            have hlen := congrArg List.length hrest
            have hpos := List.length_pos_of_ne_nil hsecret
            rw [List.length_append, List.length_cons] at hlen
            rw [List.length_cons] at hn
            obtain ⟨hsealed, hne⟩ := ih rest (by omega) (hs.of_suffix ⟨secret, hrest⟩)
            rw [← hrest, replace_pat_append hsecret]
            refine ⟨?_, fun _ => List.append_ne_nil_of_left_ne_nil (by decide) _⟩
            by_cases hnil : rest = []
            · rw [hnil, replace_nil, List.append_nil]
              intro d hd
              exact Or.inr (Option.some.inj hd).symm
            · exact Sealed.append_right (hne hnil) hsealed
          · rw [replace_cons_of_ne redacted hpre]
            refine ⟨?_, fun _ => List.cons_ne_nil _ _⟩
            rw [List.length_cons] at hn
            obtain ⟨hsealed, hne⟩ := ih s (by omega) (hs.of_suffix (List.suffix_cons c s))
            by_cases hnil : s = []
            · rw [hnil, replace_nil]
              rw [hnil] at hs
              exact hs
            · exact Sealed.append_right (b := [c]) (hne hnil) hsealed

theorem replaceSecrets_sealed {secrets : List Text} (hne : ∀ secret ∈ secrets, secret ≠ [])
    {s : Text} (h : Sealed s) : Sealed (replaceSecrets secrets s) := by
  induction secrets generalizing s with
  | nil => exact h
  | cons secret rest ih =>
      exact ih (fun t ht => hne t (List.mem_cons_of_mem _ ht))
        (replace_sealed (hne secret List.mem_cons_self) _ s (Nat.le_refl _) h).1

/-- The last value of a text ends it. -/
theorem sealed_last_value {s head value : Text} (htext : s = head ++ value) (hs : Sealed s)
    (hends : afterValue value = []) : Sealed (head ++ redactValue value) := by
  have hvalue : value.dropWhile isWhitespace = assignedValue value := by
    have := List.takeWhile_append_dropWhile (p := isValueChar) (l := value.dropWhile isWhitespace)
    rw [show (value.dropWhile isWhitespace).dropWhile isValueChar = [] from hends,
      List.append_nil] at this
    exact this.symm
  by_cases hnil : assignedValue value = []
  · have hkeep : redactValue value = value := by
      have hall := List.takeWhile_append_dropWhile (p := isWhitespace) (l := value)
      rw [hvalue, hnil, List.append_nil] at hall
      unfold redactValue
      rw [hall, if_neg (by simp [hnil]), hnil, List.append_nil]
    rw [hkeep, ← htext]
    exact hs
  · have hlast : redactValue value = value.takeWhile isWhitespace ++ redacted := by
      unfold redactValue
      by_cases hdone : assignedValue value = redacted
      · rw [if_neg (by simp [hdone]), hdone]
      · rw [if_pos ⟨hnil, hdone⟩]
    rw [hlast, ← List.append_assoc]
    refine Sealed.append_right (by decide) ?_
    intro c hc
    exact Or.inr (Option.some.inj hc).symm

theorem redactMarker_sealed {marker : Text} (hmem : marker ∈ markers) {s : Text}
    (h : Sealed s) : Sealed (redactMarker s marker) := by
  have hmarker : marker ≠ [] := marker_ne_nil marker hmem
  suffices hboth : ∀ n (s : Text), s.length ≤ n → Sealed s →
      Sealed (redactMarker s marker) ∧ (s ≠ [] → redactMarker s marker ≠ []) from
    (hboth _ s (Nat.le_refl _) h).1
  intro n
  induction n with
  | zero =>
      intro s hn hs
      rw [List.length_eq_zero_iff.mp (Nat.le_zero.mp hn)]
      exact ⟨fun c hc => absurd hc (by simp [redactMarker, markerFrom]), fun h => absurd rfl h⟩
  | succ n ih =>
      intro s hn hs
      cases hsplit : splitMarker marker s with
      | none =>
          rw [redactMarker_of_none hmarker hsplit]
          exact ⟨hs, fun h => h⟩
      | some found =>
          obtain ⟨head, value⟩ := found
          obtain ⟨htext, hhead, hless⟩ := splitMarker_some hmarker hsplit
          have hlen := length_afterValue value
          rw [redactMarker_of_some hmarker hsplit]
          refine ⟨?_, fun _ => by simp [hhead]⟩
          have hrest : afterValue value <:+ s :=
            ((List.dropWhile_suffix _).trans (List.dropWhile_suffix _)).trans
              ⟨head, htext.symm⟩
          obtain ⟨hsealed, hne⟩ := ih (afterValue value) (by omega) (hs.of_suffix hrest)
          by_cases hends : afterValue value = []
          · rw [hends, show redactMarker [] marker = [] from rfl, List.append_nil]
            exact sealed_last_value htext hs hends
          · exact Sealed.append_right (hne hends) hsealed

theorem replaceSecrets_append {secrets : List Text} (hne : ∀ secret ∈ secrets, secret ≠ [])
    {p s : Text} (h : SecretsClosed secrets p s) :
    replaceSecrets secrets (p ++ s) = replaceSecrets secrets p ++ replaceSecrets secrets s := by
  induction secrets generalizing p s with
  | nil => rfl
  | cons secret rest ih =>
      have hcut := replace_append (hne secret List.mem_cons_self) redacted p.length p s
        (Nat.le_refl _) h.1
      show replaceSecrets rest (replace secret redacted (p ++ s)) = _
      rw [hcut]
      exact ih (fun t ht => hne t (List.mem_cons_of_mem _ ht)) h.2

theorem foldl_redactMarker_append {ms : List Text} (hsub : ∀ m ∈ ms, m ∈ markers) {p s : Text}
    (hsealed : Sealed p) (h : AssignmentsClosed ms p s) :
    ms.foldl redactMarker (p ++ s) = ms.foldl redactMarker p ++ ms.foldl redactMarker s := by
  induction ms generalizing p s with
  | nil => rfl
  | cons marker rest ih =>
      have hmem := hsub marker List.mem_cons_self
      rw [List.foldl_cons, List.foldl_cons, List.foldl_cons, redactMarker_append hmem hsealed h.1]
      exact ih (fun m hm => hsub m (List.mem_cons_of_mem _ hm))
        (redactMarker_sealed hmem hsealed) h.2

/-- **At a safe cut after a line, redaction is that of the two parts.** -/
theorem redact_append {redactor : Redactor} {p s : Text} (hline : EndsLine p)
    (h : CutSafe redactor p s) :
    redactor.redact (p ++ s) = redactor.redact p ++ redactor.redact s := by
  have hblocks := redactPrivateKeyBlocks_append (hline.endsOff (by decide))
    (hline.endsOff (by decide)) h.blocks
  have hsealed : Sealed (redactPrivateKeyBlocks p) := by
    intro c hc
    rw [(redactPrivateKeyBlocks_endsLine hline h.blocks.kept).1 c hc]
    exact Or.inl (by decide)
  unfold Redactor.redact
  rw [hblocks, replaceSecrets_append redactor.nonempty h.secrets]
  exact foldl_redactMarker_append (fun m hm => hm)
    (replaceSecrets_sealed redactor.nonempty hsealed) h.assignments

/-- A text without any marker leaves no assignment open. -/
theorem assignmentsClosed_of_none {ms : List Text} (hsub : ∀ m ∈ ms, m ∈ markers) {p s : Text}
    (h : ∀ m ∈ ms, splitMarker m p = none) : AssignmentsClosed ms p s := by
  induction ms generalizing s with
  | nil => trivial
  | cons marker rest ih =>
      have hnone := h marker List.mem_cons_self
      have hmarker := marker_ne_nil marker (hsub marker List.mem_cons_self)
      refine ⟨?_, ?_⟩
      · have hread : readAssignment marker p = none := by
          unfold readAssignment
          rw [hnone]
        rw [unreadAssignment, Scan.readAll_of_none hread, AssignmentClosed, hnone]
        trivial
      · rw [redactMarker_of_none hmarker hnone]
        exact ih (fun m hm => hsub m (List.mem_cons_of_mem _ hm))
          (fun m hm => h m (List.mem_cons_of_mem _ hm))

/-- Every cut between successive texts is safe, given what came before. -/
def CutsSafe (redactor : Redactor) : Text → List Text → Prop
  | _, [] => True
  | before, next :: rest => CutSafe redactor before next ∧ CutsSafe redactor (before ++ next) rest

/-- **Texts of complete lines with safe cuts are redacted as their concatenation.** -/
theorem redact_flatten {redactor : Redactor} {texts : List Text}
    (hlines : ∀ t ∈ texts, EndsLine t) {before : Text} (hbefore : EndsLine before)
    (h : CutsSafe redactor before texts) :
    redactor.redact (before ++ texts.flatten)
      = redactor.redact before ++ (texts.map redactor.redact).flatten := by
  induction texts generalizing before with
  | nil => simp
  | cons next rest ih =>
      have hboth := hbefore.append (hlines next List.mem_cons_self)
      rw [List.flatten_cons, ← List.append_assoc,
        ih (fun t ht => hlines t (List.mem_cons_of_mem _ ht)) hboth h.2,
        redact_append hbefore h.1, List.map_cons, List.flatten_cons, List.append_assoc]

/-! ## §9. Texts with nothing to redact. -/

theorem toAsciiLower_eq_sign {c sign : Char} (hsign : sign = '=' ∨ sign = ':')
    (h : toAsciiLower c = sign) : c = sign := by
  unfold toAsciiLower at h
  split at h
  next hupper =>
    have hlow : 65 ≤ c.toNat := UInt32.le_iff_toNat_le.mp hupper.1
    have hhigh : c.toNat ≤ 90 := UInt32.le_iff_toNat_le.mp hupper.2
    have hletters : ∀ n < 91, (Char.ofNat (n + 32)).toNat = n + 32 := by decide
    have hnat := hletters c.toNat (by omega)
    rw [h] at hnat
    rcases hsign with rfl | rfl
    · exact absurd hnat (by
        rw [show ('=' : Char).toNat = 61 from rfl]
        omega)
    · exact absurd hnat (by
        rw [show (':' : Char).toNat = 58 from rfl]
        omega)
  next => exact h

/-- **A text without signs and without some character of a key's header is not redacted,
when no secret is registered.** -/
theorem redact_plain {redactor : Redactor} (hsecrets : redactor.runtimeSecrets = []) {s : Text}
    (hheader : ∃ c ∈ beginMark, c ∉ s) (hsigns : ∀ c ∈ s, c ≠ '=' ∧ c ≠ ':') :
    redactor.redact s = s := by
  have hblocks : redactPrivateKeyBlocks s = s := by
    have hnone : splitFirst beginMark s = none := by
      refine splitFirst_none.mpr fun hmember => ?_
      obtain ⟨c, hc, hnot⟩ := hheader
      exact hnot (hmember.subset hc)
    unfold redactPrivateKeyBlocks
    cases hlength : s.length with
    | zero => rfl
    | succ n =>
        unfold keyBlocksFrom
        rw [hnone]
  have hmarkers : ∀ ms : List Text, (∀ m ∈ ms, m ∈ markers) → ms.foldl redactMarker s = s := by
    intro ms
    induction ms with
    | nil => exact fun _ => rfl
    | cons m ms ih =>
        intro hsub
        have hmem := hsub m List.mem_cons_self
        have hnone : splitMarker m s = none := by
          unfold splitMarker
          rw [Option.map_eq_none_iff]
          refine splitFirst_none.mpr fun hmember => ?_
          obtain ⟨sign, hin, hsign⟩ := marker_sign m hmem
          obtain ⟨c, hc, hlower⟩ := List.mem_map.mp (hmember.subset hin)
          have hceq := toAsciiLower_eq_sign hsign hlower
          rcases hsign with rfl | rfl
          · exact (hsigns c hc).1 hceq
          · exact (hsigns c hc).2 hceq
        rw [List.foldl_cons, redactMarker_of_none (marker_ne_nil m hmem) hnone]
        exact ih fun m' hm' => hsub m' (List.mem_cons_of_mem _ hm')
  unfold Redactor.redact replaceSecrets redactNamedAssignments
  rw [hsecrets, hblocks, List.foldl_nil]
  exact hmarkers markers fun _ hm => hm

end QingzhouSSH.Core.Redaction
