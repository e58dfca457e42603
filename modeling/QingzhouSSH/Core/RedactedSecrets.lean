/-
  QingzhouSSH.Core.RedactedSecrets — no registered secret is left in what is redacted.

  Every stage of `redact` only replaces pieces of its text by `[REDACTED]`.  A secret that
  lies apart from that text goes in its own turn, and no later turn can make it again.  The
  loops are also given as the source has them, over byte positions that must not fall
  inside a character.

  Main results:
    * `redact_hides` — no registered secret is in a redacted text;
    * `keyBlockTurns_eq`, `assignmentTurns_eq` — the loops end, and cut at characters;
    * `redact_hides_secrets` — the same for every string of a redacted value.
-/
import QingzhouSSH.Core.Redaction
import QingzhouSSH.Lib.ByteCut
import QingzhouSSH.Lib.Masking

namespace QingzhouSSH.Core.Redaction

open String (utf8Len)
open QingzhouSSH.Lib
open QingzhouSSH.Lib.Text
open QingzhouSSH.Core.Tasks (toAsciiLower)

/-! ## §1. Every stage masks. -/

theorem masks_keyBlocksFrom (n : Nat) (s : Text) : Masks redacted s (keyBlocksFrom n s) := by
  induction n generalizing s with
  | zero => exact .refl s
  | succ n ih =>
      unfold keyBlocksFrom
      cases hbegin : splitFirst beginMark s with
      | none => exact .refl s
      | some found =>
          obtain ⟨before, block⟩ := found
          dsimp only
          have hs := splitFirst_some hbegin
          cases hheader : splitFirst dashes block with
          | none =>
              dsimp only
              rw [← hs]
              exact .refl s
          | some found =>
              obtain ⟨title, afterHeader⟩ := found
              dsimp only
              have hblock := splitFirst_some hheader
              by_cases hpublic : (!isPrivateKey title) = true
              · rw [if_pos hpublic]
                have hsplit : s = before ++ header title ++ afterHeader := by
                  rw [hs, hblock]
                  simp only [header, List.append_assoc]
                rw [hsplit]
                exact (Masks.refl _).append (ih afterHeader)
              · rw [if_neg hpublic]
                -- the rest of the text goes with a key that has no end
                have hopen : Masks redacted s (before ++ redacted) := by
                  rw [hs, List.append_assoc]
                  exact (Masks.refl before).append (.piece _)
                cases hend : splitFirst endMark afterHeader with
                | none => exact hopen
                | some found =>
                    obtain ⟨key, endBlock⟩ := found
                    dsimp only
                    cases hrest : splitFirst dashes ("END ".toList ++ endBlock) with
                    | none => exact hopen
                    | some found =>
                        obtain ⟨word, rest⟩ := found
                        dsimp only
                        have hafter := splitFirst_some hend
                        have hlast := splitFirst_some hrest
                        have hword : endMark = dashes ++ "END ".toList := by decide
                        have hsplit : s = before ++ (header title ++ key ++ dashes ++ word ++ dashes)
                            ++ rest := by
                          rw [hs, hblock, hafter, hword]
                          simp only [header, List.append_assoc] at hlast ⊢
                          rw [hlast]
                        rw [hsplit]
                        exact ((Masks.refl before).append (.piece _)).append (ih rest)

theorem masks_redactPrivateKeyBlocks (s : Text) : Masks redacted s (redactPrivateKeyBlocks s) :=
  masks_keyBlocksFrom s.length s

/-- A value and what follows it. -/
theorem value_split (value : Text) :
    value.takeWhile isWhitespace ++ assignedValue value ++ afterValue value = value := by
  have hvalue := List.takeWhile_append_dropWhile (p := isValueChar)
    (l := value.dropWhile isWhitespace)
  rw [List.append_assoc]
  exact (congrArg _ hvalue).trans List.takeWhile_append_dropWhile

theorem masks_redactValue (value : Text) :
    Masks redacted (value.takeWhile isWhitespace ++ assignedValue value) (redactValue value) := by
  unfold redactValue
  split
  · exact (Masks.refl _).append (.piece _)
  · exact .refl _

theorem masks_markerFrom {marker : Text} (hmarker : marker ≠ []) (n : Nat) (s : Text) :
    Masks redacted s (markerFrom marker n s) := by
  induction n generalizing s with
  | zero => exact .refl s
  | succ n ih =>
      unfold markerFrom
      cases hsplit : splitMarker marker s with
      | none => exact .refl s
      | some found =>
          obtain ⟨head, value⟩ := found
          dsimp only
          have hs : s = head ++ (value.takeWhile isWhitespace ++ assignedValue value)
              ++ afterValue value := by
            rw [List.append_assoc, value_split]
            exact (splitMarker_some hmarker hsplit).1
          conv => lhs; rw [hs]
          exact ((Masks.refl head).append (masks_redactValue value)).append (ih (afterValue value))

theorem masks_redactMarker {marker : Text} (hmem : marker ∈ markers) (s : Text) :
    Masks redacted s (redactMarker s marker) :=
  masks_markerFrom (marker_ne_nil marker hmem) s.length s

/-! ## §2. Registered secrets. -/

variable {secret : Text}

theorem not_infix_foldl_redactMarker (hapart : ApartFrom redacted secret) {ms : List Text}
    (hsub : ∀ m ∈ ms, m ∈ markers) {s : Text} (h : ¬secret <:+: s) :
    ¬secret <:+: ms.foldl redactMarker s := by
  induction ms generalizing s with
  | nil => exact h
  | cons m ms ih =>
      refine ih (fun m' hm' => hsub m' (List.mem_cons_of_mem _ hm')) ?_
      exact (masks_redactMarker (hsub m List.mem_cons_self) s).not_occurs hapart h

/-- A secret that is gone stays away, whatever else is replaced. -/
theorem not_infix_replaceSecrets (hapart : ApartFrom redacted secret) {secrets : List Text}
    (hne : ∀ t ∈ secrets, t ≠ []) {s : Text} (h : ¬secret <:+: s) :
    ¬secret <:+: replaceSecrets secrets s := by
  induction secrets generalizing s with
  | nil => exact h
  | cons t rest ih =>
      refine ih (fun u hu => hne u (List.mem_cons_of_mem _ hu)) ?_
      exact (masks_replace (hne t List.mem_cons_self) s).not_occurs hapart h

/-- A secret goes when its turn comes. -/
theorem not_infix_replaceSecrets_of_mem (hapart : ApartFrom redacted secret) {secrets : List Text}
    (hne : ∀ t ∈ secrets, t ≠ []) (hmem : secret ∈ secrets) (s : Text) :
    ¬secret <:+: replaceSecrets secrets s := by
  induction secrets generalizing s with
  | nil => cases hmem
  | cons t rest ih =>
      have hrest := fun u hu => hne u (List.mem_cons_of_mem t hu)
      rcases List.mem_cons.mp hmem with rfl | hmem
      · exact not_infix_replaceSecrets hapart hrest
          (not_infix_replace (hne secret List.mem_cons_self) hapart s)
      · exact ih hrest hmem (replace t redacted s)

theorem mem_destutter' {x : Text} {l : List Text} {a : Text} (h : a ∈ x :: l) :
    a ∈ l.destutter' (· ≠ ·) x := by
  induction l generalizing x with
  | nil => exact h
  | cons y l ih =>
      by_cases hne : x ≠ y
      · rw [List.destutter'_cons_pos _ hne]
        rcases List.mem_cons.mp h with rfl | h
        · exact List.mem_cons_self
        · exact List.mem_cons_of_mem _ (ih h)
      · rw [List.destutter'_cons_neg _ hne]
        have hsame : x = y := not_not.mp hne
        subst hsame
        rcases List.mem_cons.mp h with rfl | h
        · exact ih List.mem_cons_self
        · exact ih h

/-- Every secret that is not empty is registered. -/
theorem Redactor.mem_new {secrets : List Text} (hmem : secret ∈ secrets) (hne : secret ≠ []) :
    secret ∈ (Redactor.new secrets).runtimeSecrets := by
  have hkept : secret ∈ secrets.filter fun s => !s.isEmpty := by
    refine List.mem_filter.mpr ⟨hmem, ?_⟩
    cases secret with
    | nil => exact absurd rfl hne
    | cons c rest => rfl
  have hsorted : secret ∈ (secrets.filter fun s => !s.isEmpty).mergeSort
      (fun s t => decide (utf8Len t ≤ utf8Len s)) := List.mem_mergeSort.mpr hkept
  unfold Redactor.new
  dsimp only
  generalize (secrets.filter fun s => !s.isEmpty).mergeSort
    (fun s t => decide (utf8Len t ≤ utf8Len s)) = sorted at hsorted ⊢
  cases sorted with
  | nil => cases hsorted
  | cons x l => exact mem_destutter' hsorted

/-- **No registered secret is in a redacted text.** -/
theorem redact_hides {redactor : Redactor} (hmem : secret ∈ redactor.runtimeSecrets)
    (hapart : ApartFrom redacted secret) (input : Text) : ¬secret <:+: redactor.redact input := by
  unfold Redactor.redact redactNamedAssignments
  have hgone := not_infix_replaceSecrets_of_mem hapart redactor.nonempty hmem
    (redactPrivateKeyBlocks input)
  exact not_infix_foldl_redactMarker hapart (fun _ hm => hm) hgone

/-! ## §3. Values. -/

mutual

/-- The texts of a value, the names of fields left out. -/
def stringLeaves : Value → List Text
  | .string s => [s]
  | .array items => itemLeaves items
  | .object fields => fieldLeaves fields
  | .null => []
  | .bool _ => []
  | .int _ => []
  | .float _ => []

def itemLeaves : List Value → List Text
  | [] => []
  | item :: rest => stringLeaves item ++ itemLeaves rest

def fieldLeaves : List (Text × Value) → List Text
  | [] => []
  | (_, value) :: rest => stringLeaves value ++ fieldLeaves rest

end

mutual

/-- The second value has the shape of the first, and every value under a sensitive key is
replaced. -/
def SensitiveHidden : Value → Value → Prop
  | .array items, .array items' => ItemsHidden items items'
  | .object fields, .object fields' => FieldsHidden fields fields'
  | .string _, .string _ => True
  | .null, .null => True
  | .bool b, .bool b' => b = b'
  | .int n, .int n' => n = n'
  | .float f, .float f' => f = f'
  | _, _ => False

def ItemsHidden : List Value → List Value → Prop
  | [], [] => True
  | item :: rest, item' :: rest' => SensitiveHidden item item' ∧ ItemsHidden rest rest'
  | _, _ => False

def FieldsHidden : List (Text × Value) → List (Text × Value) → Prop
  | [], [] => True
  | (key, value) :: rest, (key', value') :: rest' =>
      key' = key
        ∧ (if isSensitiveKey key then value' = .string redacted else SensitiveHidden value value')
        ∧ FieldsHidden rest rest'
  | _, _ => False

end

mutual

theorem sensitiveHidden_redactJson (redactor : Redactor) :
    ∀ value : Value, SensitiveHidden value (redactor.redactJson value)
  | .string _ => trivial
  | .array items => itemsHidden_redactItems redactor items
  | .object fields => fieldsHidden_redactFields redactor fields
  | .null => trivial
  | .bool _ => rfl
  | .int _ => rfl
  | .float _ => rfl

theorem itemsHidden_redactItems (redactor : Redactor) :
    ∀ items : List Value, ItemsHidden items (redactor.redactItems items)
  | [] => trivial
  | item :: rest =>
      ⟨sensitiveHidden_redactJson redactor item, itemsHidden_redactItems redactor rest⟩

theorem fieldsHidden_redactFields (redactor : Redactor) :
    ∀ fields : List (Text × Value), FieldsHidden fields (redactor.redactFields fields)
  | [] => trivial
  | (key, value) :: rest => by
      refine ⟨rfl, ?_, fieldsHidden_redactFields redactor rest⟩
      by_cases hkey : isSensitiveKey key = true
      · rw [if_pos hkey, if_pos hkey]
      · rw [if_neg hkey, if_neg hkey]
        exact sensitiveHidden_redactJson redactor value

end

mutual

/-- Every text of a redacted value is a redacted text or the mask. -/
theorem mem_leaves_redactJson {redactor : Redactor} {leaf : Text} :
    ∀ value : Value, leaf ∈ stringLeaves (redactor.redactJson value) →
      leaf = redacted ∨ ∃ s, leaf = redactor.redact s
  | .string s, h => .inr ⟨s, List.mem_singleton.mp h⟩
  | .array items, h => mem_leaves_redactItems items h
  | .object fields, h => mem_leaves_redactFields fields h
  | .null, h => nomatch h
  | .bool _, h => nomatch h
  | .int _, h => nomatch h
  | .float _, h => nomatch h

theorem mem_leaves_redactItems {redactor : Redactor} {leaf : Text} :
    ∀ items : List Value, leaf ∈ itemLeaves (redactor.redactItems items) →
      leaf = redacted ∨ ∃ s, leaf = redactor.redact s
  | [], h => nomatch h
  | item :: rest, h =>
      (List.mem_append.mp h).elim (mem_leaves_redactJson item) (mem_leaves_redactItems rest)

theorem mem_leaves_redactFields {redactor : Redactor} {leaf : Text} :
    ∀ fields : List (Text × Value), leaf ∈ fieldLeaves (redactor.redactFields fields) →
      leaf = redacted ∨ ∃ s, leaf = redactor.redact s
  | [], h => nomatch h
  | (key, value) :: rest, h => by
      rcases List.mem_append.mp h with h | h
      · by_cases hkey : isSensitiveKey key = true
        · rw [if_pos hkey] at h
          exact .inl (List.mem_singleton.mp h)
        · rw [if_neg hkey] at h
          exact mem_leaves_redactJson value h
      · exact mem_leaves_redactFields rest h

end

/-! ## §4. The loops over byte positions. -/

/-- The loop of `redact_private_key_blocks`; none where it is still under way after so many
turns, or a slice does not end at a character. -/
def keyBlockTurns : Nat → Text → Text → Option Text
  | 0, _, _ => none
  | turns + 1, remaining, output =>
      match ByteCut.find beginMark remaining with
      | none => some (output ++ remaining)
      | some begin => do
          let output := output ++ (← ByteCut.sliceTo remaining begin)
          let block ← ByteCut.sliceFrom remaining begin
          let headerPrefix := utf8Len beginMark
          match ByteCut.find dashes (← ByteCut.sliceFrom block headerPrefix) with
          | none => some (output ++ block)
          | some headerEnd =>
              let headerEnd := headerPrefix + headerEnd + 5
              let header ← ByteCut.sliceTo block headerEnd
              let afterHeader ← ByteCut.sliceFrom block headerEnd
              if !contains header "PRIVATE KEY".toList then
                keyBlockTurns turns afterHeader (output ++ header)
              else
                match ByteCut.find endMark afterHeader with
                | none => some (output ++ redacted)
                | some endStart => do
                    let endBlock ← ByteCut.sliceFrom afterHeader endStart
                    match ByteCut.find dashes (← ByteCut.sliceFrom endBlock 5) with
                    | none => some (output ++ redacted)
                    | some endMarker => do
                        let rest ← ByteCut.sliceFrom endBlock (5 + endMarker + 5)
                        keyBlockTurns turns rest (output ++ redacted)

/-- `trimmed < value_end && &output[trimmed..value_end] != REDACTED`. -/
def isShown (output : Text) (trimmed valueEnd : Nat) : Option Bool :=
  if trimmed < valueEnd then
    (ByteCut.slice output trimmed valueEnd).map fun value => decide (value ≠ redacted)
  else some false

/-- The loop of `redact_named_assignments` for one marker. -/
def assignmentTurns (marker : Text) : Nat → Text → Nat → Option Text
  | 0, _, _ => none
  | turns + 1, output, searchFrom => do
      let lowered := (← ByteCut.sliceFrom output searchFrom).map toAsciiLower
      match ByteCut.find marker lowered with
      | none => some output
      | some relative => do
          let valueStart := searchFrom + relative + utf8Len marker
          let trimmed := ((ByteCut.findChar (fun c => !isWhitespace c)
            (← ByteCut.sliceFrom output valueStart)).map (valueStart + ·)).getD (utf8Len output)
          let valueEnd := ((ByteCut.findChar (fun c => isWhitespace c || c == ',' || c == ';')
            (← ByteCut.sliceFrom output trimmed)).map (trimmed + ·)).getD (utf8Len output)
          let shown ← isShown output trimmed valueEnd
          if shown then do
            let output ← ByteCut.replaceRange output trimmed valueEnd redacted
            let searchFrom := trimmed + utf8Len redacted
            if utf8Len output ≤ searchFrom then some output
            else assignmentTurns marker turns output searchFrom
          else
            let searchFrom := max valueEnd valueStart
            if utf8Len output ≤ searchFrom then some output
            else assignmentTurns marker turns output searchFrom

/-- `redact`, no loop of which takes more turns than its text has characters, and one. -/
def redactTurns (redactor : Redactor) (input : Text) : Option Text := do
  let blocks ← keyBlockTurns (input.length + 1) input []
  markers.foldlM (fun output marker => assignmentTurns marker (output.length + 1) output 0)
    (replaceSecrets redactor.runtimeSecrets blocks)

theorem redactPrivateKeyBlocks_of_length_le {n : Nat} {s : Text} (h : s.length ≤ n) :
    redactPrivateKeyBlocks s = keyBlocksFrom n s := by
  rw [redactPrivateKeyBlocks_eq, keyBlocksFrom_eq n s h]

theorem find_of_split {pat s before after : Text} (h : splitFirst pat s = some (before, after)) :
    ByteCut.find pat s = some (utf8Len before) := by
  unfold ByteCut.find
  rw [h]
  rfl

theorem find_of_none {pat s : Text} (h : splitFirst pat s = none) : ByteCut.find pat s = none := by
  unfold ByteCut.find
  rw [h]
  rfl

/-- **The loop over key blocks ends, and cuts at characters.** -/
theorem keyBlockTurns_eq {turns : Nat} {remaining output : Text} (hturns : remaining.length < turns) :
    keyBlockTurns turns remaining output = some (output ++ redactPrivateKeyBlocks remaining) := by
  induction turns generalizing remaining output with
  | zero => omega
  | succ turns ih =>
      rw [redactPrivateKeyBlocks_of_length_le (Nat.le_of_lt hturns)]
      unfold keyBlockTurns keyBlocksFrom
      cases hbegin : splitFirst beginMark remaining with
      | none => rw [find_of_none hbegin]
      | some found =>
          obtain ⟨before, block⟩ := found
          have hremaining := splitFirst_some hbegin
          have hmark : beginMark.length = 11 := rfl
          have hlength : remaining.length = before.length + 11 + block.length := by
            rw [length_splitFirst hbegin, hmark]
          rw [List.append_assoc] at hremaining
          rw [find_of_split hbegin]
          dsimp only [bind, Option.bind]
          rw [ByteCut.sliceTo_of_eq hremaining rfl, ByteCut.sliceFrom_of_eq hremaining rfl]
          dsimp only
          rw [ByteCut.sliceFrom_append beginMark block]
          dsimp only
          cases hheader : splitFirst dashes block with
          | none =>
              rw [find_of_none hheader]
              simp only [List.append_assoc]
          | some found =>
              obtain ⟨title, afterHeader⟩ := found
              have hblock := splitFirst_some hheader
              have hshort := length_splitFirst hheader
              have hdashes : utf8Len dashes = 5 := rfl
              have hwhole : beginMark ++ block = header title ++ afterHeader := by
                rw [hblock]
                simp only [header, List.append_assoc]
              have hend : utf8Len beginMark + utf8Len title + 5 = utf8Len (header title) := by
                unfold header
                rw [String.utf8Len_append, String.utf8Len_append, hdashes]
              rw [find_of_split hheader]
              dsimp only
              rw [ByteCut.sliceTo_of_eq hwhole hend, ByteCut.sliceFrom_of_eq hwhole hend]
              dsimp only
              unfold isPrivateKey
              by_cases hpublic : (!contains (header title) "PRIVATE KEY".toList) = true
              · rw [if_pos hpublic, if_pos hpublic, ih (show afterHeader.length < turns by omega),
                  redactPrivateKeyBlocks_of_length_le (show afterHeader.length ≤ turns by omega)]
                simp only [List.append_assoc]
              · rw [if_neg hpublic, if_neg hpublic]
                cases hkey : splitFirst endMark afterHeader with
                | none =>
                    rw [find_of_none hkey]
                    simp only [List.append_assoc]
                | some found =>
                    obtain ⟨key, endBlock⟩ := found
                    have hafter := splitFirst_some hkey
                    have hkeyShort := length_splitFirst hkey
                    rw [List.append_assoc] at hafter
                    rw [find_of_split hkey]
                    dsimp only
                    have hword : endMark ++ endBlock = dashes ++ ("END ".toList ++ endBlock) := rfl
                    rw [ByteCut.sliceFrom_of_eq hafter rfl]
                    dsimp only
                    rw [ByteCut.sliceFrom_of_eq hword hdashes.symm]
                    dsimp only
                    cases hlast : splitFirst dashes ("END ".toList ++ endBlock) with
                    | none =>
                        rw [find_of_none hlast]
                        simp only [List.append_assoc]
                    | some found =>
                        obtain ⟨word, rest⟩ := found
                        have hrest := splitFirst_some hlast
                        have hrestShort := length_splitFirst hlast
                        rw [find_of_split hlast]
                        dsimp only
                        have hcut : endMark ++ endBlock = (dashes ++ word ++ dashes) ++ rest := by
                          rw [hword, hrest]
                          simp only [List.append_assoc]
                        have hstop : 5 + utf8Len word + 5 = utf8Len (dashes ++ word ++ dashes) := by
                          rw [String.utf8Len_append, String.utf8Len_append, hdashes]
                        have hendLength : "END ".toList.length = 4 := rfl
                        rw [List.length_append, hendLength] at hrestShort
                        rw [ByteCut.sliceFrom_of_eq hcut hstop]
                        dsimp only
                        rw [ih (show rest.length < turns by omega),
                          redactPrivateKeyBlocks_of_length_le (show rest.length ≤ turns by omega)]
                        simp only [List.append_assoc]

theorem utf8Len_lowered (s : Text) : utf8Len (s.map toAsciiLower) = utf8Len s := by
  induction s with
  | nil => rfl
  | cons c s ih =>
      rw [List.map_cons, String.utf8Len_cons, String.utf8Len_cons, ih]
      have hsize : (toAsciiLower c).utf8Size = c.utf8Size := by
        unfold toAsciiLower
        split
        next hupper =>
          have hlow : 65 ≤ c.toNat := UInt32.le_iff_toNat_le.mp hupper.1
          have hhigh : c.toNat ≤ 90 := UInt32.le_iff_toNat_le.mp hupper.2
          have hletters : ∀ n < 91, (Char.ofNat (n + 32)).utf8Size = 1 := by decide
          have hchar : (Char.ofNat c.toNat).utf8Size = c.utf8Size := by rw [Char.ofNat_toNat]
          have hascii : ∀ n < 91, (Char.ofNat n).utf8Size = 1 := by decide
          rw [hletters c.toNat (by omega), ← hchar, hascii c.toNat (by omega)]
        next => rfl
      rw [hsize]

theorem utf8Len_pos {s : Text} (h : s ≠ []) : 0 < utf8Len s := by
  obtain ⟨c, rest, rfl⟩ := List.exists_cons_of_ne_nil h
  have hpos := c.utf8Size_pos
  rw [String.utf8Len_cons]
  omega

/-- The position of a marker, and the head that ends with it. -/
theorem find_of_splitMarker {marker s head value : Text}
    (h : splitMarker marker s = some (head, value)) :
    ∃ relative, ByteCut.find marker (s.map toAsciiLower) = some relative
      ∧ relative + utf8Len marker = utf8Len head := by
  obtain ⟨⟨before, after⟩, hfound, hsplit⟩ := Option.map_eq_some_iff.mp h
  rw [List.splitAt_eq, Prod.mk.injEq] at hsplit
  obtain ⟨rfl, rfl⟩ := hsplit
  refine ⟨utf8Len before, find_of_split hfound, ?_⟩
  have hlowered : (s.take (before.length + marker.length)).map toAsciiLower = before ++ marker := by
    rw [List.map_take, splitFirst_some hfound, ← List.length_append, List.take_left]
  show utf8Len before + utf8Len marker = utf8Len (s.take (before.length + marker.length))
  rw [← utf8Len_lowered (s.take _), hlowered, String.utf8Len_append]

theorem find_of_splitMarker_none {marker s : Text} (h : splitMarker marker s = none) :
    ByteCut.find marker (s.map toAsciiLower) = none :=
  find_of_none (Option.map_eq_none_iff.mp h)

/-- Where a run of characters ends, and the text where it does not. -/
theorem findChar_end {p q : Char → Bool} (hq : ∀ c, q c = !p c) {s : Text} {start : Nat} :
    ((ByteCut.findChar p s).map (start + ·)).getD (start + utf8Len s)
      = start + utf8Len (s.takeWhile q) := by
  by_cases hall : s.dropWhile q = []
  · have hwhole := List.takeWhile_append_dropWhile (p := q) (l := s)
    rw [hall, List.append_nil] at hwhole
    rw [ByteCut.findChar_none hq hall, hwhole]
    rfl
  · rw [ByteCut.findChar_some hq hall]
    rfl

theorem isValueChar_eq (c : Char) :
    isValueChar c = !(isWhitespace c || c == ',' || c == ';') := rfl

/-- **The loop over assignments ends, and cuts at characters**: behind the search position less
is left after every turn, also where the text has grown. -/
theorem assignmentTurns_eq {marker : Text} (hmarker : marker ≠ []) {turns : Nat} {done rest : Text}
    (hturns : rest.length < turns) :
    assignmentTurns marker turns (done ++ rest) (utf8Len done)
      = some (done ++ redactMarker rest marker) := by
  induction turns generalizing done rest with
  | zero => omega
  | succ turns ih =>
      unfold assignmentTurns
      dsimp only [bind, Option.bind]
      rw [ByteCut.sliceFrom_append done rest]
      dsimp only
      cases hsplit : splitMarker marker rest with
      | none =>
          rw [find_of_splitMarker_none hsplit, redactMarker_of_none hmarker hsplit]
      | some found =>
          obtain ⟨head, value⟩ := found
          obtain ⟨hrest, hhead, hless⟩ := splitMarker_some hmarker hsplit
          obtain ⟨relative, hfind, hrelative⟩ := find_of_splitMarker hsplit
          have hblanks := List.takeWhile_append_dropWhile (p := isWhitespace) (l := value)
          have hafter := length_afterValue value
          rw [hfind]
          dsimp only
          -- the value starts behind the marker
          have hstart : utf8Len done + relative + utf8Len marker = utf8Len (done ++ head) := by
            rw [String.utf8Len_append]
            omega
          have hwhole : done ++ rest = (done ++ head) ++ value := by rw [hrest, List.append_assoc]
          have htotal : utf8Len (done ++ rest) = utf8Len (done ++ head) + utf8Len value := by
            rw [hwhole, String.utf8Len_append]
          rw [hstart, ByteCut.sliceFrom_of_eq hwhole rfl]
          dsimp only
          have htrimmed : ((ByteCut.findChar (fun c => !isWhitespace c) value).map
              (utf8Len (done ++ head) + ·)).getD (utf8Len (done ++ rest))
              = utf8Len (done ++ head ++ value.takeWhile isWhitespace) := by
            rw [htotal, findChar_end (q := isWhitespace) (fun c => (Bool.not_not _).symm),
              String.utf8Len_append (done ++ head)]
          have htail : done ++ rest
              = (done ++ head ++ value.takeWhile isWhitespace) ++ value.dropWhile isWhitespace := by
            rw [hwhole, List.append_assoc _ (value.takeWhile isWhitespace), hblanks]
          have hrestTotal : utf8Len (done ++ rest)
              = utf8Len (done ++ head ++ value.takeWhile isWhitespace)
                + utf8Len (value.dropWhile isWhitespace) := by
            rw [htail, String.utf8Len_append]
          rw [htrimmed, ByteCut.sliceFrom_of_eq htail rfl]
          dsimp only
          have hvalueEnd : ((ByteCut.findChar (fun c => isWhitespace c || c == ',' || c == ';')
              (value.dropWhile isWhitespace)).map
              (utf8Len (done ++ head ++ value.takeWhile isWhitespace) + ·)).getD
                (utf8Len (done ++ rest))
              = utf8Len (done ++ head ++ value.takeWhile isWhitespace)
                + utf8Len (assignedValue value) := by
            rw [hrestTotal, findChar_end (q := isValueChar) isValueChar_eq]
            rfl
          rw [hvalueEnd]
          have hpieces : done ++ rest
              = (done ++ head ++ value.takeWhile isWhitespace) ++ assignedValue value
                ++ afterValue value := by
            have hvalue := value_split value
            rw [hwhole]
            conv => lhs; rw [← hvalue]
            simp only [List.append_assoc]
          generalize hfront : done ++ head ++ value.takeWhile isWhitespace = front at hpieces ⊢
          -- the text up to where the search goes on
          have hnext : ∀ next : Text, (if utf8Len (next ++ afterValue value) ≤ utf8Len next then
              some (next ++ afterValue value)
            else assignmentTurns marker turns (next ++ afterValue value) (utf8Len next))
              = some (next ++ redactMarker (afterValue value) marker) := by
            intro next
            rw [String.utf8Len_append]
            by_cases hends : afterValue value = []
            · rw [hends, String.utf8Len_nil, if_pos (by omega)]
              rfl
            · have hpos := utf8Len_pos hends
              rw [if_neg (by omega)]
              exact ih (by omega)
          have hresult : done ++ redactMarker rest marker
              = done ++ head ++ redactValue value ++ redactMarker (afterValue value) marker := by
            rw [redactMarker_of_some hmarker hsplit]
            simp only [List.append_assoc]
          rw [hresult]
          have hshown : isShown (done ++ rest) (utf8Len front)
                (utf8Len front + utf8Len (assignedValue value))
              = some (decide (assignedValue value ≠ [] ∧ assignedValue value ≠ redacted)) := by
            unfold isShown
            by_cases hvalue : assignedValue value = []
            · rw [hvalue, String.utf8Len_nil, if_neg (by omega)]
              rfl
            · have hpos := utf8Len_pos hvalue
              rw [if_pos (by omega), ByteCut.slice_of_eq hpieces rfl rfl]
              simp only [Option.map_some, ne_eq, hvalue, not_false_eq_true, true_and]
          rw [hshown]
          dsimp only
          by_cases hreplace : assignedValue value ≠ [] ∧ assignedValue value ≠ redacted
          · have hredacted : done ++ head ++ redactValue value = front ++ redacted := by
              unfold redactValue
              rw [if_pos hreplace, ← hfront]
              simp only [List.append_assoc]
            rw [if_pos (decide_eq_true hreplace),
              ByteCut.replaceRange_of_eq hpieces rfl rfl, hredacted]
            dsimp only
            rw [← String.utf8Len_append]
            exact hnext (front ++ redacted)
          · have hkept : done ++ head ++ redactValue value = front ++ assignedValue value := by
              unfold redactValue
              rw [if_neg hreplace, ← hfront]
              simp only [List.append_assoc]
            have hmax : max (utf8Len front + utf8Len (assignedValue value)) (utf8Len (done ++ head))
                = utf8Len (front ++ assignedValue value) := by
              rw [← hfront, String.utf8Len_append (done ++ head ++ _),
                String.utf8Len_append (done ++ head)]
              omega
            rw [if_neg (fun h => hreplace (of_decide_eq_true h)), hmax, hkept, hpieces]
            exact hnext (front ++ assignedValue value)

/-- **All loops of a redaction end, and cut at characters.** -/
theorem redactTurns_eq (redactor : Redactor) (input : Text) :
    redactTurns redactor input = some (redactor.redact input) := by
  unfold redactTurns Redactor.redact redactNamedAssignments
  rw [keyBlockTurns_eq (Nat.lt_succ_self _), List.nil_append]
  dsimp only [bind, Option.bind]
  generalize replaceSecrets redactor.runtimeSecrets (redactPrivateKeyBlocks input) = output
  have hall : ∀ ms : List Text, (∀ m ∈ ms, m ∈ markers) → ∀ output : Text,
      ms.foldlM (fun output marker => assignmentTurns marker (output.length + 1) output 0) output
        = some (ms.foldl redactMarker output) := by
    intro ms
    induction ms with
    | nil => exact fun _ _ => rfl
    | cons m ms ih =>
        intro hsub output
        have hmarker := marker_ne_nil m (hsub m List.mem_cons_self)
        have hturn : assignmentTurns m (output.length + 1) ([] ++ output) (utf8Len [])
            = some ([] ++ redactMarker output m) :=
          assignmentTurns_eq hmarker (Nat.lt_succ_self output.length)
        rw [List.nil_append, List.nil_append] at hturn
        rw [List.foldlM_cons, List.foldl_cons]
        show (assignmentTurns m (output.length + 1) output 0).bind _ = _
        rw [show assignmentTurns m (output.length + 1) output 0 = some (redactMarker output m)
          from hturn, Option.bind_some]
        exact ih (fun m' hm' => hsub m' (List.mem_cons_of_mem _ hm')) _
  exact hall markers (fun _ hm => hm) output

/-! ## §5. The redactor of given secrets. -/

/-- **Registered secrets that lie apart from the mask never reach the output**, neither of a
text nor of a value; what has a sensitive name is replaced; and the loops end. -/
theorem redact_hides_secrets {secrets : List Text}
    (hapart : ∀ secret ∈ secrets, ApartFrom redacted secret) :
    (∀ input, ∀ secret ∈ secrets, ¬secret <:+: (Redactor.new secrets).redact input)
      ∧ (∀ value, ∀ leaf ∈ stringLeaves ((Redactor.new secrets).redactJson value),
          ∀ secret ∈ secrets, ¬secret <:+: leaf)
      ∧ (∀ value, SensitiveHidden value ((Redactor.new secrets).redactJson value))
      ∧ ∀ input, redactTurns (Redactor.new secrets) input
          = some ((Redactor.new secrets).redact input) := by
  generalize hredactor : Redactor.new secrets = redactor
  have hmember : ∀ secret ∈ secrets, secret ∈ redactor.runtimeSecrets := by
    intro secret hmem
    rw [← hredactor]
    exact Redactor.mem_new hmem (hapart secret hmem).ne_nil
  have hinput : ∀ input, ∀ secret ∈ secrets, ¬secret <:+: redactor.redact input :=
    fun input secret hmem => redact_hides (hmember secret hmem) (hapart secret hmem) input
  refine ⟨hinput, ?_, sensitiveHidden_redactJson redactor, redactTurns_eq redactor⟩
  intro value leaf hleaf secret hmem
  rcases mem_leaves_redactJson value hleaf with hmask | ⟨s, hs⟩
  · rw [hmask]
    exact (hapart secret hmem).notIn
  · rw [hs]
    exact hinput s secret hmem

/-- Two secrets that overlap each other. -/
theorem redact_hides_secrets_overlapping :
    ¬"abc".toList <:+: (Redactor.new ["abc".toList, "bcd".toList]).redact "xabcdy".toList
      ∧ ¬"bcd".toList <:+: (Redactor.new ["abc".toList, "bcd".toList]).redact "xabcdy".toList := by
  have hapart : ∀ secret ∈ ["abc".toList, "bcd".toList], ApartFrom redacted secret := by decide
  have hhidden := (redact_hides_secrets hapart).1 "xabcdy".toList
  exact ⟨hhidden _ List.mem_cons_self, hhidden _ (List.mem_cons_of_mem _ List.mem_cons_self)⟩

end QingzhouSSH.Core.Redaction
