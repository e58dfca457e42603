/-
  QingzhouSSH.Core.Scripts.PowershellLauncher — what a PowerShell launcher assigns.

  The launcher holds the script in UTF-16 and base 64.  Decoded, it begins with one
  assignment for each parameter, in a single-quoted literal.

  Main results:
    * `decode_launcher` — PowerShell decodes the script that was encoded;
    * `powershell_assigns_iff` — the parameters are assigned exactly when no value has a
      typographic quote.
-/
import QingzhouSSH.Core.Scripts.Launchers
import QingzhouSSH.Lib.PowerShell
import QingzhouSSH.Lib.Utf16

namespace QingzhouSSH.Core.Scripts

open QingzhouSSH.Core.Tasks
open QingzhouSSH.Domain
open QingzhouSSH.Lib
open QingzhouSSH.Lib.PowerShell

/-! ## §1. The encoded command. -/

/-- The value of a digit. -/
def base64Value (c : Char) : Option Nat := base64Alphabet.findIdx? (· == c)

/-- Four digits are three bytes; padding stands at the end only. -/
def base64Decode : Text → Option (List Nat)
  | [] => some []
  | a :: b :: c :: d :: rest =>
      match base64Value a, base64Value b with
      | some first, some second =>
          if c = '=' then
            if d = '=' ∧ rest = [] then some [first * 4 + second / 16] else none
          else
            match base64Value c with
            | none => none
            | some third =>
                if d = '=' then
                  if rest = [] then some [first * 4 + second / 16, second % 16 * 16 + third / 4]
                  else none
                else
                  match base64Value d, base64Decode rest with
                  | some fourth, some bytes =>
                      some ((first * 4 + second / 16) :: (second % 16 * 16 + third / 4)
                        :: (third % 4 * 64 + fourth) :: bytes)
                  | _, _ => none
      | _, _ => none
  | _ => none

set_option maxRecDepth 4000 in
theorem base64Value_digit {n : Nat} (h : n < 64) :
    base64Value (base64Digit n) = some n ∧ base64Digit n ≠ '=' := by
  have hall : ∀ n < 64, base64Value (base64Digit n) = some n ∧ base64Digit n ≠ '=' := by decide
  exact hall n h

/-- **Bytes are read back from their digits.** -/
theorem base64Decode_encode {bytes : List Nat} (h : ∀ b ∈ bytes, b < 256) :
    base64Decode (base64Encode bytes) = some bytes := by
  induction bytes using base64Encode.induct with
  | case1 => rfl
  | case2 a =>
      have ha : a < 256 := h a (by simp)
      obtain ⟨hfirst, -⟩ := base64Value_digit (n := a / 4) (by omega)
      obtain ⟨hsecond, -⟩ := base64Value_digit (n := a % 4 * 16) (by omega)
      rw [base64Encode, base64Decode, hfirst, hsecond]
      dsimp only
      rw [if_pos rfl, if_pos ⟨rfl, rfl⟩]
      congr 2
      omega
  | case3 a b =>
      have ha : a < 256 := h a (by simp)
      have hb : b < 256 := h b (by simp)
      obtain ⟨hfirst, -⟩ := base64Value_digit (n := a / 4) (by omega)
      obtain ⟨hsecond, -⟩ := base64Value_digit (n := a % 4 * 16 + b / 16) (by omega)
      obtain ⟨hthird, hplain⟩ := base64Value_digit (n := b % 16 * 4) (by omega)
      rw [base64Encode, base64Decode, hfirst, hsecond]
      dsimp only
      rw [if_neg hplain, hthird]
      dsimp only
      rw [if_pos rfl, if_pos rfl]
      congr 2
      · omega
      · congr 1
        omega
  | case4 a b c rest ih =>
      have ha : a < 256 := h a (by simp)
      have hb : b < 256 := h b (by simp)
      have hc : c < 256 := h c (by simp)
      have hrest := ih fun byte hmem => h byte (by simp [hmem])
      obtain ⟨hfirst, -⟩ := base64Value_digit (n := a / 4) (by omega)
      obtain ⟨hsecond, -⟩ := base64Value_digit (n := a % 4 * 16 + b / 16) (by omega)
      obtain ⟨hthird, hplain⟩ := base64Value_digit (n := b % 16 * 4 + c / 64) (by omega)
      obtain ⟨hfourth, hfull⟩ := base64Value_digit (n := c % 64) (by omega)
      rw [base64Encode, base64Decode, hfirst, hsecond]
      dsimp only
      rw [if_neg hplain, hthird]
      dsimp only
      rw [if_neg hfull, hfourth, hrest]
      dsimp only
      congr 2
      · omega
      · congr 1
        · omega
        · congr 1
          omega

/-- Two bytes are one unit, the low one first. -/
def unitsOfBytes : List Nat → Option (List Nat)
  | [] => some []
  | low :: high :: rest => (unitsOfBytes rest).map ((low + 256 * high) :: ·)
  | _ => none

/-- What PowerShell reads behind `-EncodedCommand`. -/
def decodeCommand (encoded : Text) : Option Text :=
  (base64Decode encoded).bind fun bytes => (unitsOfBytes bytes).bind Utf16.decode

theorem utf16LeBytes_eq (script : Text) :
    utf16LeBytes script
      = (Utf16.encode script).flatMap fun unit => [unit % 0x100, unit / 0x100] := by
  unfold utf16LeBytes Utf16.encode
  rw [List.flatMap_assoc]
  rfl

theorem unitsOfBytes_bytes (units : List Nat) :
    unitsOfBytes (units.flatMap fun unit => [unit % 0x100, unit / 0x100]) = some units := by
  induction units with
  | nil => rfl
  | cons unit units ih =>
      rw [List.flatMap_cons]
      show (unitsOfBytes (units.flatMap _)).map _ = _
      rw [ih]
      show some ((unit % 0x100 + 256 * (unit / 0x100)) :: units) = _
      rw [Nat.mod_add_div]

/-- **The script is decoded as it was encoded.** -/
theorem decode_launcher (script : Text) :
    decodeCommand (base64Encode (utf16LeBytes script)) = some script := by
  have hbytes : ∀ byte ∈ utf16LeBytes script, byte < 256 := by
    intro byte hbyte
    rw [utf16LeBytes_eq] at hbyte
    obtain ⟨unit, hunit, hbyte⟩ := List.mem_flatMap.mp hbyte
    obtain ⟨c, -, hunit⟩ := List.mem_flatMap.mp hunit
    have hlt := Utf16.units_lt c unit hunit
    simp only [List.mem_cons, List.not_mem_nil, or_false] at hbyte
    omega
  unfold decodeCommand
  rw [base64Decode_encode hbytes]
  show (unitsOfBytes (utf16LeBytes script)).bind Utf16.decode = _
  rw [utf16LeBytes_eq, unitsOfBytes_bytes]
  exact Utf16.decode_encode script

/-! ## §2. The assignments. -/

/-- What is behind a text in front. -/
def strip (front : Text) (text : Text) : Option Text :=
  if front <+: text then some (text.drop front.length) else none

theorem strip_append (front rest : Text) : strip front (front ++ rest) = some rest := by
  unfold strip
  rw [if_pos (List.prefix_append front rest), List.drop_left]

/-- `$env:name = 'value'` on a line of its own. -/
def readAssignment (text : Text) : Option ((Text × Text) × Text) :=
  (strip "$env:".toList text).bind fun text =>
    let name := text.takeWhile isNameChar
    (strip " = '".toList (text.dropWhile isNameChar)).bind fun text =>
      match readLiteral text with
      | some (value, '\n' :: rest) => some ((name, value), rest)
      | _ => none

def readAssignments : Nat → Text → Option (List (Text × Text) × Text)
  | 0, text => some ([], text)
  | n + 1, text =>
      match readAssignment text with
      | none => none
      | some (setting, rest) =>
          (readAssignments n rest).map fun r => (setting :: r.1, r.2)

theorem readAssignments_succ (count : Nat) (text : Text) :
    readAssignments (count + 1) text = match readAssignment text with
      | none => none
      | some (setting, rest) => (readAssignments count rest).map fun r => (setting :: r.1, r.2) :=
  rfl

/-- The assignments of a script with as many parameters, and its body. -/
def readScript (count : Nat) (script : Text) : Option (List (Text × Text) × Text) :=
  (strip "$ErrorActionPreference = 'Stop'\n".toList script).bind (readAssignments count)

/-- One line of the environment. -/
theorem readAssignment_line {name : Text} (hname : IsVariable name) (value rest : Text) :
    readAssignment ("$env:".toList ++ name ++ " = '".toList ++ doubled value ++ "'\n".toList ++ rest)
      = match readLiteral (doubled value ++ '\'' :: '\n' :: rest) with
        | some (value, '\n' :: rest) => some ((name, value), rest)
        | _ => none := by
  have hline : "$env:".toList ++ name ++ " = '".toList ++ doubled value ++ "'\n".toList ++ rest
      = "$env:".toList ++ (name ++ (" = '".toList ++ (doubled value ++ '\'' :: '\n' :: rest))) := by
    simp
  have htake : (name ++ (" = '".toList ++ (doubled value ++ '\'' :: '\n' :: rest))).takeWhile
      isNameChar = name := by
    rw [List.takeWhile_append_of_pos hname.chars]
    show name ++ List.takeWhile isNameChar (' ' :: _) = name
    rw [List.takeWhile_cons_of_neg (by decide), List.append_nil]
  have hdrop : (name ++ (" = '".toList ++ (doubled value ++ '\'' :: '\n' :: rest))).dropWhile
      isNameChar = " = '".toList ++ (doubled value ++ '\'' :: '\n' :: rest) := by
    rw [List.dropWhile_append_of_pos hname.chars]
    show List.dropWhile isNameChar (' ' :: _) = _
    rw [List.dropWhile_cons_of_neg (by decide)]
    rfl
  unfold readAssignment
  rw [hline, strip_append]
  show (strip _ _).bind _ = _
  rw [hdrop, strip_append]
  show (match readLiteral _ with
    | some (value, '\n' :: rest) => some ((_, value), rest)
    | _ => none) = _
  rw [htake]

/-- The text of a value is written between the quotes. -/
theorem powershellValue_of_text {value : Value} {text : Text} (h : scriptText value = some text) :
    powershellValue value = text := by
  cases value with
  | string s => exact Option.some.inj h
  | int n => exact Option.some.inj h
  | bool b =>
      have hsame : (if b then "true".toList else "false".toList) = text := Option.some.inj h
      rw [← hsame]
      cases b <;> rfl
  | null => cases h
  | float f => cases h
  | array items => cases h
  | object fields => cases h

/-- A value has none of the typographic quotes. -/
def Straight (entry : Text × ValidatedParameter) : Prop :=
  ∀ text, scriptText entry.2.value = some text → ∀ c ∈ text, isTypographicQuote c = false

/-- **The assignments are read back exactly when no value has a typographic quote.** -/
theorem powershellEnvironment_read_iff {entries : List (Text × ValidatedParameter)}
    {environment : Text} (hentries : ∀ entry ∈ entries, ∃ text, scriptText entry.2.value = some text)
    (h : powershellEnvironment entries = .ok environment) (body : Text) :
    ∃ settings : List (Text × Text), entries.map scriptVariable = settings.map some
      ∧ (readAssignments settings.length (environment ++ body) = some (settings, body)
        ↔ ∀ entry ∈ entries, Straight entry) := by
  induction entries generalizing environment with
  | nil =>
      obtain rfl := Except.ok.inj h
      exact ⟨[], rfl, iff_of_true rfl nofun⟩
  | cons entry entries ih =>
      obtain ⟨name, parameter⟩ := entry
      obtain ⟨⟨text, htext⟩, hrest⟩ := List.forall_mem_cons.mp hentries
      obtain ⟨assigned, hassigned, h⟩ := bind_eq_ok.mp h
      obtain ⟨others, hothers, h⟩ := bind_eq_ok.mp h
      obtain rfl := Except.ok.inj h
      obtain ⟨rfl, hname⟩ := scriptParameterEnvName_ok hassigned
      obtain ⟨settings, hsettings, hiff⟩ := ih hrest hothers
      have hstraight : Straight (name, parameter) ↔ ∀ c ∈ text, isTypographicQuote c = false := by
        constructor
        · exact fun hall => hall text htext
        · intro hall other hother
          obtain rfl := Option.some.inj (htext.symm.trans hother)
          exact hall
      have hline : "$env:".toList ++ ("QZ_PARAM_".toList ++ name) ++ " = '".toList
            ++ (powershellValue parameter.value).flatMap (fun c => if c = '\'' then ['\'', '\''] else [c])
            ++ "'\n".toList ++ others ++ body
          = "$env:".toList ++ ("QZ_PARAM_".toList ++ name) ++ " = '".toList ++ doubled text
            ++ "'\n".toList ++ (others ++ body) := by
        rw [powershellValue_of_text htext, List.append_assoc]
        rfl
      refine ⟨("QZ_PARAM_".toList ++ name, text) :: settings, ?_, ?_⟩
      · rw [List.map_cons, hsettings, List.map_cons]
        unfold scriptVariable
        rw [htext]
        rfl
      · rw [List.forall_mem_cons, hstraight, ← hiff, hline, List.length_cons]
        rw [readAssignments_succ, readAssignment_line hname]
        constructor
        · intro hread
          cases hliteral : readLiteral (doubled text ++ '\'' :: '\n' :: (others ++ body)) with
          | none =>
              rw [hliteral] at hread
              cases hread
          | some read =>
              obtain ⟨value, left⟩ := read
              rw [hliteral] at hread
              have hfirst : value = text := by
                split at hread
                next => cases hread
                next setting rest hsetting =>
                  split at hsetting
                  next value' rest' heq =>
                    obtain ⟨rfl, -⟩ := Prod.mk.inj (Option.some.inj heq)
                    obtain ⟨r, -, hr⟩ := Option.map_eq_some_iff.mp hread
                    have hcons := (List.cons.inj (Prod.mk.inj hr).1).1
                    rw [← (Prod.mk.inj (Option.some.inj hsetting)).1] at hcons
                    exact (Prod.mk.inj hcons).2
                  next => cases hsetting
              subst hfirst
              have hplain := readLiteral_exact hliteral
              rw [← hliteral, readLiteral_doubled hplain] at hread
              obtain ⟨⟨others', body'⟩, hmore, hr⟩ := Option.map_eq_some_iff.mp hread
              obtain ⟨hsame, rfl⟩ := Prod.mk.inj hr
              obtain rfl := (List.cons.inj hsame).2
              exact ⟨hplain, hmore⟩
        · rintro ⟨hplain, hmore⟩
          rw [readLiteral_doubled hplain]
          show (readAssignments settings.length (others ++ body)).map _ = _
          rw [hmore]
          rfl

/-! ## §3. The launcher. -/

/-- Decoded, the launcher assigns its text to each parameter, and goes on with the body. -/
def AssignsParameters (launcher executable body : Text) (parameters : ValidatedParameters) : Prop :=
  ∃ (encoded script : Text) (settings : List (Text × Text)),
    launcher = executable ++ " -NoLogo -NoProfile -NonInteractive -EncodedCommand ".toList ++ encoded
      ∧ decodeCommand encoded = some script
      ∧ parameters.entries.map scriptVariable = settings.map some
      ∧ readScript settings.length script = some (settings, body)

/-- The script of a launcher is read as its environment is. -/
theorem assignsParameters_iff {executable body environment : Text}
    {parameters : ValidatedParameters} {settings : List (Text × Text)}
    (hsettings : parameters.entries.map scriptVariable = settings.map some) :
    AssignsParameters (executable ++ " -NoLogo -NoProfile -NonInteractive -EncodedCommand ".toList
        ++ base64Encode (utf16LeBytes
          ("$ErrorActionPreference = 'Stop'\n".toList ++ environment ++ body)))
        executable body parameters
      ↔ readAssignments settings.length (environment ++ body) = some (settings, body) := by
  have hread : ∀ count, readScript count
      ("$ErrorActionPreference = 'Stop'\n".toList ++ environment ++ body)
      = readAssignments count (environment ++ body) := by
    intro count
    unfold readScript
    rw [List.append_assoc, strip_append]
    rfl
  constructor
  · rintro ⟨encoded, script, settings', hlauncher, hdecode, hsettings', hscript⟩
    obtain rfl := List.append_cancel_left hlauncher
    rw [decode_launcher] at hdecode
    obtain rfl := Option.some.inj hdecode
    have hsame : settings = settings' :=
      List.map_injective_iff.mpr (Option.some_injective _) (hsettings.symm.trans hsettings')
    rw [hread] at hscript
    rw [hsame]
    exact hscript
  · intro h
    exact ⟨_, _, settings, rfl, decode_launcher _, hsettings, (hread _).trans h⟩

/-- **A launcher assigns the parameters exactly when no value has a typographic quote.** -/
theorem powershell_assigns_iff [UuidCrate] {executable body : Text}
    {definitions : List ScriptParameter} {input : Value} {parameters : ValidatedParameters}
    {launcher : Text} (hparameters : validateScriptParameterValues definitions input = .ok parameters)
    (h : renderPowershellLauncher executable body parameters = .ok launcher) :
    AssignsParameters launcher executable body parameters
      ↔ ∀ entry ∈ parameters.entries, Straight entry := by
  obtain ⟨environment, henvironment, h⟩ := bind_eq_ok.mp h
  obtain rfl := Except.ok.inj h
  have hentries : ∀ entry ∈ parameters.entries, ∃ text, scriptText entry.2.value = some text := by
    intro entry hentry
    obtain ⟨text, htext, -⟩ := scriptEntries_spelled hparameters entry hentry
    exact ⟨text, htext⟩
  obtain ⟨settings, hsettings, hiff⟩ := powershellEnvironment_read_iff hentries henvironment body
  rw [assignsParameters_iff hsettings]
  exact hiff

/-- A value with a typographic apostrophe, and one with a plain one. -/
def quotedParameters (value : String) : ValidatedParameters :=
  acceptedOrEmpty (@validateScriptParameterValues hyphenatedUuid sampleDefinitions
    (.object [("NAME".toList, .string value.toList)]))

def launcherOf (value : String) : Text :=
  match renderPowershellLauncher "pwsh".toList "Write-Output ok".toList (quotedParameters value) with
  | .ok launcher => launcher
  | .error _ => []

theorem plain_apostrophe_assigned :
    AssignsParameters (launcherOf "it's") "pwsh".toList "Write-Output ok".toList
        (quotedParameters "it's")
      ↔ ∀ entry ∈ (quotedParameters "it's").entries, Straight entry := by
  apply @powershell_assigns_iff hyphenatedUuid "pwsh".toList "Write-Output ok".toList
    sampleDefinitions (.object [("NAME".toList, .string "it's".toList)])
  · exact eq_ok_acceptedOrEmpty (by decide)
  · rfl

/-- The literal ends at the apostrophe, and the rest of the value is read as code. -/
theorem typographic_apostrophe_ends_literal :
    (@validateScriptParameterValues hyphenatedUuid sampleDefinitions
        (.object [("NAME".toList, .string "it’;id;‘s".toList)])).isOk = true
      ∧ renderPowershellLauncher "pwsh".toList "Write-Output ok".toList
          (quotedParameters "it’;id;‘s") = .ok (launcherOf "it’;id;‘s")
      ∧ ¬ AssignsParameters (launcherOf "it’;id;‘s") "pwsh".toList "Write-Output ok".toList
          (quotedParameters "it’;id;‘s") := by
  refine ⟨by decide, rfl, ?_⟩
  intro h
  have hsettings : (quotedParameters "it’;id;‘s").entries.map scriptVariable
      = [("QZ_PARAM_NAME".toList, "it’;id;‘s".toList)].map some := rfl
  have hread := (@assignsParameters_iff _ _ "$env:QZ_PARAM_NAME = 'it’;id;‘s'\n".toList _ _
    hsettings).mp h
  exact absurd hread (by decide)

end QingzhouSSH.Core.Scripts
