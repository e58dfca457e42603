/-
  QingzhouSSH.Core.Scripts.Launchers — what a POSIX launcher starts.

  The parameters of a script are single words, so that each of them is one assignment of
  `env`; the body stands in a here-document whose delimiter does not occur in it.

  Main results:
    * `scriptEntries_spelled` — the accepted parameters are single words;
    * `posix_launcher_starts` — the shell starts the script with its parameters and its body.
-/
import QingzhouSSH.Core.Scripts.Environment
import QingzhouSSH.Lib.ShellCommand

namespace QingzhouSSH.Core.Scripts

open QingzhouSSH.Core.Tasks
open QingzhouSSH.Domain
open QingzhouSSH.Lib
open QingzhouSSH.Lib.Shell (quoted quoteChar Plain PlainStart)
open QingzhouSSH.Lib.ShellCommand
open String (utf8Len)

/-! ## §1. The parameters of a script. -/

/-- The text that a script is given for a value. -/
def scriptText : Value → Option Text
  | .string s => some s
  | .int n => some (showInt n.val)
  | .bool b => some (if b then "true".toList else "false".toList)
  | _ => none

/-- A piece of shell text that spells one word. -/
theorem spells_of_shellText {text word : Text} (h : ShellText text [word]) : Spells text word := by
  have hreads : ∀ s : Shell.LexState, s.Bare → Shell.ReadsAs s text word := by
    intro s hs
    cases h.reads hs with
    | one hone => exact hone
    | cons _ _ hrest => cases hrest
  refine ⟨?_, hreads⟩
  rintro rfl
  -- nothing would be read as nothing, in no word
  have hcontext := (hreads Shell.LexState.start ⟨rfl, rfl, rfl⟩).context
  exact absurd hcontext (by decide)

theorem scriptKind_single {kind : ParameterKind} (h : validateParameterKind kind = .ok ()) :
    kind.isMultiple = false ∧ kind ≠ .managedId := by
  cases kind with
  | multiSelect options maxItems => cases h
  | serviceMultiSelect maxItems => cases h
  | managedId => cases h
  | _ => exact ⟨rfl, nofun⟩

/-- **The value of a parameter is written as one word that spells its text.** -/
theorem validateValue_spelled [UuidCrate] {parameter : ParameterDefinition} {value : Value}
    {shellValue : Text} (hkind : validateParameterKind parameter.kind = .ok ())
    (h : validateValue parameter value = .ok shellValue) :
    ∃ text, scriptText value = some text ∧ ShellText shellValue [text] := by
  obtain ⟨hsingle, hmanaged⟩ := scriptKind_single hkind
  obtain ⟨word, hword⟩ := spelledWords_single h hsingle
  have hshell := validateValue_shellText h
  rw [hword] at hshell
  refine ⟨word, ?_, hshell⟩
  have hscalar := validateValue_scalar parameter hkind h
  cases value with
  | string s =>
      have hspelled : spelledString parameter.kind s = s := by
        unfold spelledString
        rw [if_neg hmanaged]
      have hsame : spelledString parameter.kind s = word := (List.cons.inj hword).1
      rw [← hsame, hspelled]
      rfl
  | int n =>
      have hsame : showInt n.val = word := (List.cons.inj hword).1
      rw [← hsame]
      rfl
  | bool b =>
      have hsame : (if b then "true".toList else "false".toList) = word := (List.cons.inj hword).1
      rw [← hsame]
      rfl
  | null => cases hword
  | float f => cases hword
  | array items => exact absurd hscalar id
  | object fields => exact absurd hscalar id

theorem validateEachParameter_kinds [UuidCrate] {parameters : List ScriptParameter}
    (h : validateScriptParameters parameters = .ok ()) :
    ∀ parameter ∈ parameters, validateParameterKind parameter.kind = .ok () := by
  intro parameter hmem
  unfold validateScriptParameters at h
  split at h
  next => cases h
  obtain ⟨before, haccepted⟩ := validateEachParameter_mem h parameter hmem
  unfold validateScriptParameter at haccepted
  obtain ⟨_, -, haccepted⟩ := bind_eq_ok.mp haccepted
  split at haccepted
  next => cases haccepted
  obtain ⟨_, -, haccepted⟩ := bind_eq_ok.mp haccepted
  split at haccepted
  next => cases haccepted
  obtain ⟨_, hkind, -⟩ := bind_eq_ok.mp haccepted
  exact hkind

/-- **Every accepted parameter of a script is one word.** -/
theorem scriptEntries_spelled [UuidCrate] {definitions : List ScriptParameter} {input : Value}
    {parameters : ValidatedParameters}
    (h : validateScriptParameterValues definitions input = .ok parameters) :
    ∀ entry ∈ parameters.entries, ∃ text, scriptText entry.2.value = some text
      ∧ ShellText entry.2.shellValue [text] := by
  obtain ⟨_, hdefinitions, hvalues⟩ := bind_eq_ok.mp h
  intro entry hentry
  obtain ⟨definition, hmem, -, hvalue, -⟩ := validateParameters_declared hvalues entry hentry
  obtain ⟨parameter, hparameter, rfl⟩ := List.mem_map.mp hmem
  exact validateValue_spelled (validateEachParameter_kinds hdefinitions parameter hparameter) hvalue

/-! ## §2. The environment. -/

/-- The variable of a parameter. -/
def scriptVariable (entry : Text × ValidatedParameter) : Option (Text × Text) :=
  (scriptText entry.2.value).map fun text => ("QZ_PARAM_".toList ++ entry.1, text)

/-- The characters of a variable's name. -/
def isNameChar (c : Char) : Bool := isAsciiUppercase c || isAsciiDigit c || c == '_'

/-- A name of a variable: its characters, and how it begins. -/
structure IsVariable (name : Text) : Prop where
  front : ∃ rest, name = 'Q' :: rest
  chars : ∀ c ∈ name, isNameChar c = true

theorem IsVariable.not_mem {name : Text} (h : IsVariable name) {c : Char}
    (hc : isNameChar c = false) : c ∉ name := by
  intro hmem
  rw [h.chars c hmem] at hc
  exact Bool.noConfusion hc

theorem scriptParameterEnvName_ok {name assigned : Text}
    (h : scriptParameterEnvName name = .ok assigned) :
    assigned = "QZ_PARAM_".toList ++ name ∧ IsVariable assigned := by
  unfold scriptParameterEnvName at h
  split at h
  next => cases h
  next hguard =>
    obtain rfl := Except.ok.inj h
    refine ⟨rfl, ⟨_, rfl⟩, ?_⟩
    simp only [Bool.or_eq_true, not_or, Bool.not_eq_true', Bool.not_eq_false] at hguard
    intro c hc
    rcases List.mem_append.mp hc with hc | hc
    · have hfront : ∀ c ∈ "QZ_PARAM_".toList, isNameChar c = true := by decide
      exact hfront c hc
    · exact List.all_eq_true.mp hguard.2 c hc

/-- An assignment is read as the name, the sign and the value. -/
theorem spells_assignment {name shellValue text : Text} (hname : IsVariable name)
    (hvalue : ShellText shellValue [text]) :
    Spells (name ++ '=' :: shellValue) (name ++ '=' :: text) := by
  obtain ⟨rest, rfl⟩ := hname.front
  have hclass : ∀ d ∈ Shell.specials, isNameChar d = false := by decide
  have hplain : Plain ('Q' :: rest ++ ['=']) := by
    intro c hc
    rcases List.mem_append.mp hc with hc | hc
    · exact Shell.isPlain_of_class isNameChar hclass (hname.chars c hc)
    · obtain rfl := List.mem_singleton.mp hc
      decide
  have hfront := spells_plain (by simp) ⟨by simp, by simp⟩ hplain
  have happend := hfront.append (spells_of_shellText hvalue)
  rw [List.append_assoc, List.append_assoc] at happend
  exact happend

/-- **The assignments of the parameters are words of the command line.** -/
theorem environmentOf_spaced {entries : List (Text × ValidatedParameter)} {environment : Text}
    (hentries : ∀ entry ∈ entries, ∃ text, scriptText entry.2.value = some text
      ∧ ShellText entry.2.shellValue [text])
    (h : environmentOf entries = .ok environment) :
    ∃ settings : List (Text × Text), entries.map scriptVariable = settings.map some
      ∧ (∀ setting ∈ settings, IsVariable setting.1)
      ∧ Spaced environment (settings.map fun setting => setting.1 ++ '=' :: setting.2) := by
  induction entries generalizing environment with
  | nil =>
      obtain rfl := Except.ok.inj h
      exact ⟨[], rfl, nofun, .nil⟩
  | cons entry entries ih =>
      obtain ⟨name, parameter⟩ := entry
      obtain ⟨⟨text, htext, hshell⟩, hrest⟩ := List.forall_mem_cons.mp hentries
      obtain ⟨assigned, hassigned, h⟩ := bind_eq_ok.mp h
      obtain ⟨others, hothers, h⟩ := bind_eq_ok.mp h
      obtain rfl := Except.ok.inj h
      obtain ⟨rfl, hname⟩ := scriptParameterEnvName_ok hassigned
      obtain ⟨settings, hsettings, hnames, hspaced⟩ := ih hrest hothers
      refine ⟨("QZ_PARAM_".toList ++ name, text) :: settings, ?_, ?_, ?_⟩
      · rw [List.map_cons, hsettings, List.map_cons]
        unfold scriptVariable
        rw [htext]
        rfl
      · exact List.forall_mem_cons.mpr ⟨hname, hnames⟩
      · have hcons := Spaced.cons (spells_assignment hname hshell) hspaced
        rw [List.map_cons]
        simpa using hcons

/-! ## §3. The launcher. -/

/-- A character of a delimiter. -/
def isDelimiterChar (c : Char) : Bool := isAsciiAlphanumeric c || c == '_'

theorem uniqueHeredocDelimiter_chars {candidates : List Uuid} {body delimiter : Text}
    (h : uniqueHeredocDelimiter candidates body = .ok delimiter) :
    ∀ c ∈ delimiter, isDelimiterChar c = true := by
  unfold uniqueHeredocDelimiter at h
  dsimp only at h
  split at h
  next found hfound =>
    obtain rfl := Except.ok.inj h
    obtain ⟨candidate, -, rfl⟩ := List.mem_map.mp (List.mem_of_find?_eq_some hfound)
    intro c hc
    rcases List.mem_append.mp hc with hc | hc
    · have hfront : ∀ c ∈ "QZ_SCRIPT_".toList, isDelimiterChar c = true := by decide
      exact hfront c hc
    · obtain ⟨hmem, hhyphen⟩ := List.mem_filter.mp hc
      rcases Uuid.text_chars candidate c hmem with rfl | ⟨hlow, hhigh⟩ | ⟨hlow, hhigh⟩
      · exact absurd hhyphen (by decide)
      · have hdigit : '0' ≤ c ∧ c ≤ '9' := ⟨hlow, hhigh⟩
        simp [isDelimiterChar, isAsciiAlphanumeric, hdigit]
      · have hz : c ≤ 'z' := by
          show c.toNat ≤ 122
          omega
        have hletter : 'a' ≤ c ∧ c ≤ 'z' := ⟨hlow, hz⟩
        simp [isDelimiterChar, isAsciiAlphanumeric, hletter]
  next => cases h

theorem quoted_of_noQuote {text : Text} (h : '\'' ∉ text) : quoted text = '\'' :: text ++ ['\''] := by
  have hbody : text.flatMap quoteChar = text := by
    induction text with
    | nil => rfl
    | cons c text ih =>
        rw [List.mem_cons, not_or] at h
        rw [List.flatMap_cons, ih h.2]
        unfold quoteChar
        rw [if_neg (Ne.symm h.1)]
        rfl
  unfold quoted
  rw [hbody]
  rfl

/-- The command that a launcher is: the script's shell with the variables of its parameters,
and its body for input. -/
def StartsScript (launcher executable body : Text) (parameters : ValidatedParameters) : Prop :=
  ∃ environment : List (Text × Text), parameters.entries.map scriptVariable = environment.map some
    ∧ ∃ command, readCommand launcher = some command
      ∧ startedByEnv command.words = some ⟨environment, [executable, "-s".toList]⟩
      ∧ command.input = some (body ++ ['\n'])

/-- **The shell starts the script with its parameters and its body.** -/
theorem posix_launcher_starts [UuidCrate] {candidates : List Uuid} {executable body : Text}
    {definitions : List ScriptParameter} {input : Value} {parameters : ValidatedParameters}
    {launcher : Text} (hexecutable : executable = "sh".toList ∨ executable = "bash".toList)
    (hparameters : validateScriptParameterValues definitions input = .ok parameters)
    (h : renderPosixLauncher candidates executable body parameters = .ok launcher) :
    StartsScript launcher executable body parameters := by
  obtain ⟨delimiter, hdelimiter, h⟩ := bind_eq_ok.mp h
  obtain ⟨environment, henvironment, h⟩ := bind_eq_ok.mp h
  obtain rfl := Except.ok.inj h
  obtain ⟨settings, hsettings, hnames, hspaced⟩ :=
    environmentOf_spaced (scriptEntries_spelled hparameters) henvironment
  -- the delimiter is one word without quotes, and does not occur in the body
  have hchars := uniqueHeredocDelimiter_chars hdelimiter
  have hfree : ∀ c, isDelimiterChar c = false → c ∉ delimiter := by
    intro c hc hmem
    rw [hchars c hmem] at hc
    exact Bool.noConfusion hc
  have hquoted := quoted_of_noQuote (hfree '\'' (by decide))
  have hcommand : Spells executable executable := by
    rcases hexecutable with rfl | rfl
    · exact spells_plain (by decide) (by decide) (by decide)
    · exact spells_plain (by decide) (by decide) (by decide)
  have hoption : Spells "-s".toList "-s".toList :=
    spells_plain (by decide) (by decide) (by decide)
  have henv : Spells "env".toList "env".toList :=
    spells_plain (by decide) (by decide) (by decide)
  have hwords := hspaced.append (.cons hcommand (.cons hoption .nil))
  have hread := readCommand_hereDocument henv hwords (hfree '\n' (by decide))
    (uniqueHeredocDelimiter_ok hdelimiter)
  have htext : "env".toList ++ environment ++ ' ' :: executable ++ " -s <<'".toList ++ delimiter
        ++ "'\n".toList ++ body ++ '\n' :: delimiter
      = "env".toList ++ (environment ++ (' ' :: executable ++ (' ' :: "-s".toList ++ [])))
        ++ (" <<".toList ++ quoted delimiter) ++ '\n' :: body ++ '\n' :: delimiter := by
    rw [hquoted]
    simp
  rw [htext]
  refine ⟨settings, hsettings, _, hread, ?_, rfl⟩
  have hfirst : ∀ setting ∈ settings, setting.1.head? ≠ some '-' := by
    intro setting hsetting
    obtain ⟨rest, hfront⟩ := (hnames setting hsetting).front
    rw [hfront]
    simp
  have hshell : '=' ∉ executable ∧ executable.head? ≠ some '-' := by
    rcases hexecutable with rfl | rfl <;> decide
  exact startedByEnv_assignments
    (fun setting hsetting => (hnames setting hsetting).not_mem (by decide)) hfirst hshell.1 hshell.2

/-- A parameter with a quote in its value. -/
def sampleDefinitions : List ScriptParameter :=
  [{ name := "NAME".toList, label := "名称".toList, description := [], required := true,
     kind := .string 1 20 false, defaultValue := none, sensitive := false }]

def sampleCandidate : Uuid where
  text := "0f8fad5b-d9cb-469f-a165-70867728950e".toList
  hyphenated := by decide

def sampleParameters : ValidatedParameters :=
  acceptedOrEmpty (@validateScriptParameterValues hyphenatedUuid sampleDefinitions
    (.object [("NAME".toList, .string "it's".toList)]))

set_option maxRecDepth 4000 in
theorem quoted_parameter_starts :
    StartsScript ("env QZ_PARAM_NAME='it'\"'\"'s' sh -s <<'QZ_SCRIPT_0f8fad5bd9cb469fa16570867728950e'"
        ++ "\necho ok\nQZ_SCRIPT_0f8fad5bd9cb469fa16570867728950e").toList
      "sh".toList "echo ok".toList sampleParameters := by
  apply @posix_launcher_starts hyphenatedUuid [sampleCandidate] "sh".toList "echo ok".toList
    sampleDefinitions (.object [("NAME".toList, .string "it's".toList)]) sampleParameters
  · exact .inl rfl
  · exact eq_ok_acceptedOrEmpty (by decide)
  · decide

end QingzhouSSH.Core.Scripts
