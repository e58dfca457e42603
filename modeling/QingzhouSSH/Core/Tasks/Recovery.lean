/-
  QingzhouSSH.Core.Tasks.Recovery — targets of recovery points.

  `renderBackupTarget` serves file targets and command targets alike: it puts the
  raw text of a parameter where its placeholder stands.  A command target is run
  on the host, so the value has to be one shell word as it is.

  Main results:
    * `bareWord_of_wordKind` — the kinds whose accepted values are bare words;
    * `commandTemplatesOk` — what the command targets of the catalogue look like;
    * `backup_command_faithful_iff` — a backup command contains each parameter as
      one word exactly when the paths it uses have no special character.
-/
import QingzhouSSH.Core.Tasks.Catalog
import QingzhouSSH.Core.Tasks.Parameters
import QingzhouSSH.Lib.ShellTemplate
import Mathlib.Tactic.Tauto

namespace QingzhouSSH.Core.Tasks

open QingzhouSSH.Lib
open QingzhouSSH.Lib.Template (Piece placeholder pieces text fill Calm NoPair BraceFree Opens)

/-! ## §1. The renderer of targets. -/

/-- The raw text of a single value. -/
def singleText : Value → Option Text
  | .string s => some s
  | .int n => some (showInt n.val)
  | .float f => some f.printed
  | .bool b => some (if b then "true".toList else "false".toList)
  | _ => none

/-- One round of the loop over the parameters. -/
def substituteTarget (rendered : Text) (e : Text × ValidatedParameter) : AppResult Text :=
  match singleText e.2.value with
  | none => .error (.validation ("恢复目标参数 ".toList ++ e.1 ++ " 不是单值".toList))
  | some value => .ok (Text.replace (placeholder e.1) value rendered)

/-- `render_backup_target`. -/
def renderBackupTarget (template implementationId : Text) (parameters : ValidatedParameters) :
    AppResult Text :=
  if template.isEmpty || template.contains '\x00' then
    .error (.validation ("任务实现 ".toList ++ implementationId ++ " 的恢复目标无效".toList))
  else do
    let rendered ← parameters.entries.foldlM substituteTarget template
    if Text.contains rendered ['{', '{'] || Text.contains rendered ['}', '}']
        || rendered.contains '\x00' then
      .error (.validation
        ("任务实现 ".toList ++ implementationId ++ " 包含未解析的恢复目标".toList))
    else .ok rendered

/-- The replacements that the loop makes, in order. -/
def targetReplacements (es : List (Text × ValidatedParameter)) : List (Text × Text) :=
  es.filterMap fun e => (singleText e.2.value).map fun v => (e.1, v)

/-- A loop that ends has replaced every parameter. -/
theorem foldlM_substituteTarget {es : List (Text × ValidatedParameter)} {template r : Text}
    (h : es.foldlM substituteTarget template = .ok r) :
    r = Template.replaceAll (targetReplacements es) template := by
  induction es generalizing template with
  | nil => exact (Except.ok.inj h).symm
  | cons e es ih =>
      rw [List.foldlM_cons] at h
      unfold substituteTarget at h
      unfold targetReplacements
      cases hv : singleText e.2.value with
      | none =>
          rw [hv] at h
          exact absurd h (by simp [bind, Except.bind])
      | some v =>
          rw [hv] at h
          rw [List.filterMap_cons, hv]
          exact ih h

/-- The raw value of a placeholder. -/
def rawValue (parameters : ValidatedParameters) (name : Text) : Option Text :=
  (parameters.get? name).bind fun p => singleText p.value

theorem lookup_targetReplacements {es : List (Text × ValidatedParameter)}
    (hkeys : KeysAscend es) (name : Text) :
    (targetReplacements es).lookup name
      = (OrdMap.lookup name es).bind fun p => singleText p.value := by
  induction es with
  | nil => rfl
  | cons e es ih =>
      obtain ⟨hlt, hrest⟩ := List.pairwise_cons.mp hkeys
      have ih' := ih hrest
      unfold targetReplacements at ih' ⊢
      rw [OrdMap.lookup, List.filterMap_cons]
      by_cases hn : name = e.1
      · rw [if_pos hn]
        cases hv : singleText e.2.value with
        | some v => simp [hn, hv]
        | none =>
            -- no later entry has the name
            have hnone : OrdMap.lookup name es = none := by
              rw [OrdMap.lookup_eq_none]
              intro d hd heq
              have hd' := hlt d hd
              rw [heq, hn] at hd'
              exact absurd hd' (lt_irrefl _)
            simp only [Option.map_none, Option.bind_some, hv]
            rw [ih', hnone]
            rfl
      · rw [if_neg hn, ← ih']
        cases hv : singleText e.2.value with
        | some v => simp [List.lookup_cons, beq_false_of_ne hn]
        | none => simp

theorem rawValue_of_mem {parameters : ValidatedParameters} {name v : Text}
    (h : (name, v) ∈ targetReplacements parameters.entries) : rawValue parameters name = some v := by
  unfold targetReplacements at h
  rw [List.mem_filterMap] at h
  obtain ⟨e, he, hv⟩ := h
  rw [Option.map_eq_some_iff] at hv
  obtain ⟨u, hu, hpair⟩ := hv
  obtain ⟨rfl, rfl⟩ := Prod.mk.inj hpair
  have hget : parameters.get? e.1 = some e.2 := OrdMap.get?_eq_some.mpr he
  rw [rawValue, hget]
  exact hu

/-! ## §2. What a backup command should be. -/

/-- Each parameter is one shell word that spells its value. -/
structure OneWordEach (template : Text) (parameters : ValidatedParameters) (r : Text) : Prop where
  result : r = text (fill (rawValue parameters) (pieces template))
  words : ∀ pre name post, pieces template = pre ++ .mark name :: post →
    ∃ v, rawValue parameters name = some v
      ∧ Shell.ReadsAs (Shell.scan .start (text (fill (rawValue parameters) pre))).1 v v

/-- The paths that the template uses have no character special to the shell and no
brace pair. -/
def PlainPaths (definition : TaskDefinition) (template : Text)
    (parameters : ValidatedParameters) : Prop :=
  ∀ d ∈ definition.parameters, d.kind = .absolutePath → Piece.mark d.name ∈ pieces template →
    ∀ p path, parameters.get? d.name = some p → p.value = .string path →
      Shell.Plain path ∧ NoPair path

/-! ## §3. Kinds whose values are bare words. -/

/-- Options without any special character. -/
def plainOption (s : Text) : Bool := !s.isEmpty && s.all isAsciiAlphanumeric

def wordKind : ParameterKind → Bool
  | .integer _ _ => true
  | .boolean => true
  | .enum options => options.all plainOption
  | .serviceName => true
  | .port => true
  | .interfaceName => true
  | .containerName => true
  | .managedId => true
  | _ => false

/-- The characters of service, interface and container names. -/
def isNameChar (c : Char) : Bool :=
  isAsciiAlphanumeric c || c == '_' || c == '-' || c == '.' || c == '@' || c == ':'

theorem bareWord_of_nameChars {s : Text} (hne : s.isEmpty = false)
    (h : ∀ c ∈ s, isNameChar c = true) : BareWord s := by
  refine .ofClass isNameChar (by decide) ?_ h
  intro hnil
  rw [hnil] at hne
  exact absurd hne (by simp)

theorem le_iff_toNat (c d : Char) : c ≤ d ↔ c.toNat ≤ d.toNat := by
  rw [Char.le_def]
  rfl

theorem toAsciiLower_eq_self {c : Char} (h : c.toNat ≤ 64 ∨ 91 ≤ c.toNat) :
    toAsciiLower c = c := by
  have hup : ¬ ('A' ≤ c ∧ c ≤ 'Z') := by
    rw [le_iff_toNat, le_iff_toNat]
    show ¬ (65 ≤ c.toNat ∧ c.toNat ≤ 90)
    omega
  rw [toAsciiLower, if_neg hup]

/-- The characters of a hyphenated UUID are name characters in lower case. -/
theorem isNameChar_of_hyphenated [UuidCrate] {u : UuidCrate.Uuid} {c : Char}
    (h : c ∈ UuidCrate.hyphenated u) : isNameChar (toAsciiLower c) = true := by
  rcases UuidCrate.hyphenated_chars u c h with rfl | hdigit | ⟨hlo, hhi⟩
  · decide
  · rw [Char.isDigit_iff_toNat] at hdigit
    have h9 : c.toNat ≤ 57 := hdigit.2
    have hd : ('0' ≤ c && c ≤ '9') = true := by
      rw [Bool.and_eq_true, decide_eq_true_eq, decide_eq_true_eq, le_iff_toNat, le_iff_toNat]
      exact hdigit
    rw [toAsciiLower_eq_self (by omega), isNameChar, isAsciiAlphanumeric, hd]
    rfl
  · have ha : 97 ≤ c.toNat := (le_iff_toNat _ _).mp hlo
    have hz : c ≤ 'z' := by
      rw [le_iff_toNat] at hhi ⊢
      exact le_trans hhi (by decide)
    have hl : ('a' ≤ c && c ≤ 'z') = true := by
      rw [Bool.and_eq_true, decide_eq_true_eq, decide_eq_true_eq]
      exact ⟨hlo, hz⟩
    rw [toAsciiLower_eq_self (by omega), isNameChar, isAsciiAlphanumeric, hl]
    simp

/-- A UUID in any case is a bare word. -/
theorem bareWord_of_uuid [UuidCrate] {s : Text} {u : UuidCrate.Uuid}
    (h : eqIgnoreAsciiCase s (UuidCrate.hyphenated u) = true) : BareWord s := by
  rw [eqIgnoreAsciiCase, beq_iff_eq] at h
  refine .ofClass (fun c => isNameChar (toAsciiLower c)) (by decide) ?_ ?_
  · intro hnil
    have hlen := congrArg List.length h
    rw [hnil, List.map_nil, List.length_map] at hlen
    exact UuidCrate.hyphenated_ne_nil u (List.length_eq_zero_iff.mp hlen.symm)
  · intro c hc
    have hmem : toAsciiLower c ∈ (UuidCrate.hyphenated u).map toAsciiLower := by
      rw [← h]
      exact List.mem_map_of_mem hc
    obtain ⟨d, hd, hdc⟩ := List.mem_map.mp hmem
    show isNameChar (toAsciiLower c) = true
    rw [← hdc]
    exact isNameChar_of_hyphenated hd

/-- A checked string whose check implies name characters. -/
theorem bareWord_of_checkedString {d : ParameterDefinition} {check : Text → Bool} {value : Value}
    {sv : Text} (hcheck : ∀ s, check s = true → s.isEmpty = false ∧ ∀ c ∈ s, isNameChar c = true)
    (h : checkedString d check value = .ok sv) : ∃ w, singleText value = some w ∧ BareWord w := by
  obtain ⟨s, rfl, hs, _⟩ := checkedString_ok h
  obtain ⟨hne, hchars⟩ := hcheck s hs
  exact ⟨s, rfl, bareWord_of_nameChars hne hchars⟩

/-- A check of the form: not empty, not too long, all characters in a class of names. -/
theorem nameChars_of_check {p : Char → Bool} (hp : ∀ c, p c = true → isNameChar c = true)
    {s : Text} {bound : Bool} (h : (!s.isEmpty && bound && s.all p) = true) :
    s.isEmpty = false ∧ ∀ c ∈ s, isNameChar c = true := by
  simp only [Bool.and_eq_true, Bool.not_eq_true'] at h
  exact ⟨h.1.1, fun c hc => hp c (List.all_eq_true.mp h.2 c hc)⟩

/-- **Accepted values of these kinds are bare words.** -/
theorem bareWord_of_wordKind [UuidCrate] {d : ParameterDefinition} {value : Value} {sv : Text}
    (hkind : wordKind d.kind = true) (h : validateValue d value = .ok sv) :
    ∃ w, singleText value = some w ∧ BareWord w := by
  unfold validateValue at h
  cases hk : d.kind with
  | integer min max =>
      simp only [hk] at h
      split at h
      next => exact absurd h (by simp)
      next n hn =>
        obtain ⟨k, rfl, _⟩ := asI64_eq_some hn
        exact ⟨_, rfl, bareWord_showInt k.val⟩
  | port =>
      simp only [hk] at h
      split at h
      next => exact absurd h (by simp)
      next n hn =>
        obtain ⟨k, rfl, _⟩ := asU64_eq_some hn
        exact ⟨_, rfl, bareWord_showInt k.val⟩
  | boolean =>
      simp only [hk] at h
      split at h
      next => exact absurd h (by simp)
      next b hb =>
        rw [asBool_eq_some hb]
        exact ⟨_, rfl, bareWord_bool b⟩
  | enum options =>
      simp only [hk] at h
      rw [hk] at hkind
      refine bareWord_of_checkedString ?_ h
      intro s hs
      have hs' := List.all_eq_true.mp hkind s (List.contains_iff_mem.mp hs)
      simp only [plainOption, Bool.and_eq_true, Bool.not_eq_true'] at hs'
      exact ⟨hs'.1, fun c hc => by simp [isNameChar, List.all_eq_true.mp hs'.2 c hc]⟩
  | serviceName =>
      simp only [hk] at h
      refine bareWord_of_checkedString (fun s hs => nameChars_of_check ?_ hs) h
      intro c hc
      simp only [Bool.or_eq_true, beq_iff_eq] at hc
      simp only [isNameChar, Bool.or_eq_true, beq_iff_eq]
      tauto
  | interfaceName =>
      simp only [hk] at h
      refine bareWord_of_checkedString (fun s hs => nameChars_of_check ?_ hs) h
      intro c hc
      simp only [Bool.or_eq_true, beq_iff_eq] at hc
      simp only [isNameChar, Bool.or_eq_true, beq_iff_eq]
      tauto
  | containerName =>
      simp only [hk] at h
      refine bareWord_of_checkedString (fun s hs => nameChars_of_check ?_ hs) h
      intro c hc
      simp only [Bool.or_eq_true, beq_iff_eq] at hc
      simp only [isNameChar, Bool.or_eq_true, beq_iff_eq]
      tauto
  | managedId =>
      simp only [hk] at h
      obtain ⟨s, u, rfl, _, hs, _⟩ := checkedManagedId_ok h
      exact ⟨s, rfl, bareWord_of_uuid hs⟩
  | _ =>
      rw [hk] at hkind
      exact absurd hkind (by simp [wordKind])

/-! ## §4. The command targets of the catalogue. -/

/-- A command with holes named in `names`: every hole stands unquoted, is followed
by a character that is no brace, and braces stand in pairs only around names. -/
def commandShape (names : List Text) (template : Text) : Bool :=
  decide (Calm (pieces template)) && decide (Template.Spaced (pieces template))
    && ShellTemplate.holesBare .start (pieces template)
    && (pieces template).all fun p =>
      match p with
      | .lit _ => true
      | .mark n => names.contains n

/-- A declaration with a proper name that is a word or a path if a hole uses it. -/
def parameterOk (names : List Text) (d : ParameterDefinition) : Bool :=
  decide (BraceFree d.name)
    && (!names.contains d.name || wordKind d.kind || d.kind == .absolutePath)

def isCommandTarget (kind : BackupItemKind) : Bool :=
  kind == .commandSnapshot || kind == .runtimeState

/-- The command targets of a task. -/
def commandTargets (definition : TaskDefinition) : List Text :=
  definition.implementations.flatMap fun implementation =>
    match implementation.backupPlan with
    | none => []
    | some plan =>
        (plan.items.filter fun item => isCommandTarget item.kind).map
          BackupItemDefinition.targetTemplate

structure TargetsShaped (names : List Text) (definition : TaskDefinition) : Prop where
  commands : ∀ t ∈ commandTargets definition, commandShape names t = true
  parameters : definition.parameters.all (parameterOk names) = true

/-- The snapshot commands, with the names of the parameters that they use. -/
theorem snapshots_shaped :
    (∀ t ∈ [Catalog.hostnameSnapshot, Catalog.timezoneSnapshot, Catalog.timeSyncSnapshot],
        commandShape [] t = true)
      ∧ (∀ t ∈ [Catalog.swapSnapshot, Catalog.permissionsSnapshot],
        commandShape ["path".toList] t = true)
      ∧ (∀ t ∈ [Catalog.networkSnapshotCommand, Catalog.networkManagerSnapshotCommand],
        commandShape ["interface".toList] t = true)
      ∧ (∀ t ∈ [Catalog.firewalldSnapshot, Catalog.ufwSnapshot, Catalog.nftSnapshot,
          Catalog.iptablesSnapshot],
        commandShape ["entryId".toList, "port".toList, "protocol".toList] t = true)
      ∧ (∀ t ∈ [Catalog.systemctlSnapshot, Catalog.serviceSnapshot],
        commandShape ["service".toList] t = true)
      ∧ ∀ t ∈ [Catalog.containerSnapshotCommand "docker".toList,
          Catalog.containerSnapshotCommand "podman".toList],
        commandShape ["container".toList] t = true := by
  unfold Catalog.hostnameSnapshot Catalog.timezoneSnapshot Catalog.timeSyncSnapshot
    Catalog.swapSnapshot Catalog.permissionsSnapshot Catalog.networkSnapshotCommand
    Catalog.networkManagerSnapshotCommand Catalog.firewalldSnapshot Catalog.ufwSnapshot
    Catalog.nftSnapshot Catalog.iptablesSnapshot Catalog.systemctlSnapshot
    Catalog.serviceSnapshot Catalog.containerSnapshotCommand Catalog.commandText
  simp only [-String.reduceToList, List.flatMap_cons, List.flatMap_nil]
  repeat rw [String.toList_ofList]
  decide +kernel

/-- The parameters of the tasks with snapshot commands. -/
theorem parameters_shaped :
    Catalog.hostnameChange.parameters.all (parameterOk []) = true
      ∧ Catalog.timezoneChange.parameters.all (parameterOk []) = true
      ∧ Catalog.timeSyncChange.parameters.all (parameterOk []) = true
      ∧ Catalog.swapManage.parameters.all (parameterOk ["path".toList]) = true
      ∧ Catalog.filePermissions.parameters.all (parameterOk ["path".toList]) = true
      ∧ Catalog.ipChange.parameters.all (parameterOk ["interface".toList]) = true
      ∧ Catalog.firewallOpenPort.parameters.all
        (parameterOk ["entryId".toList, "port".toList, "protocol".toList]) = true
      ∧ [Catalog.serviceParameter].all (parameterOk ["service".toList]) = true
      ∧ Catalog.serviceBootPolicy.parameters.all (parameterOk ["service".toList]) = true
      ∧ Catalog.containerAction.parameters.all (parameterOk ["container".toList]) = true := by
  decide

/-- **Every command target of the catalogue has the right shape.** -/
theorem recoverable_shaped {definition : TaskDefinition} (h : definition ∈ Catalog.recoverable)
    {template : Text} (ht : template ∈ commandTargets definition) :
    ∃ names, TargetsShaped names definition := by
  obtain ⟨hplain, hpath, hinterface, hfirewall, hservice, hcontainer⟩ := snapshots_shaped
  obtain ⟨hhostname, htimezone, htimeSync, hswap, hpermissions, hip, hport, hunit, hboot,
    hname⟩ := parameters_shaped
  have hservices : ∀ t ∈ [Catalog.systemctlSnapshot, Catalog.serviceSnapshot],
      commandShape ["service".toList] t = true := hservice
  simp only [List.forall_mem_cons] at hplain hpath hinterface hservice
  simp only [Catalog.recoverable, List.mem_cons, List.not_mem_nil, or_false] at h
  rcases h with rfl | rfl | rfl | rfl | rfl | rfl | rfl | rfl | rfl | rfl | rfl | rfl | rfl | rfl
  · exact ⟨[], List.forall_mem_singleton.mpr hplain.1, hhostname⟩
  · exact ⟨[], List.forall_mem_singleton.mpr hplain.2.1, htimezone⟩
  · exact ⟨[], List.forall_mem_singleton.mpr hplain.2.2.1, htimeSync⟩
  · exact ⟨_, List.forall_mem_singleton.mpr hpath.1, hswap⟩
  · exact absurd (show template ∈ ([] : List Text) from ht) (by simp)
  · refine ⟨_, ?_, hip⟩
    show ∀ t ∈ [Catalog.networkSnapshotCommand, Catalog.networkManagerSnapshotCommand,
      Catalog.networkSnapshotCommand, Catalog.networkManagerSnapshotCommand,
      Catalog.networkSnapshotCommand, Catalog.networkSnapshotCommand,
      Catalog.networkSnapshotCommand, Catalog.networkSnapshotCommand], _
    simp only [List.forall_mem_cons]
    exact ⟨hinterface.1, hinterface.2.1, hinterface.1, hinterface.2.1, hinterface.1,
      hinterface.1, hinterface.1, hinterface.1, fun _ ht => absurd ht List.not_mem_nil⟩
  · exact ⟨_, List.forall_mem_singleton.mpr hpath.2.1, hpermissions⟩
  · exact ⟨_, hfirewall, hport⟩
  · exact ⟨_, hservices, hunit⟩
  · exact ⟨_, hservices, hunit⟩
  · exact ⟨_, hservices, hunit⟩
  · exact ⟨_, List.forall_mem_singleton.mpr hservice.1, hboot⟩
  · exact absurd (show template ∈ ([] : List Text) from ht) (by simp)
  · exact ⟨_, hcontainer, hname⟩

/-! ## §5. Values of command targets. -/

theorem mem_commandTargets {definition : TaskDefinition} {implementation : TaskImplementation}
    {plan : BackupPlan} {item : BackupItemDefinition}
    (himpl : implementation ∈ definition.implementations)
    (hplan : implementation.backupPlan = some plan) (hitem : item ∈ plan.items)
    (hkind : isCommandTarget item.kind = true) :
    item.targetTemplate ∈ commandTargets definition := by
  refine List.mem_flatMap.mpr ⟨implementation, himpl, ?_⟩
  rw [hplan]
  exact List.mem_map.mpr ⟨item, List.mem_filter.mpr ⟨hitem, hkind⟩, rfl⟩

theorem BareWord.opens {word : Text} (h : BareWord word) : Opens word ∧ NoPair word := by
  have hbrace : ∀ c ∈ word, Template.isBrace c = false := by
    intro c hc
    simp [Template.isBrace, h.braceless c hc]
  refine ⟨⟨h.nonempty, fun c hc => hbrace c (List.mem_of_mem_head? hc)⟩, ?_⟩
  rw [NoPair, List.isChain_iff_forall_rel_of_append_cons_cons]
  rintro a b pre post rfl
  exact Template.pairless_of_not_brace_left (hbrace a (by simp))

/-- An accepted path starts with a slash. -/
theorem absolutePath_start [UuidCrate] {d : ParameterDefinition} {value : Value} {sv : Text}
    (hkind : d.kind = .absolutePath) (h : validateValue d value = .ok sv) :
    ∃ path, value = .string path ∧ Opens path ∧ Shell.PlainStart path := by
  unfold validateValue at h
  simp only [hkind] at h
  obtain ⟨path, rfl, hpath, _⟩ := checkedString_ok h
  have hslash : path.head? = some '/' := by
    rw [Bool.and_eq_true] at hpath
    obtain ⟨rest, rfl⟩ := List.isPrefixOf_iff_prefix.mp hpath.2
    rfl
  refine ⟨path, rfl, ⟨?_, ?_⟩, ?_⟩
  · intro hnil
    rw [hnil] at hslash
    exact absurd hslash (by simp)
  · intro c hc
    rw [hslash, Option.mem_def, Option.some.injEq] at hc
    rw [← hc]
    decide
  · rw [Shell.PlainStart, hslash]
    decide

/-- The raw text at a hole: a bare word, or a path of the map. -/
theorem rawValue_cases [UuidCrate] {names : List Text} {definition : TaskDefinition}
    {parameters : ValidatedParameters}
    (hshaped : definition.parameters.all (parameterOk names) = true)
    (hdecl : ∀ e ∈ parameters.entries, Declared definition.parameters e) {name v : Text}
    (hname : name ∈ names) (hv : rawValue parameters name = some v) :
    BareWord v ∨ ((Opens v ∧ Shell.PlainStart v)
      ∧ ∃ d ∈ definition.parameters, d.kind = .absolutePath ∧ d.name = name
        ∧ ∃ p, parameters.get? name = some p ∧ p.value = .string v) := by
  rw [rawValue, Option.bind_eq_some_iff] at hv
  obtain ⟨p, hp, hv⟩ := hv
  obtain ⟨d, hd, hdname, hval, _⟩ := hdecl _ (OrdMap.get?_eq_some.mp hp)
  simp only at hdname hval
  have hok := List.all_eq_true.mp hshaped d hd
  simp only [parameterOk, Bool.and_eq_true, Bool.or_eq_true, Bool.not_eq_true', beq_iff_eq,
    hdname, List.contains_eq_mem, decide_eq_false_iff_not] at hok
  rcases hok.2 with (hnot | hword) | hpath
  · exact absurd hname hnot
  · obtain ⟨w, hw, hbare⟩ := bareWord_of_wordKind hword hval
    rw [hw, Option.some.injEq] at hv
    rw [← hv]
    exact Or.inl hbare
  · obtain ⟨path, hstring, hopens, hstart⟩ := absolutePath_start hpath hval
    rw [hstring, singleText, Option.some.injEq] at hv
    rw [← hv]
    exact Or.inr ⟨⟨hopens, hstart⟩, d, hd, hpath, hdname, p, hp, hstring⟩

/-- What the shape of a template says. -/
theorem commandShape_iff {names : List Text} {template : Text} :
    commandShape names template = true ↔
      Calm (pieces template) ∧ Template.Spaced (pieces template)
        ∧ ShellTemplate.holesBare .start (pieces template) = true
        ∧ ∀ n, Piece.mark n ∈ pieces template → n ∈ names := by
  simp only [commandShape, Bool.and_eq_true, decide_eq_true_eq, List.all_eq_true, and_assoc]
  refine and_congr_right fun _ => and_congr_right fun _ => and_congr_right fun _ => ?_
  constructor
  · intro h n hn
    exact List.contains_iff_mem.mp (h _ hn)
  · intro h p hp
    cases p with
    | lit c => rfl
    | mark n => exact List.contains_iff_mem.mpr (h n hp)

/-- A rendered target is the loop's result and has no brace pair. -/
theorem renderBackupTarget_ok {template implementationId r : Text}
    {parameters : ValidatedParameters}
    (h : renderBackupTarget template implementationId parameters = .ok r) :
    r = Template.replaceAll (targetReplacements parameters.entries) template ∧ NoPair r := by
  unfold renderBackupTarget at h
  split at h
  next => exact absurd h (by simp)
  next =>
    cases hloop : parameters.entries.foldlM substituteTarget template with
    | error e =>
        rw [hloop] at h
        exact absurd h (by simp [bind, Except.bind])
    | ok out =>
        simp only [hloop, bind, Except.bind] at h
        split at h
        next => exact absurd h (by simp)
        next hc =>
          rw [← Except.ok.inj h]
          simp only [Bool.or_eq_true, not_or, Bool.not_eq_true] at hc
          exact ⟨foldlM_substituteTarget hloop, Template.noPair_iff.mpr hc.1⟩

/-- With pair-free values the loop fills the template. -/
theorem backupTarget_fill [UuidCrate] {names : List Text} {definition : TaskDefinition}
    {template : Text} {parameters : ValidatedParameters}
    (hshape : commandShape names template = true)
    (hparams : definition.parameters.all (parameterOk names) = true)
    (hdecl : ∀ e ∈ parameters.entries, Declared definition.parameters e)
    (hvalues : ∀ n v, Piece.mark n ∈ pieces template → rawValue parameters n = some v →
      Opens v ∧ NoPair v) :
    Template.replaceAll (targetReplacements parameters.entries) template
      = text (fill (rawValue parameters) (pieces template)) := by
  obtain ⟨hcalm, hspaced, _, _⟩ := commandShape_iff.mp hshape
  have hstays : Template.StaysCalm (targetReplacements parameters.entries) (pieces template) := by
    intro f hf
    refine Template.calm_fill_of_spaced hspaced hcalm ?_
    intro n v hn hv
    exact hvalues n v hn (rawValue_of_mem (hf n v hv))
  have hproper : ∀ e ∈ targetReplacements parameters.entries, BraceFree e.1 := by
    intro e he
    obtain ⟨d, hd, hpair⟩ := List.mem_filterMap.mp he
    rw [Option.map_eq_some_iff] at hpair
    obtain ⟨_, _, rfl⟩ := hpair
    obtain ⟨decl, hmem, hname, _⟩ := hdecl d hd
    have hok := List.all_eq_true.mp hparams decl hmem
    simp only [parameterOk, Bool.and_eq_true, decide_eq_true_eq, hname] at hok
    exact hok.1
  have hall := Template.replaceAll_text hstays
    (fun n hn => Template.braceFree_of_mem_pieces hn) hproper
  rw [Template.text_pieces] at hall
  rw [hall, funext (lookup_targetReplacements parameters.ascend)]
  rfl

/-- **A backup command has each parameter as one word exactly when the paths it
uses are plain.** -/
theorem backup_command_faithful_iff [UuidCrate] (definition : TaskDefinition)
    (implementation : TaskImplementation) (plan : BackupPlan) (item : BackupItemDefinition)
    (input : Value) (parameters : ValidatedParameters) (r : Text)
    (hdefinition : definition ∈ Catalog.recoverable)
    (himplementation : implementation ∈ definition.implementations)
    (hplan : implementation.backupPlan = some plan) (hitem : item ∈ plan.items)
    (hkind : item.kind = .commandSnapshot ∨ item.kind = .runtimeState)
    (haccepted : validateParameters definition input = .ok parameters)
    (hrender : renderBackupTarget item.targetTemplate implementation.id parameters = .ok r) :
    OneWordEach item.targetTemplate parameters r
      ↔ PlainPaths definition item.targetTemplate parameters := by
  have hcommand : isCommandTarget item.kind = true := by
    rcases hkind with hk | hk <;> rw [hk] <;> rfl
  have htarget := mem_commandTargets himplementation hplan hitem hcommand
  obtain ⟨names, hshaped⟩ := recoverable_shaped hdefinition htarget
  have hshape := hshaped.commands _ htarget
  obtain ⟨_, _, hbare, hnames⟩ := commandShape_iff.mp hshape
  have hdecl := validateParameters_declared haccepted
  obtain ⟨hr, hpair⟩ := renderBackupTarget_ok hrender
  have hcases : ∀ n v, Piece.mark n ∈ pieces item.targetTemplate →
      rawValue parameters n = some v → _ :=
    fun n v hn hv => rawValue_cases hshaped.parameters hdecl (hnames n hn) hv
  have hstart : ∀ n v, Piece.mark n ∈ pieces item.targetTemplate →
      rawValue parameters n = some v → v ≠ [] ∧ Shell.PlainStart v := by
    intro n v hn hv
    rcases hcases n v hn hv with hw | ⟨⟨hopens, hs⟩, _⟩
    · exact ⟨hw.nonempty, hw.start⟩
    · exact ⟨hopens.nonempty, hs⟩
  have hread := ShellTemplate.holesRead_iff hbare hstart
  constructor
  · -- a value that reads as itself is plain; the result has no brace pair
    intro h d hd hk hmark p path hp hvalue
    have hraw : rawValue parameters d.name = some path := by
      rw [rawValue, hp, Option.bind_some, hvalue]
      rfl
    obtain ⟨v, hv, hplain⟩ :=
      hread.mp (ShellTemplate.holesRead_iff_split.mpr h.words) d.name hmark
    rw [hraw, Option.some.injEq] at hv
    rw [← hv] at hplain
    rw [h.result] at hpair
    exact ⟨hplain, Template.noPair_of_fill hpair hmark hraw⟩
  · intro h
    have hvalues : ∀ n v, Piece.mark n ∈ pieces item.targetTemplate →
        rawValue parameters n = some v → (Opens v ∧ NoPair v) ∧ Shell.Plain v := by
      intro n v hn hv
      rcases hcases n v hn hv with hw | ⟨⟨hopens, _⟩, d, hd, hk, rfl, p, hp, hvalue⟩
      · exact ⟨hw.opens, hw.plain⟩
      · obtain ⟨hplain, hnp⟩ := h d hd hk hn p v hp hvalue
        exact ⟨⟨hopens, hnp⟩, hplain⟩
    have hfill := backupTarget_fill hshape hshaped.parameters hdecl
      fun n v hn hv => (hvalues n v hn hv).1
    rw [hfill] at hr
    refine ⟨hr, ShellTemplate.holesRead_iff_split.mp (hread.mpr ?_)⟩
    intro n hn
    cases hv : rawValue parameters n with
    | some v => exact ⟨v, rfl, (hvalues n v hn hv).2⟩
    | none =>
        -- a placeholder without a value would still be there
        rw [hr, Template.noPair_text_iff] at hpair
        refine absurd (List.mem_flatMap.mpr ⟨_, hn, ?_⟩) (hpair.1 n)
        rw [Template.fillPiece, hv]
        exact List.mem_singleton_self _

/-! ## §6. The recovery point of a permission change. -/

def permissionInput (path : Text) : Value :=
  .object [("path".toList, .string path), ("mode".toList, .string "0644".toList)]

def permissionParameters (path : Text) : ValidatedParameters :=
  acceptedOrEmpty
    (@validateParameters hyphenatedUuid Catalog.filePermissions (permissionInput path))

def posixStat : TaskImplementation :=
  Catalog.filePermissions.implementations.head (by decide)

def metadataPlan : BackupPlan :=
  posixStat.backupPlan.getD ⟨[]⟩

def metadataBefore : BackupItemDefinition :=
  Catalog.backupItem "metadata-before".toList .runtimeState Catalog.permissionsSnapshot

/-- Only the path of a permission change is an absolute path. -/
theorem plainPaths_permission {path : Text}
    (hpath : stringValue (permissionParameters path) "path".toList = some path)
    (hplain : Shell.Plain path) (hpair : NoPair path) :
    PlainPaths Catalog.filePermissions Catalog.permissionsSnapshot
      (permissionParameters path) := by
  intro d hd hkind _ p value hp hvalue
  simp only [Catalog.filePermissions, Catalog.dangerousTask, List.mem_cons, List.not_mem_nil,
    or_false] at hd
  rcases hd with rfl | rfl | rfl | rfl
  · have hname : (permissionParameters path).get? "path".toList = some p := hp
    rw [stringValue, hname, Option.bind_some, hvalue] at hpath
    rw [Option.some.inj hpath]
    exact ⟨hplain, hpair⟩
  all_goals exact absurd hkind (by decide)

theorem filePermissions_mem : Catalog.filePermissions ∈ Catalog.recoverable := by
  unfold Catalog.recoverable
  simp

theorem backup_command_faithful_permissions :
    OneWordEach Catalog.permissionsSnapshot (permissionParameters "/srv/app".toList)
      "test ! -L /srv/app && stat -Lc 'path=%n\\nuid=%u\\ngid=%g\\nmode=%a' -- /srv/app".toList := by
  let _ : UuidCrate := hyphenatedUuid
  have haccepted := eq_ok_acceptedOrEmpty (show (validateParameters Catalog.filePermissions
    (permissionInput "/srv/app".toList)).toBool = true by decide)
  exact (backup_command_faithful_iff Catalog.filePermissions posixStat metadataPlan
    metadataBefore _ _ _ filePermissions_mem (List.head_mem _) rfl
    (List.mem_singleton_self _) (Or.inr rfl) haccepted (by decide +kernel)).mpr
    (plainPaths_permission (by decide) (by decide) (by decide))

/-- A path that is accepted although it ends the command and starts another. -/
theorem backup_command_runs_path :
    ∃ parameters r, @validateParameters hyphenatedUuid Catalog.filePermissions
        (permissionInput "/tmp/a; reboot".toList) = .ok parameters
      ∧ renderBackupTarget metadataBefore.targetTemplate posixStat.id parameters = .ok r
      ∧ (r.take 25 = "test ! -L /tmp/a; reboot ".toList
        ∧ (Shell.scan .start (r.take 17)).2.getLast? = some .op)
      ∧ ¬ OneWordEach metadataBefore.targetTemplate parameters r := by
  let _ : UuidCrate := hyphenatedUuid
  have haccepted := eq_ok_acceptedOrEmpty (show (validateParameters Catalog.filePermissions
    (permissionInput "/tmp/a; reboot".toList)).toBool = true by decide)
  refine ⟨_, "test ! -L /tmp/a; reboot && stat -Lc 'path=%n\\nuid=%u\\ngid=%g\\nmode=%a' -- /tmp/a; reboot".toList,
    haccepted, by decide +kernel, by decide +kernel, ?_⟩
  intro h
  -- at the first placeholder the shell is between two words
  obtain ⟨v, hv, hread⟩ := h.words ((pieces metadataBefore.targetTemplate).take 10)
    "path".toList ((pieces metadataBefore.targetTemplate).drop 11) (by decide)
  have hvalue : v = "/tmp/a; reboot".toList := by
    have hraw : rawValue (permissionParameters "/tmp/a; reboot".toList) "path".toList
        = some "/tmp/a; reboot".toList := by decide
    exact Option.some.inj (hv.symm.trans hraw)
  subst hvalue
  have hclasses := hread.harmless .op (by decide)
  exact absurd hclasses (by decide)

end QingzhouSSH.Core.Tasks
