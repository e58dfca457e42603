/-
  QingzhouSSH.Services.OperationPreview — previews and their confirmation.

  A preview stores a summary of its parameters; a later start is accepted when its
  own parameters have the same summary.  The summary joins `name=value` texts by a
  comma and a blank and masks sensitive values.

  Main results:
    * `shown_inj` — the displayed text of a value that a declaration accepts
      determines the value;
    * `parameterSummary_eq_iff` — when two summaries are equal;
    * `start_runs_previewed_iff` — when an accepted start has the previewed parameters.
-/
import QingzhouSSH.Core.Tasks.Catalog
import QingzhouSSH.Core.Tasks.Parameters
import QingzhouSSH.Repositories.OperationRepository
import Mathlib.Data.List.Forall2

namespace QingzhouSSH.Services.OperationPreview

open QingzhouSSH.Lib
open QingzhouSSH.Core.Tasks
open QingzhouSSH.Domain
open QingzhouSSH.Repositories

/-! ## §1. The summary. -/

def assignment (e : Text × ValidatedParameter) : Text := e.1 ++ '=' :: shown e.2

def summaryText (parameters : ValidatedParameters) : Text :=
  List.intercalate [',', ' '] (parameters.entries.map assignment)

/-- `parameter_summary`. -/
def parameterSummary (parameters : ValidatedParameters) : Option Text :=
  if (summaryText parameters).isEmpty then none else some (summaryText parameters)

theorem parameterSummary_inj {p q : ValidatedParameters}
    (h : parameterSummary p = parameterSummary q) : summaryText p = summaryText q := by
  unfold parameterSummary at h
  split at h <;> split at h
  next hp hq => rw [List.isEmpty_iff.mp hp, List.isEmpty_iff.mp hq]
  next => exact absurd h (by simp)
  next => exact absurd h (by simp)
  next => exact Option.some.inj h

/-! ## §2. The preview and the check at the start. -/

/-- Removing the firewall rule of the port that the client itself uses. -/
def removesOwnPort (definition : TaskDefinition) (parameters : ValidatedParameters)
    (server : ServerProfile) : Bool :=
  definition.id == "security.firewall_open_port".toList
    && stringValue parameters "action".toList == some "remove".toList
    && stringValue parameters "protocol".toList == some "tcp".toList
    && ((parameters.get? "port".toList).bind fun p => p.value.asU64) == some server.port

/-- `begin_preflight`, for a resolved definition. -/
def beginPreflight [UuidCrate] (server : ServerProfile) (definition : TaskDefinition)
    (parameters : Value) : AppResult OperationRunRecord := do
  let validated ← validateParameters definition parameters
  if removesOwnPort definition validated server then
    .error (.validation
      "不能移除当前连接正在使用的 SSH 端口规则，请先迁移 SSH 端口并验证新连接".toList)
  else
    let run ← OperationRepository.create
      { serverId := server.id, taskId := definition.id, taskVersion := definition.version,
        riskLevel := definition.riskLevel, parametersSummary := parameterSummary validated }
    OperationRepository.transition .preflighting run

/-- `require_dangerous_preview`. -/
def requireDangerousPreview (definition : TaskDefinition) (confirmed : Bool) : AppResult Unit :=
  if definition.riskLevel = .dangerous ∧ !confirmed then
    .error (.validation "危险任务必须先预览并确认影响范围".toList)
  else .ok ()

/-- `require_matching_preview`: `preview` is the row with the confirmed id. -/
def requireMatchingPreview (preview : Option OperationRunRecord) (serverId : Text)
    (definition : TaskDefinition) (summary : Option Text) : AppResult Unit :=
  match preview with
  | none => .error (.validation "确认的预览不存在".toList)
  | some run =>
      if run.serverId ≠ serverId ∨ run.taskId ≠ definition.id
          ∨ run.taskVersion ≠ definition.version ∨ run.status ≠ .previewReady
          ∨ run.parametersSummary ≠ summary then
        .error (.validation "确认的预览与本次任务或参数不一致".toList)
      else .ok ()

/-- The checks of `start_with_capabilities_and_cancel` on a confirmed preview. -/
def acceptPreview [UuidCrate] (preview : Option OperationRunRecord) (serverId : Text)
    (definition : TaskDefinition) (parameters : Value) : AppResult ValidatedParameters := do
  let validated ← validateParameters definition parameters
  requireDangerousPreview definition true
  requireMatchingPreview preview serverId definition (parameterSummary validated)
  .ok validated

theorem beginPreflight_ok [UuidCrate] {server : ServerProfile} {definition : TaskDefinition}
    {input : Value} {run : OperationRunRecord}
    (h : beginPreflight server definition input = .ok run) :
    ∃ parameters, validateParameters definition input = .ok parameters
      ∧ run.parametersSummary = parameterSummary parameters := by
  obtain ⟨parameters, hv, h⟩ := bind_eq_ok.mp h
  split at h
  next => exact absurd h (by simp)
  next =>
    obtain ⟨created, hc, h⟩ := bind_eq_ok.mp h
    obtain ⟨_, rfl⟩ := OperationRepository.transition_ok h
    obtain ⟨_, _, _, hsummary⟩ := OperationRepository.create_ok hc
    exact ⟨parameters, hv, hsummary⟩

theorem acceptPreview_ok [UuidCrate] {preview : OperationRunRecord} {serverId : Text}
    {definition : TaskDefinition} {input : Value} {parameters : ValidatedParameters}
    (h : acceptPreview (some preview) serverId definition input = .ok parameters) :
    validateParameters definition input = .ok parameters
      ∧ preview.parametersSummary = parameterSummary parameters := by
  obtain ⟨validated, hv, h⟩ := bind_eq_ok.mp h
  obtain ⟨_, _, h⟩ := bind_eq_ok.mp h
  obtain ⟨_, hmatch, h⟩ := bind_eq_ok.mp h
  rw [Except.ok.inj h] at hv hmatch
  unfold requireMatchingPreview at hmatch
  split at hmatch
  next heq => exact absurd heq (by simp)
  next heq =>
    rw [← Option.some.inj heq] at hmatch
    split at hmatch
    next => exact absurd hmatch (by simp)
    next hc =>
      simp only [not_or, ne_eq, not_not] at hc
      exact ⟨hv, hc.2.2.2.2⟩

/-! ## §3. The text of an accepted value. -/

/-- The kinds whose values are strings. -/
def isTextual : ParameterKind → Bool
  | .integer _ _ | .boolean | .port | .timeRange | .multiSelect _ _ | .serviceMultiSelect _ => false
  | _ => true

def AcceptedBy [UuidCrate] (d : ParameterDefinition) (value : Value) : Prop :=
  ∃ sv, validateValue d value = .ok sv

/-- A declaration accepts strings only, or no string. -/
theorem asStr_of_accepted [UuidCrate] {d : ParameterDefinition} {value : Value}
    (h : AcceptedBy d value) : value.asStr.isSome = isTextual d.kind := by
  obtain ⟨sv, h⟩ := h
  unfold validateValue at h
  cases hk : d.kind with
  | integer min max =>
      simp only [hk] at h
      split at h
      next => exact absurd h (by simp)
      next n hn =>
        obtain ⟨k, rfl, _⟩ := asI64_eq_some hn
        rfl
  | boolean =>
      simp only [hk] at h
      split at h
      next => exact absurd h (by simp)
      next b hb =>
        rw [asBool_eq_some hb]
        rfl
  | port =>
      simp only [hk] at h
      split at h
      next => exact absurd h (by simp)
      next n hn =>
        obtain ⟨k, rfl, _⟩ := asU64_eq_some hn
        rfl
  | timeRange =>
      simp only [hk] at h
      obtain ⟨object, _, _, rfl, _⟩ := checkedTimeRange_ok h
      rfl
  | managedId =>
      simp only [hk] at h
      obtain ⟨s, _, rfl, _⟩ := checkedManagedId_ok h
      rfl
  | multiSelect options maxItems =>
      simp only [hk] at h
      obtain ⟨ss, rfl, _⟩ := checkedSelection_ok h
      rfl
  | serviceMultiSelect maxItems =>
      simp only [hk] at h
      obtain ⟨ss, rfl, _⟩ := checkedSelection_ok h
      rfl
  | _ =>
      simp only [hk] at h
      obtain ⟨s, rfl, _⟩ := checkedString_ok h
      rfl

/-- **The displayed text determines a value that one declaration accepts.** -/
theorem shown_inj [UuidCrate] {d : ParameterDefinition} {v w : Value} (hv : AcceptedBy d v)
    (hw : AcceptedBy d w) (h : shownValue v = shownValue w) : v = w := by
  have hkind := (asStr_of_accepted hv).trans (asStr_of_accepted hw).symm
  unfold shownValue at h
  cases hvs : v.asStr with
  | some s =>
      rw [hvs, Option.isSome_some] at hkind
      obtain ⟨t, hwt⟩ := Option.isSome_iff_exists.mp hkind.symm
      rw [hvs, hwt] at h
      have hst : s = t := h
      rw [asStr_eq_some hvs, asStr_eq_some hwt, hst]
  | none =>
      rw [hvs, Option.isSome_none] at hkind
      have hwn : w.asStr = none := Option.not_isSome_iff_eq_none.mp (by rw [← hkind]; simp)
      rw [hvs, hwn] at h
      exact Value.toJson_injective h

/-! ## §4. Two maps accepted for one task. -/

/-- A declaration of the name accepts both values. -/
def BothAccepted [UuidCrate] (declarations : List ParameterDefinition) (name : Text)
    (v w : Value) : Prop :=
  ∃ d ∈ declarations, d.name = name ∧ AcceptedBy d v ∧ AcceptedBy d w

/-- What holds of two maps that are built side by side, at one name: common
entries have a common declaration, and so have a given value and an entry. -/
structure SideBySide [UuidCrate] (declarations : List ParameterDefinition)
    (object object' : List (Text × Value)) (name : Text) (p p' : Option ValidatedParameter) :
    Prop where
  entries : ∀ q q', p = some q → p' = some q' → BothAccepted declarations name q.value q'.value
  given : ∀ v q', Value.getField object name = some v → p' = some q' →
    BothAccepted declarations name v q'.value
  given' : ∀ v q, Value.getField object' name = some v → p = some q →
    BothAccepted declarations name q.value v

/-- The value that a declaration takes is the given one, if one is given. -/
theorem or_default_given {given default : Option Value} {v w : Value}
    (h : given.or default = some v) (hw : given = some w) : w = v := by
  rw [hw, Option.some_or, Option.some.injEq] at h
  exact h

/-- **The loops over the declarations keep two maps side by side.** -/
theorem sideBySide_declared [UuidCrate] {declarations parameters : List ParameterDefinition}
    {object object' : List (Text × Value)} {name : Text}
    {start start' out out' : ValidatedParameters}
    (hsub : ∀ d ∈ parameters, d ∈ declarations)
    (hstart : SideBySide declarations object object' name (start.get? name) (start'.get? name))
    (h : validateDeclared object parameters start = .ok out)
    (h' : validateDeclared object' parameters start' = .ok out') :
    SideBySide declarations object object' name (out.get? name) (out'.get? name) := by
  induction parameters generalizing start start' with
  | nil =>
      rw [← Except.ok.inj h, ← Except.ok.inj h']
      exact hstart
  | cons d parameters ih =>
      have hd := hsub d List.mem_cons_self
      obtain ⟨next, hrest, hstep⟩ := validateDeclared_cons h
      obtain ⟨next', hrest', hstep'⟩ := validateDeclared_cons h'
      refine ih (fun e he => hsub e (List.mem_cons_of_mem d he)) ?_ hrest hrest'
      by_cases hname : name = d.name
      · subst hname
        rcases hstep with ⟨hnone, rfl⟩ | ⟨v, sv, hv, hsv, rfl⟩
        · rcases hstep' with ⟨_, rfl⟩ | ⟨v', sv', hv', hsv', rfl⟩
          · exact hstart
          · -- only the second map takes a value: it was given
            obtain ⟨hfield, hdefault⟩ := Option.or_eq_none_iff.mp hnone
            rw [hdefault, Option.or_none] at hv'
            rw [OrdMap.get?_insert, if_pos rfl]
            refine ⟨?_, ?_, ?_⟩
            · intro q q' hq hq'
              rw [← Option.some.inj hq']
              exact hstart.given' v' q hv' hq
            · intro u q' hu _
              rw [hfield] at hu
              exact absurd hu (by simp)
            · intro u q hu hq
              exact hstart.given' u q hu hq
        · rw [OrdMap.get?_insert, if_pos rfl]
          rcases hstep' with ⟨hnone', rfl⟩ | ⟨v', sv', hv', hsv', rfl⟩
          · obtain ⟨hfield', hdefault⟩ := Option.or_eq_none_iff.mp hnone'
            rw [hdefault, Option.or_none] at hv
            refine ⟨?_, ?_, ?_⟩
            · intro q q' hq hq'
              rw [← Option.some.inj hq]
              exact hstart.given v q' hv hq'
            · intro u q' hu hq'
              exact hstart.given u q' hu hq'
            · intro u q hu _
              rw [hfield'] at hu
              exact absurd hu (by simp)
          · -- both take a value, and `d` accepts both
            have hboth : BothAccepted declarations d.name v v' :=
              ⟨d, hd, rfl, ⟨sv, hsv⟩, ⟨sv', hsv'⟩⟩
            rw [OrdMap.get?_insert, if_pos rfl]
            refine ⟨?_, ?_, ?_⟩
            · intro q q' hq hq'
              rw [← Option.some.inj hq, ← Option.some.inj hq']
              exact hboth
            · intro u q' hu hq'
              rw [← Option.some.inj hq', or_default_given hv hu]
              exact hboth
            · intro u q hu hq
              rw [← Option.some.inj hq, or_default_given hv' hu]
              exact hboth
      · have hkeep : next.get? name = start.get? name := by
          rcases hstep with ⟨_, rfl⟩ | ⟨v, sv, _, _, rfl⟩
          · rfl
          · rw [OrdMap.get?_insert, if_neg hname]
        have hkeep' : next'.get? name = start'.get? name := by
          rcases hstep' with ⟨_, rfl⟩ | ⟨v, sv, _, _, rfl⟩
          · rfl
          · rw [OrdMap.get?_insert, if_neg hname]
        rw [hkeep, hkeep']
        exact hstart

/-- Entries of one name in two accepted maps have a declaration in common. -/
theorem common_declaration [UuidCrate] {definition : TaskDefinition} {input input' : Value}
    {parameters parameters' : ValidatedParameters}
    (h : validateParameters definition input = .ok parameters)
    (h' : validateParameters definition input' = .ok parameters') {name : Text}
    {p p' : ValidatedParameter} (hp : parameters.get? name = some p)
    (hp' : parameters'.get? name = some p') :
    BothAccepted definition.parameters name p.value p'.value := by
  obtain ⟨object, _, hd, _⟩ := validateParameters_ok h
  obtain ⟨object', _, hd', _⟩ := validateParameters_ok h'
  have hempty : SideBySide definition.parameters object object' name
      ((OrdMap.empty : ValidatedParameters).get? name)
      ((OrdMap.empty : ValidatedParameters).get? name) := by
    constructor <;> intro u q hu hq <;> exact absurd hq (by simp)
  exact (sideBySide_declared (fun d hd => hd) hempty hd hd').entries p p' hp hp'

/-! ## §5. When two summaries are equal. -/

/-- The two maps hold the same values under the same names, masked alike. -/
def SameParameters (parameters parameters' : ValidatedParameters) : Prop :=
  parameters.entries.map (fun e => (e.1, e.2.value, e.2.sensitive))
    = parameters'.entries.map fun e => (e.1, e.2.value, e.2.sensitive)

/-- Nothing that the summary leaves out or blurs is different: the same parameters
are there, the masked ones agree, and no text that is shown continues the other
map's text of the parameter with the separator. -/
structure Unconfused (parameters parameters' : ValidatedParameters) : Prop where
  names : parameters.entries.map Prod.fst = parameters'.entries.map Prod.fst
  masked : ∀ name p p', parameters.get? name = some p → parameters'.get? name = some p' →
    p.sensitive = p'.sensitive ∧ (p.sensitive = true → p.value = p'.value)
  apart : ∀ name p p', parameters.get? name = some p → parameters'.get? name = some p' →
    Text.Apart [',', ' '] (shown p) (shown p')

theorem apart_self (s : Text) : Text.Apart [',', ' '] s s := by
  have h : ¬ s ++ [',', ' '] <+: s := by
    intro hp
    have hlen := hp.length_le
    rw [List.length_append] at hlen
    simp at hlen
  exact ⟨h, h⟩

/-- In maps with the same names, paired entries are the entries of one name. -/
theorem get?_of_mem_zip {parameters parameters' : ValidatedParameters}
    (hnames : parameters.entries.map Prod.fst = parameters'.entries.map Prod.fst)
    {e e' : Text × ValidatedParameter} (h : (e, e') ∈ parameters.entries.zip parameters'.entries) :
    e.1 = e'.1 ∧ parameters.get? e.1 = some e.2 ∧ parameters'.get? e.1 = some e'.2 := by
  have hkeys : List.Forall₂ (fun a b : Text × ValidatedParameter => a.1 = b.1)
      parameters.entries parameters'.entries := by
    rw [← List.forall₂_eq_eq_eq, List.forall₂_map_left_iff, List.forall₂_map_right_iff] at hnames
    exact hnames
  have hkey : e.1 = e'.1 := (List.forall₂_iff_zip.mp hkeys).2 h
  obtain ⟨he, he'⟩ := List.of_mem_zip h
  refine ⟨hkey, OrdMap.get?_eq_some.mpr he, ?_⟩
  rw [hkey]
  exact OrdMap.get?_eq_some.mpr he'

theorem length_eq_of_names {parameters parameters' : ValidatedParameters}
    (hnames : parameters.entries.map Prod.fst = parameters'.entries.map Prod.fst) :
    parameters.entries.length = parameters'.entries.length := by
  have hlen := congrArg List.length hnames
  rw [List.length_map, List.length_map] at hlen
  exact hlen

theorem apart_assignment {e e' : Text × ValidatedParameter} (hkey : e.1 = e'.1)
    (h : Text.Apart [',', ' '] (shown e.2) (shown e'.2)) :
    Text.Apart [',', ' '] (assignment e) (assignment e') := by
  unfold assignment
  rw [hkey]
  refine ⟨?_, ?_⟩
  · intro hp
    rw [List.append_assoc, List.cons_append, List.prefix_append_right_inj,
      List.cons_prefix_cons] at hp
    exact h.1 hp.2
  · intro hp
    rw [List.append_assoc, List.cons_append, List.prefix_append_right_inj,
      List.cons_prefix_cons] at hp
    exact h.2 hp.2

/-- Equal summaries of unconfused maps show the same texts. -/
theorem assignments_eq {parameters parameters' : ValidatedParameters}
    (h : Unconfused parameters parameters')
    (hsummary : parameterSummary parameters = parameterSummary parameters') :
    parameters.entries.map assignment = parameters'.entries.map assignment := by
  refine Text.joined_inj (by decide) ?_ (parameterSummary_inj hsummary)
  rw [List.forall₂_map_left_iff, List.forall₂_map_right_iff, List.forall₂_iff_zip]
  refine ⟨length_eq_of_names h.names, ?_⟩
  intro e e' hzip
  obtain ⟨hkey, hp, hp'⟩ := get?_of_mem_zip h.names hzip
  exact apart_assignment hkey (h.apart e.1 e.2 e'.2 hp hp')

/-- **Accepted maps with one summary are the same exactly when nothing is confused.** -/
theorem sameParameters_iff [UuidCrate] {definition : TaskDefinition} {input input' : Value}
    {parameters parameters' : ValidatedParameters}
    (h : validateParameters definition input = .ok parameters)
    (h' : validateParameters definition input' = .ok parameters')
    (hsummary : parameterSummary parameters = parameterSummary parameters') :
    SameParameters parameters parameters' ↔ Unconfused parameters parameters' := by
  constructor
  · intro hsame
    -- the entries of one name agree
    have hentry : ∀ name p p', parameters.get? name = some p → parameters'.get? name = some p' →
        p.value = p'.value ∧ p.sensitive = p'.sensitive := by
      intro name p p' hp hp'
      have hmem := List.mem_map_of_mem (f := fun e : Text × ValidatedParameter =>
        (e.1, e.2.value, e.2.sensitive)) (OrdMap.get?_eq_some.mp hp)
      rw [hsame] at hmem
      obtain ⟨e, he, heq⟩ := List.mem_map.mp hmem
      simp only [Prod.mk.injEq] at heq
      have hget : parameters'.get? name = some e.2 := by
        rw [← heq.1]
        exact OrdMap.get?_eq_some.mpr he
      rw [hp', Option.some.injEq] at hget
      rw [hget]
      exact ⟨heq.2.1.symm, heq.2.2.symm⟩
    refine ⟨?_, ?_, ?_⟩
    · have hfst := congrArg (List.map Prod.fst) hsame
      rw [List.map_map, List.map_map] at hfst
      exact hfst
    · intro name p p' hp hp'
      obtain ⟨hvalue, hsensitive⟩ := hentry name p p' hp hp'
      exact ⟨hsensitive, fun _ => hvalue⟩
    · intro name p p' hp hp'
      obtain ⟨hvalue, hsensitive⟩ := hentry name p p' hp hp'
      have hshown : shown p = shown p' := by
        unfold shown
        rw [hvalue, hsensitive]
      rw [hshown]
      exact apart_self _
  · intro hun
    have hassign := assignments_eq hun hsummary
    unfold SameParameters
    rw [← List.forall₂_eq_eq_eq, List.forall₂_map_left_iff, List.forall₂_map_right_iff,
      List.forall₂_iff_zip] at hassign ⊢
    refine ⟨hassign.1, ?_⟩
    intro e e' hzip
    obtain ⟨hkey, hp, hp'⟩ := get?_of_mem_zip hun.names hzip
    obtain ⟨hsensitive, hmasked⟩ := hun.masked e.1 e.2 e'.2 hp hp'
    have hvalue : e.2.value = e'.2.value := by
      cases hs : e.2.sensitive with
      | true => exact hmasked hs
      | false =>
          have heq := hassign.2 hzip
          have hs' : e'.2.sensitive = false := hsensitive ▸ hs
          unfold assignment at heq
          rw [hkey] at heq
          have hshown := (List.cons.inj (List.append_cancel_left heq)).2
          unfold shown at hshown
          rw [hs, hs'] at hshown
          obtain ⟨d, _, _, hv, hw⟩ := common_declaration h h' hp hp'
          exact shown_inj hv hw hshown
    rw [hkey, hvalue, hsensitive]

/-! ## §6. What was previewed is what runs. -/

/-- **An accepted start has the previewed parameters exactly when its parameters
are not confused with the previewed ones.** -/
theorem start_runs_previewed_iff [UuidCrate] (definition : TaskDefinition)
    (server : ServerProfile) (input input' : Value) (created preview : OperationRunRecord)
    (parameters parameters' : ValidatedParameters)
    (haccepted : validateParameters definition input = .ok parameters)
    (hpreflight : beginPreflight server definition input = .ok created)
    (hrow : OperationRepository.RunUpdated created preview)
    (hstart : acceptPreview (some preview) server.id definition input' = .ok parameters') :
    SameParameters parameters parameters' ↔ Unconfused parameters parameters' := by
  obtain ⟨haccepted', hsummary'⟩ := acceptPreview_ok hstart
  obtain ⟨stored, hstored, hsummary⟩ := beginPreflight_ok hpreflight
  rw [haccepted, Except.ok.injEq] at hstored
  rw [← hstored] at hsummary
  refine sameParameters_iff haccepted haccepted' ?_
  rw [← hsummary, ← hsummary', hrow.keeps.2.2.2]

/-- A log search with a limit. -/
def limitedSearch (keyword path : Text) (limit : JsonInt) : Value :=
  .object [("keyword".toList, .string keyword), ("limit".toList, .int limit),
    ("path".toList, .string path)]

def webServer : ServerProfile := { id := "web-1".toList, host := "10.0.0.5".toList, port := 22 }

/-- The row of a log search with this summary. -/
def searchRun (status : OperationStatus) (summary : Text) : OperationRunRecord :=
  { serverId := webServer.id, taskId := "logs.search".toList, taskVersion := 2,
    riskLevel := .caution, status := status, parametersSummary := some summary,
    result := none, errorCategory := none, errorMessage := none }

theorem searchRun_previewed (summary : Text) :
    OperationRepository.RunUpdated (searchRun .preflighting summary)
      (searchRun .previewReady summary) :=
  .transition .previewReady (.refl _) rfl

theorem start_runs_previewed_search :
    ∃ parameters parameters', @validateParameters hyphenatedUuid Catalog.logsSearch
        (limitedSearch "error".toList "/var/log/app.log".toList ⟨5, by decide⟩) = .ok parameters
      ∧ @acceptPreview hyphenatedUuid (some (searchRun .previewReady
          "caseSensitive=false, context=2, keyword=error, limit=5, path=/var/log/app.log".toList))
          webServer.id Catalog.logsSearch
          (limitedSearch "error".toList "/var/log/app.log".toList ⟨5, by decide⟩) = .ok parameters'
      ∧ Unconfused parameters parameters' := by
  let _ : UuidCrate := hyphenatedUuid
  let summary : Text :=
    "caseSensitive=false, context=2, keyword=error, limit=5, path=/var/log/app.log".toList
  let input : Value := limitedSearch "error".toList "/var/log/app.log".toList ⟨5, by decide⟩
  have haccepted := eq_ok_acceptedOrEmpty
    (show (validateParameters Catalog.logsSearch input).toBool = true by decide)
  have hstart := eq_ok_acceptedOrEmpty
    (show (acceptPreview (some (searchRun .previewReady summary)) webServer.id
      Catalog.logsSearch input).toBool = true by decide)
  have hpreflight : beginPreflight webServer Catalog.logsSearch input
      = .ok (searchRun .preflighting summary) := by decide
  refine ⟨_, _, haccepted, hstart, ?_⟩
  refine (start_runs_previewed_iff Catalog.logsSearch webServer input input _ _ _ _ haccepted
    hpreflight (searchRun_previewed summary) hstart).mp ?_
  have hsame := (acceptPreview_ok hstart).1
  rw [haccepted, Except.ok.injEq] at hsame
  rw [SameParameters, hsame]

/-- A preview of one search lets another search start: the texts of the keyword and
the path take up what stands between them. -/
theorem start_runs_other_search :
    ∃ parameters parameters',
      @validateParameters hyphenatedUuid Catalog.logsSearch
        (limitedSearch "a, limit=5, path=/x".toList "/y".toList ⟨1000, by decide⟩) = .ok parameters
      ∧ @beginPreflight hyphenatedUuid webServer Catalog.logsSearch
          (limitedSearch "a, limit=5, path=/x".toList "/y".toList ⟨1000, by decide⟩)
          = .ok (searchRun .preflighting
            "caseSensitive=false, context=2, keyword=a, limit=5, path=/x, limit=1000, path=/y".toList)
      ∧ @acceptPreview hyphenatedUuid
          (some (searchRun .previewReady
            "caseSensitive=false, context=2, keyword=a, limit=5, path=/x, limit=1000, path=/y".toList))
          webServer.id Catalog.logsSearch
          (limitedSearch "a".toList "/x, limit=1000, path=/y".toList ⟨5, by decide⟩)
          = .ok parameters'
      ∧ stringValue parameters "path".toList = some "/y".toList
      ∧ stringValue parameters' "path".toList = some "/x, limit=1000, path=/y".toList
      ∧ ¬ SameParameters parameters parameters' := by
  let _ : UuidCrate := hyphenatedUuid
  have haccepted := eq_ok_acceptedOrEmpty (show (validateParameters Catalog.logsSearch
    (limitedSearch "a, limit=5, path=/x".toList "/y".toList ⟨1000, by decide⟩)).toBool = true by
      decide)
  have hstart := eq_ok_acceptedOrEmpty (show (acceptPreview (some (searchRun .previewReady
    "caseSensitive=false, context=2, keyword=a, limit=5, path=/x, limit=1000, path=/y".toList))
    webServer.id Catalog.logsSearch
    (limitedSearch "a".toList "/x, limit=1000, path=/y".toList ⟨5, by decide⟩)).toBool = true by
      decide)
  refine ⟨_, _, haccepted, by decide, hstart, by decide, by decide, ?_⟩
  intro hsame
  -- the third entry is the keyword
  have hkeyword := congrArg (fun l => (l.drop 2).head?.bind fun e => e.2.1.asStr) hsame
  revert hkeyword
  decide

end QingzhouSSH.Services.OperationPreview
