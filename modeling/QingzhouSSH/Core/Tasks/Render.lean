/-
  QingzhouSSH.Core.Tasks.Render — rendering of command templates.

  `renderTaskStepCommand` replaces the placeholders of one parameter after the
  other in the text, so it also scans the values that were inserted before.
  `simultaneous` is what rendering is for: every placeholder of the template is
  replaced once and no value is looked at.

  Main results:
    * `render_of_undisturbed` — on undisturbed templates both loops are fillings;
    * `render_simultaneous_iff` — rendering is simultaneous substitution exactly
      when neither the template's own text nor a substituted value has a brace pair.
-/
import QingzhouSSH.Core.Tasks.Catalog
import QingzhouSSH.Core.Tasks.Parameters
import QingzhouSSH.Lib.Template

namespace QingzhouSSH.Core.Tasks

open QingzhouSSH.Lib
open QingzhouSSH.Lib.Template (Piece placeholder pieces text fill Calm NoPair BraceFree Embeddable)

/-! ## §1. The renderer. -/

/-- One round of the loop over the parameters. -/
def substituteParameter (command : Text) (e : Text × ValidatedParameter) : Text :=
  Text.replace (placeholder ('?' :: e.1)) e.2.shellValue
    (Text.replace (placeholder e.1) e.2.shellValue command)

/-- A name that an absent optional parameter may have. -/
def isOptionalName (name : Text) : Bool :=
  !name.isEmpty && name.all fun c => isAsciiAlphanumeric c || c == '_'

def openOptional : Text := ['{', '{', '?']

def closeTag : Text := ['}', '}']

def emptyWord : Text := ['\'', '\'']

/-- `replace_missing_optional_parameters`; a round removes at least four characters. -/
def replaceMissingOptionalParameters : Nat → Text → AppResult Text
  | 0, command => .ok command
  | fuel + 1, command =>
      match Text.splitFirst openOptional command with
      | none => .ok command
      | some (before, remainder) =>
          match Text.splitFirst closeTag remainder with
          | none => .error (.validation "任务实现包含未闭合的可选参数".toList)
          | some (name, after) =>
              if isOptionalName name then
                replaceMissingOptionalParameters fuel (before ++ (emptyWord ++ after))
              else .error (.validation "任务实现包含无效可选参数名".toList)

/-- `render_task_step_command`. -/
def renderTaskStepCommand (step : TaskStep) (implementationId : Text)
    (parameters : ValidatedParameters) : AppResult Text := do
  let command := parameters.entries.foldl substituteParameter step.commandTemplate
  let command ← replaceMissingOptionalParameters command.length command
  if Text.contains command ['{', '{'] || Text.contains command ['}', '}'] then
    .error (.validation ("任务实现 ".toList ++ implementationId ++ " 包含未解析参数".toList))
  else .ok command

/-- `render_command`: only the first execution step is rendered. -/
def renderCommand (implementation : TaskImplementation) (parameters : ValidatedParameters) :
    AppResult Text :=
  match implementation.executionSteps with
  | [] => .error (.validation ("任务实现 ".toList ++ implementation.id ++ " 没有可执行步骤".toList))
  | step :: _ => renderTaskStepCommand step implementation.id parameters

/-- The loop over absent parameters ends by itself, not by running out of rounds. -/
theorem replaceMissingOptionalParameters_done {fuel : Nat} {command r : Text}
    (hfuel : command.length ≤ fuel)
    (h : replaceMissingOptionalParameters fuel command = .ok r) : ¬ openOptional <:+: r := by
  induction fuel generalizing command with
  | zero =>
      rw [← Except.ok.inj h, List.length_eq_zero_iff.mp (Nat.le_zero.mp hfuel)]
      decide
  | succ fuel ih =>
      simp only [replaceMissingOptionalParameters] at h
      split at h
      next hs =>
        rw [← Except.ok.inj h]
        exact Text.splitFirst_none.mp hs
      next before remainder hs =>
        split at h
        next => exact absurd h (by simp)
        next name after hc =>
          split at h
          next =>
            refine ih ?_ h
            have h1 := congrArg List.length (Text.splitFirst_some hs)
            have h2 := congrArg List.length (Text.splitFirst_some hc)
            simp only [List.length_append, openOptional, closeTag, emptyWord, List.length_cons,
              List.length_nil] at h1 h2 ⊢
            omega
          next => exact absurd h (by simp)

/-! ## §2. Simultaneous substitution. -/

/-- The value of a placeholder: the shell text of the parameter it names, with or
without the question mark of an optional one. -/
def givenValue (parameters : ValidatedParameters) (name : Text) : Option Text :=
  match name with
  | '?' :: optional => (parameters.get? optional).map ValidatedParameter.shellValue
  | _ => (parameters.get? name).map ValidatedParameter.shellValue

/-- An absent optional parameter is the empty word. -/
def absentValue (name : Text) : Option Text :=
  match name with
  | '?' :: optional => if isOptionalName optional then some emptyWord else none
  | _ => none

def resolve (parameters : ValidatedParameters) (name : Text) : Option Text :=
  (givenValue parameters name).or (absentValue name)

/-- Every placeholder of the template is replaced once; the values are not scanned. -/
def simultaneous (template : Text) (parameters : ValidatedParameters) : Text :=
  text (fill (resolve parameters) (pieces template))

/-- Every placeholder of the template has a value, and no brace pair stands in
these values or in the template outside its placeholders. -/
def Undisturbed (template : Text) (parameters : ValidatedParameters) : Prop :=
  Calm (pieces template) ∧
    ∀ name, Piece.mark name ∈ pieces template →
      ∃ v, resolve parameters name = some v ∧ NoPair v

/-- The value of one piece is there and has no brace pair. -/
def pieceUndisturbed (parameters : ValidatedParameters) : Piece → Bool
  | .lit _ => true
  | .mark name =>
      match resolve parameters name with
      | some v => decide (NoPair v)
      | none => false

instance (template : Text) (parameters : ValidatedParameters) :
    Decidable (Undisturbed template parameters) :=
  decidable_of_iff
    (Calm (pieces template) ∧ (pieces template).all (pieceUndisturbed parameters) = true) <| by
      refine and_congr_right fun _ => ?_
      rw [List.all_eq_true]
      constructor
      · intro h name hn
        have hp := h _ hn
        unfold pieceUndisturbed at hp
        cases hr : resolve parameters name with
        | none => simp [hr] at hp
        | some v => exact ⟨v, rfl, by simpa [hr] using hp⟩
      · intro h p hp
        cases p with
        | lit c => rfl
        | mark name =>
            obtain ⟨v, hr, hv⟩ := h name hp
            simpa [pieceUndisturbed, hr] using hv

/-- A parameter name that reads as itself inside a placeholder. -/
def ProperName (name : Text) : Prop := BraceFree name ∧ name.head? ≠ some '?'

instance (name : Text) : Decidable (ProperName name) := by
  unfold ProperName
  infer_instance

/-! ## §3. Shell texts inside a template. -/

theorem not_brace_of_quote : Template.isBrace '\'' = false := by decide

theorem quoted_embeddable (s : Text) : Embeddable (Shell.quoted s) := by
  refine ⟨⟨List.cons_ne_nil _ _, ?_⟩, ?_⟩
  · intro c hc
    rw [Shell.quoted, List.head?_cons, Option.mem_def, Option.some.injEq] at hc
    rw [← hc]
    exact not_brace_of_quote
  · intro c hc
    rw [Shell.quoted, ← List.cons_append, List.getLast?_append, List.getLast?_singleton,
      Option.some_or, Option.mem_def, Option.some.injEq] at hc
    rw [← hc]
    exact not_brace_of_quote

theorem embeddable_append_cons {p q : Text} (c : Char) (hp : Embeddable p) (hq : Embeddable q) :
    Embeddable (p ++ (c :: q)) := by
  refine ⟨⟨by simp, ?_⟩, ?_⟩
  · intro d hd
    rw [List.head?_append_of_ne_nil _ hp.nonempty] at hd
    exact hp.first d hd
  · intro d hd
    refine hq.last d ?_
    obtain ⟨e, q', rfl⟩ := List.exists_cons_of_ne_nil hq.nonempty
    rw [List.getLast?_append_cons, List.getLast?_cons_cons] at hd
    exact hd

theorem intercalate_quoted_embeddable {words : List Text} (h : words ≠ []) :
    Embeddable (List.intercalate [' '] (words.map Shell.quoted)) := by
  induction words with
  | nil => exact absurd rfl h
  | cons w words ih =>
      cases words with
      | nil =>
          rw [List.map_cons, List.map_nil, List.intercalate_singleton]
          exact quoted_embeddable w
      | cons v words =>
          have hrest := ih (by simp)
          rw [List.map_cons] at hrest ⊢
          rw [List.map_cons, List.intercalate_cons_cons, List.append_assoc]
          exact embeddable_append_cons ' ' (quoted_embeddable w) hrest

theorem ShellText.embeddable {s : Text} {words : List Text} (h : ShellText s words) :
    Embeddable s := by
  cases h with
  | quoted hne => exact intercalate_quoted_embeddable hne
  | bare hw =>
      have hb : ∀ c ∈ s, Template.isBrace c = false := by
        intro c hc
        simp [Template.isBrace, hw.braceless c hc]
      exact ⟨⟨hw.nonempty, fun c hc => hb c (List.mem_of_mem_head? hc)⟩,
        fun c hc => hb c (List.mem_of_mem_getLast? hc)⟩

theorem resolve_embeddable [UuidCrate] {definition : TaskDefinition}
    {parameters : ValidatedParameters}
    (hdecl : ∀ e ∈ parameters.entries, Declared definition.parameters e) {name v : Text}
    (h : resolve parameters name = some v) : Embeddable v := by
  have hgiven : ∀ n u, (parameters.get? n).map ValidatedParameter.shellValue = some u →
      Embeddable u := by
    intro n u hu
    rw [Option.map_eq_some_iff] at hu
    obtain ⟨p, hp, rfl⟩ := hu
    obtain ⟨d, _, _, hval, _⟩ := hdecl _ (OrdMap.get?_eq_some.mp hp)
    exact (validateValue_shellText hval).embeddable
  unfold resolve at h
  rcases Option.or_eq_some_iff.mp h with h | ⟨_, h⟩
  · unfold givenValue at h
    split at h
    next => exact hgiven _ v h
    next => exact hgiven _ v h
  · unfold absentValue at h
    split at h
    next =>
      split at h
      next =>
        rw [← Option.some.inj h]
        exact ⟨⟨by decide, by decide⟩, by decide⟩
      next => exact absurd h (by simp)
    next => exact absurd h (by simp)

/-! ## §4. The loop over the parameters is a filling. -/

/-- The replacements that the loop makes, in order. -/
def replacements (parameters : ValidatedParameters) : List (Text × Text) :=
  parameters.entries.flatMap fun e =>
    [(e.1, e.2.shellValue), ('?' :: e.1, e.2.shellValue)]

theorem foldl_substituteParameter (parameters : ValidatedParameters) (command : Text) :
    parameters.entries.foldl substituteParameter command
      = Template.replaceAll (replacements parameters) command := by
  rw [replacements, Template.replaceAll, List.foldl_flatMap]
  rfl

theorem lookup_replacements_optional {es : List (Text × ValidatedParameter)}
    (hnames : ∀ e ∈ es, ProperName e.1) (optional : Text) :
    (es.flatMap fun e => [(e.1, e.2.shellValue), ('?' :: e.1, e.2.shellValue)]).lookup
        ('?' :: optional)
      = (OrdMap.lookup optional es).map ValidatedParameter.shellValue := by
  induction es with
  | nil => rfl
  | cons e es ih =>
      have hne : ¬ '?' :: optional = e.1 := by
        intro heq
        exact (hnames e List.mem_cons_self).2 (by rw [← heq]; rfl)
      rw [List.flatMap_cons, OrdMap.lookup, List.cons_append, List.cons_append, List.nil_append,
        List.lookup_cons, List.lookup_cons, beq_false_of_ne hne,
        ih fun d hd => hnames d (List.mem_cons_of_mem e hd)]
      by_cases ho : optional = e.1
      · simp [ho]
      · simp [ho, beq_false_of_ne ho]

theorem lookup_replacements_plain {es : List (Text × ValidatedParameter)} {name : Text}
    (hname : ∀ optional, name ≠ '?' :: optional) :
    (es.flatMap fun e => [(e.1, e.2.shellValue), ('?' :: e.1, e.2.shellValue)]).lookup name
      = (OrdMap.lookup name es).map ValidatedParameter.shellValue := by
  induction es with
  | nil => rfl
  | cons e es ih =>
      rw [List.flatMap_cons, OrdMap.lookup, List.cons_append, List.cons_append, List.nil_append,
        List.lookup_cons, List.lookup_cons, beq_false_of_ne (hname e.1), ih]
      by_cases ho : name = e.1
      · simp [ho]
      · simp [ho, beq_false_of_ne ho]

/-- The replacements give every placeholder its parameter's shell text. -/
theorem lookup_replacements {parameters : ValidatedParameters}
    (hnames : ∀ e ∈ parameters.entries, ProperName e.1) (name : Text) :
    (replacements parameters).lookup name = givenValue parameters name := by
  unfold givenValue
  split
  next optional => exact lookup_replacements_optional hnames optional
  next hopt => exact lookup_replacements_plain hopt

theorem givenValue_of_mem_replacements {parameters : ValidatedParameters}
    (hnames : ∀ e ∈ parameters.entries, ProperName e.1) {name v : Text}
    (h : (name, v) ∈ replacements parameters) : givenValue parameters name = some v := by
  unfold replacements at h
  rw [List.mem_flatMap] at h
  obtain ⟨e, he, hmem⟩ := h
  have hget : parameters.get? e.1 = some e.2 := OrdMap.get?_eq_some.mpr he
  simp only [List.mem_cons, Prod.mk.injEq, List.not_mem_nil, or_false] at hmem
  unfold givenValue
  rcases hmem with ⟨rfl, rfl⟩ | ⟨rfl, rfl⟩
  · split
    next heq => exact absurd (by rw [heq]; rfl) (hnames e he).2
    next =>
      rw [hget]
      rfl
  · show (parameters.get? e.1).map _ = _
    rw [hget]
    rfl

/-! ## §5. The loop over absent parameters is a filling. -/

/-- No `{{?` starts in pair-free text before a `{{?`. -/
theorem splitFirst_openOptional {pre : Text} (hpre : NoPair pre) (after : Text) :
    Text.splitFirst openOptional (pre ++ (openOptional ++ after)) = some (pre, after) := by
  refine Text.splitFirst_append (by decide) ?_
  intro a b hab hb hp
  have hb' : NoPair b := (hab ▸ hpre).right_of_append
  cases b with
  | nil => exact hb rfl
  | cons c b =>
      obtain ⟨hc, hp⟩ := List.cons_prefix_cons.mp hp
      cases b with
      | nil => exact absurd (List.cons_prefix_cons.mp (List.cons_prefix_cons.mp hp).2).1 (by decide)
      | cons d b =>
          have hd := (List.cons_prefix_cons.mp hp).1
          exact (List.isChain_cons_cons.mp hb').1.1 ⟨hc.symm, hd.symm⟩

theorem splitFirst_closeTag {name : Text} (hname : BraceFree name) (after : Text) :
    Text.splitFirst closeTag (name ++ (closeTag ++ after)) = some (name, after) := by
  refine Text.splitFirst_append (by decide) ?_
  intro a b hab hb hp
  cases b with
  | nil => exact hb rfl
  | cons c b =>
      have hc := (List.cons_prefix_cons.mp hp).1
      have hmem : c ∈ name := by
        rw [hab]
        exact List.mem_append_right a List.mem_cons_self
      rw [← hc] at hmem
      exact absurd (hname _ hmem) (by decide)

/-- The loop passes over the literal text before the first placeholder. -/
theorem replaceMissing_noPair {fuel : Nat} {command : Text} (h : NoPair command) :
    replaceMissingOptionalParameters fuel command = .ok command := by
  cases fuel with
  | zero => rfl
  | succ fuel =>
      have hnone : Text.splitFirst openOptional command = none := by
        rw [Text.splitFirst_none]
        intro hinf
        have hpair := (Template.noPair_iff.mp h).1
        rw [Text.contains_eq_false] at hpair
        exact hpair ((show ['{', '{'] <+: openOptional from ⟨['?'], rfl⟩).isInfix.trans hinf)
      rw [replaceMissingOptionalParameters, hnone]

/-- The placeholders that are left are absent optional parameters. -/
def AllAbsent (ps : List Piece) : Prop :=
  ∀ n, Piece.mark n ∈ ps → ∃ name, n = '?' :: name ∧ isOptionalName name = true ∧ BraceFree name

/-- **On undisturbed pieces the loop over absent parameters is a filling.** -/
theorem replaceMissingOptionalParameters_fill {ps : List Piece} (habsent : AllAbsent ps) :
    ∀ (pre : Text) (fuel : Nat), Calm (pre.map Piece.lit ++ ps) → ps.length ≤ fuel →
      replaceMissingOptionalParameters fuel (pre ++ text ps)
        = .ok (pre ++ text (fill absentValue ps)) := by
  induction ps with
  | nil =>
      intro pre fuel hcalm _
      rw [List.append_nil] at hcalm
      show _ = Except.ok (pre ++ [])
      rw [List.append_nil]
      show replaceMissingOptionalParameters fuel (pre ++ []) = _
      rw [List.append_nil]
      exact replaceMissing_noPair (Template.calm_map_lit.mp hcalm)
  | cons p ps ih =>
      intro pre fuel hcalm hfuel
      have habsent' : AllAbsent ps := fun n hn => habsent n (List.mem_cons_of_mem p hn)
      rw [List.length_cons] at hfuel
      cases p with
      | lit c =>
          have hcalm' : Calm ((pre ++ [c]).map Piece.lit ++ ps) := by
            rw [List.map_append, List.append_assoc]
            exact hcalm
          have h := ih habsent' (pre ++ [c]) fuel hcalm' (by omega)
          rw [List.append_assoc, List.append_assoc] at h
          exact h
      | mark n =>
          obtain ⟨name, rfl, hname, hbrace⟩ := habsent n List.mem_cons_self
          cases fuel with
          | zero => omega
          | succ fuel =>
              have hpre : NoPair pre := Template.calm_map_lit.mp hcalm.left_of_append
              have hcalm' : Calm ((pre ++ emptyWord).map Piece.lit ++ ps) := by
                rw [List.map_append, List.append_assoc]
                exact Template.calm_insert hcalm.left_of_append hcalm.right_of_append.tail
                  ⟨⟨by decide, by decide⟩, by decide⟩ (by decide)
              have h := ih habsent' (pre ++ emptyWord) fuel hcalm' (by omega)
              have htext : pre ++ text (.mark ('?' :: name) :: ps)
                  = pre ++ (openOptional ++ (name ++ (closeTag ++ text ps))) := by
                simp [Template.text_cons, Template.spell, placeholder, openOptional, closeTag]
              rw [htext, replaceMissingOptionalParameters, splitFirst_openOptional hpre]
              simp only [splitFirst_closeTag hbrace, hname, if_true]
              rw [← List.append_assoc, h, Template.fill_cons, Template.text_append]
              simp only [Template.fillPiece, absentValue, hname, if_true, Template.text_map_lit]
              rw [List.append_assoc]

/-! ## §6. Rendering is simultaneous substitution, unless a brace pair interferes. -/

/-- **An undisturbed template renders, and to its simultaneous substitution.** -/
theorem render_of_undisturbed [UuidCrate] {definition : TaskDefinition} {step : TaskStep}
    {implementationId : Text} {parameters : ValidatedParameters}
    (hdecl : ∀ e ∈ parameters.entries, Declared definition.parameters e)
    (hnames : ∀ d ∈ definition.parameters, ProperName d.name)
    (h : Undisturbed step.commandTemplate parameters) :
    renderTaskStepCommand step implementationId parameters
      = .ok (simultaneous step.commandTemplate parameters) := by
  obtain ⟨hcalm, hvalues⟩ := h
  have hnames' : ∀ e ∈ parameters.entries, ProperName e.1 := by
    intro e he
    obtain ⟨d, hd, hname, _⟩ := hdecl e he
    rw [← hname]
    exact hnames d hd
  have hbrace : ∀ n, Piece.mark n ∈ pieces step.commandTemplate → BraceFree n :=
    fun n hn => Template.braceFree_of_mem_pieces hn
  have hgivenNoPair : ∀ n v, Piece.mark n ∈ pieces step.commandTemplate →
      givenValue parameters n = some v → NoPair v := by
    intro n v hn hv
    obtain ⟨u, hu, hpair⟩ := hvalues n hn
    rw [resolve, hv, Option.some_or, Option.some.injEq] at hu
    rw [hu]
    exact hpair
  have hembed : ∀ n v, givenValue parameters n = some v → Embeddable v := by
    intro n v hv
    have hres : resolve parameters n = some v := by rw [resolve, hv, Option.some_or]
    exact resolve_embeddable hdecl hres
  -- the loop over the parameters
  have hloop : parameters.entries.foldl substituteParameter step.commandTemplate
      = text (fill (givenValue parameters) (pieces step.commandTemplate)) := by
    have hstays : Template.StaysCalm (replacements parameters) (pieces step.commandTemplate) := by
      intro f hf
      have hgiven : ∀ n v, f n = some v → givenValue parameters n = some v :=
        fun n v hv => givenValue_of_mem_replacements hnames' (hf n v hv)
      refine (Template.calm_fill_iff fun n v _ hv => hembed n v (hgiven n v hv)).mpr ⟨hcalm, ?_⟩
      exact fun n v hn hv => hgivenNoPair n v hn (hgiven n v hv)
    have hproper : ∀ e ∈ replacements parameters, BraceFree e.1 := by
      intro e he
      obtain ⟨d, hd, hmem⟩ := List.mem_flatMap.mp he
      simp only [List.mem_cons, List.not_mem_nil, or_false] at hmem
      rcases hmem with rfl | rfl
      · exact (hnames' d hd).1
      · intro c hc
        rcases List.mem_cons.mp hc with rfl | hc
        · decide
        · exact (hnames' d hd).1 c hc
    have hall := Template.replaceAll_text hstays hbrace hproper
    rw [Template.text_pieces] at hall
    rw [foldl_substituteParameter, hall, funext (lookup_replacements hnames')]
  -- the pieces it leaves
  have hcalm' : Calm (fill (givenValue parameters) (pieces step.commandTemplate)) :=
    (Template.calm_fill_iff fun n v _ hv => hembed n v hv).mpr ⟨hcalm, hgivenNoPair⟩
  have habsent : AllAbsent (fill (givenValue parameters) (pieces step.commandTemplate)) := by
    intro n hn
    obtain ⟨hmem, hnone⟩ := Template.mem_fill_mark hn
    obtain ⟨v, hv, _⟩ := hvalues n hmem
    rw [resolve, hnone, Option.none_or] at hv
    have hb := hbrace n hmem
    unfold absentValue at hv
    split at hv
    next name =>
      split at hv
      next hname => exact ⟨name, rfl, hname, fun c hc => hb c (List.mem_cons_of_mem _ hc)⟩
      next => exact absurd hv (by simp)
    next => exact absurd hv (by simp)
  have hmissing := replaceMissingOptionalParameters_fill habsent []
    (text (fill (givenValue parameters) (pieces step.commandTemplate))).length hcalm'
    (Template.length_le_text _)
  have hresolve : fill absentValue (fill (givenValue parameters) (pieces step.commandTemplate))
      = fill (resolve parameters) (pieces step.commandTemplate) := Template.fill_fill _ _ _
  rw [List.nil_append, List.nil_append, hresolve] at hmissing
  have hpair : NoPair (simultaneous step.commandTemplate parameters) :=
    (Template.noPair_text_fill_iff fun n v _ hv => resolve_embeddable hdecl hv).mpr
      ⟨hcalm, hvalues⟩
  obtain ⟨hopen, hclose⟩ := Template.noPair_iff.mp hpair
  unfold simultaneous at hopen hclose ⊢
  simp only [renderTaskStepCommand, hloop, hmissing, bind, Except.bind, hopen, hclose,
    Bool.or_self, Bool.false_eq_true, if_false]

theorem noPair_of_render {step : TaskStep} {implementationId : Text}
    {parameters : ValidatedParameters} {r : Text}
    (h : renderTaskStepCommand step implementationId parameters = .ok r) : NoPair r := by
  simp only [renderTaskStepCommand, bind, Except.bind] at h
  split at h
  next => exact absurd h (by simp)
  next command _ =>
    split at h
    next => exact absurd h (by simp)
    next hc =>
      rw [← Except.ok.inj h]
      simp only [Bool.or_eq_true, not_or, Bool.not_eq_true] at hc
      exact Template.noPair_iff.mpr hc

/-- The words that stand for a placeholder: those of the parameter it names, one
unless the parameter is a multiple choice, or the empty word. -/
def WordsFor [UuidCrate] (definition : TaskDefinition) (parameters : ValidatedParameters)
    (name : Text) (words : List Text) : Prop :=
  (∃ d ∈ definition.parameters, ∃ p, parameters.get? d.name = some p
      ∧ (name = d.name ∨ name = '?' :: d.name) ∧ words = spelledWords d.kind p.value
      ∧ (d.kind.isMultiple = false → ∃ word, words = [word]))
    ∨ (givenValue parameters name = none ∧ words = [[]])

/-- The promise of rendering: the result is the simultaneous substitution, and the
text at every placeholder that stands unquoted reads as the parameter's words. -/
structure Faithful [UuidCrate] (definition : TaskDefinition) (template : Text)
    (parameters : ValidatedParameters) (r : Text) : Prop where
  result : r = simultaneous template parameters
  words : ∀ pre name post, pieces template = pre ++ .mark name :: post →
    ∃ v words, r = text (fill (resolve parameters) pre)
          ++ (v ++ text (fill (resolve parameters) post))
      ∧ WordsFor definition parameters name words
      ∧ ((Shell.scan .start (text (fill (resolve parameters) pre))).1.Bare →
          Shell.ReadsAsWords (Shell.scan .start (text (fill (resolve parameters) pre))).1 v words)

/-- A value of a placeholder reads as the words that stand for it. -/
theorem resolve_words [UuidCrate] {definition : TaskDefinition}
    {parameters : ValidatedParameters}
    (hdecl : ∀ e ∈ parameters.entries, Declared definition.parameters e) {name v : Text}
    (h : resolve parameters name = some v) :
    ∃ words, WordsFor definition parameters name words
      ∧ ∀ s : Shell.LexState, s.Bare → Shell.ReadsAsWords s v words := by
  have hgiven : ∀ n, (name = n ∨ name = '?' :: n) →
      (parameters.get? n).map ValidatedParameter.shellValue = some v →
      ∃ words, WordsFor definition parameters name words
        ∧ ∀ s : Shell.LexState, s.Bare → Shell.ReadsAsWords s v words := by
    intro n hn hv
    rw [Option.map_eq_some_iff] at hv
    obtain ⟨p, hp, rfl⟩ := hv
    obtain ⟨d, hd, hname, hval, _⟩ := hdecl _ (OrdMap.get?_eq_some.mp hp)
    simp only at hname
    subst hname
    exact ⟨_, Or.inl ⟨d, hd, p, hp, hn, rfl, spelledWords_single hval⟩,
      fun s hs => (validateValue_shellText hval).reads hs⟩
  cases hg : givenValue parameters name with
  | some u =>
      rw [resolve, hg, Option.some_or, Option.some.injEq] at h
      subst h
      unfold givenValue at hg
      split at hg
      next optional => exact hgiven optional (Or.inr rfl) hg
      next => exact hgiven name (Or.inl rfl) hg
  | none =>
      rw [resolve, hg, Option.none_or] at h
      have hv : v = emptyWord := by
        unfold absentValue at h
        split at h
        next =>
          split at h
          next => exact (Option.some.inj h).symm
          next => exact absurd h (by simp)
        next => exact absurd h (by simp)
      refine ⟨[[]], Or.inr ⟨hg, rfl⟩, ?_⟩
      intro s hs
      rw [hv]
      exact .one (Shell.readsAs_quoted hs [])

/-- **Rendering an accepted parameter map is simultaneous substitution exactly when
no brace pair stands in the template's own text or in a value it uses.** -/
theorem render_simultaneous_iff [UuidCrate] (definition : TaskDefinition) (input : Value)
    (parameters : ValidatedParameters) (step : TaskStep) (implementationId r : Text)
    (hnames : ∀ d ∈ definition.parameters, ProperName d.name)
    (haccepted : validateParameters definition input = .ok parameters)
    (hrender : renderTaskStepCommand step implementationId parameters = .ok r) :
    Faithful definition step.commandTemplate parameters r
      ↔ Undisturbed step.commandTemplate parameters := by
  have hdecl := validateParameters_declared haccepted
  constructor
  · intro h
    have hpair := noPair_of_render hrender
    rw [h.result] at hpair
    exact (Template.noPair_text_fill_iff fun n v _ hv => resolve_embeddable hdecl hv).mp hpair
  · intro h
    have hr : r = simultaneous step.commandTemplate parameters := by
      rw [render_of_undisturbed hdecl hnames h, Except.ok.injEq] at hrender
      exact hrender.symm
    refine ⟨hr, ?_⟩
    intro pre name post hsplit
    obtain ⟨v, hv, _⟩ := h.2 name (by rw [hsplit]; simp)
    obtain ⟨words, hwords, hreads⟩ := resolve_words hdecl hv
    refine ⟨v, words, ?_, hwords, hreads _⟩
    rw [hr, simultaneous, hsplit, Template.fill_append, Template.fill_cons,
      Template.text_append, Template.text_append, Template.fillPiece, hv]
    simp only [Template.text_map_lit]

/-- The parameters of a log search. -/
def searchInput (keyword path : Text) : Value :=
  .object [("keyword".toList, .string keyword), ("path".toList, .string path)]

def searchParameters (keyword path : Text) : ValidatedParameters :=
  acceptedOrEmpty
    (@validateParameters hyphenatedUuid Catalog.logsSearch (searchInput keyword path))

theorem render_simultaneous_search :
    @Faithful hyphenatedUuid Catalog.logsSearch Catalog.searchStep.commandTemplate
      (searchParameters "it's {down}".toList "/var/log/app.log".toList)
      "grep -n -F -- 'it'\"'\"'s \x7bdown\x7d' '/var/log/app.log' | head -n 1000".toList := by
  let _ : UuidCrate := hyphenatedUuid
  have haccepted := eq_ok_acceptedOrEmpty (show (validateParameters Catalog.logsSearch
    (searchInput "it's {down}".toList "/var/log/app.log".toList)).toBool = true by decide)
  exact (render_simultaneous_iff Catalog.logsSearch _ _ Catalog.searchStep "grep".toList _
    (by decide) haccepted (by decide)).mpr (by decide)

/-- The keyword `{{path}}` is replaced by the path once more: the path's own quotes
close the keyword's, and its semicolon ends the command. -/
theorem render_rescans_value :
    ∃ parameters r, @validateParameters hyphenatedUuid Catalog.logsSearch
        (searchInput "{{path}}".toList "/; reboot".toList) = .ok parameters
      ∧ renderTaskStepCommand Catalog.searchStep "grep".toList parameters = .ok r
      ∧ r = "grep -n -F -- ''/; reboot'' '/; reboot' | head -n 1000".toList
      ∧ Shell.CharClass.op ∈ (Shell.scan .start (r.take 19)).2
      ∧ ¬ @Faithful hyphenatedUuid Catalog.logsSearch Catalog.searchStep.commandTemplate
          parameters r := by
  let _ : UuidCrate := hyphenatedUuid
  have haccepted := eq_ok_acceptedOrEmpty (show (validateParameters Catalog.logsSearch
    (searchInput "{{path}}".toList "/; reboot".toList)).toBool = true by decide)
  refine ⟨_, _, haccepted, by decide, rfl, by decide, ?_⟩
  intro h
  have hresult := h.result
  revert hresult
  decide

end QingzhouSSH.Core.Tasks
