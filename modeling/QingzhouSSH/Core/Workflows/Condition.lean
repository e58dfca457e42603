/-
  QingzhouSSH.Core.Workflows.Condition — evaluating a condition.

  A condition compares what its source node left: an exit code, a field of the
  structured result, or the summary of the output.

  Main result: `evaluateCondition_error` — how an evaluation can fail.
-/
import QingzhouSSH.Core.Workflows.Validation
import QingzhouSSH.Lib.Text

namespace QingzhouSSH.Core.Workflows

open QingzhouSSH.Domain
open QingzhouSSH.Lib

/-- What a node leaves for the conditions that name it. -/
structure ConditionContext where
  exitCode : Option Int
  result : Option Value
  outputSummary : Option Text

/-- `compare_number`. -/
def compareNumber (actual : Int) (operator : NumericOperator) (expected : Int) : Bool :=
  match operator with
  | .equal => actual == expected
  | .notEqual => actual != expected
  | .lessThan => actual < expected
  | .lessThanOrEqual => actual ≤ expected
  | .greaterThan => actual > expected
  | .greaterThanOrEqual => actual ≥ expected

/-- The field that a path leads to. -/
def resultField : List Text → Value → AppResult Value
  | [], actual => .ok actual
  | segment :: rest, actual =>
      match actual.asObject.bind fun fields => Value.getField fields segment with
      | some value => resultField rest value
      | none => .error (.validation "条件结果字段不存在".toList)

/-- Equality of JSON values; the two floating-point zeros are equal. -/
def sameValue : Value → Value → Bool
  | .float a, .float b =>
      let zeros := ["0.0".toList, "-0.0".toList]
      a.printed == b.printed || (zeros.contains a.printed && zeros.contains b.printed)
  | actual, expected => actual.toJson == expected.toJson

/-- `evaluate_condition`. -/
def evaluateCondition (condition : WorkflowCondition) (context : ConditionContext) :
    AppResult Bool := do
  validateCondition condition
  match condition with
  | .exitCode operator value =>
      match context.exitCode with
      | some actual => .ok (compareNumber actual operator value)
      | none => .error (.validation "条件来源没有退出码".toList)
  | .resultField path operator value =>
      match context.result with
      | none => .error (.validation "条件来源没有结构化结果".toList)
      | some result => do
          let actual ← resultField (path.splitOn '.') result
          match operator with
          | .equal => .ok (sameValue actual value)
          | .notEqual => .ok (!sameValue actual value)
  | .outputContains text negated =>
      let found := Text.contains (context.outputSummary.getD []) text
      .ok (if negated then !found else found)

/-! ## How an evaluation fails. -/

/-- The messages of a failing evaluation. -/
def evaluationErrors : List Text :=
  ["条件结果字段路径无效".toList, "条件比较值只能是字符串、数字或布尔值".toList,
    "输出条件文本必须为 1 到 512 字节".toList, "条件来源没有退出码".toList,
    "条件来源没有结构化结果".toList, "条件结果字段不存在".toList]

theorem validateResultPath_error {path : Text} {e : AppError}
    (h : validateResultPath path = .error e) :
    ∃ message ∈ evaluationErrors, e = .validation message := by
  unfold validateResultPath at h
  split at h
  · exact ⟨_, by simp [evaluationErrors], (Except.error.inj h).symm⟩
  · cases h

theorem validateCondition_error {condition : WorkflowCondition} {e : AppError}
    (h : validateCondition condition = .error e) :
    ∃ message ∈ evaluationErrors, e = .validation message := by
  cases condition with
  | exitCode operator value => cases h
  | resultField path operator value =>
      unfold validateCondition at h
      dsimp only at h
      cases hpath : validateResultPath path with
      | error e' =>
          rw [hpath] at h
          obtain ⟨message, hmem, heq⟩ := validateResultPath_error hpath
          exact ⟨message, hmem, (Except.error.inj h).symm.trans heq⟩
      | ok _ =>
          rw [hpath] at h
          cases value <;> cases h <;> exact ⟨_, by simp [evaluationErrors], rfl⟩
  | outputContains text negated =>
      unfold validateCondition at h
      dsimp only at h
      split at h
      · exact ⟨_, by simp [evaluationErrors], (Except.error.inj h).symm⟩
      · cases h

theorem resultField_error {path : List Text} {actual : Value} {e : AppError}
    (h : resultField path actual = .error e) :
    ∃ message ∈ evaluationErrors, e = .validation message := by
  induction path generalizing actual with
  | nil => cases h
  | cons segment rest ih =>
      unfold resultField at h
      split at h
      · exact ih h
      · exact ⟨_, by simp [evaluationErrors], (Except.error.inj h).symm⟩

/-- **An evaluation fails with one of these messages.** -/
theorem evaluateCondition_error {condition : WorkflowCondition} {context : ConditionContext}
    {e : AppError} (h : evaluateCondition condition context = .error e) :
    ∃ message ∈ evaluationErrors, e = .validation message := by
  unfold evaluateCondition at h
  cases hvalid : validateCondition condition with
  | error e' =>
      rw [hvalid] at h
      obtain ⟨message, hmem, heq⟩ := validateCondition_error hvalid
      exact ⟨message, hmem, (Except.error.inj h).symm.trans heq⟩
  | ok _ =>
      rw [hvalid] at h
      cases condition with
      | exitCode operator value =>
          dsimp only [bind, Except.bind] at h
          split at h
          · cases h
          · exact ⟨_, by simp [evaluationErrors], (Except.error.inj h).symm⟩
      | resultField path operator value =>
          dsimp only [bind, Except.bind] at h
          split at h
          · exact ⟨_, by simp [evaluationErrors], (Except.error.inj h).symm⟩
          · split at h
            next e' hfield =>
              obtain ⟨message, hmem, heq⟩ := resultField_error hfield
              exact ⟨message, hmem, (Except.error.inj h).symm.trans heq⟩
            next => cases operator <;> cases h
      | outputContains text negated => cases h

end QingzhouSSH.Core.Workflows
