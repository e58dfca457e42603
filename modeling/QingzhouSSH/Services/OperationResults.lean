/-
  QingzhouSSH.Services.OperationResults — how an operation that has succeeded ends.

  The output of the steps is parsed and stored before the run is marked as succeeded.
  `OperationRepository::set_result` allows 256 KiB of JSON, the column 64 KiB, and the
  details alone may take 64 KiB before they are escaped.

  Main results:
    * `setResult_isOk_iff` — which texts a run under way accepts;
    * `safe_run_succeeds_iff` — a run that takes no more than the column allows succeeds.
-/
import QingzhouSSH.Core.Tasks.OperationResult
import QingzhouSSH.Repositories.OperationRepository

namespace QingzhouSSH.Services.OperationService

open String (utf8Len)
open QingzhouSSH.Core.Redaction (Redactor)
open QingzhouSSH.Core.Tasks
open QingzhouSSH.Domain
open QingzhouSSH.Lib
open QingzhouSSH.Repositories.OperationRepository

/-! ## §1. Storing a result. -/

/-- `set_result`, of a structured result. -/
def setStructuredResult (result : OperationResult) (run : OperationRunRecord) :
    AppResult OperationRunRecord :=
  setResult (Value.toJson result.toValue) run

/-- The redactor that results are parsed with. -/
def defaultRedactor : Redactor where
  runtimeSecrets := []
  nonempty := Core.Redaction.nonempty_of_none

/-- The end of `start_with_capabilities_and_cancel`, for a safe run whose steps have all
succeeded: the answer, and the run that is left. -/
def finishSafeRun (parser : ResultParserKind) (output : Text) (run : OperationRunRecord) :
    AppResult Unit × OperationRunRecord :=
  match setStructuredResult (parseResult parser output defaultRedactor) run with
  | .error e => (.error e, (transition .failed run).toOption.getD run)
  | .ok stored =>
      match transition .succeeded stored with
      | .error e => (.error e, stored)
      | .ok succeeded => (.ok (), succeeded)

/-- The end of `run_dangerous`: an error is returned at once. -/
def finishDangerousRun (parser : ResultParserKind) (output : Text) (run : OperationRunRecord) :
    AppResult Unit × OperationRunRecord :=
  match setStructuredResult (parseResult parser output defaultRedactor) run with
  | .error e => (.error e, run)
  | .ok stored =>
      match transition .succeeded stored with
      | .error e => (.error e, stored)
      | .ok succeeded => (.ok (), succeeded)

/-- A run under way accepts exactly what the column takes. -/
theorem setResult_isOk_iff {encoded : Text} {run : OperationRunRecord}
    (hrun : run.status = .running ∨ run.status = .verifying) :
    (∃ run', setResult encoded run = .ok run') ↔ utf8Len encoded ≤ 65536 := by
  constructor
  · rintro ⟨run', h⟩
    exact (setResult_ok h).2.1
  · intro h
    unfold setResult
    rw [if_neg (by omega), if_pos hrun, if_neg (by omega)]
    exact ⟨_, rfl⟩

/-- Storing a result, in terms of the output it was parsed from. -/
theorem setStructuredResult_isOk_iff (parser : ResultParserKind) (output : Text)
    (redactor : Redactor) {run : OperationRunRecord}
    (hrun : run.status = .running ∨ run.status = .verifying) :
    (∃ run', setStructuredResult (parseResult parser output redactor) run = .ok run')
      ↔ markersWidth parser (technicalDetails output redactor)
          + Value.escapedWidth (technicalDetails output redactor) ≤ 65536 := by
  unfold setStructuredResult
  rw [setResult_isOk_iff hrun, utf8Len_parsed]

/-! ## §2. Which outputs can be stored. -/

/-- **The result of an operation can be stored exactly when its details, escaped for JSON,
fit into the column together with what the markers in them add.** -/
theorem result_fits_iff (parser : ResultParserKind) (output : Text) (redactor : Redactor)
    (run : OperationRunRecord) (hrun : run.status = .running ∨ run.status = .verifying) :
    (∃ run', setStructuredResult (parseResult parser output redactor) run = .ok run')
      ↔ markersWidth parser (technicalDetails output redactor)
          + Value.escapedWidth (technicalDetails output redactor) ≤ 65536 :=
  setStructuredResult_isOk_iff parser output redactor hrun

/-- A run whose steps have succeeded. -/
def runningRun : OperationRunRecord where
  serverId := "server".toList
  taskId := "system.disk_usage".toList
  taskVersion := 1
  riskLevel := .safe
  status := .running
  parametersSummary := none
  result := none
  errorCategory := none
  errorMessage := none

/-- What a healthy host prints. -/
def idleHost : Text := "up 3 days\n".toList

theorem idle_result_fits :
    ∃ run', setStructuredResult (parseResult .text idleHost defaultRedactor) runningRun
      = .ok run' := by
  refine (result_fits_iff .text idleHost defaultRedactor runningRun (Or.inl rfl)).mpr ?_
  have hdetails : technicalDetails idleHost defaultRedactor = idleHost := by decide
  have hnone : readMarkers .text idleHost = ⟨OrdMap.empty, [], [], []⟩ := by rfl
  have hempty : sortedDistinct [] = [] := sortedDistinct_eq_nil.mpr rfl
  rw [hdetails]
  unfold markersWidth
  dsimp only
  rw [hnone]
  unfold reportOf
  rw [hempty]
  decide

/-- An output of plain letters. -/
def letters (n : Nat) : Text := List.replicate n 'a'

theorem utf8Len_letters (n : Nat) : utf8Len (letters n) = n :=
  (utf8Len_replicate n 'a').trans (Nat.mul_one n)

theorem technicalDetails_letters {n : Nat} (hn : n ≤ maxTechnicalDetailsBytes) :
    technicalDetails (letters n) defaultRedactor = letters n := by
  have hletter : ∀ c ∈ letters n, c = 'a' := fun c hc => (List.mem_replicate.mp hc).2
  have hheader : '-' ∉ letters n := fun h => absurd (hletter '-' h) (by decide)
  have hplain : defaultRedactor.redact (letters n) = letters n := by
    refine QingzhouSSH.Core.Redaction.redact_plain rfl ⟨'-', by decide, hheader⟩ fun c hc => ?_
    rw [hletter c hc]
    exact ⟨by decide, by decide⟩
  unfold technicalDetails
  rw [hplain, takeUtf8_of_le ((utf8Len_letters n).trans_le hn)]

/-- An output that fills the details leaves no room for the rest of the result. -/
theorem letters_rejected {n : Nat} (hn : n ≤ maxTechnicalDetailsBytes) (hwide : 65461 < n) :
    ¬ ∃ run', setStructuredResult (parseResult .text (letters n) defaultRedactor) runningRun
      = .ok run' := by
  rw [setStructuredResult_isOk_iff .text (letters n) defaultRedactor (Or.inl rfl),
    technicalDetails_letters hn]
  have hdetails : n ≤ Value.escapedWidth (letters n) :=
    (utf8Len_letters n).symm.trans_le (Value.escapedWidth_le (letters n)).1
  have hframe : 75 ≤ markersWidth .text (letters n) := by
    unfold markersWidth reportWidth
    dsimp only
    omega
  omega

/-- **An output of 64 KiB cannot be stored, though every part of it is within bounds.** -/
theorem full_result_rejected :
    ¬ ∃ run', setStructuredResult (parseResult .text (letters 65536) defaultRedactor) runningRun
      = .ok run' :=
  letters_rejected (Nat.le_refl _) (by decide)

/-! ## §3. How the run ends. -/

/-- **A safe run whose steps have succeeded is marked as failed when its result does not
fit.** -/
theorem safe_run_succeeds_iff (parser : ResultParserKind) (output : Text)
    {run : OperationRunRecord} (hrun : run.status = .running) :
    (finishSafeRun parser output run).2.status
      = if markersWidth parser (technicalDetails output defaultRedactor)
          + Value.escapedWidth (technicalDetails output defaultRedactor) ≤ 65536 then .succeeded
        else .failed := by
  have hiff := setStructuredResult_isOk_iff parser output defaultRedactor (Or.inl hrun)
  unfold finishSafeRun
  cases hstored : setStructuredResult (parseResult parser output defaultRedactor) run with
  | error e =>
      rw [if_neg fun hfits => by
        obtain ⟨run', h⟩ := hiff.mpr hfits
        rw [hstored] at h
        cases h]
      dsimp only
      unfold transition
      rw [hrun]
      rfl
  | ok stored =>
      rw [if_pos (hiff.mp ⟨stored, hstored⟩)]
      have hstatus : stored.status = .running := by
        obtain ⟨_, _, rfl⟩ := setResult_ok hstored
        exact hrun
      dsimp only
      unfold transition
      rw [hstatus]
      rfl

end QingzhouSSH.Services.OperationService
