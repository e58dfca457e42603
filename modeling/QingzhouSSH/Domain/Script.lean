/-
  QingzhouSSH.Domain.Script — personal scripts and their versions.

  The fields that no modelled function reads (the times, and what only a list shows) are
  left out.  The definition of a parameter is the one of a task, with a description.
-/
import QingzhouSSH.Core.Tasks.Model
import QingzhouSSH.Domain.WorkflowRun

namespace QingzhouSSH.Domain

open QingzhouSSH.Core.Tasks (ParameterDefinition)

inductive ScriptShell where
  | posixSh
  | bash
  | powerShell
  deriving Repr, DecidableEq

/-- `as_str`, and the `snake_case` name in JSON. -/
def ScriptShell.asStr : ScriptShell → Text
  | .posixSh => "posix_sh".toList
  | .bash => "bash".toList
  | .powerShell => "powershell".toList

structure ScriptCompatibility where
  osFamilies : List Text
  requiredCommands : List Text
  deriving Repr, DecidableEq

/-- `ScriptCompatibility::for_shell`. -/
def ScriptCompatibility.forShell : ScriptShell → ScriptCompatibility
  | .posixSh => ⟨["linux".toList, "bsd".toList], ["sh".toList]⟩
  | .bash => ⟨["linux".toList, "bsd".toList], ["bash".toList]⟩
  | .powerShell =>
      ⟨["windows".toList, "linux".toList, "macos".toList], ["powershell_or_pwsh".toList]⟩

/-- A parameter of a script. -/
structure ScriptParameter extends ParameterDefinition where
  description : Text
  deriving Repr

structure ScriptDefinition where
  id : Uuid
  title : Text
  category : Text
  tags : List Text
  isEnabled : Bool
  deriving DecidableEq

structure ScriptVersion where
  id : Uuid
  definitionId : Uuid
  versionNumber : Nat
  body : Text
  bodySha256 : Text
  parameters : Value
  timeoutSeconds : Nat
  shell : ScriptShell
  compatibility : ScriptCompatibility

structure ScriptDetails where
  definition : ScriptDefinition
  activeVersion : ScriptVersion

structure NewScriptVersion where
  body : Text
  parameters : Value
  scanSummary : Value
  timeoutSeconds : Nat
  shell : ScriptShell
  compatibility : ScriptCompatibility

structure NewPersonalScript where
  title : Text
  category : Text
  tags : List Text
  isFavorite : Bool
  isEnabled : Bool
  version : NewScriptVersion

end QingzhouSSH.Domain
