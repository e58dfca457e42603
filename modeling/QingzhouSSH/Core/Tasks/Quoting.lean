/-
  QingzhouSSH.Core.Tasks.Quoting — what the shell makes of a quoted value.

  `shell_quote` is used for the values of a task and, once more, for a whole command that is
  run with privileges: as the administrator the command line is the command itself, and
  otherwise `sudo` hands it to another shell as one argument.

  Main results:
    * `tokens_shellQuote` — a quoted value is one word, wherever a word may stand;
    * `elevated_words` — the words of a command line that was elevated with `sudo`;
    * `quoting_round_trip` — both together, for the two modes.
-/
import QingzhouSSH.Core.Tasks.Planner
import QingzhouSSH.Lib.ShellWords

namespace QingzhouSSH.Core.Tasks

open QingzhouSSH.Lib
open QingzhouSSH.Lib.Shell (LexState scan)
open QingzhouSSH.Lib.ShellWords

/-- **The shell reads a quoted value as one word, the value.** -/
theorem tokens_shellQuote {front back : Text} (value : Text) (hfront : WordStart front)
    (hback : WordEnd back) :
    tokens (front ++ shellQuote value ++ back) = tokens front ++ .word (Word.ofQuoted value)
      :: tokensFrom .nothing
        (classified (scan LexState.start (front ++ shellQuote value)).1 back) := by
  rw [shellQuote_eq_quoted]
  exact tokens_quoted value hfront hback

/-- **`sudo` is given the command as one argument of `sh -c`.** -/
theorem elevated_words (command : Text) :
    literalWords (tokens ("sudo -n -- sh -c ".toList ++ shellQuote command))
      = some ["sudo".toList, "-n".toList, "--".toList, "sh".toList, "-c".toList, command] := by
  have hfront : WordStart "sudo -n -- sh -c ".toList :=
    ⟨⟨by decide, by decide, by decide⟩, by decide⟩
  have hback : WordEnd [] := nofun
  have htokens := tokens_shellQuote command hfront hback
  rw [List.append_nil] at htokens
  rw [htokens]
  have hwords : literalWords (tokens "sudo -n -- sh -c ".toList)
      = some ["sudo".toList, "-n".toList, "--".toList, "sh".toList, "-c".toList] := by decide
  have hvalue : literalWords [.word (Word.ofQuoted command)] = some [command] := by
    unfold literalWords Word.ofQuoted
    rw [value?_literally]
    rfl
  exact literalWords_append hwords hvalue

/-- The shell passes the command to `sh -c`, as its only argument. -/
def PassesToShell (line command : Text) : Prop :=
  ∃ front, literalWords (tokens line) = some (front ++ ["sh".toList, "-c".toList, command])

/-- The line that runs a command in a mode. -/
def RunsAs (command line : Text) : PrivilegeMode → Prop
  | .root => line = command
  | .passwordlessSudo => PassesToShell line command

/-- **Quoting is undone by the shell, for values and for whole commands.** -/
theorem quoting_round_trip :
    (∀ value front back : Text, WordStart front → WordEnd back →
      tokens (front ++ shellQuote value ++ back) = tokens front ++ .word (Word.ofQuoted value)
        :: tokensFrom .nothing
          (classified (scan LexState.start (front ++ shellQuote value)).1 back))
    ∧ ∀ command mode line, elevateFixedCommand command mode = .ok line →
        RunsAs command line mode := by
  constructor
  · intro value front back hfront hback
    exact tokens_shellQuote value hfront hback
  · intro command mode line h
    unfold elevateFixedCommand at h
    split at h
    next => cases h
    next =>
      split at h
      next => cases h
      next =>
        cases mode with
        | root => exact (Except.ok.inj h).symm
        | passwordlessSudo =>
            obtain rfl := Except.ok.inj h
            exact ⟨["sudo".toList, "-n".toList, "--".toList], elevated_words command⟩

/-- As the administrator the command is run by the shell that reads it. -/
theorem root_not_passed :
    elevateFixedCommand "id".toList .root = .ok "id".toList
      ∧ ¬ PassesToShell "id".toList "id".toList := by
  refine ⟨by decide, ?_⟩
  rintro ⟨front, hwords⟩
  have hid : literalWords (tokens "id".toList) = some ["id".toList] := by decide
  have hlength := congrArg List.length (Option.some.inj (hid.symm.trans hwords))
  simp only [List.length_append, List.length_cons, List.length_nil] at hlength
  omega

end QingzhouSSH.Core.Tasks
