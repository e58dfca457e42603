/-
  QingzhouSSH.Core.Error — texts and the application error.

  A Rust `String` is a list of Unicode scalar values (`Text`); its `len()` is the
  UTF-8 length (`String.utf8Len`).  `AppError` has every variant of the
  source, with its code and its message.
-/
import Mathlib.Data.List.Basic
import Mathlib.Data.List.DropRight
import Mathlib.Data.String.Basic
import QingzhouSSH.Lib.Text

namespace QingzhouSSH

open String (utf8Len utf8Len_cons)

/-! ## §1. Texts. -/

abbrev Text := List Char

instance decidableForallOptionChar {p : Char → Prop} [DecidablePred p] :
    (c? : Option Char) → Decidable (∀ c ∈ c?, p c)
  | none => isTrue fun _ hc => absurd hc (by simp)
  | some c => decidable_of_iff (p c) (by simp)

/-- No character takes more than four. -/
theorem utf8Len_le_length (s : Text) : utf8Len s ≤ 4 * s.length := by
  induction s with
  | nil => exact Nat.le_refl 0
  | cons c s ih =>
      have hc := c.utf8Size_le_four
      rw [utf8Len_cons, List.length_cons]
      omega

theorem utf8Len_replicate (n : Nat) (c : Char) :
    utf8Len (List.replicate n c) = n * c.utf8Size := by
  induction n with
  | zero => exact (Nat.zero_mul _).symm
  | succ n ih => rw [List.replicate_succ, utf8Len_cons, ih, Nat.succ_mul]

/-- Decimal printing, as `to_string` of an unsigned integer. -/
def showNat (n : Nat) : Text := Nat.toDigits 10 n

/-- Decimal printing of a signed integer. -/
def showInt : Int → Text
  | .ofNat n => showNat n
  | .negSucc n => '-' :: showNat (n + 1)

/-- The characters of a printed integer. -/
def isNumeral (c : Char) : Bool := c.isDigit || c == '-'

theorem showNat_numeral (n : Nat) : ∀ c ∈ showNat n, isNumeral c = true := by
  intro c hc
  have hd : c.isDigit = true := Nat.isDigit_of_mem_toDigits (by omega) (by omega) hc
  rw [isNumeral, hd]
  rfl

theorem showInt_numeral (n : Int) : ∀ c ∈ showInt n, isNumeral c = true := by
  cases n with
  | ofNat n => exact showNat_numeral n
  | negSucc n =>
      intro c hc
      rcases List.mem_cons.mp hc with rfl | hc
      · rfl
      · exact showNat_numeral (n + 1) c hc

theorem showInt_ne_nil (n : Int) : showInt n ≠ [] := by
  cases n with
  | ofNat n => exact Nat.toDigits_ne_nil
  | negSucc n => exact List.cons_ne_nil _ _

theorem showNat_inj {m n : Nat} (h : showNat m = showNat n) : m = n := by
  have hread := congrArg (fun t => Nat.ofDigitChars 10 t 0) h
  simp only [showNat, Nat.ofDigitChars_ten_toDigits] at hread
  exact hread

theorem showInt_inj {m n : Int} (h : showInt m = showInt n) : m = n := by
  -- no digit is a minus sign
  have hminus : ∀ k : Nat, ∀ t : Text, showNat k ≠ '-' :: t := by
    intro k t heq
    have hd : '-'.isDigit = true := by
      refine Nat.isDigit_of_mem_toDigits (b := 10) (n := k) (by omega) (by omega) ?_
      show '-' ∈ showNat k
      rw [heq]
      exact List.mem_cons_self
    exact absurd hd (by decide)
  cases m with
  | ofNat m =>
      cases n with
      | ofNat n => rw [showNat_inj h]
      | negSucc n => exact absurd h (hminus m _)
  | negSucc m =>
      cases n with
      | ofNat n => exact absurd h.symm (hminus n _)
      | negSucc n =>
          have hn := showNat_inj (List.cons.inj h).2
          rw [Nat.succ.inj hn]

/-- `char::is_whitespace`. -/
def isWhitespace (c : Char) : Bool :=
  let n := c.toNat
  (9 ≤ n && n ≤ 13) || n == 0x20 || n == 0x85 || n == 0xa0 || n == 0x1680
    || (0x2000 ≤ n && n ≤ 0x200a) || n == 0x2028 || n == 0x2029 || n == 0x202f
    || n == 0x205f || n == 0x3000

/-- `str::trim`. -/
def trim (s : Text) : Text := (s.dropWhile isWhitespace).rdropWhile isWhitespace

/-- `value.trim().is_empty()`. -/
def isBlankText (s : Text) : Bool := s.all isWhitespace

/-- The longest part of a text, from its start, that fits into `n` bytes. -/
def takeUtf8 : Nat → Text → Text
  | _, [] => []
  | n, c :: s => if c.utf8Size ≤ n then c :: takeUtf8 (n - c.utf8Size) s else []

/-- `cap_utf8`. -/
def capUtf8 (value : Option Text) (maxBytes : Nat) : Option Text := value.map (takeUtf8 maxBytes)

theorem utf8Len_takeUtf8_le (n : Nat) (s : Text) : utf8Len (takeUtf8 n s) ≤ n := by
  induction s generalizing n with
  | nil => exact Nat.zero_le n
  | cons c s ih =>
      show utf8Len (if c.utf8Size ≤ n then c :: takeUtf8 (n - c.utf8Size) s else []) ≤ n
      by_cases hfits : c.utf8Size ≤ n
      · have hrest := ih (n - c.utf8Size)
        rw [if_pos hfits, utf8Len_cons]
        omega
      · rw [if_neg hfits]
        exact Nat.zero_le n

/-- A text that is short enough is kept as it is. -/
theorem takeUtf8_of_le {n : Nat} {s : Text} (h : utf8Len s ≤ n) : takeUtf8 n s = s := by
  induction s generalizing n with
  | nil => rfl
  | cons c s ih =>
      rw [utf8Len_cons] at h
      show (if c.utf8Size ≤ n then c :: takeUtf8 (n - c.utf8Size) s else []) = c :: s
      rw [if_pos (by omega), ih (by omega)]

/-- A beginning that fits is kept, and what fits of the rest. -/
theorem takeUtf8_append {n : Nat} {start : Text} (h : utf8Len start ≤ n) (rest : Text) :
    takeUtf8 n (start ++ rest) = start ++ takeUtf8 (n - utf8Len start) rest := by
  induction start generalizing n with
  | nil => rfl
  | cons c start ih =>
      rw [utf8Len_cons] at h
      show (if c.utf8Size ≤ n then c :: takeUtf8 (n - c.utf8Size) (start ++ rest) else []) = _
      rw [if_pos (by omega), ih (by omega), utf8Len_cons, Nat.sub_sub,
        Nat.add_comm c.utf8Size, List.cons_append]

theorem capUtf8_of_le {value : Option Text} {n : Nat} (h : ∀ s ∈ value, utf8Len s ≤ n) :
    capUtf8 value n = value := by
  cases value with
  | none => rfl
  | some s => exact congrArg some (takeUtf8_of_le (h s rfl))

/-! ## §2. The error type. -/

inductive AppError where
  | validation (message : Text)
  | compatibility (message : Text)
  | serialization (message : Text)
  | ipc (message : Text)
  | outputLimitExceeded (limit : Nat)
  | transfer (message : Text)
  | integrity (message : Text)
  | permission (message : Text)
  | passwordlessSudoRequired
  | restorePointAlreadyConsumed
  | diskSpace (message : Text)
  | cancelled
  | remoteStateUncertain (message : Text)
  | notReady
  | security (message : Text)
  | unsupportedScriptPackage (message : Text)
  | forbiddenScriptField (message : Text)
  | unsafeScriptPackage (message : Text)
  | scriptConfirmationRequired (message : Text)
  | scriptPreviewExpired (message : Text)
  | update (message : Text)
  | io (message : Text)
  | database (message : Text)
  | migration (message : Text)
  | ssh (message : Text)
  | sshCommand (exitStatus : Int) (stderr : Text)
  | tauri (message : Text)
  deriving Repr, DecidableEq

abbrev AppResult := Except AppError

/-- A computation that succeeds has succeeded in its first part. -/
theorem bind_eq_ok {ε α β : Type} {x : Except ε α} {f : α → Except ε β} {b : β} :
    (x >>= f) = .ok b ↔ ∃ a, x = .ok a ∧ f a = .ok b := by
  cases x with
  | error e => simp [bind, Except.bind]
  | ok a => simp [bind, Except.bind]

theorem exists_ok_of_toBool {α : Type} {x : AppResult α} (h : x.toBool = true) :
    ∃ a, x = .ok a := by
  cases x with
  | error e => exact absurd h (by simp [Except.toBool])
  | ok a => exact ⟨a, rfl⟩

namespace AppError

/-- `AppError::code`. -/
def code : AppError → Text
  | .validation _ => "validation".toList
  | .compatibility _ => "compatibility".toList
  | .serialization _ => "serialization".toList
  | .ipc _ => "ipc".toList
  | .outputLimitExceeded _ => "output_limit_exceeded".toList
  | .transfer _ => "transfer".toList
  | .integrity _ => "integrity".toList
  | .permission _ => "permission".toList
  | .passwordlessSudoRequired => "passwordless_sudo_required".toList
  | .restorePointAlreadyConsumed => "restore_point_already_consumed".toList
  | .diskSpace _ => "disk_space".toList
  | .cancelled => "cancelled".toList
  | .remoteStateUncertain _ => "remote_state_uncertain".toList
  | .notReady => "not_ready".toList
  | .security _ => "security".toList
  | .unsupportedScriptPackage _ => "unsupported_script_package".toList
  | .forbiddenScriptField _ => "forbidden_script_field".toList
  | .unsafeScriptPackage _ => "unsafe_script_package".toList
  | .scriptConfirmationRequired _ => "script_confirmation_required".toList
  | .scriptPreviewExpired _ => "script_preview_expired".toList
  | .update _ => "update".toList
  | .io _ => "io".toList
  | .database _ => "database".toList
  | .migration _ => "migration".toList
  | .ssh _ => "ssh".toList
  | .sshCommand _ _ => "ssh_command".toList
  | .tauri _ => "tauri".toList

/-- The `Display` text. -/
def message : AppError → Text
  | .validation m => "输入无效：".toList ++ m
  | .compatibility m => "系统兼容性检查失败：".toList ++ m
  | .serialization m => "数据序列化失败：".toList ++ m
  | .ipc m => "桌面事件通道失败：".toList ++ m
  | .outputLimitExceeded limit => "输出超过 ".toList ++ showNat limit ++ " 字节上限".toList
  | .transfer m => "文件传输失败：".toList ++ m
  | .integrity m => "完整性校验失败：".toList ++ m
  | .permission m => "权限不足：".toList ++ m
  | .passwordlessSudoRequired => "当前账号不是 root，且未配置免密 sudo；服务器未发生修改".toList
  | .restorePointAlreadyConsumed => "该恢复点已经完成回滚，不能重复使用".toList
  | .diskSpace m => "磁盘空间不足：".toList ++ m
  | .cancelled => "操作已取消".toList
  | .remoteStateUncertain m => "远程状态无法确认：".toList ++ m
  | .notReady => "应用尚未完成数据目录初始化".toList
  | .security m => "安全检查失败：".toList ++ m
  | .unsupportedScriptPackage m => "脚本包版本不受支持：".toList ++ m
  | .forbiddenScriptField m => "脚本包包含禁止字段：".toList ++ m
  | .unsafeScriptPackage m => "脚本包安全检查失败：".toList ++ m
  | .scriptConfirmationRequired m => "个人脚本运行需要有效的二次确认：".toList ++ m
  | .scriptPreviewExpired m => "个人脚本预演已经过期：".toList ++ m
  | .update m => "更新操作失败：".toList ++ m
  | .io m => "I/O 操作失败：".toList ++ m
  | .database m => "数据库操作失败：".toList ++ m
  | .migration m => "数据库迁移失败：".toList ++ m
  | .ssh m => "SSH 操作失败：".toList ++ m
  | .sshCommand status stderr =>
      "SSH 命令失败（退出码 ".toList ++ showInt status ++ "）：".toList ++ stderr
  | .tauri m => "桌面窗口操作失败：".toList ++ m

/-- `AppError::retryable`. -/
def retryable : AppError → Bool
  | .io _ | .ssh _ | .transfer _ | .diskSpace _ | .remoteStateUncertain _ => true
  | _ => false

/-- `AppError::ssh_command`: the standard error is capped. -/
def ofSshCommand (exitStatus : Int) (stderr : Text) : AppError :=
  .sshCommand exitStatus (takeUtf8 (8 * 1024) stderr)

end AppError

end QingzhouSSH
