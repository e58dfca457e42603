/-
  QingzhouSSH.Core.JsonRecord — records in JSON.

  A derived `Deserialize` with `deny_unknown_fields` takes the fields of a record by their
  names, in any order, or without names in the order of the type.  A number is taken as an
  integer if it is written as one and is in range.

  Main results:
    * `record_object` — the fields of a record, printed in the order of the type;
    * `asUnsigned_showNat`, `asI64_showInt` — integers in range are read back.
-/
import QingzhouSSH.Core.JsonRoundTrip

namespace QingzhouSSH

/-! ## §1. Reading a record. -/

namespace JsonTree

/-- The fields of a record: no other field may be there, and none twice. -/
def record (names : List Text) : JsonTree → Option (List (Option JsonTree))
  | .object fields =>
      if (∀ field ∈ fields, field.1 ∈ names) ∧ (fields.map Prod.fst).Nodup then
        some (names.map fun name => (fields.find? fun field => field.1 = name).map Prod.snd)
      else none
  | .array items => if items.length = names.length then some (items.map some) else none
  | _ => none

def asText : Option JsonTree → Option Text
  | some (.string s) => some s
  | _ => none

/-- An `Option` may be left out, or be `null`. -/
def asOptionalText : Option JsonTree → Option (Option Text)
  | none => some none
  | some .null => some none
  | field => (asText field).map some

def asBool : Option JsonTree → Option Bool
  | some (.bool b) => some b
  | _ => none

/-- Digits, with their value. -/
def digitsValue (token : Text) : Option Nat :=
  if token ≠ [] ∧ token.all Char.isDigit = true then some (Nat.ofDigitChars 10 token 0) else none

/-- An unsigned integer below a bound. -/
def asUnsigned (bound : Nat) : Option JsonTree → Option Nat
  | some (.number token) => (digitsValue token).filter fun n => n < bound
  | _ => none

/-- A negative zero is a floating-point number for `serde_json`. -/
def asI64 : Option JsonTree → Option Int
  | some (.number ('-' :: token)) =>
      ((digitsValue token).filter fun n => 0 < n ∧ n ≤ 2 ^ 63).map fun n => -(n : Int)
  | some (.number token) =>
      ((digitsValue token).filter fun n => n < 2 ^ 63).map fun n => (n : Int)
  | _ => none

/-! ## §2. Reading it back. -/

theorem find_zip {names : List Text} {trees : List JsonTree} (hnodup : names.Nodup)
    (hlength : names.length = trees.length) :
    names.map (fun name => ((names.zip trees).find? fun field => field.1 = name).map Prod.snd)
      = trees.map some := by
  induction names generalizing trees with
  | nil =>
      obtain rfl := List.length_eq_zero_iff.mp hlength.symm
      rfl
  | cons name names ih =>
      obtain ⟨tree, trees, rfl⟩ := List.exists_cons_of_length_eq_add_one hlength.symm
      obtain ⟨hfresh, hnodup⟩ := List.nodup_cons.mp hnodup
      rw [List.zip_cons_cons, List.map_cons, List.map_cons, ← ih hnodup (Nat.succ.inj hlength)]
      refine congrArg₂ List.cons ?_ (List.map_congr_left fun other hother => ?_)
      · rw [List.find?_cons_of_pos (by simp)]
        rfl
      · -- the first field has another name
        have hne : ¬ name = other := by
          rintro rfl
          exact hfresh hother
        rw [List.find?_cons_of_neg (by simpa using hne)]

/-- **A record is read back from its fields.** -/
theorem record_object {names : List Text} {trees : List JsonTree} (hnodup : names.Nodup)
    (hlength : names.length = trees.length) :
    record names (.object (names.zip trees)) = some (trees.map some) := by
  have hknown : ∀ field ∈ names.zip trees, field.1 ∈ names :=
    fun field hfield => (List.of_mem_zip hfield).1
  have hnames : (names.zip trees).map Prod.fst = names :=
    List.map_fst_zip (Nat.le_of_eq hlength)
  unfold record
  dsimp only
  rw [if_pos ⟨hknown, by rw [hnames]; exact hnodup⟩, find_zip hnodup hlength]

theorem digitsValue_showNat (n : Nat) : digitsValue (showNat n) = some n := by
  unfold digitsValue
  have hdigits : (showNat n).all Char.isDigit = true := List.all_eq_true.mpr (showNat_digits n)
  rw [if_pos ⟨showInt_ne_nil n, hdigits⟩]
  exact congrArg some Nat.ofDigitChars_ten_toDigits

theorem asUnsigned_showNat {bound n : Nat} (h : n < bound) :
    asUnsigned bound (some (.number (showNat n))) = some n := by
  show (digitsValue (showNat n)).filter _ = _
  rw [digitsValue_showNat, Option.filter_some_pos (by simpa using h)]

theorem asI64_showInt {n : Int} (hlow : -(2 ^ 63) ≤ n) (hhigh : n < 2 ^ 63) :
    asI64 (some (.number (showInt n))) = some n := by
  cases n with
  | ofNat n =>
      have hplain : ∀ token, showNat n ≠ '-' :: token := by
        intro token heq
        have hminus := showNat_digits n '-' (heq ▸ List.mem_cons_self)
        exact absurd hminus (by decide)
      show asI64 (some (.number (showNat n))) = _
      unfold asI64
      split
      next token heq => exact absurd (JsonTree.number.inj (Option.some.inj heq)) (hplain token)
      next token hother heq =>
        obtain rfl := JsonTree.number.inj (Option.some.inj heq)
        have hbound : n < 2 ^ 63 := by
          rw [Int.ofNat_eq_natCast] at hhigh
          omega
        rw [digitsValue_showNat, Option.filter_some_pos (by simpa using hbound)]
        rfl
      next hother => exact absurd rfl (hother (showNat n))
  | negSucc n =>
      have hbound : n + 1 ≤ 2 ^ 63 := by
        rw [Int.negSucc_eq] at hlow
        omega
      show ((digitsValue (showNat (n + 1))).filter fun m => 0 < m ∧ m ≤ 2 ^ 63).map
        (fun m => -(m : Int)) = _
      rw [digitsValue_showNat, Option.filter_some_pos (by simpa using hbound)]
      rfl

end JsonTree

/-! ## §3. Printing a record. -/

namespace PlainValue

theorem unsigned_inRange {bits : Nat} (hbits : bits ≤ 64) (n : Nat) :
    -(2 ^ 63) ≤ ((n % 2 ^ bits : Nat) : Int) ∧ ((n % 2 ^ bits : Nat) : Int) < 2 ^ 64 := by
  have hlt := Nat.mod_lt n (Nat.two_pow_pos bits)
  have hle := Nat.pow_le_pow_right (show 0 < 2 by decide) hbits
  omega

theorem i64_inRange (n : Int) : -(2 ^ 63) ≤ n.bmod (2 ^ 64) ∧ n.bmod (2 ^ 64) < 2 ^ 64 := by
  have hlow := @Int.le_bmod n (2 ^ 64) (by decide)
  have hhigh := @Int.bmod_lt n (2 ^ 64) (by decide)
  omega

/-- An unsigned integer of this many bits. -/
def ofUnsigned (bits : Nat) (hbits : bits ≤ 64) (n : Nat) : PlainValue :=
  .int ⟨(n % 2 ^ bits : Nat), unsigned_inRange hbits n⟩

theorem bits_u32 : 32 ≤ 64 := by decide

def ofU32 (n : Nat) : PlainValue := ofUnsigned 32 bits_u32 n

def ofU64 (n : Nat) : PlainValue := ofUnsigned 64 le_rfl n

/-- An `i64`. -/
def ofI64 (n : Int) : PlainValue := .int ⟨n.bmod (2 ^ 64), i64_inRange n⟩

def ofOptionalText : Option Text → PlainValue
  | none => .null
  | some s => .string s

/-- The number is read as its type holds it. -/
theorem asUnsigned_ofUnsigned {bits : Nat} (hbits : bits ≤ 64) (n : Nat) :
    JsonTree.asUnsigned (2 ^ bits) (some (ofUnsigned bits hbits n).tree) = some (n % 2 ^ bits) :=
  JsonTree.asUnsigned_showNat (Nat.mod_lt n (Nat.two_pow_pos bits))

theorem asUnsigned_ofU32 (n : Nat) :
    JsonTree.asUnsigned (2 ^ 32) (some (ofU32 n).tree) = some (n % 2 ^ 32) :=
  asUnsigned_ofUnsigned _ n

theorem asUnsigned_ofU64 (n : Nat) :
    JsonTree.asUnsigned (2 ^ 64) (some (ofU64 n).tree) = some (n % 2 ^ 64) :=
  asUnsigned_ofUnsigned _ n

theorem asI64_ofI64 (n : Int) :
    JsonTree.asI64 (some (ofI64 n).tree) = some (n.bmod (2 ^ 64)) := by
  have hlow := @Int.le_bmod n (2 ^ 64) (by decide)
  have hhigh := @Int.bmod_lt n (2 ^ 64) (by decide)
  exact @JsonTree.asI64_showInt (n.bmod (2 ^ 64)) (by omega) (by omega)

theorem asOptionalText_ofOptionalText (value : Option Text) :
    JsonTree.asOptionalText (some (ofOptionalText value).tree) = some value := by
  cases value <;> rfl

end PlainValue

end QingzhouSSH
