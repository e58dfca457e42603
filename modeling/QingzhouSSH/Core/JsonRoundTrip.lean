/-
  QingzhouSSH.Core.JsonRoundTrip — printed records are read back.

  A record without lists or records inside is printed on lines of its own, and what is read
  of the text are its fields, with the numbers as they are written.

  Main results:
    * `reads_int`, `reads_bool` — the values that have no parts;
    * `fromStr_toPretty` — the indented text of a record.
-/
import QingzhouSSH.Core.JsonReader
import QingzhouSSH.Core.PrettyJson

namespace QingzhouSSH

namespace JsonTree

/-! ## §1. Tokens. -/

/-- A sign may stand in front of the digits. -/
theorem isNumberToken_minus {token : Text} (hplain : token.head? ≠ some '-') :
    isNumberToken ('-' :: token) = isNumberToken token := by
  show ((token.takeWhile Char.isDigit == ['0']
      || (token.takeWhile Char.isDigit).head?.any fun c => c != '0')
    && isFraction (token.dropWhile Char.isDigit)) = isNumberToken token
  unfold isNumberToken
  split
  next unsigned => exact absurd rfl hplain
  next => rfl

theorem isNumberToken_showInt (n : Int) : isNumberToken (showInt n) = true := by
  cases n with
  | ofNat n => exact isNumberToken_showNat n
  | negSucc n =>
      have hplain : (showNat (n + 1)).head? ≠ some '-' := fun hhead => by
        have hminus := showNat_digits (n + 1) '-' (List.mem_of_mem_head? hhead)
        exact absurd hminus (by decide)
      exact (isNumberToken_minus hplain).trans (isNumberToken_showNat (n + 1))

theorem reads_int (n : Int) : Reads (showInt n) (.number (showInt n)) :=
  reads_number (Value.showInt_chars n) (isNumberToken_showInt n)

/-- One of the three words. -/
theorem reads_word {c : Char} {word : Text} {tree : JsonTree} (hspace : isSpace c = false)
    (hquote : c ≠ '"') (hlist : c ≠ '[') (hobject : c ≠ '{')
    (hread : ∀ r, readScalar (c :: (word ++ r)) = some (tree, r)) : Reads (c :: word) tree := by
  intro fuel r hfuel _
  obtain ⟨fuel, rfl⟩ : ∃ n, fuel = n + 1 := Nat.exists_eq_succ_of_ne_zero (by
    rintro rfl
    exact absurd hfuel (by simp))
  rw [List.cons_append, readValue_scalar hspace hquote hlist hobject, hread]

theorem reads_bool (b : Bool) : Reads (if b then "true".toList else "false".toList) (.bool b) := by
  cases b with
  | true => exact reads_word (by decide) (by decide) (by decide) (by decide) fun _ => rfl
  | false => exact reads_word (by decide) (by decide) (by decide) (by decide) fun _ => rfl

theorem blank_gap : Blank [' '] := List.forall_mem_singleton.mpr rfl

theorem blank_line (depth : Nat) : Blank ('\n' :: Value.indent depth) :=
  List.forall_mem_cons.mpr ⟨by decide, fun c hc => List.eq_of_mem_replicate hc ▸ by decide⟩

end JsonTree

/-! ## §2. Records. -/

/-- A field of a record: no list, no record, and no number with a fraction. -/
inductive PlainValue where
  | null
  | bool (b : Bool)
  | int (n : JsonInt)
  | string (s : Text)

namespace PlainValue

open JsonTree
open Value (indent onLines intercalate_comma)

def value : PlainValue → Value
  | .null => .null
  | .bool b => .bool b
  | .int n => .int n
  | .string s => .string s

/-- What a reader makes of a value: a number is its text. -/
def tree : PlainValue → JsonTree
  | .null => .null
  | .bool b => .bool b
  | .int n => .number (showInt n.val)
  | .string s => .string s

theorem tree_bool (b : Bool) : (bool b).tree = .bool b := rfl

theorem tree_string (s : Text) : (string s).tree = .string s := rfl

theorem reads (v : PlainValue) (depth : Nat) : Reads (v.value.prettyAt depth) v.tree := by
  cases v with
  | null => exact reads_null
  | bool b => exact reads_bool b
  | int n => exact reads_int n.val
  | string s => exact reads_string s

/-- A field at this depth. -/
def fieldText (depth : Nat) (field : Text × PlainValue) : FieldText :=
  ⟨field.1, field.2.value.prettyAt depth, field.2.tree, field.2.reads depth⟩

/-- Lines of their own are a list with blanks around its commas. -/
theorem onLines_eq (depth : Nat) {texts : List Text} (hsome : texts ≠ []) :
    onLines depth texts
      = List.intercalate [','] (texts.map fun text => ('\n' :: indent (depth + 1)) ++ text)
        ++ ('\n' :: indent depth) := by
  obtain ⟨text, texts, rfl⟩ := List.exists_cons_of_ne_nil hsome
  rw [List.map_cons, intercalate_comma]
  show '\n' :: indent (depth + 1) ++ text ++ _ ++ '\n' :: indent depth = _
  rw [List.flatMap_map]
  rfl

/-- **What `to_vec_pretty` prints of a record is read back.** -/
theorem fromStr_toPretty {fields : List (Text × PlainValue)} (hsome : fields ≠ []) :
    fromStr (Value.object (fields.map fun field => (field.1, field.2.value))).toPretty
      = some (.object (fields.map fun field => (field.1, field.2.tree))) := by
  have hread := reads_fields (blank_line 1) blank_gap (blank_line 0)
    (show fields.map (fieldText 1) ≠ [] by simpa using hsome)
  have htexts : Value.prettyFields (fields.map fun field => (field.1, field.2.value)) 1
      = (fields.map (fieldText 1)).map (FieldText.laid [' ']) := by
    rw [Value.prettyFields_eq_map, List.map_map, List.map_map]
    rfl
  have htrees : (fields.map fun field => (field.1, field.2.tree))
      = (fields.map (fieldText 1)).map FieldText.read := by
    rw [List.map_map]
    rfl
  apply fromStr_of_reads
  unfold Value.toPretty
  rw [Value.prettyAt, htexts, onLines_eq 0 (by simpa using hsome), htrees, List.map_map,
    List.append_assoc]
  exact hread

end PlainValue

end QingzhouSSH
