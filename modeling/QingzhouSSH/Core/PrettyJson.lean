/-
  QingzhouSSH.Core.PrettyJson — the indented text of a JSON value.

  `to_vec_pretty` puts every item on a line of its own, two blanks to the right of the
  bracket around it.  Without the blanks and line ends outside strings it is the compact
  text.

  Main results:
    * `minify_prettyAt` — the compact text is what is left of the indented one;
    * `toPretty_injective` — the indented text determines the value.
-/
import QingzhouSSH.Core.Json

namespace QingzhouSSH.Value

/-! ## §1. The indented text. -/

def indent (depth : Nat) : Text := List.replicate (2 * depth) ' '

/-- Texts on lines of their own, between a bracket at this depth and its partner. -/
def onLines (depth : Nat) : List Text → Text
  | [] => []
  | text :: rest =>
      '\n' :: indent (depth + 1) ++ text
        ++ rest.flatMap (fun next => ',' :: '\n' :: indent (depth + 1) ++ next)
        ++ '\n' :: indent depth

mutual

def prettyAt : Value → Nat → Text
  | .null, _ => "null".toList
  | .bool b, _ => if b then "true".toList else "false".toList
  | .int n, _ => showInt n.val
  | .float f, _ => f.printed
  | .string s, _ => jsonString s
  | .array items, depth => '[' :: (onLines depth (prettyItems items (depth + 1)) ++ [']'])
  | .object fields, depth => '{' :: (onLines depth (prettyFields fields (depth + 1)) ++ ['}'])

def prettyItems : List Value → Nat → List Text
  | [], _ => []
  | v :: rest, depth => prettyAt v depth :: prettyItems rest depth

def prettyFields : List (Text × Value) → Nat → List Text
  | [], _ => []
  | (k, v) :: rest, depth => (jsonString k ++ ':' :: ' ' :: prettyAt v depth) :: prettyFields rest depth

end

/-- `serde_json::to_vec_pretty`, as a text. -/
def toPretty (v : Value) : Text := prettyAt v 0

/-! ## §2. Taking out the layout. -/

/-- Where a text is being read: outside strings, inside one, or behind a backslash. -/
inductive Spot where
  | outside
  | inside
  | escaped

/-- Take out blanks and line ends outside strings. -/
def minify : Spot → Text → Text
  | _, [] => []
  | .outside, c :: s =>
      if c = ' ' ∨ c = '\n' then minify .outside s
      else c :: minify (if c = '"' then .inside else .outside) s
  | .inside, c :: s =>
      c :: minify (if c = '"' then .outside else if c = '\\' then .escaped else .inside) s
  | .escaped, c :: s => c :: minify .inside s

theorem minify_indent (depth : Nat) (r : Text) :
    minify .outside (indent depth ++ r) = minify .outside r := by
  unfold indent
  induction 2 * depth with
  | zero => rfl
  | succ n ih =>
      rw [List.replicate_succ, List.cons_append]
      exact (if_pos (Or.inl rfl)).trans ih

/-- Characters without a meaning of their own. -/
theorem minify_plain {t : Text} (h : ∀ c ∈ t, c ≠ ' ' ∧ c ≠ '\n' ∧ c ≠ '"') (r : Text) :
    minify .outside (t ++ r) = t ++ minify .outside r := by
  induction t with
  | nil => rfl
  | cons c t ih =>
      obtain ⟨hblank, hline, hquote⟩ := h c List.mem_cons_self
      show (if c = ' ' ∨ c = '\n' then _ else c :: minify _ (t ++ r)) = c :: (t ++ _)
      rw [if_neg (by simp [hblank, hline]), if_neg hquote,
        ih fun d hd => h d (List.mem_cons_of_mem c hd)]

theorem minify_number {t : Text} (h : ∀ c ∈ t, isNumberChar c = true) (r : Text) :
    minify .outside (t ++ r) = t ++ minify .outside r := by
  apply minify_plain
  intro c hc
  have hnumber := h c hc
  refine ⟨?_, ?_, ?_⟩
  all_goals
    rintro rfl
    exact absurd hnumber (by decide)

/-- The layout of an escaped character is kept. -/
theorem minify_escapeChar (c : Char) (r : Text) :
    minify .inside (escapeChar c ++ r) = escapeChar c ++ minify .inside r := by
  unfold escapeChar
  by_cases hquote : c = '"'
  · rw [if_pos hquote]
    rfl
  rw [if_neg hquote]
  by_cases hback : c = '\\'
  · rw [if_pos hback]
    rfl
  rw [if_neg hback]
  split_ifs with h8 h9 h10 h12 h13 hcontrol
  · rfl
  · rfl
  · rfl
  · rfl
  · rfl
  · -- the hexadecimal digits are neither quotes nor backslashes
    have hdigit : ∀ n < 16, hexDigit n ≠ '"' ∧ hexDigit n ≠ '\\' := by decide
    have hhigh := hdigit (c.toNat / 16) (by omega)
    have hlow := hdigit (c.toNat % 16) (by omega)
    show '\\' :: 'u' :: '0' :: '0' :: hexDigit (c.toNat / 16)
      :: minify (if _ then _ else if _ then _ else _) (hexDigit (c.toNat % 16) :: r) = _
    rw [if_neg hhigh.1, if_neg hhigh.2]
    show '\\' :: 'u' :: '0' :: '0' :: hexDigit (c.toNat / 16) :: hexDigit (c.toNat % 16)
      :: minify (if _ then _ else if _ then _ else _) r = _
    rw [if_neg hlow.1, if_neg hlow.2]
    rfl
  · show c :: minify (if c = '"' then _ else if c = '\\' then _ else _) r = c :: minify .inside r
    rw [if_neg hquote, if_neg hback]

/-- A string stays as it is. -/
theorem minify_jsonString (s r : Text) :
    minify .outside (jsonString s ++ r) = jsonString s ++ minify .outside r := by
  have hbody : minify .inside (s.flatMap escapeChar ++ '"' :: r)
      = s.flatMap escapeChar ++ '"' :: minify .outside r := by
    induction s with
    | nil => rfl
    | cons c s ih =>
        rw [List.flatMap_cons, List.append_assoc, minify_escapeChar, ih, List.append_assoc]
  show '"' :: minify .inside ((s.flatMap escapeChar ++ ['"']) ++ r)
    = '"' :: ((s.flatMap escapeChar ++ ['"']) ++ _)
  rw [List.append_assoc, List.append_assoc]
  exact congrArg (List.cons '"') hbody

/-! ## §3. The compact text is what is left. -/

section Lines

variable {α : Type} {e e' : α → Text}

/-- Items on lines of their own become items between commas. -/
theorem minify_onLines {xs : List α} (depth : Nat)
    (he : ∀ a ∈ xs, ∀ r, minify .outside (e a ++ r) = e' a ++ minify .outside r) (r : Text) :
    minify .outside (onLines depth (xs.map e) ++ r)
      = List.intercalate [','] (xs.map e') ++ minify .outside r := by
  cases xs with
  | nil => rfl
  | cons a xs =>
      have hrest : ∀ r, minify .outside
          ((xs.map e).flatMap (fun next => ',' :: '\n' :: indent (depth + 1) ++ next) ++ r)
          = (xs.map e').flatMap (fun next => ',' :: next) ++ minify .outside r := by
        intro r
        induction xs with
        | nil => rfl
        | cons b xs ih =>
            rw [List.map_cons, List.map_cons, List.flatMap_cons, List.flatMap_cons]
            have hb := he b (List.mem_cons_of_mem a List.mem_cons_self)
            have hxs := ih fun c hc => he c (by
              rcases List.mem_cons.mp hc with rfl | hc
              · exact List.mem_cons_self
              · exact List.mem_cons_of_mem a (List.mem_cons_of_mem b hc))
            show ',' :: minify .outside (indent (depth + 1) ++ e b ++ _ ++ r) = ',' :: (e' b ++ _) ++ _
            rw [List.append_assoc, List.append_assoc, minify_indent, hb, hxs]
            simp only [List.cons_append, List.append_assoc]
      rw [List.map_cons, List.map_cons, intercalate_comma]
      show minify .outside ('\n' :: (indent (depth + 1) ++ e a
        ++ (xs.map e).flatMap (fun next => ',' :: '\n' :: indent (depth + 1) ++ next)
        ++ '\n' :: indent depth) ++ r) = _
      show minify .outside ((indent (depth + 1) ++ e a
        ++ (xs.map e).flatMap (fun next => ',' :: '\n' :: indent (depth + 1) ++ next)
        ++ '\n' :: indent depth) ++ r) = _
      rw [List.append_assoc, List.append_assoc, List.append_assoc, minify_indent,
        he a List.mem_cons_self, hrest]
      show e' a ++ (_ ++ minify .outside (indent depth ++ r)) = _
      rw [minify_indent, List.append_assoc]

end Lines

theorem prettyItems_eq_map (items : List Value) (depth : Nat) :
    prettyItems items depth = items.map fun v => prettyAt v depth := by
  induction items with
  | nil => rfl
  | cons v items ih => rw [prettyItems, ih, List.map_cons]

theorem prettyFields_eq_map (fields : List (Text × Value)) (depth : Nat) :
    prettyFields fields depth
      = fields.map fun f => jsonString f.1 ++ ':' :: ' ' :: prettyAt f.2 depth := by
  induction fields with
  | nil => rfl
  | cons f fields ih => rw [prettyFields, ih, List.map_cons]

/-- **The compact text is what is left of the indented one.** -/
theorem minify_prettyAt (v : Value) (depth : Nat) (r : Text) :
    minify .outside (prettyAt v depth ++ r) = toJson v ++ minify .outside r := by
  cases v with
  | null => exact minify_plain (show ∀ c ∈ "null".toList, _ by decide) r
  | bool b =>
      cases b with
      | true => exact minify_plain (show ∀ c ∈ "true".toList, _ by decide) r
      | false => exact minify_plain (show ∀ c ∈ "false".toList, _ by decide) r
  | int n => exact minify_number (showInt_chars n.val) r
  | float f => exact minify_number f.chars r
  | string s => exact minify_jsonString s r
  | array items =>
      have hitem : ∀ item ∈ items, ∀ r, minify .outside (prettyAt item (depth + 1) ++ r)
          = toJson item ++ minify .outside r :=
        fun item _ r => minify_prettyAt item (depth + 1) r
      rw [toJson, itemTexts_eq_map]
      show '[' :: minify .outside
        (onLines depth (prettyItems items (depth + 1)) ++ [']'] ++ r) = _
      rw [prettyItems_eq_map, List.append_assoc, minify_onLines depth hitem]
      simp only [List.cons_append, List.append_assoc]
      rfl
  | object fields =>
      have hfield : ∀ f ∈ fields, ∀ r, minify .outside
          ((jsonString f.1 ++ ':' :: ' ' :: prettyAt f.2 (depth + 1)) ++ r)
          = fieldText f ++ minify .outside r := by
        intro f hf r
        have hlt := sizeOf_field hf
        have hvalue := minify_prettyAt f.2 (depth + 1) r
        rw [List.append_assoc, minify_jsonString]
        show jsonString f.1 ++ ':' :: minify .outside (prettyAt f.2 (depth + 1) ++ r) = _
        rw [hvalue, fieldText, List.append_assoc]
        rfl
      rw [toJson, fieldTexts_eq_map]
      show '{' :: minify .outside
        (onLines depth (prettyFields fields (depth + 1)) ++ ['}'] ++ r) = _
      rw [prettyFields_eq_map, List.append_assoc, minify_onLines depth hfield]
      simp only [List.cons_append, List.append_assoc]
      rfl
termination_by sizeOf v
decreasing_by
  · have hlt := List.sizeOf_lt_of_mem ‹item ∈ items›
    rw [Value.array.sizeOf_spec]
    omega
  · exact hlt

/-- **The indented text determines the value.** -/
theorem toPretty_injective {v w : Value} (h : toPretty v = toPretty w) : v = w := by
  have hleft : ∀ v : Value, minify .outside (toPretty v) = toJson v := by
    intro v
    have hminify := minify_prettyAt v 0 []
    rw [List.append_nil] at hminify
    exact hminify.trans (List.append_nil _)
  apply toJson_injective
  rw [← hleft, ← hleft, h]

end QingzhouSSH.Value
