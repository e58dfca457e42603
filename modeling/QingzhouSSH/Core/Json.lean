/-
  QingzhouSSH.Core.Json — `serde_json::Value` and its compact text.

  Integers are the ones `serde_json` can hold (`i64` and `u64`); a floating-point
  number is kept as its printed text, since no modelled function computes with it.
  The fields of an object stand in key order, as the map of `serde_json` iterates.

  Main result: `toJson_injective` — the compact text determines the value.
-/
import Mathlib.Algebra.Group.Int.Defs
import Mathlib.Algebra.GroupWithZero.Nat
import Mathlib.Data.List.TakeWhile
import QingzhouSSH.Core.Error

namespace QingzhouSSH

/-! ## §1. Values. -/

/-- An integer in the range of `i64` or `u64`. -/
structure JsonInt where
  val : Int
  inRange : -(2 ^ 63) ≤ val ∧ val < 2 ^ 64
  deriving Repr, DecidableEq

/-- The characters of a printed number. -/
def isNumberChar (c : Char) : Bool :=
  isNumeral c || c == '.' || c == 'e' || c == '+'

/-- The text of a floating-point number: it has a point or an exponent. -/
structure JsonFloat where
  printed : Text
  chars : ∀ c ∈ printed, isNumberChar c = true
  fractional : '.' ∈ printed ∨ 'e' ∈ printed
  deriving Repr, DecidableEq

inductive Value where
  | null
  | bool (b : Bool)
  | int (n : JsonInt)
  | float (f : JsonFloat)
  | string (s : Text)
  | array (items : List Value)
  | object (fields : List (Text × Value))
  deriving Repr

namespace Value

def asStr : Value → Option Text
  | .string s => some s
  | _ => none

def asBool : Value → Option Bool
  | .bool b => some b
  | _ => none

/-- `Value::as_i64`: a `u64` above the range of `i64` is not one. -/
def asI64 : Value → Option Int
  | .int n => if n.val < 2 ^ 63 then some n.val else none
  | _ => none

def asU64 : Value → Option Nat
  | .int n => if 0 ≤ n.val then some n.val.toNat else none
  | _ => none

def asArray : Value → Option (List Value)
  | .array items => some items
  | _ => none

def asObject : Value → Option (List (Text × Value))
  | .object fields => some fields
  | _ => none

/-- `Map::get`. -/
def getField (fields : List (Text × Value)) (key : Text) : Option Value :=
  (fields.find? fun f => f.1 == key).map Prod.snd

/-! ## §2. The compact text. -/

def hexDigit (n : Nat) : Char :=
  if n < 10 then Char.ofNat (48 + n) else Char.ofNat (87 + n)

def hexValue (c : Char) : Nat := if c.toNat < 58 then c.toNat - 48 else c.toNat - 87

/-- How one character is written inside a JSON string. -/
def escapeChar (c : Char) : Text :=
  if c = '"' then ['\\', '"']
  else if c = '\\' then ['\\', '\\']
  else if c.toNat = 8 then ['\\', 'b']
  else if c.toNat = 9 then ['\\', 't']
  else if c.toNat = 10 then ['\\', 'n']
  else if c.toNat = 12 then ['\\', 'f']
  else if c.toNat = 13 then ['\\', 'r']
  else if c.toNat < 32 then
    ['\\', 'u', '0', '0', hexDigit (c.toNat / 16), hexDigit (c.toNat % 16)]
  else [c]

def jsonString (s : Text) : Text := '"' :: (s.flatMap escapeChar ++ ['"'])

mutual

/-- `Value::to_string`. -/
def toJson : Value → Text
  | .null => "null".toList
  | .bool b => if b then "true".toList else "false".toList
  | .int n => showInt n.val
  | .float f => f.printed
  | .string s => jsonString s
  | .array items => '[' :: (List.intercalate [','] (itemTexts items) ++ [']'])
  | .object fields => '{' :: (List.intercalate [','] (fieldTexts fields) ++ ['}'])

def itemTexts : List Value → List Text
  | [] => []
  | v :: rest => toJson v :: itemTexts rest

def fieldTexts : List (Text × Value) → List Text
  | [] => []
  | (k, v) :: rest => (jsonString k ++ ':' :: toJson v) :: fieldTexts rest

end

/-! ## §3. The text of a string. -/

/-- The character that an escaped text starts with, and the rest. -/
def unescape : Text → Option (Char × Text)
  | '\\' :: 'b' :: s => some (Char.ofNat 8, s)
  | '\\' :: 't' :: s => some (Char.ofNat 9, s)
  | '\\' :: 'n' :: s => some (Char.ofNat 10, s)
  | '\\' :: 'f' :: s => some (Char.ofNat 12, s)
  | '\\' :: 'r' :: s => some (Char.ofNat 13, s)
  | '\\' :: 'u' :: '0' :: '0' :: h :: l :: s =>
      some (Char.ofNat (16 * hexValue h + hexValue l), s)
  | '\\' :: c :: s => some (c, s)
  | c :: s => some (c, s)
  | [] => none

theorem hexValue_hexDigit : ∀ n < 16, hexValue (hexDigit n) = n := by decide

theorem ofNat_of_toNat {c : Char} {n : Nat} (h : c.toNat = n) : Char.ofNat n = c := by
  rw [← h, Char.ofNat_toNat]

/-- Reading an escaped character gives it back. -/
theorem unescape_escapeChar (c : Char) (s : Text) : unescape (escapeChar c ++ s) = some (c, s) := by
  unfold escapeChar
  by_cases hq : c = '"'
  · subst hq; rfl
  rw [if_neg hq]
  by_cases hb : c = '\\'
  · subst hb; rfl
  rw [if_neg hb]
  by_cases h8 : c.toNat = 8
  · rw [if_pos h8, ← ofNat_of_toNat h8]; rfl
  rw [if_neg h8]
  by_cases h9 : c.toNat = 9
  · rw [if_pos h9, ← ofNat_of_toNat h9]; rfl
  rw [if_neg h9]
  by_cases h10 : c.toNat = 10
  · rw [if_pos h10, ← ofNat_of_toNat h10]; rfl
  rw [if_neg h10]
  by_cases h12 : c.toNat = 12
  · rw [if_pos h12, ← ofNat_of_toNat h12]; rfl
  rw [if_neg h12]
  by_cases h13 : c.toNat = 13
  · rw [if_pos h13, ← ofNat_of_toNat h13]; rfl
  rw [if_neg h13]
  by_cases h32 : c.toNat < 32
  · -- the other control characters are written with two hexadecimal digits
    rw [if_pos h32]
    show some (Char.ofNat (16 * hexValue (hexDigit (c.toNat / 16))
      + hexValue (hexDigit (c.toNat % 16))), s) = _
    have hsum : c.toNat = 16 * (c.toNat / 16) + c.toNat % 16 := by omega
    rw [hexValue_hexDigit _ (by omega), hexValue_hexDigit _ (by omega), ofNat_of_toNat hsum]
  · rw [if_neg h32]
    show unescape (c :: s) = _
    unfold unescape
    split <;> simp_all

/-- No character is written as a closing quote. -/
theorem escapeChar_cons (c : Char) : ∃ d t, escapeChar c = d :: t ∧ d ≠ '"' := by
  unfold escapeChar
  split
  · exact ⟨_, _, rfl, by decide⟩
  next hq =>
    repeat' split
    all_goals first | exact ⟨_, _, rfl, by decide⟩ | exact ⟨_, _, rfl, hq⟩

theorem body_append_inj {s t r u : Text}
    (h : s.flatMap escapeChar ++ '"' :: r = t.flatMap escapeChar ++ '"' :: u) :
    s = t ∧ r = u := by
  induction s generalizing t with
  | nil =>
      cases t with
      | nil => exact ⟨rfl, (List.cons.inj h).2⟩
      | cons c t =>
          obtain ⟨d, v, hd, hne⟩ := escapeChar_cons c
          rw [List.flatMap_cons, hd] at h
          exact absurd (List.cons.inj h).1.symm hne
  | cons c s ih =>
      cases t with
      | nil =>
          obtain ⟨d, v, hd, hne⟩ := escapeChar_cons c
          rw [List.flatMap_cons, hd] at h
          exact absurd (List.cons.inj h).1 hne
      | cons d t =>
          have hread := congrArg unescape h
          rw [List.flatMap_cons, List.flatMap_cons, List.append_assoc, List.append_assoc,
            unescape_escapeChar, unescape_escapeChar, Option.some.injEq, Prod.mk.injEq] at hread
          obtain ⟨rfl, hrest⟩ := hread
          obtain ⟨rfl, hru⟩ := ih hrest
          exact ⟨rfl, hru⟩

theorem jsonString_append_inj {s t r u : Text} (h : jsonString s ++ r = jsonString t ++ u) :
    s = t ∧ r = u := by
  have htail : (s.flatMap escapeChar ++ ['"']) ++ r = (t.flatMap escapeChar ++ ['"']) ++ u :=
    (List.cons.inj h).2
  rw [List.append_assoc, List.append_assoc] at htail
  exact body_append_inj htail

/-! ## §4. The text of a number. -/

/-- What may follow a number. -/
def Stops (r : Text) : Prop := ∀ c ∈ r.head?, isNumberChar c = false

theorem takeWhile_token {t r : Text} (ht : ∀ c ∈ t, isNumberChar c = true) (hr : Stops r) :
    (t ++ r).takeWhile isNumberChar = t := by
  rw [List.takeWhile_append_of_pos ht]
  cases r with
  | nil => exact List.append_nil t
  | cons c r =>
      rw [List.takeWhile_cons_of_neg (by simp [hr c rfl])]
      exact List.append_nil t

theorem token_append_inj {t u r s : Text} (ht : ∀ c ∈ t, isNumberChar c = true)
    (hu : ∀ c ∈ u, isNumberChar c = true) (hr : Stops r) (hs : Stops s)
    (h : t ++ r = u ++ s) : t = u ∧ r = s := by
  have htu : t = u := by
    rw [← takeWhile_token ht hr, ← takeWhile_token hu hs, h]
  rw [htu] at h
  exact ⟨htu, List.append_cancel_left h⟩

theorem isNumberChar_of_numeral {c : Char} (h : isNumeral c = true) : isNumberChar c = true := by
  rw [isNumberChar, h]
  rfl

theorem showInt_chars (n : Int) : ∀ c ∈ showInt n, isNumberChar c = true :=
  fun c hc => isNumberChar_of_numeral (showInt_numeral n c hc)

/-- An integer's text is not that of a floating-point number. -/
theorem showInt_ne_float (n : Int) (f : JsonFloat) : showInt n ≠ f.printed := by
  intro h
  have hnumeral := showInt_numeral n
  rw [h] at hnumeral
  rcases f.fractional with hf | hf
  · exact absurd (hnumeral _ hf) (by decide)
  · exact absurd (hnumeral _ hf) (by decide)

/-! ## §5. The text of a value. -/

/-- The shape of a value, as its first character tells it. -/
inductive Shape where
  | null
  | bool
  | number
  | string
  | array
  | object
  | other
  deriving DecidableEq

def shapeOfChar (c : Char) : Shape :=
  if c = 'n' then .null
  else if c = 't' ∨ c = 'f' then .bool
  else if c = '"' then .string
  else if c = '[' then .array
  else if c = '{' then .object
  else if isNumberChar c then .number
  else .other

def shape : Value → Shape
  | .null => .null
  | .bool _ => .bool
  | .int _ => .number
  | .float _ => .number
  | .string _ => .string
  | .array _ => .array
  | .object _ => .object

theorem shapeOfChar_number {c : Char} (h : isNumberChar c = true) : shapeOfChar c = .number := by
  have hne : ∀ d, isNumberChar d = false → c ≠ d := by
    intro d hd heq
    rw [heq, hd] at h
    exact absurd h (by simp)
  simp [shapeOfChar, h, hne 'n' (by decide), hne 't' (by decide), hne 'f' (by decide),
    hne '"' (by decide), hne '[' (by decide), hne '{' (by decide)]

theorem shape_of_token {t : Text} (hne : t ≠ []) (h : ∀ c ∈ t, isNumberChar c = true) :
    ∃ c s, t = c :: s ∧ shapeOfChar c = .number := by
  obtain ⟨c, s, rfl⟩ := List.exists_cons_of_ne_nil hne
  exact ⟨c, s, rfl, shapeOfChar_number (h c List.mem_cons_self)⟩

theorem toJson_cons (v : Value) : ∃ c s, toJson v = c :: s ∧ shapeOfChar c = v.shape := by
  cases v with
  | null => exact ⟨_, _, rfl, by decide⟩
  | bool b => cases b <;> exact ⟨_, _, rfl, by decide⟩
  | int n => exact shape_of_token (showInt_ne_nil n.val) (showInt_chars n.val)
  | float f =>
      refine shape_of_token ?_ f.chars
      intro hnil
      have hempty : f.printed = [] := hnil
      rcases f.fractional with hf | hf <;> rw [hempty] at hf <;> exact absurd hf (by simp)
  | string s => exact ⟨_, _, rfl, rfl⟩
  | array items => exact ⟨_, _, by rw [toJson], rfl⟩
  | object fields => exact ⟨_, _, by rw [toJson], rfl⟩

theorem itemTexts_eq_map (items : List Value) : itemTexts items = items.map toJson := by
  induction items with
  | nil => rfl
  | cons v items ih => rw [itemTexts, ih, List.map_cons]

def fieldText (f : Text × Value) : Text := jsonString f.1 ++ ':' :: toJson f.2

theorem fieldTexts_eq_map (fields : List (Text × Value)) :
    fieldTexts fields = fields.map fieldText := by
  induction fields with
  | nil => rfl
  | cons f fields ih => rw [fieldTexts, ih, List.map_cons, fieldText]

/-- Joining by commas puts a comma before every element but the first. -/
theorem intercalate_comma (t : Text) (ts : List Text) :
    List.intercalate [','] (t :: ts) = t ++ ts.flatMap fun u => ',' :: u := by
  induction ts generalizing t with
  | nil => rw [List.intercalate_singleton, List.flatMap_nil, List.append_nil]
  | cons u ts ih =>
      rw [List.intercalate_cons_cons, ih, List.flatMap_cons, List.append_assoc]
      rfl

section Joined

variable {α : Type} {e : α → Text} {close : Char}

/-- After an element comes a comma or the closing character. -/
theorem stops_tail (hclose : isNumberChar close = false) (xs : List α) (r : Text) :
    Stops ((xs.map e).flatMap (fun u => ',' :: u) ++ close :: r) := by
  intro c hc
  cases xs with
  | nil =>
      rw [← Option.some.inj hc]
      exact hclose
  | cons a xs =>
      rw [← Option.some.inj hc]
      decide

theorem tail_append_inj (hclose : isNumberChar close = false) (hcomma : close ≠ ',')
    {xs ys : List α} {r s : Text}
    (he : ∀ a ∈ xs, ∀ b t u, Stops t → Stops u → e a ++ t = e b ++ u → a = b ∧ t = u)
    (h : (xs.map e).flatMap (fun u => ',' :: u) ++ close :: r
      = (ys.map e).flatMap (fun u => ',' :: u) ++ close :: s) : xs = ys ∧ r = s := by
  induction xs generalizing ys with
  | nil =>
      cases ys with
      | nil => exact ⟨rfl, (List.cons.inj h).2⟩
      | cons b ys => exact absurd (List.cons.inj h).1 hcomma
  | cons a xs ih =>
      cases ys with
      | nil => exact absurd (List.cons.inj h).1.symm hcomma
      | cons b ys =>
          rw [List.map_cons, List.map_cons, List.flatMap_cons, List.flatMap_cons] at h
          have htail : e a ++ ((xs.map e).flatMap (fun u => ',' :: u) ++ close :: r)
              = e b ++ ((ys.map e).flatMap (fun u => ',' :: u) ++ close :: s) := by
            rw [← List.append_assoc, ← List.append_assoc]
            exact (List.cons.inj h).2
          obtain ⟨rfl, hrest⟩ := he a List.mem_cons_self b _ _ (stops_tail hclose xs r)
            (stops_tail hclose ys s) htail
          obtain ⟨rfl, hrs⟩ := ih (fun c hc => he c (List.mem_cons_of_mem a hc)) hrest
          exact ⟨rfl, hrs⟩

/-- Elements with unambiguous texts, joined by commas up to a closing character. -/
theorem join_append_inj (hclose : isNumberChar close = false) (hcomma : close ≠ ',')
    (hhead : ∀ a t u, e a ++ t ≠ close :: u) {xs ys : List α} {r s : Text}
    (he : ∀ a ∈ xs, ∀ b t u, Stops t → Stops u → e a ++ t = e b ++ u → a = b ∧ t = u)
    (h : List.intercalate [','] (xs.map e) ++ close :: r
      = List.intercalate [','] (ys.map e) ++ close :: s) : xs = ys ∧ r = s := by
  cases xs with
  | nil =>
      cases ys with
      | nil => exact ⟨rfl, (List.cons.inj h).2⟩
      | cons b ys =>
          rw [List.map_cons, intercalate_comma, List.append_assoc] at h
          exact absurd h.symm (hhead b _ _)
  | cons a xs =>
      cases ys with
      | nil =>
          rw [List.map_cons, intercalate_comma, List.append_assoc] at h
          exact absurd h (hhead a _ _)
      | cons b ys =>
          rw [List.map_cons, List.map_cons, intercalate_comma, intercalate_comma,
            List.append_assoc, List.append_assoc] at h
          obtain ⟨rfl, hrest⟩ := he a List.mem_cons_self b _ _ (stops_tail hclose xs r)
            (stops_tail hclose ys s) h
          obtain ⟨rfl, hrs⟩ :=
            tail_append_inj hclose hcomma (fun c hc => he c (List.mem_cons_of_mem a hc)) hrest
          exact ⟨rfl, hrs⟩

end Joined

/-- Texts that start alike are of values of the same shape. -/
theorem shape_eq {v w : Value} {r s : Text} (h : toJson v ++ r = toJson w ++ s) :
    v.shape = w.shape := by
  obtain ⟨c, t, hc, hv⟩ := toJson_cons v
  obtain ⟨d, u, hd, hw⟩ := toJson_cons w
  rw [hc, hd] at h
  rw [← hv, ← hw, (List.cons.inj h).1]

theorem toJson_ne_close (v : Value) (t u : Text) : toJson v ++ t ≠ ']' :: u := by
  obtain ⟨c, s, hc, hv⟩ := toJson_cons v
  rw [hc]
  intro h
  have hother : shapeOfChar ']' = .other := by decide
  rw [(List.cons.inj h).1, hother] at hv
  cases v <;> exact absurd hv (by simp [shape])

theorem sizeOf_field {f : Text × Value} {fields : List (Text × Value)} (h : f ∈ fields) :
    sizeOf f.2 < sizeOf (Value.object fields) := by
  have hmem := List.sizeOf_lt_of_mem h
  have hfield : sizeOf f = 1 + sizeOf f.1 + sizeOf f.2 := rfl
  rw [Value.object.sizeOf_spec]
  omega

/-- **A value and the place where its text ends can be read off a longer text.** -/
theorem toJson_append_inj (v w : Value) (r s : Text) (hr : Stops r) (hs : Stops s)
    (h : toJson v ++ r = toJson w ++ s) : v = w ∧ r = s := by
  have hshape := shape_eq h
  cases v with
  | null =>
      cases w <;> simp only [shape, reduceCtorEq] at hshape
      exact ⟨rfl, List.append_cancel_left h⟩
  | bool b =>
      cases w <;> simp only [shape, reduceCtorEq] at hshape
      next c =>
        cases b <;> cases c
        · exact ⟨rfl, List.append_cancel_left h⟩
        · exact absurd (List.cons.inj h).1 (by decide)
        · exact absurd (List.cons.inj h).1 (by decide)
        · exact ⟨rfl, List.append_cancel_left h⟩
  | int n =>
      cases w <;> simp only [shape, reduceCtorEq] at hshape
      next m =>
        obtain ⟨hnm, hrs⟩ := token_append_inj (showInt_chars n.val) (showInt_chars m.val) hr hs h
        have hval : n = m := by
          cases n
          cases m
          simp only [JsonInt.mk.injEq]
          exact showInt_inj hnm
        exact ⟨by rw [hval], hrs⟩
      next f =>
        obtain ⟨heq, _⟩ := token_append_inj (showInt_chars n.val) f.chars hr hs h
        exact absurd heq (showInt_ne_float n.val f)
  | float f =>
      cases w <;> simp only [shape, reduceCtorEq] at hshape
      next m =>
        obtain ⟨heq, _⟩ := token_append_inj f.chars (showInt_chars m.val) hr hs h
        exact absurd heq.symm (showInt_ne_float m.val f)
      next g =>
        obtain ⟨hfg, hrs⟩ := token_append_inj f.chars g.chars hr hs h
        have hval : f = g := by
          cases f
          cases g
          simp only [JsonFloat.mk.injEq]
          exact hfg
        exact ⟨by rw [hval], hrs⟩
  | string t =>
      cases w <;> simp only [shape, reduceCtorEq] at hshape
      next u =>
        obtain ⟨rfl, hrs⟩ := jsonString_append_inj h
        exact ⟨rfl, hrs⟩
  | array items =>
      cases w <;> simp only [shape, reduceCtorEq] at hshape
      next others =>
        rw [toJson, toJson, itemTexts_eq_map, itemTexts_eq_map, List.cons_append,
          List.cons_append, List.append_assoc, List.append_assoc] at h
        obtain ⟨rfl, hrs⟩ := join_append_inj (by decide) (by decide) toJson_ne_close
          (fun a _ b t u => toJson_append_inj a b t u) (List.cons.inj h).2
        exact ⟨rfl, hrs⟩
  | object fields =>
      cases w <;> simp only [shape, reduceCtorEq] at hshape
      next others =>
        rw [toJson, toJson, fieldTexts_eq_map, fieldTexts_eq_map, List.cons_append,
          List.cons_append, List.append_assoc, List.append_assoc] at h
        have hfield : ∀ a ∈ fields, ∀ b t u, Stops t → Stops u →
            fieldText a ++ t = fieldText b ++ u → a = b ∧ t = u := by
          intro a ha b t u ht hu hab
          rw [fieldText, fieldText, List.append_assoc, List.append_assoc] at hab
          obtain ⟨hkey, hrest⟩ := jsonString_append_inj hab
          have hlt := sizeOf_field ha
          obtain ⟨hvalue, htu⟩ :=
            toJson_append_inj a.2 b.2 t u ht hu (List.cons.inj hrest).2
          exact ⟨Prod.ext hkey hvalue, htu⟩
        have hhead : ∀ a t u, fieldText a ++ t ≠ '}' :: u := by
          intro a t u hu
          exact absurd (List.cons.inj hu).1 (by decide)
        obtain ⟨rfl, hrs⟩ := join_append_inj (by decide) (by decide) hhead hfield
          (List.cons.inj h).2
        exact ⟨rfl, hrs⟩
termination_by sizeOf v

/-- **The compact text determines the value.** -/
theorem toJson_injective {v w : Value} (h : toJson v = toJson w) : v = w := by
  refine (toJson_append_inj v w [] [] (by simp [Stops]) (by simp [Stops]) ?_).1
  rw [h]

/-! ## §6. The length of the text. -/

open String (utf8Len utf8Len_cons utf8Len_append)

/-- How many bytes a character takes inside a JSON string. -/
def charWidth (c : Char) : Nat :=
  if c = '"' ∨ c = '\\' ∨ c.toNat ∈ [8, 9, 10, 12, 13] then 2
  else if c.toNat < 32 then 6
  else c.utf8Size

def escapedWidth (s : Text) : Nat := (s.map charWidth).sum

theorem escapedWidth_cons (c : Char) (s : Text) :
    escapedWidth (c :: s) = charWidth c + escapedWidth s := rfl

theorem utf8Len_escapeChar (c : Char) : utf8Len (escapeChar c) = charWidth c := by
  have hhex : ∀ n < 16, (hexDigit n).utf8Size = 1 := by decide
  unfold escapeChar charWidth
  by_cases hquote : c = '"'
  · rw [if_pos hquote, if_pos (Or.inl hquote)]
    rfl
  by_cases hslash : c = '\\'
  · rw [if_neg hquote, if_pos hslash, if_pos (Or.inr (Or.inl hslash))]
    rfl
  rw [if_neg hquote, if_neg hslash]
  by_cases hshort : c.toNat ∈ [8, 9, 10, 12, 13]
  · rw [if_pos (Or.inr (Or.inr hshort))]
    simp only [List.mem_cons, List.not_mem_nil, or_false] at hshort
    rcases hshort with h | h | h | h | h <;> rw [h] <;> rfl
  · have hnone : ¬ (c = '"' ∨ c = '\\' ∨ c.toNat ∈ [8, 9, 10, 12, 13]) := by
      rintro (h | h | h)
      · exact hquote h
      · exact hslash h
      · exact hshort h
    rw [if_neg hnone]
    simp only [List.mem_cons, List.not_mem_nil, or_false, not_or] at hshort
    obtain ⟨h8, h9, h10, h12, h13⟩ := hshort
    rw [if_neg h8, if_neg h9, if_neg h10, if_neg h12, if_neg h13]
    by_cases hcontrol : c.toNat < 32
    · -- two hexadecimal digits after four characters
      rw [if_pos hcontrol, if_pos hcontrol]
      show 0 + (hexDigit (c.toNat % 16)).utf8Size + (hexDigit (c.toNat / 16)).utf8Size
        + 1 + 1 + 1 + 1 = 6
      rw [hhex (c.toNat / 16) (by omega), hhex (c.toNat % 16) (by omega)]
    · rw [if_neg hcontrol, if_neg hcontrol]
      show 0 + c.utf8Size = c.utf8Size
      omega

/-- **A string takes the bytes of its characters and two quotes.** -/
theorem utf8Len_jsonString (s : Text) : utf8Len (jsonString s) = escapedWidth s + 2 := by
  have hbody : utf8Len (s.flatMap escapeChar) = escapedWidth s := by
    induction s with
    | nil => rfl
    | cons c s ih => rw [List.flatMap_cons, utf8Len_append, utf8Len_escapeChar, ih, escapedWidth_cons]
  unfold jsonString
  rw [utf8Len_cons, utf8Len_append, utf8Len_cons, show ('"' : Char).utf8Size = 1 from rfl, hbody]
  show _ + (0 + 1) + 1 = _
  omega

theorem charWidth_le (c : Char) : c.utf8Size ≤ charWidth c ∧ charWidth c ≤ 6 * c.utf8Size := by
  have hpos := c.utf8Size_pos
  unfold charWidth
  by_cases hone : c.toNat < 128
  · have hsize : c.utf8Size = 1 := Char.utf8Size_eq_one_iff.mpr (Nat.le_of_lt_succ hone)
    rw [hsize]
    split
    · omega
    · split <;> omega
  · have hnone : ¬ (c = '"' ∨ c = '\\' ∨ c.toNat ∈ [8, 9, 10, 12, 13]) := by
      rintro (rfl | rfl | h)
      · exact hone (by decide)
      · exact hone (by decide)
      · simp only [List.mem_cons, List.not_mem_nil, or_false] at h
        omega
    rw [if_neg hnone, if_neg (by omega)]
    omega

/-- Escaping never shortens a text and at most makes it six times as long. -/
theorem escapedWidth_le (s : Text) : utf8Len s ≤ escapedWidth s ∧ escapedWidth s ≤ 6 * utf8Len s := by
  induction s with
  | nil => exact ⟨Nat.le_refl 0, Nat.le_refl 0⟩
  | cons c s ih =>
      have hc := charWidth_le c
      rw [escapedWidth_cons, utf8Len_cons]
      omega

theorem utf8Len_jsonString_le (s : Text) : utf8Len (jsonString s) ≤ 6 * utf8Len s + 2 := by
  have := (escapedWidth_le s).2
  rw [utf8Len_jsonString]
  omega

/-- Texts that are joined by commas. -/
theorem utf8Len_joined (texts : List Text) :
    utf8Len (List.intercalate [','] texts) = (texts.map utf8Len).sum + (texts.length - 1) := by
  cases texts with
  | nil => rfl
  | cons t ts =>
      have htail : utf8Len (ts.flatMap fun u => ',' :: u) = (ts.map utf8Len).sum + ts.length := by
        induction ts with
        | nil => rfl
        | cons u us ih =>
            rw [List.flatMap_cons, utf8Len_append, utf8Len_cons, ih, List.map_cons, List.sum_cons,
              List.length_cons, show (',' : Char).utf8Size = 1 from rfl]
            omega
      rw [intercalate_comma, utf8Len_append, htail, List.map_cons, List.sum_cons, List.length_cons]
      omega

theorem utf8Len_array (items : List Value) :
    utf8Len (toJson (.array items))
      = (items.map fun item => utf8Len (toJson item)).sum + (items.length - 1) + 2 := by
  rw [show toJson (.array items) = '[' :: (List.intercalate [','] (itemTexts items) ++ [']'])
    from rfl, utf8Len_cons, utf8Len_append, utf8Len_cons, show ('[' : Char).utf8Size = 1 from rfl,
    show (']' : Char).utf8Size = 1 from rfl, utf8Len_joined, itemTexts_eq_map, List.map_map,
    List.length_map]
  show (items.map fun item => utf8Len (toJson item)).sum + _ + (0 + 1) + 1 = _
  omega

/-- What a field takes: its name, a colon and its value. -/
def fieldWidth (field : Text × Value) : Nat :=
  utf8Len (jsonString field.1) + 1 + utf8Len (toJson field.2)

theorem utf8Len_object_eq (fields : List (Text × Value)) :
    utf8Len (toJson (.object fields))
      = (fields.map fieldWidth).sum + (fields.length - 1) + 2 := by
  have hfields : utf8Len ∘ fieldText = fieldWidth := by
    funext field
    show utf8Len (fieldText field) = _
    unfold fieldText fieldWidth
    rw [utf8Len_append, utf8Len_cons, show (':' : Char).utf8Size = 1 from rfl]
    omega
  unfold toJson
  rw [utf8Len_cons, utf8Len_append, utf8Len_cons, show ('{' : Char).utf8Size = 1 from rfl,
    show ('}' : Char).utf8Size = 1 from rfl, utf8Len_joined, fieldTexts_eq_map, List.map_map,
    List.length_map, hfields]
  show _ + (0 + 1) + 1 = _
  omega

/-- An object is no longer than its fields, if none is longer than `n`. -/
theorem utf8Len_object {fields : List (Text × Value)} {n : Nat}
    (h : ∀ field ∈ fields, utf8Len (jsonString field.1) + utf8Len (toJson field.2) ≤ n) :
    utf8Len (toJson (.object fields)) ≤ fields.length * (n + 2) + 2 := by
  have hsum : (fields.map fieldWidth).sum ≤ fields.length * (n + 1) := by
    induction fields with
    | nil => exact Nat.zero_le _
    | cons field fields ih =>
        have hhead := h field List.mem_cons_self
        have htail := ih fun f hf => h f (List.mem_cons_of_mem _ hf)
        rw [List.map_cons, List.sum_cons, List.length_cons, Nat.add_mul]
        unfold fieldWidth at *
        omega
  rw [utf8Len_object_eq, Nat.mul_add] at *
  omega

end Value

end QingzhouSSH
