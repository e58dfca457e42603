/-
  QingzhouSSH.Lib.Net — textual IP addresses and unsigned decimals.

  The address grammar is the one of the standard parsers: four decimal octets
  without leading zeros, or up to eight hexadecimal groups with one `::` and an
  optional trailing IPv4 part.  A reader takes a text and returns what it read
  with the rest of the text.
-/
import Mathlib.Data.List.Basic

namespace QingzhouSSH.Lib.Net

/-! ## §1. Numbers. -/

def digitValue (radix : Nat) (c : Char) : Option Nat :=
  let v :=
    if '0' ≤ c ∧ c ≤ '9' then c.toNat - 48
    else if 'a' ≤ c ∧ c ≤ 'z' then c.toNat - 87
    else if 'A' ≤ c ∧ c ≤ 'Z' then c.toNat - 55
    else radix
  if v < radix then some v else none

/-- The longest run of digits at the start of a text, as values. -/
def readDigits (radix : Nat) : List Char → List Nat × List Char
  | [] => ([], [])
  | c :: s =>
      match digitValue radix c with
      | none => ([], c :: s)
      | some v => (v :: (readDigits radix s).1, (readDigits radix s).2)

def ofDigits (radix : Nat) (digits : List Nat) : Nat :=
  digits.foldl (fun n d => n * radix + d) 0

/-- `str::parse` of an unsigned integer below `bound`: an optional plus sign, then digits only. -/
def parseUnsigned (bound : Nat) (s : List Char) : Option Nat :=
  let body := match s with
    | '+' :: rest => rest
    | _ => s
  match readDigits 10 body with
  | (d :: digits, []) =>
      let n := ofDigits 10 (d :: digits)
      if n < bound then some n else none
  | _ => none

theorem readDigits_digits {s : List Char} (h : ∀ c ∈ s, c.isDigit = true) :
    readDigits 10 s = (s.map fun c => c.toNat - 48, []) := by
  induction s with
  | nil => rfl
  | cons c s ih =>
      have hdigit := h c List.mem_cons_self
      have hbetween : '0' ≤ c ∧ c ≤ '9' := by
        simp only [Char.isDigit, Bool.and_eq_true, decide_eq_true_eq] at hdigit
        exact hdigit
      have hsmall : c.toNat - 48 < 10 := by
        have h9 : c.toNat ≤ 57 := hbetween.2
        omega
      unfold readDigits digitValue
      rw [if_pos hbetween]
      dsimp only
      rw [if_pos hsmall, ih fun d hd => h d (List.mem_cons_of_mem _ hd)]
      rfl

theorem ofDigits_values (s : List Char) :
    ofDigits 10 (s.map fun c => c.toNat - 48) = Nat.ofDigitChars 10 s 0 := by
  unfold ofDigits
  rw [List.foldl_map, Nat.ofDigitChars_eq_foldl]
  congr 1
  funext n c
  show n * 10 + (c.toNat - 48) = 10 * n + (c.toNat - 48)
  omega

/-- **A number that is printed is parsed again.** -/
theorem parseUnsigned_toDigits {bound n : Nat} (h : n < bound) :
    parseUnsigned bound (Nat.toDigits 10 n) = some n := by
  have hdigits : ∀ c ∈ Nat.toDigits 10 n, c.isDigit = true := fun c hc =>
    Nat.isDigit_of_mem_toDigits (by omega) (by omega) hc
  have hread := readDigits_digits hdigits
  have hvalue := ofDigits_values (Nat.toDigits 10 n)
  rw [Nat.ofDigitChars_ten_toDigits] at hvalue
  unfold parseUnsigned
  cases hprinted : Nat.toDigits 10 n with
  | nil => exact absurd hprinted Nat.toDigits_ne_nil
  | cons c s =>
      rw [hprinted] at hread hvalue hdigits
      have hplus : c ≠ '+' := by
        rintro rfl
        exact absurd (hdigits '+' List.mem_cons_self) (by decide)
      have hbody : (match c :: s with
          | '+' :: rest => rest
          | _ => c :: s) = c :: s := by
        split
        next rest heq => exact absurd (List.cons.inj heq).1 hplus
        next => rfl
      rw [hbody]
      show (match readDigits 10 (c :: s) with
        | (d :: rest, []) => _
        | _ => _) = _
      rw [hread]
      show (if ofDigits 10 ((c :: s).map fun c => c.toNat - 48) < bound then _ else _) = _
      rw [hvalue, if_pos h]
      exact congrArg some hvalue

theorem digits_of_readDigits {radix : Nat} {s : List Char} (h : (readDigits radix s).2 = []) :
    ∀ c ∈ s, (digitValue radix c).isSome = true := by
  induction s with
  | nil => exact fun _ hc => absurd hc List.not_mem_nil
  | cons c s ih =>
      unfold readDigits at h
      cases hvalue : digitValue radix c with
      | none =>
          rw [hvalue] at h
          cases h
      | some v =>
          rw [hvalue] at h
          refine List.forall_mem_cons.mpr ⟨?_, ih h⟩
          rw [hvalue]
          rfl

/-- What is parsed consists of digits, but for the sign. -/
theorem digits_of_parseUnsigned {bound : Nat} {s : List Char}
    (h : (parseUnsigned bound s).isSome = true) :
    ∀ c ∈ s, c = '+' ∨ (digitValue 10 c).isSome = true := by
  have hbody : ∀ body, (match readDigits 10 body with
      | (d :: digits, []) =>
          let n := ofDigits 10 (d :: digits)
          if n < bound then some n else none
      | _ => none).isSome = true → (readDigits 10 body).2 = [] := by
    intro body hsome
    split at hsome
    next heq => rw [heq]
    next => cases hsome
  intro c hc
  unfold parseUnsigned at h
  have hdigits := digits_of_readDigits (hbody _ h)
  cases s with
  | nil => exact absurd hc List.not_mem_nil
  | cons first rest =>
      by_cases hplus : first = '+'
      · subst hplus
        rcases List.mem_cons.mp hc with rfl | hrest
        · exact .inl rfl
        · exact .inr (hdigits c hrest)
      · refine .inr (hdigits c ?_)
        split
        next heq => exact absurd (List.cons.inj heq).1 hplus
        next => exact hc

/-- A number of at most `maxDigits` digits below `bound`. -/
def readNumber (radix maxDigits bound : Nat) (leadingZero : Bool) (s : List Char) :
    Option (Nat × List Char) :=
  let r := readDigits radix s
  match r.1 with
  | [] => none
  | d :: rest =>
      let n := ofDigits radix (d :: rest)
      if maxDigits < (d :: rest).length || bound ≤ n then none
      else if !leadingZero && d == 0 && !rest.isEmpty then none
      else some (n, r.2)

/-! ## §2. Addresses. -/

inductive IpAddr where
  | v4 (octets : List Nat)
  | v6 (groups : List Nat)
  deriving Repr, DecidableEq

def IpAddr.isIpv4 : IpAddr → Bool
  | .v4 _ => true
  | .v6 _ => false

def readChar (c : Char) : List Char → Option (List Char)
  | [] => none
  | d :: s => if d = c then some s else none

/-- The octets after the first `i`: each is preceded by a dot unless it is the first. -/
def readOctets : Nat → Bool → List Char → Option (List Nat × List Char)
  | 0, _, s => some ([], s)
  | k + 1, first, s => do
      let s ← if first then some s else readChar '.' s
      let (n, s) ← readNumber 10 3 256 false s
      let (rest, s) ← readOctets k false s
      some (n :: rest, s)

def readIpv4 (s : List Char) : Option (List Nat × List Char) := readOctets 4 true s

/-- The separator before group `i`. -/
def readSeparator (first : Bool) (s : List Char) : Option (List Char) :=
  if first then some s else readChar ':' s

/-- Up to `limit` groups; a trailing IPv4 address counts as two.  The flag says
whether one was read. -/
def readGroups : Nat → Bool → List Char → List Nat × Bool × List Char
  | 0, _, s => ([], false, s)
  | limit + 1, first, s =>
      match (if 1 ≤ limit then (readSeparator first s).bind readIpv4 else none) with
      | some (octets, rest) =>
          match octets with
          | [a, b, c, d] => ([a * 256 + b, c * 256 + d], true, rest)
          | _ => ([], false, s)
      | none =>
          match (readSeparator first s).bind (readNumber 16 4 65536 true) with
          | none => ([], false, s)
          | some (g, rest) =>
              let r := readGroups limit false rest
              (g :: r.1, r.2)

def readIpv6 (s : List Char) : Option (List Nat × List Char) :=
  let (head, headIpv4, s) := readGroups 8 true s
  if head.length = 8 then some (head, s)
  else if headIpv4 then none
  else do
    let s ← readChar ':' s
    let s ← readChar ':' s
    let (tail, _, s) := readGroups (8 - (head.length + 1)) true s
    some (head ++ List.replicate (8 - head.length - tail.length) 0 ++ tail, s)

/-- `IpAddr::from_str`: an address and nothing after it. -/
def parseIpAddr (s : List Char) : Option IpAddr :=
  match readIpv4 s with
  | some (octets, []) => some (.v4 octets)
  | some _ => none
  | none =>
      match readIpv6 s with
      | some (groups, []) => some (.v6 groups)
      | _ => none

example : parseIpAddr "192.168.0.7".toList = some (.v4 [192, 168, 0, 7]) := by decide

example : parseIpAddr "fe80::1:10.0.0.1".toList
    = some (.v6 [0xfe80, 0, 0, 0, 0, 1, 0x0a00, 1]) := by decide

/-! ## §3. Printing. -/

def showIpv4 (octets : List Nat) : List Char :=
  List.intercalate ['.'] (octets.map (Nat.toDigits 10))

def showGroups (groups : List Nat) : List Char :=
  List.intercalate [':'] (groups.map (Nat.toDigits 16))

/-- The start and the length of the first longest run of zeroes.  The arguments are the
index of the next group, the run that is open and the longest one so far. -/
def longestZeroes : Nat → Nat × Nat → Nat × Nat → List Nat → Nat × Nat
  | _, _, longest, [] => longest
  | i, current, longest, g :: groups =>
      if g = 0 then
        let current := (if current.2 = 0 then i else current.1, current.2 + 1)
        longestZeroes (i + 1) current (if longest.2 < current.2 then current else longest) groups
      else longestZeroes (i + 1) (0, 0) longest groups

def showIpv6 (groups : List Nat) : List Char :=
  match groups with
  -- an IPv4-mapped address
  | [0, 0, 0, 0, 0, 0xffff, a, b] =>
      "::ffff:".toList ++ showIpv4 [a / 256, a % 256, b / 256, b % 256]
  | _ =>
      let zeroes := longestZeroes 0 (0, 0) (0, 0) groups
      if 1 < zeroes.2 then
        showGroups (groups.take zeroes.1) ++ "::".toList
          ++ showGroups (groups.drop (zeroes.1 + zeroes.2))
      else showGroups groups

/-- `IpAddr::to_string`. -/
def showIpAddr : IpAddr → List Char
  | .v4 octets => showIpv4 octets
  | .v6 groups => showIpv6 groups

example : (parseIpAddr "FE80:0::0:10.0.0.1".toList).map showIpAddr
    = some "fe80::a00:1".toList := by decide

end QingzhouSSH.Lib.Net
