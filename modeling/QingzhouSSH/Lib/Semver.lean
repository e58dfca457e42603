/-
  QingzhouSSH.Lib.Semver — versions, their precedence and their total order.

  A version is three numbers, the identifiers of a pre-release and those of the build.
  Precedence looks at the numbers and the pre-release; the total order goes on with the
  build, so that versions with the same precedence can still be told apart.

  Main result: `Version.cmp_eq_gt` — when a version comes later in the total order.
-/
import Mathlib.Algebra.Group.Nat.Defs
import Mathlib.Data.List.Basic

namespace QingzhouSSH.Lib.Semver

/-! ## §1. Versions. -/

structure Version where
  major : Nat
  minor : Nat
  patch : Nat
  pre : List (List Char)
  build : List (List Char)
  deriving Repr, DecidableEq

def isNumeric (identifier : List Char) : Bool := identifier.all Char.isDigit

/-- No needless zero in front. -/
def isNumber (identifier : List Char) : Bool :=
  isNumeric identifier && (identifier == ['0'] || identifier.head?.any fun c => c != '0')

def isIdentifier (identifier : List Char) : Bool :=
  !identifier.isEmpty && identifier.all fun c => c.isAlphanum || c == '-'

def numberOf (identifier : List Char) : Nat :=
  identifier.foldl (fun n c => 10 * n + (c.toNat - 48)) 0

/-- A number that fits into 64 bits. -/
def readNumber (identifier : List Char) : Option Nat :=
  if isNumber identifier && decide (numberOf identifier < 2 ^ 64) then some (numberOf identifier)
  else none

/-- What stands before a character and, where there is one, behind it. -/
def cutAt (c : Char) (text : List Char) : List Char × Option (List Char) :=
  (text.takeWhile (· != c), (text.dropWhile (· != c)).tail?)

def identifiers : Option (List Char) → List (List Char)
  | none => []
  | some text => text.splitOn '.'

/-- The grammar of versions. -/
def parse (text : List Char) : Option Version := do
  let (front, build) := cutAt '+' text
  let (core, pre) := cutAt '-' front
  match core.splitOn '.' with
  | [major, minor, patch] =>
      let major ← readNumber major
      let minor ← readNumber minor
      let patch ← readNumber patch
      let validPre := (identifiers pre).all fun identifier =>
        isIdentifier identifier && (!isNumeric identifier || isNumber identifier)
      if validPre && (identifiers build).all isIdentifier then
        some { major := major, minor := minor, patch := patch
               pre := identifiers pre, build := identifiers build }
      else none
  | _ => none

/-! ## §2. Orders. -/

/-- Numbers by their value and below words, words by their characters. -/
def compareIdentifiers (a b : List Char) : Ordering :=
  match isNumeric a, isNumeric b with
  | true, true => compare (numberOf a) (numberOf b)
  | true, false => .lt
  | false, true => .gt
  | false, false => List.compareLex compare a b

/-- A pre-release comes before the release. -/
def comparePre : List (List Char) → List (List Char) → Ordering
  | [], [] => .eq
  | [], _ => .gt
  | _, [] => .lt
  | a, b => List.compareLex compareIdentifiers a b

/-- Builds tell leading zeros apart. -/
def compareBuild (a b : List (List Char)) : Ordering :=
  List.compareLex (fun s t => (compareIdentifiers s t).then (compare s.length t.length)) a b

namespace Version

variable (v w : Version)

/-- Precedence: the build does not count. -/
def precedence : Ordering :=
  (compare v.major w.major).then <| (compare v.minor w.minor).then <|
    (compare v.patch w.patch).then (comparePre v.pre w.pre)

/-- The total order: among versions of one precedence, the build counts. -/
def cmp : Ordering := (v.precedence w).then (compareBuild v.build w.build)

/-- **When a version comes later in the total order.** -/
theorem cmp_eq_gt : v.cmp w = .gt
    ↔ v.precedence w = .gt ∨ v.precedence w = .eq ∧ compareBuild v.build w.build = .gt :=
  Ordering.then_eq_gt

end Version

end QingzhouSSH.Lib.Semver
