import Mathlib.Data.List.Infix
import Simlock.Core.Domain
import Simlock.Lib.Number

/-! OS constraints, and which physical device fits a request.

    A constraint is a bare version, which is exact, or a range: comparators joined by single spaces,
    or `A - B` for `>=A <=B`. A version is read as its segments, each the number its text spells;
    one that spells none is NaN. -/

namespace Simlock.Core

open Simlock.Lib (Number)

/-! ### Versions -/

def segments (version : List Char) : List Number := (version.splitOn '.').map Number.read

/-- `/^\d+(?:\.\d+)*$/`. -/
def isVersion (text : List Char) : Bool :=
  (text.splitOn '.').all fun segment => !segment.isEmpty && segment.all Char.isDigit

/-- A missing segment reads as 0. -/
def segmentAt (xs : List Number) (n : Nat) : Number := xs[n]?.getD (.finite 0)

/-- The first difference that is not 0, which may be NaN. -/
def compareSegments (left right : List Number) : Number :=
  let differences := (List.range (max left.length right.length)).map fun n =>
    (segmentAt left n).sub (segmentAt right n)
  (differences.find? fun difference => difference.sign ≠ some .eq).getD (.finite 0)

/-- Orders dotted integers: below 0 when `left` is older. -/
def compareVersions (left right : String) : Number :=
  compareSegments (segments left.toList) (segments right.toList)

/-- The next version of the same precision. -/
def bump (version : List Number) : List Number :=
  version.mapIdx fun index part =>
    if index + 1 = version.length then part.add (Number.ofNat 1) else part

/-! ### Constraints -/

/-- A version at or above `from_`, and below `before` when it has one. -/
structure Bound where
  from_ : Option (List Number)
  before : Option (List Number)
  deriving DecidableEq

inductive OsConstraint where
  | exact (version : String)
  | range (text : String) (bounds : List Bound)
  deriving DecidableEq

inductive Comparator where
  | atLeast | above | atMost | below
  deriving DecidableEq, Repr

def Comparator.text : Comparator → List Char
  | .atLeast => ['>', '=']
  | .above => ['>']
  | .atMost => ['<', '=']
  | .below => ['<']

def comparatorBound (operator : Comparator) (version : List Number) : Bound :=
  match operator with
  | .atLeast => ⟨some version, none⟩
  | .above => ⟨some (bump version), none⟩
  | .atMost => ⟨none, some (bump version)⟩
  | .below => ⟨none, some version⟩

/-- Written as a range rather than as a version. -/
def looksLikeRange (text : List Char) : Bool :=
  text.head?.any (fun c => c = '<' || c = '>' || c = '=') ||
    decide ([' ', '-', ' '] <:+: text) || text.contains '^' || text.contains '~' ||
    text.contains '*' || decide (['|', '|'] <:+: text) ||
    (text.splitOn '.').any fun segment => segment = ['x'] || segment = ['X']

/-- `A - B`: neither version has a space of its own. -/
def hyphenBounds (text : List Char) : Option (List Bound) :=
  match text.splitOn ' ' with
  | [from_, ['-'], last] =>
    if isVersion from_ && isVersion last then
      some [comparatorBound .atLeast (segments from_), comparatorBound .atMost (segments last)]
    else none
  | _ => none

/-- An operator and a version right after it. -/
def tokenBound (token : List Char) : Option Bound := do
  let operator ← [Comparator.atLeast, .above, .atMost, .below].find? fun c =>
    c.text.isPrefixOf token
  let version := token.drop operator.text.length
  if isVersion version then some (comparatorBound operator (segments version)) else none

/-- One or more comparators joined by single spaces. -/
def comparatorBounds (text : List Char) : Option (List Bound) :=
  (text.splitOn ' ').mapM tokenBound

/-- `none` is a refused text. -/
def parseOsConstraint (text : String) : Option OsConstraint :=
  if text = "" then none
  else if !looksLikeRange text.toList then some (.exact text)
  else ((hyphenBounds text.toList).or (comparatorBounds text.toList)).map (.range text)

/-- What lies within a bound. -/
def Bound.takes (bound : Bound) (parts : List Number) : Bool :=
  (bound.from_.all fun from_ => (compareSegments parts from_).notBelowZero) &&
    bound.before.all fun before => (compareSegments parts before).belowZero

/-- A bare version is equal; a range takes what lies within each of its bounds. -/
def satisfies (version : String) : OsConstraint → Bool
  | .exact exact => exact = version
  | .range _ bounds => bounds.all fun bound => bound.takes (segments version.toList)

/-! ### Physical devices -/

def PhysicalClass.deviceClass : PhysicalClass → DeviceClass
  | .phone => .phone
  | .tablet => .tablet

/-- `fitsPhysical`: the model whatever its case, or the class, a phone when none is asked. -/
def fitsPhysical (device : PhysicalDevice) (request : DeviceRequest) : Bool :=
  device.spec.platform = request.platform &&
    (match request.model with
      | none => device.spec.class_.deviceClass = request.class_.getD .phone
      | some model => device.spec.model.toLower = model.toLower) &&
    match request.osVersion with
    | none => true
    | some asked => (parseOsConstraint asked).any fun c => satisfies device.spec.osVersion c

example : (parseOsConstraint ">=18 <26.1").map (fun c => (satisfies "18.4" c, satisfies "26.1" c)) =
    some (true, false) := by decide +kernel

/-! ### A request that no enrolled device can match -/

def Platform.name : Platform → String
  | .ios => "ios"
  | .android => "android"

def DeviceClass.name : DeviceClass → String
  | .phone => "phone"
  | .tablet => "tablet"
  | .watch => "watch"
  | .tv => "tv"
  | .vision => "vision"
  | .auto => "auto"
  | .desktop => "desktop"

/-- A range is not echoed. -/
def osPhrase : Option String → List String
  | none => []
  | some osVersion =>
    match parseOsConstraint osVersion with
    | some (.range ..) => ["os in the requested range"]
    | _ => ["os " ++ osVersion]

def dotted (parts : List Nat) : String := ".".intercalate (parts.map toString)

/-- From `2^53` on the parts are doubles, which print otherwise. -/
def rangeAround (osVersion : List Char) : String :=
  let parts := (osVersion.splitOn '.').map Number.decimal
  let raised := parts.mapIdx fun index part =>
    if index + 1 = parts.length then part + 1 else part
  ">=" ++ dotted parts ++ " <" ++ dotted raised

/-- The message of `noPhysicalMatch`. -/
def noPhysicalMatch (request : DeviceRequest) : String :=
  let named := (match request.model with
    | none => "class " ++ (request.class_.getD .phone).name
    | some model => "model " ++ model) :: osPhrase request.osVersion
  let range := match request.platform, request.osVersion with
    | .ios, some osVersion =>
      if isVersion osVersion.toList && (osVersion.toList.splitOn '.').length ≤ 2 then
        "; --os is exact, for any " ++ osVersion ++ ".x write --os \"" ++
          rangeAround osVersion.toList ++ "\""
      else ""
    | _, _ => ""
  "no enrolled physical device can match " ++ request.platform.name ++ " " ++
    " ".intercalate named ++ range

end Simlock.Core
