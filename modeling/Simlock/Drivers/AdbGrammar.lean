import Mathlib.Data.List.Basic

/-! How adb reads a command line.

    Globals stand before the subcommand and are read left to right, the last of a kind winning; the
    first other word is the subcommand, with all that follows as its operands. A `wait-for-…`
    command is followed by the command to go on with. `emu` joins its operands with spaces into one
    line of the emulator's console, which reads it word by word.

        adb  -P 5137 -s emulator-5554  wait-for-device  shell id
             ─────── globals ────────  ──── and then ──── -/

namespace Simlock.Android

/-! ### Globals -/

/-- What selects a device. -/
inductive Selector where
  | serial (serial : String)
  | transport (id : String)
  | usb
  | emulator
  deriving DecidableEq, Repr

/-- Where adb's server is, and the device it is asked for. -/
structure Globals where
  port : Option String
  host : Option String
  socket : Option String
  device : Option Selector
  deriving DecidableEq, Repr

def noGlobals : Globals := ⟨none, none, none, none⟩

inductive GlobalKind where
  | alone | valued
  deriving DecidableEq, Repr

def begins (start text : String) : Bool := start.toList.isPrefixOf text.toList

/-- The globals adb knows. -/
def globalKind (argument : String) : Option GlobalKind :=
  if argument = "-s" || argument = "-t" || argument = "-P" || argument = "-H" || argument = "-L" then
    some .valued
  else if argument = "-d" || argument = "-e" || begins "-t" argument then some .alone
  else none

def Globals.withAlone (globals : Globals) (argument : String) : Globals :=
  if argument = "-d" then { globals with device := some .usb }
  else if argument = "-e" then { globals with device := some .emulator }
  else { globals with device := some (.transport (String.ofList (argument.toList.drop 2))) }

def Globals.withValue (globals : Globals) (argument value : String) : Globals :=
  if argument = "-s" then { globals with device := some (.serial value) }
  else if argument = "-t" then { globals with device := some (.transport value) }
  else if argument = "-P" then { globals with port := some value }
  else if argument = "-H" then { globals with host := some value }
  else { globals with socket := some value }

/-- The globals, and the subcommand with its operands; `none` is a global without its value. -/
def readGlobals : List String → Globals → Option (Globals × List String)
  | [], globals => some (globals, [])
  | argument :: rest, globals =>
    match globalKind argument with
    | none => some (globals, argument :: rest)
    | some .alone => readGlobals rest (globals.withAlone argument)
    | some .valued =>
      match rest with
      | [] => none
      | value :: rest => readGlobals rest (globals.withValue argument value)

/-! ### Commands -/

def waits (subcommand : String) : Bool := begins "wait-for-" subcommand

/-- The commands that are run one after the other: each `wait-for-…`, and what follows it. -/
def commandsOf : List String → List (List String)
  | [] => []
  | subcommand :: rest =>
    if waits subcommand then (subcommand :: rest) :: commandsOf rest else [subcommand :: rest]

/-! ### The emulator's console -/

/-- White space. -/
def isSpace (c : Char) : Bool :=
  c.toNat ∈ [9, 10, 11, 12, 13, 32, 0xa0, 0x1680, 0x2028, 0x2029, 0x202f, 0x205f, 0x3000, 0xfeff] ||
    (0x2000 ≤ c.toNat && c.toNat ≤ 0x200a)

/-- Lower case, for the characters whose lower case is a Latin letter: A to Z and the Kelvin sign. -/
def lowerCase (c : Char) : Char := if c.toNat = 0x212a then 'k' else c.toLower

/-- The words of a text. -/
def wordsOf (text : List Char) : List (List Char) := (text.splitOnP isSpace).filter (· ≠ [])

/-- The console line of `emu` with these operands. -/
def consoleLine (operands : List String) : List Char :=
  List.intercalate [' '] (operands.map String.toList)

/-- The words the console sees, whatever their case. -/
def consoleWords (operands : List String) : List (List Char) :=
  wordsOf ((consoleLine operands).map lowerCase)

/-- The words stand in the line, one after the other, and not before a word that is allowed. -/
def Says (words phrase allowedNext : List (List Char)) : Prop :=
  ∃ front back, words = front ++ phrase ++ back ∧ ∀ next ∈ back.head?, next ∉ allowedNext

theorem lowerCase_space : lowerCase ' ' = ' ' := by decide

/-- A space between texts splits the words like the end of each text does. -/
theorem wordsOf_intercalate :
    ∀ texts : List (List Char), wordsOf (List.intercalate [' '] texts) = texts.flatMap wordsOf
  | [] => by simp [wordsOf]
  | [text] => by simp [List.intercalate]
  | text :: next :: texts => by
    have hline : List.intercalate [' '] (text :: next :: texts) =
        text ++ ' ' :: List.intercalate [' '] (next :: texts) := by
      simp [List.intercalate, List.intersperse]
    have ih := wordsOf_intercalate (next :: texts)
    rw [List.flatMap_cons, ← ih, hline, wordsOf, wordsOf, wordsOf,
      List.splitOnP_append_cons _ _ (by decide), List.filter_append]

/-- The console's words are those of the operands, each read on its own. -/
theorem consoleWords_eq (operands : List String) :
    consoleWords operands =
      operands.flatMap fun operand => wordsOf (operand.toList.map lowerCase) := by
  have hmap : (consoleLine operands).map lowerCase =
      List.intercalate [' '] (operands.map fun operand => operand.toList.map lowerCase) := by
    induction operands with
    | nil => rfl
    | cons operand operands ih =>
      cases operands with
      | nil => simp [consoleLine, List.intercalate]
      | cons next operands =>
        simp only [consoleLine, List.map_cons, List.intercalate, List.intersperse,
          List.flatten_cons, List.map_append] at ih ⊢
        rw [ih]
        simp [lowerCase_space]
  rw [consoleWords, hmap, wordsOf_intercalate, List.flatMap_map]

/-- A line that stops the emulator, or may touch its snapshots. -/
def Forbidden (words : List (List Char)) : Prop :=
  Says words ["kill".toList] [] ∨ Says words ["avd".toList, "stop".toList] [] ∨
    Says words ["avd".toList, "snapshot".toList] ["list".toList]

end Simlock.Android
