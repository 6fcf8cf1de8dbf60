import Simlock.Drivers.AdbGrammar

/-! What `simlock adb` lets through to an emulator.

    One walk of the globals finds the subcommand; the checks for a bare shell, `disconnect` and the
    console's words all read the subcommand it finds, and `kill-server` is refused anywhere. Then
    the lease's serial is put in front and Simlock's server port before that.

    adb goes on with the command after a `wait-for-…` word, and the walk stops at that word: what
    follows it is given the lease's serial like any other command, but is not checked for
    `disconnect` or the console's words. Every other line that is let through is contained. -/

namespace Simlock.Android

/-! ### Refusals -/

/-- A refused command: the tool, and what the caller is told. -/
structure Refusal where
  tool : String
  message : String
  deriving DecidableEq, Repr

def reclaimInstead : String :=
  "Use `simlock release` (which deletes the device for you) or `simlock cleanup` instead."

def stopsARunningDevice : String :=
  "it stops a device Simlock still believes is running, which reports as drift on the next " ++
    "reconcile."

/-- The one refusal of a command that names another device. -/
def otherDeviceRefusal (tool : String) (args : List String) (named own : String) : Refusal :=
  ⟨tool, "Refusing `" ++ " ".intercalate (tool :: args) ++ "`: it names device " ++ named ++
    ", and this lease holds " ++ own ++ ". Leave the device out; Simlock fills it in."⟩

/-! ### The walk of the globals -/

def selfContainedActions : List String := ["--version", "--help"]

inductive Arity where
  | none | value
  deriving DecidableEq, Repr

def allowedGlobalArity (argument : String) : Option Arity :=
  if argument = "-d" || argument = "-e" then some .none
  else if argument = "-s" then some .value
  else if argument = "-t" then some .value
  else if begins "-t" argument && argument.length > 2 then some .none
  else none

inductive GlobalsWalk where
  | subcommand (index : Nat)
  | refused (argument : String)
  | none
  deriving DecidableEq, Repr

/-- The walk from here on, of a line of `count` arguments. -/
def walkFrom (count : Nat) : List String → Nat → GlobalsWalk
  | [], _ => .none
  | argument :: rest, index =>
    if !begins "-" argument then .subcommand index
    else if argument ∈ selfContainedActions then
      if count = 1 then .subcommand index else .refused argument
    else
      match allowedGlobalArity argument with
      | none => .refused argument
      | some .none => walkFrom count rest (index + 1)
      | some .value =>
        match rest with
        | [] => .none
        | _ :: rest => walkFrom count rest (index + 2)

def walkGlobals (args : List String) : GlobalsWalk := walkFrom args.length args 0

/-! ### The device -/

def noDeviceSubcommands : List String :=
  ["devices", "help", "version", "connect", "disconnect", "pair", "mdns", "keygen",
    "start-server", "kill-server", "--version", "--help"]

/-- The subcommand, with its operands, acts on no device. -/
def actsOnNoDevice : List String → Bool
  | [] => false
  | subcommand :: operands =>
    if subcommand ∈ noDeviceSubcommands then true
    else if subcommand = "forward" then operands.head? = some "--list"
    else subcommand = "reconnect" && operands.head? = some "offline"

/-- The globals, `left` arguments of them, name this serial; any other selector is refused. -/
def namesOwnSerial (args : List String) (serial : String) :
    List String → Nat → Bool → Except Refusal Bool
  | [], _, named => .ok named
  | _, 0, named => .ok named
  | flag :: rest, left + 1, _ =>
    let value := if flag = "-s" || flag = "-t" then rest.head? else none
    if flag ≠ "-s" || value ≠ some serial then
      .error (otherDeviceRefusal "adb" args
        (match value with
        | none => flag
        | some value => flag ++ " " ++ value) serial)
    else
      match rest with
      | [] => .ok true
      | _ :: rest => namesOwnSerial args serial rest (left - 1) true

/-- Puts the serial in front, unless no device is needed or it stands there. -/
def fillAdbDevice (args : List String) (serial : String) : Except Refusal (List String) :=
  match walkGlobals args with
  | .subcommand index =>
    if actsOnNoDevice (args.drop index) then .ok args
    else
      match namesOwnSerial args serial args index false with
      | .error refusal => .error refusal
      | .ok named => .ok (if named then args else "-s" :: serial :: args)
  | _ => .ok args

/-! ### The checks -/

structure RefusedSequence where
  sequence : List String
  allowedNext : Option (List String)
  reason : String

def refusedAdbSequences : List RefusedSequence :=
  [⟨["emu", "kill"], none, stopsARunningDevice⟩,
    ⟨["emu", "avd", "stop"], none, stopsARunningDevice⟩,
    ⟨["emu", "avd", "snapshot"], some ["list"],
      "it can replace or destroy the boot snapshot Simlock starts this device from."⟩]

def isBareShell (args : List String) : Bool :=
  match walkGlobals args with
  | .subcommand index => args[index]? = some "shell" && index = args.length - 1
  | _ => false

/-- The operands of `emu`, as words in lower case. -/
def operandWords (operands : List String) : List (List Char) :=
  operands.flatMap fun operand => wordsOf (operand.toList.map lowerCase)

/-- The word after a sequence does not save it. -/
def refusedBefore (allowedNext : Option (List (List Char))) (next : Option (List Char)) : Bool :=
  match allowedNext with
  | none => true
  | some allowed =>
    match next with
    | none => true
    | some next => next ∉ allowed

/-- The words stand in a row at some index, with no allowed word after them. -/
def saysWords (words phrase : List (List Char)) (allowedNext : Option (List (List Char))) : Bool :=
  (List.range words.length).any fun index =>
    (phrase.zipIdx.all fun token => words[index + token.2]? = some token.1) &&
      refusedBefore allowedNext words[index + phrase.length]?

/-- The operands of `emu` say the words of the sequence after `emu` itself. -/
def RefusedSequence.says (refused : RefusedSequence) (operands : List String) : Bool :=
  saysWords (operandWords operands) ((refused.sequence.drop 1).map String.toList)
    (refused.allowedNext.map fun words => words.map String.toList)

def containsSequence (args : List String) (refused : RefusedSequence) : Bool :=
  match walkGlobals args with
  | .subcommand index => args[index]? = some "emu" && refused.says (args.drop (index + 1))
  | _ => false

def refusedSequenceMessage (args : List String) : Option String :=
  (refusedAdbSequences.find? (containsSequence args)).map fun refused =>
    let qualifier :=
      match refused.allowedNext with
      | none => ""
      | some words => " (anything but " ++ ", ".intercalate words ++ ")"
    "Refusing `simlock adb " ++ " ".intercalate refused.sequence ++ qualifier ++ "`: " ++
      refused.reason ++ " " ++ reclaimInstead

def callerSuppliedScopeFlag (args : List String) : Option String :=
  match walkGlobals args with
  | .refused argument => some argument
  | _ => none

/-! ### The passthrough -/

/-- Who asks: with a terminal or without, and the platform of the lease. -/
structure Context where
  hasTerminal : Bool
  platform : Option String

structure PassthroughCommand where
  command : String
  args : List String
  env : List (String × String)
  deriving DecidableEq, Repr

/-- The device of the lease: a phone by its serial, or an emulator by its address. -/
inductive LeasedDevice where
  | physical (serial : String)
  | emulator (address : String)

structure PassthroughRulesOptions where
  adb : String
  adbServerPort : Nat
  platform : String
  physicalPassthrough :
    String → List String → Option Context → Except Refusal PassthroughCommand

def killServerMessage : String :=
  "Refusing `simlock adb kill-server`: it would detach every leased emulator at once. " ++
    "Use `simlock release` to give a device back, or `simlock cleanup` to reclaim idle ones."

def disconnectMessage : String :=
  "Refusing `simlock adb disconnect`: it would detach other leased emulators, which adb treats " ++
    "as connections it can drop. Use `simlock release` to give a device back, or " ++
    "`simlock cleanup` to reclaim idle ones."

def bareShellMessage : String :=
  "Refusing `simlock adb shell` with no command: an interactive shell needs a terminal, and " ++
    "this one runs on the device's own machine with none. Pass the command to run " ++
    "(`simlock adb shell getprop`), or run `simlock adb shell` on that machine."

def scopeFlagMessage (flag : String) : String :=
  "Refusing `simlock adb " ++ flag ++ "`: `simlock adb` supplies the adb server itself, and only " ++
    "allows `-s`/`-t`/`-d`/`-e` ahead of the subcommand -- anything else there, whether it is a " ++
    "known way to move the server or one this driver does not recognize, might point the command " ++
    "at a server that cannot see Simlock's devices, or at one it must not touch. Drop the flag " ++
    "-- the command is already scoped -- or run `adb` directly if you mean to leave Simlock's " ++
    "server."

def platformMessage (platform : String) : String :=
  "Refusing `adb`: it only serves an Android device, and this lease is on the " ++ platform ++
    " platform."

def runsDisconnect (args : List String) : Bool :=
  match walkGlobals args with
  | .subcommand index => args[index]? = some "disconnect"
  | _ => false

/-- What is refused of a line, whatever the device. -/
def assertProxyable (args : List String) (context : Option Context) : Except Refusal Unit :=
  if (context.any fun context => !context.hasTerminal) && isBareShell args then
    .error ⟨"adb", bareShellMessage⟩
  else if "kill-server" ∈ args then .error ⟨"adb", killServerMessage⟩
  else if runsDisconnect args then .error ⟨"adb", disconnectMessage⟩
  else
    match refusedSequenceMessage args with
    | some message => .error ⟨"adb", message⟩
    | none =>
      match callerSuppliedScopeFlag args with
      | some flag => .error ⟨"adb", scopeFlagMessage flag⟩
      | none => .ok ()

/-- The arguments with the device's serial, where it has one. -/
def scopedArgs (args : List String) : Option String → Except Refusal (List String)
  | none => .ok args
  | some address => if address = "" then .ok args else fillAdbDevice args address

def passthroughVirtual (options : PassthroughRulesOptions) (address : Option String)
    (args : List String) (context : Option Context) : Except Refusal PassthroughCommand := do
  assertProxyable args context
  let inScope ← scopedArgs args address
  let port := toString options.adbServerPort
  return ⟨options.adb, "-P" :: port :: inScope, [("ANDROID_ADB_SERVER_PORT", port)]⟩

def passthrough (options : PassthroughRulesOptions) (device : Option LeasedDevice)
    (args : List String) (context : Option Context) : Except Refusal PassthroughCommand :=
  match (context.bind (·.platform)).filter (· ≠ options.platform) with
  | some platform => .error ⟨"adb", platformMessage platform⟩
  | none =>
    match device with
    | some (.physical serial) => options.physicalPassthrough serial args context
    | some (.emulator address) => passthroughVirtual options (some address) args context
    | none => passthroughVirtual options none args context

/-! ### The walk and adb's reading -/

/-- The same server is spoken to. -/
def SameServer (before after : Globals) : Prop :=
  after.port = before.port ∧ after.host = before.host ∧ after.socket = before.socket

theorem SameServer.trans {a b c : Globals} (hab : SameServer a b) (hbc : SameServer b c) :
    SameServer a c :=
  ⟨hbc.1.trans hab.1, hbc.2.1.trans hab.2.1, hbc.2.2.trans hab.2.2⟩

theorem sameServer_withAlone (globals : Globals) (argument : String) :
    SameServer globals (globals.withAlone argument) := by
  unfold Globals.withAlone
  split
  · exact ⟨rfl, rfl, rfl⟩
  · split <;> exact ⟨rfl, rfl, rfl⟩

theorem begins_dash {argument : String} (h : begins "-t" argument) : begins "-" argument := by
  have ht : "-t".toList <+: argument.toList := List.isPrefixOf_iff_prefix.1 h
  have hdash : "-".toList <+: "-t".toList := by decide
  exact List.isPrefixOf_iff_prefix.2 (hdash.trans ht)

/-- A word without a dash is no global. -/
theorem globalKind_of_word {argument : String} (h : begins "-" argument = false) :
    globalKind argument = none := by
  have hne : ∀ flag : String, begins "-" flag = true → argument ≠ flag := by
    rintro flag hflag rfl
    rw [hflag] at h
    exact absurd h (by decide)
  have ht : begins "-t" argument = false := by
    cases ht : begins "-t" argument with
    | false => rfl
    | true => rw [begins_dash ht] at h; exact absurd h (by decide)
  simp [globalKind, hne "-s" (by decide), hne "-t" (by decide), hne "-P" (by decide),
    hne "-H" (by decide), hne "-L" (by decide), hne "-d" (by decide), hne "-e" (by decide), ht]

theorem globalKind_of_selfContained {argument : String} (h : argument ∈ selfContainedActions) :
    globalKind argument = none := by
  simp only [selfContainedActions, List.mem_cons, List.not_mem_nil, or_false] at h
  rcases h with rfl | rfl <;> decide

/-- A global that is let through alone is one adb reads alone. -/
theorem globalKind_of_none {argument : String} (h : allowedGlobalArity argument = some .none) :
    globalKind argument = some .alone := by
  unfold allowedGlobalArity at h
  split at h
  · rename_i hflag
    simp only [Bool.or_eq_true, decide_eq_true_eq] at hflag
    rcases hflag with rfl | rfl <;> decide
  · split at h
    · cases h
    · split at h
      · cases h
      · split at h
        · rename_i hs ht hfused
          simp only [Bool.and_eq_true, decide_eq_true_eq] at hfused
          have hne : ∀ flag : String, begins "-t" flag = false → argument ≠ flag := by
            rintro flag hflag rfl
            rw [hfused.1] at hflag
            exact absurd hflag (by decide)
          simp [globalKind, hs, ht, hne "-P" (by decide), hne "-H" (by decide),
            hne "-L" (by decide), hfused.1]
        · cases h

/-- A global that is let through with a value names a device. -/
theorem eq_of_value {argument : String} (h : allowedGlobalArity argument = some .value) :
    argument = "-s" ∨ argument = "-t" := by
  unfold allowedGlobalArity at h
  split at h
  · cases h
  · split at h
    · exact Or.inl (by assumption)
    · split at h
      · exact Or.inr (by assumption)
      · split at h <;> cases h

theorem sameServer_withValue {argument : String} (globals : Globals) (value : String)
    (h : argument = "-s" ∨ argument = "-t") :
    SameServer globals (globals.withValue argument value) := by
  rcases h with rfl | rfl <;> exact ⟨rfl, rfl, rfl⟩

/-- What adb reads of a line on which the walk ends so. -/
def Reads (args : List String) (globals : Globals) (index : Nat) : GlobalsWalk → Prop
  | .subcommand found => ∃ count after, found = index + count ∧ args.drop count ≠ [] ∧
      readGlobals args globals = some (after, args.drop count) ∧ SameServer globals after
  | .refused _ => True
  | .none => ∀ after line, readGlobals args globals = some (after, line) →
      line = [] ∧ SameServer globals after

/-- adb finds the subcommand where the walk does, and on the same server. -/
theorem walkFrom_reads (total : Nat) : ∀ (args : List String) (index : Nat) (globals : Globals),
    Reads args globals index (walkFrom total args index)
  | [], index, globals => by
    rintro after line hread
    cases hread
    exact ⟨rfl, rfl, rfl, rfl⟩
  | argument :: rest, index, globals => by
    have hword : ∀ hnone : globalKind argument = none,
        Reads (argument :: rest) globals index (.subcommand index) := by
      intro hnone
      refine ⟨0, globals, rfl, List.cons_ne_nil _ _, ?_, rfl, rfl, rfl⟩
      rw [readGlobals.eq_def, List.drop_zero]
      simp only [hnone]
    rw [walkFrom.eq_def]
    dsimp only
    split
    · rename_i hdash
      exact hword (globalKind_of_word (by simpa using hdash))
    · split
      · rename_i hself
        split
        · exact hword (globalKind_of_selfContained hself)
        · trivial
      · split
        · trivial
        · rename_i harity
          have ih := walkFrom_reads total rest (index + 1) (globals.withAlone argument)
          have hstep : readGlobals (argument :: rest) globals =
              readGlobals rest (globals.withAlone argument) := by
            rw [readGlobals.eq_def]
            simp only [globalKind_of_none harity]
          have hserver := sameServer_withAlone globals argument
          cases hwalk : walkFrom total rest (index + 1) with
          | subcommand found =>
            rw [hwalk] at ih
            obtain ⟨count, after, rfl, hne, hread, hsame⟩ := ih
            exact ⟨count + 1, after, by omega, hne, by rw [hstep, hread, List.drop_succ_cons],
              hserver.trans hsame⟩
          | refused argument => trivial
          | none =>
            rw [hwalk] at ih
            intro after line hread
            obtain ⟨rfl, hsame⟩ := ih after line (hstep ▸ hread)
            exact ⟨rfl, hserver.trans hsame⟩
        · rename_i harity
          have hflag := eq_of_value harity
          have hkind : globalKind argument = some .valued := by
            rcases hflag with rfl | rfl <;> decide
          cases rest with
          | nil =>
            intro after line hread
            rw [readGlobals.eq_def] at hread
            simp only [hkind] at hread
            cases hread
          | cons value rest =>
            have ih := walkFrom_reads total rest (index + 2) (globals.withValue argument value)
            have hstep : readGlobals (argument :: value :: rest) globals =
                readGlobals rest (globals.withValue argument value) := by
              rw [readGlobals.eq_def]
              simp only [hkind]
            have hserver := sameServer_withValue globals value hflag
            dsimp only
            cases hwalk : walkFrom total rest (index + 2) with
            | subcommand found =>
              rw [hwalk] at ih
              obtain ⟨count, after, rfl, hne, hread, hsame⟩ := ih
              refine ⟨count + 2, after, by omega, hne, ?_, hserver.trans hsame⟩
              rw [hstep, hread]
              rfl
            | refused argument => trivial
            | none =>
              rw [hwalk] at ih
              intro after line hread
              obtain ⟨rfl, hsame⟩ := ih after line (hstep ▸ hread)
              exact ⟨rfl, hserver.trans hsame⟩

example :
    walkGlobals ["-s", "emulator-5554", "shell", "ls"] = .subcommand 2 ∧
      (readGlobals ["-s", "emulator-5554", "shell", "ls"] noGlobals).map Prod.snd =
        some ["shell", "ls"] := by decide +kernel

/-! ### The serial in front -/

/-- The rest of a line is no longer than the line. -/
theorem readGlobals_length : ∀ (args : List String) (globals after : Globals) (line : List String),
    readGlobals args globals = some (after, line) → line.length ≤ args.length
  | [], globals, after, line, hread => by
    cases hread
    exact Nat.le_refl _
  | argument :: rest, globals, after, line, hread => by
    rw [readGlobals.eq_def] at hread
    dsimp only at hread
    split at hread
    · cases hread
      exact Nat.le_refl _
    · have := readGlobals_length rest _ after line hread
      simp only [List.length_cons]
      omega
    · cases rest with
      | nil => cases hread
      | cons value rest =>
        have := readGlobals_length rest _ after line hread
        simp only [List.length_cons]
        omega

/-- A line that is its own rest has no globals in front. -/
theorem eq_of_readGlobals_self {line : List String} {globals after : Globals} (hne : line ≠ [])
    (hread : readGlobals line globals = some (after, line)) : after = globals := by
  obtain ⟨argument, rest, rfl⟩ := List.exists_cons_of_ne_nil hne
  rw [readGlobals.eq_def] at hread
  dsimp only at hread
  split at hread
  · cases hread
    rfl
  · have := readGlobals_length rest _ after _ hread
    simp only [List.length_cons] at this
    omega
  · cases rest with
    | nil => cases hread
    | cons value rest =>
      have := readGlobals_length rest _ after _ hread
      simp only [List.length_cons] at this
      omega

/-- One step of the look at the globals: `-s` with the serial, or a refusal. -/
theorem namesOwnSerial_cons {args rest : List String} {serial flag : String} {left : Nat}
    {named found : Bool}
    (h : namesOwnSerial args serial (flag :: rest) (left + 1) named = .ok found) :
    ∃ after, flag = "-s" ∧ rest = serial :: after ∧
      namesOwnSerial args serial after (left - 1) true = .ok found := by
  rw [namesOwnSerial.eq_def] at h
  by_cases hflag : flag = "-s"
  · subst hflag
    cases rest with
    | nil => simp at h
    | cons value rest =>
      by_cases hvalue : value = serial
      · subst hvalue
        exact ⟨rest, rfl, rfl, by simpa using h⟩
      · simp [hvalue] at h
  · simp [hflag] at h

/-- A serial that was named is not forgotten. -/
theorem namesOwnSerial_true (args : List String) (serial : String) (found : Bool) :
    ∀ (count : Nat) (line : List String) (left : Nat), line.length ≤ count →
      namesOwnSerial args serial line left true = .ok found → found = true
  | count, [], left, _, h => by
    rw [namesOwnSerial.eq_def] at h
    cases h
    rfl
  | count, flag :: rest, 0, _, h => by
    rw [namesOwnSerial.eq_def] at h
    cases h
    rfl
  | 0, flag :: rest, left + 1, hlen, h => by
    simp at hlen
  | count + 1, flag :: rest, left + 1, hlen, h => by
    obtain ⟨after, rfl, rfl, hafter⟩ := namesOwnSerial_cons h
    simp only [List.length_cons] at hlen
    exact namesOwnSerial_true args serial found count after (left - 1) (by omega) hafter

/-- Globals that name the serial are read so. -/
theorem namesOwnSerial_device (args : List String) (serial : String) :
    ∀ (count : Nat) (line : List String) (left : Nat) (named : Bool) (globals after : Globals),
      line.length ≤ count → namesOwnSerial args serial line left named = .ok true →
      (named = true → globals.device = some (.serial serial)) →
      readGlobals line globals = some (after, line.drop left) → line.drop left ≠ [] →
      after.device = some (.serial serial)
  | count, [], left, named, globals, after, _, _, _, _, hne => by simp at hne
  | count, flag :: rest, 0, named, globals, after, _, h, hnamed, hread, hne => by
    rw [namesOwnSerial.eq_def] at h
    rw [eq_of_readGlobals_self hne hread]
    exact hnamed (Except.ok.inj h)
  | 0, flag :: rest, left + 1, named, globals, after, hlen, _, _, _, _ => by simp at hlen
  | count + 1, flag :: rest, left + 1, named, globals, after, hlen, h, hnamed, hread, hne => by
    obtain ⟨behind, rfl, rfl, hbehind⟩ := namesOwnSerial_cons h
    simp only [List.length_cons] at hlen
    have hkind : globalKind "-s" = some .valued := by decide
    rw [readGlobals.eq_def] at hread
    simp only [hkind, List.drop_succ_cons] at hread hne
    cases left with
    | zero =>
      have := readGlobals_length behind _ after _ hread
      simp only [List.drop_zero, List.length_cons] at this
      omega
    | succ left =>
      exact namesOwnSerial_device args serial count behind left true _ after (by omega) hbehind
        (fun _ => rfl) hread hne

/-- With the device filled in, adb reads the same command, on the same server and, where the
    command needs a device, for this serial. -/
theorem fillAdbDevice_reads {args inScope : List String} {serial : String} {index : Nat}
    (globals : Globals) (hwalk : walkGlobals args = .subcommand index)
    (hfill : fillAdbDevice args serial = .ok inScope) :
    ∃ after, readGlobals inScope globals = some (after, args.drop index) ∧
      SameServer globals after ∧ args.drop index ≠ [] ∧
      (actsOnNoDevice (args.drop index) = false → after.device = some (.serial serial)) := by
  have hreads : ∀ globals, Reads args globals 0 (.subcommand index) := by
    intro globals
    rw [← hwalk]
    exact walkFrom_reads args.length args 0 globals
  simp only [fillAdbDevice, hwalk] at hfill
  split at hfill
  · rename_i hnone
    cases hfill
    obtain ⟨count, after, hindex, hne, hread, hsame⟩ := hreads globals
    obtain rfl : index = count := by omega
    exact ⟨after, hread, hsame, hne, fun hacts => by rw [hnone] at hacts; cases hacts⟩
  · cases hnamed : namesOwnSerial args serial args index false with
    | error refusal =>
      rw [hnamed] at hfill
      cases hfill
    | ok named =>
      rw [hnamed] at hfill
      cases named with
      | true =>
        cases hfill
        obtain ⟨count, after, hindex, hne, hread, hsame⟩ := hreads globals
        obtain rfl : index = count := by omega
        refine ⟨after, hread, hsame, hne, fun _ => ?_⟩
        exact namesOwnSerial_device args serial _ args index false globals after (Nat.le_refl _)
          hnamed (fun h => by cases h) hread hne
      | false =>
        obtain rfl : "-s" :: serial :: args = inScope := by simpa using hfill
        obtain ⟨count, after, hindex, hne, hread, hsame⟩ :=
          hreads { globals with device := some (.serial serial) }
        obtain rfl : index = count := by omega
        have hkind : globalKind "-s" = some .valued := by decide
        refine ⟨after, ?_, hsame, hne, fun _ => ?_⟩
        · rw [readGlobals.eq_def]
          simp only [hkind]
          exact hread
        -- nothing stands in front of the subcommand: a global there would have been named
        · obtain ⟨argument, rest, rfl⟩ : ∃ argument rest, args = argument :: rest := by
            refine List.exists_cons_of_ne_nil ?_
            rintro rfl
            exact hne List.drop_nil
          cases index with
          | zero => rw [eq_of_readGlobals_self hne hread]
          | succ index =>
            obtain ⟨behind, rfl, rfl, hbehind⟩ := namesOwnSerial_cons hnamed
            exact absurd (namesOwnSerial_true _ serial false _ behind _ (Nat.le_refl _) hbehind) (by decide)

/-! ### The words of the console -/

theorem says_iff_front {words phrase allowedNext : List (List Char)} :
    Says words phrase allowedNext ↔ ∃ index ≤ words.length, phrase <+: words.drop index ∧
      ∀ next ∈ words[index + phrase.length]?, next ∉ allowedNext := by
  constructor
  · rintro ⟨front, back, rfl, hnext⟩
    refine ⟨front.length, by simp, ?_, ?_⟩
    · rw [List.append_assoc, List.drop_left]
      exact List.prefix_append _ _
    · rw [show front.length + phrase.length = (front ++ phrase).length by simp,
        List.getElem?_append_right (Nat.le_refl _), Nat.sub_self, ← List.head?_eq_getElem?]
      exact hnext
  · rintro ⟨index, hindex, ⟨back, hback⟩, hnext⟩
    have hwords : words = words.take index ++ phrase ++ back := by
      rw [List.append_assoc, hback, List.take_append_drop]
    refine ⟨words.take index, back, hwords, ?_⟩
    have hlen : (words.take index ++ phrase).length = index + phrase.length := by
      rw [List.length_append, List.length_take, Nat.min_eq_left hindex]
    rw [hwords, ← hlen, List.getElem?_append_right (Nat.le_refl _), Nat.sub_self,
      ← List.head?_eq_getElem?] at hnext
    exact hnext

/-- The search of the words finds what the console would be told. -/
theorem saysWords_iff {words phrase : List (List Char)} (allowedNext : Option (List (List Char)))
    (hphrase : phrase ≠ []) :
    saysWords words phrase allowedNext = true ↔ Says words phrase (allowedNext.getD []) := by
  have htokens : ∀ index, ((phrase.zipIdx).all fun token =>
      words[index + token.2]? = some token.1) = true ↔ phrase <+: words.drop index := by
    intro index
    simp only [List.all_eq_true, decide_eq_true_eq, List.prefix_iff_getElem?, Prod.forall,
      List.mem_zipIdx_iff_getElem?, List.getElem?_drop]
    constructor
    · intro h i hi
      exact h phrase[i] i (List.getElem?_eq_getElem hi)
    · intro h token i hi
      obtain ⟨hlt, rfl⟩ := List.getElem?_eq_some_iff.1 hi
      exact h i hlt
  have hnext : ∀ after : Option (List Char), refusedBefore allowedNext after = true ↔
      ∀ next ∈ after, next ∉ allowedNext.getD [] := by
    intro after
    cases allowedNext with
    | none => simp [refusedBefore]
    | some allowed => cases after <;> simp [refusedBefore]
  have hlt : ∀ index, phrase <+: words.drop index → index < words.length := by
    intro index hpre
    by_contra hge
    rw [List.drop_eq_nil_of_le (by omega), List.prefix_nil] at hpre
    exact hphrase hpre
  rw [says_iff_front]
  simp only [saysWords, List.any_eq_true, List.mem_range, Bool.and_eq_true]
  constructor
  · rintro ⟨index, hindex, hall, hafter⟩
    exact ⟨index, Nat.le_of_lt hindex, (htokens index).1 hall, (hnext _).1 hafter⟩
  · rintro ⟨index, -, hpre, hafter⟩
    exact ⟨index, hlt index hpre, (htokens index).2 hpre, (hnext _).2 hafter⟩

/-- The refused sequences are the console lines that are forbidden. -/
theorem refused_iff (operands : List String) :
    (refusedAdbSequences.any fun refused => refused.says operands) = true ↔
      Forbidden (consoleWords operands) := by
  rw [consoleWords_eq]
  simp only [refusedAdbSequences, List.any_cons, List.any_nil, Bool.or_false, Bool.or_eq_true,
    RefusedSequence.says, Forbidden, operandWords, Option.map_none, Option.map_some]
  rw [saysWords_iff none (by decide), saysWords_iff none (by decide),
    saysWords_iff (some _) (by decide)]
  rfl

/-! ### Containment -/

/-- What adb does with a command line stays on Simlock's server, with the lease's device, and
    detaches and stops nothing; `acts` are the commands that act on a device. -/
structure Contained (port serial : String) (acts : List String → Bool) (line : List String) :
    Prop where
  server : ∀ globals rest, readGlobals line noGlobals = some (globals, rest) →
    globals.port = some port ∧ globals.host = none ∧ globals.socket = none
  device : ∀ globals rest, readGlobals line noGlobals = some (globals, rest) →
    ∀ command ∈ commandsOf rest, acts command = true → globals.device = some (.serial serial)
  verbs : ∀ globals rest, readGlobals line noGlobals = some (globals, rest) →
    ∀ command ∈ commandsOf rest,
      command.head? ≠ some "kill-server" ∧ command.head? ≠ some "disconnect"
  console : ∀ globals rest, readGlobals line noGlobals = some (globals, rest) →
    ∀ operands, "emu" :: operands ∈ commandsOf rest → ¬ Forbidden (consoleWords operands)

/-- The command that a chain of `wait-for-…` words ends with. -/
def afterWaits : List String → List String
  | [] => []
  | subcommand :: rest => if waits subcommand then afterWaits rest else subcommand :: rest

/-- The checks that are made of a subcommand: not `disconnect`, and no refused console words. -/
def allowedCommand : List String → Bool
  | [] => true
  | subcommand :: operands =>
    subcommand ≠ "disconnect" &&
      !(subcommand = "emu" && refusedAdbSequences.any fun refused => refused.says operands)

/-- The subcommand is no `wait-for-…` word, or the command after these words passes the checks. -/
def goesOnSafely (args : List String) : Bool :=
  match walkGlobals args with
  | .subcommand index =>
    match args.drop index with
    | [] => true
    | subcommand :: rest => !waits subcommand || allowedCommand (afterWaits rest)
  | _ => true

theorem mem_commandsOf {command : List String} : ∀ {line : List String},
    command ∈ commandsOf line →
      (∃ subcommand rest, command = subcommand :: rest ∧ waits subcommand = true ∧
        subcommand ∈ line) ∨ command = afterWaits line
  | [], h => by simp [commandsOf] at h
  | subcommand :: rest, h => by
    rw [commandsOf] at h
    split at h
    · rename_i hwaits
      rcases List.mem_cons.1 h with rfl | h
      · exact Or.inl ⟨subcommand, rest, rfl, hwaits, List.mem_cons_self⟩
      · rw [afterWaits, if_pos hwaits]
        rcases mem_commandsOf h with ⟨word, operands, hcommand, hword, hmem⟩ | h
        · exact Or.inl ⟨word, operands, hcommand, hword, List.mem_cons_of_mem _ hmem⟩
        · exact Or.inr h
    · rename_i hwaits
      rw [afterWaits, if_neg hwaits]
      exact Or.inr (List.mem_singleton.1 h)

theorem afterWaits_mem : ∀ {line : List String}, afterWaits line ≠ [] →
    afterWaits line ∈ commandsOf line
  | [], h => absurd rfl h
  | subcommand :: rest, h => by
    rw [afterWaits] at h ⊢
    rw [commandsOf]
    split at h <;> rename_i hwaits
    · rw [if_pos hwaits, if_pos hwaits]
      exact List.mem_cons_of_mem _ (afterWaits_mem h)
    · rw [if_neg hwaits, if_neg hwaits]
      exact List.mem_singleton_self _

theorem afterWaits_suffix : ∀ line : List String, afterWaits line <:+ line
  | [] => List.suffix_refl _
  | subcommand :: rest => by
    rw [afterWaits]
    split
    · exact (afterWaits_suffix rest).trans (List.suffix_cons _ _)
    · exact List.suffix_refl _

/-- Every command of the chain passes the checks exactly when its last one does. -/
theorem allowed_afterWaits_iff (line : List String) :
    allowedCommand (afterWaits line) = true ↔
      (∀ command ∈ commandsOf line, command.head? ≠ some "disconnect") ∧
        ∀ operands, "emu" :: operands ∈ commandsOf line → ¬ Forbidden (consoleWords operands) := by
  have hwait : ∀ {word : String}, waits word = true → word ≠ "disconnect" ∧ word ≠ "emu" := by
    intro word hword
    constructor <;> (rintro rfl; exact absurd hword (by decide))
  constructor
  · intro h
    constructor
    · intro command hmem hhead
      rcases mem_commandsOf hmem with ⟨word, rest, rfl, hword, -⟩ | rfl
      · exact (hwait hword).1 (Option.some.inj hhead)
      · cases hcommand : afterWaits line with
        | nil => simp [hcommand] at hhead
        | cons subcommand operands =>
          rw [hcommand] at h hhead
          obtain rfl : subcommand = "disconnect" := Option.some.inj hhead
          simp [allowedCommand] at h
    · intro operands hmem hforbidden
      rcases mem_commandsOf hmem with ⟨word, rest, hcommand, hword, -⟩ | hcommand
      · obtain ⟨rfl, rfl⟩ := List.cons.inj hcommand
        exact (hwait hword).2 rfl
      · rw [← hcommand, allowedCommand, (refused_iff operands).2 hforbidden] at h
        simp at h
  · rintro ⟨hdisconnect, hemu⟩
    cases hcommand : afterWaits line with
    | nil => rfl
    | cons subcommand operands =>
      have hmem : subcommand :: operands ∈ commandsOf line := by
        rw [← hcommand]
        exact afterWaits_mem (by rw [hcommand]; exact List.cons_ne_nil _ _)
      have hne : subcommand ≠ "disconnect" := by
        rintro rfl
        exact hdisconnect _ hmem rfl
      have hsays : subcommand = "emu" →
          (refusedAdbSequences.any fun refused => refused.says operands) = false := by
        rintro rfl
        rw [← Bool.not_eq_true, refused_iff]
        exact hemu operands hmem
      by_cases hsub : subcommand = "emu"
      · simp [allowedCommand, hne, hsays hsub]
      · simp [allowedCommand, hne, hsub]

/-! ### What is let through -/

theorem assertProxyable_ok {args : List String} {context : Option Context}
    (h : assertProxyable args context = .ok ()) :
    "kill-server" ∉ args ∧ runsDisconnect args = false ∧
      (∀ refused ∈ refusedAdbSequences, containsSequence args refused = false) ∧
      callerSuppliedScopeFlag args = none := by
  unfold assertProxyable at h
  split at h
  · cases h
  · split at h
    · cases h
    · rename_i hkill
      split at h
      · cases h
      · rename_i hdisconnect
        split at h
        · cases h
        · rename_i hsequence
          split at h
          · cases h
          · rename_i hscope
            refine ⟨hkill, by simpa using hdisconnect, ?_, hscope⟩
            simpa [refusedSequenceMessage] using hsequence

/-- A command of an emulator with an address: what was checked, and how the line is put together. -/
theorem passthrough_ok {options : PassthroughRulesOptions} {address : String} {args : List String}
    {context : Option Context} {command : PassthroughCommand} (haddress : address ≠ "")
    (h : passthrough options (some (.emulator address)) args context = .ok command) :
    assertProxyable args context = .ok () ∧ ∃ inScope, fillAdbDevice args address = .ok inScope ∧
      command.args = "-P" :: toString options.adbServerPort :: inScope := by
  unfold passthrough at h
  split at h
  · cases h
  · dsimp only at h
    unfold passthroughVirtual at h
    cases hproxy : assertProxyable args context with
    | error refusal =>
      rw [hproxy] at h
      cases h
    | ok proxied =>
      rw [hproxy] at h
      have hscoped : scopedArgs args (some address) = fillAdbDevice args address :=
        if_neg haddress
      cases hfill : fillAdbDevice args address with
      | error refusal =>
        rw [hscoped, hfill] at h
        cases h
      | ok inScope =>
        rw [hscoped, hfill] at h
        cases h
        exact ⟨rfl, inScope, rfl, rfl⟩

/-- A subcommand that is no `wait-for-…` word passed the checks already. -/
theorem allowedCommand_of_ok {args : List String} {context : Option Context} {index : Nat}
    (hproxy : assertProxyable args context = .ok ()) (hwalk : walkGlobals args = .subcommand index) :
    allowedCommand (args.drop index) = true := by
  obtain ⟨-, hdisconnect, hsequence, -⟩ := assertProxyable_ok hproxy
  cases hline : args.drop index with
  | nil => rfl
  | cons subcommand operands =>
    have hhead : args[index]? = some subcommand := by
      rw [← List.head?_drop, hline, List.head?_cons]
    have hoperands : args.drop (index + 1) = operands := by
      rw [← List.tail_drop, hline, List.tail_cons]
    simp only [runsDisconnect, hwalk, hhead, Option.some.injEq, decide_eq_false_iff_not]
      at hdisconnect
    simp only [containsSequence, hwalk, hhead, hoperands] at hsequence
    by_cases hemu : subcommand = "emu"
    · have hsays : (refusedAdbSequences.any fun refused => refused.says operands) = false := by
        rw [List.any_eq_false]
        intro refused hmem
        simpa [hemu] using hsequence refused hmem
      simp [allowedCommand, hdisconnect, hsays]
    · simp [allowedCommand, hdisconnect, hemu]

/-- A line that is let through goes on safely exactly when all its commands pass the checks. -/
theorem goesOnSafely_iff {args : List String} {context : Option Context} {index : Nat}
    (hproxy : assertProxyable args context = .ok ()) (hwalk : walkGlobals args = .subcommand index) :
    goesOnSafely args = true ↔ allowedCommand (afterWaits (args.drop index)) = true := by
  have hallowed := allowedCommand_of_ok hproxy hwalk
  cases hline : args.drop index with
  | nil => simp [goesOnSafely, hwalk, hline, afterWaits, allowedCommand]
  | cons subcommand rest =>
    rw [hline] at hallowed
    cases hwaits : waits subcommand with
    | true => simp [goesOnSafely, hwalk, hline, afterWaits, hwaits]
    | false => simp [goesOnSafely, hwalk, hline, afterWaits, hwaits, hallowed]

/-- A `wait-for-…` word acts on a device. -/
theorem actsOnNoDevice_of_waits {subcommand : String} (rest : List String)
    (h : waits subcommand = true) : actsOnNoDevice (subcommand :: rest) = false := by
  have hne : ∀ word : String, waits word = false → subcommand ≠ word := by
    rintro word hword rfl
    rw [hword] at h
    cases h
  have hnot : subcommand ∉ noDeviceSubcommands := by
    intro hmem
    have hall : ∀ word ∈ noDeviceSubcommands, waits word = false := by decide
    exact hne subcommand (hall subcommand hmem) rfl
  simp [actsOnNoDevice, hnot, hne "forward" (by decide), hne "reconnect" (by decide)]

/-- What is let through to an emulator stays on Simlock's server and on the lease's device, and it
    detaches and stops nothing exactly when it goes on safely after its `wait-for-…` words. -/
theorem passthrough_contained_iff (options : PassthroughRulesOptions) (acts : List String → Bool)
    (hacts : ∀ line, actsOnNoDevice line = true → acts line = false) (address : String)
    (haddress : address ≠ "") (args : List String) (context : Option Context)
    (command : PassthroughCommand)
    (hrun : passthrough options (some (.emulator address)) args context = .ok command) :
    Contained (toString options.adbServerPort) address acts command.args ↔
      goesOnSafely args = true := by
  obtain ⟨hproxy, inScope, hfill, hargs⟩ := passthrough_ok haddress hrun
  obtain ⟨hkill, -, -, hscope⟩ := assertProxyable_ok hproxy
  have hport : readGlobals command.args noGlobals =
      readGlobals inScope { noGlobals with port := some (toString options.adbServerPort) } := by
    have hkind : globalKind "-P" = some .valued := by decide
    rw [hargs, readGlobals.eq_def]
    simp only [hkind]
    rfl
  cases hwalk : walkGlobals args with
  | refused argument =>
    rw [callerSuppliedScopeFlag, hwalk] at hscope
    cases hscope
  | none =>
    -- no subcommand: adb has nothing to run
    have hreads := walkFrom_reads args.length args 0
      { noGlobals with port := some (toString options.adbServerPort) }
    rw [← walkGlobals, hwalk] at hreads
    have hsame : args = inScope := by simpa [fillAdbDevice, hwalk] using hfill
    rw [← hsame] at hport
    refine ⟨fun _ => by simp [goesOnSafely, hwalk], fun _ => ?_⟩
    refine ⟨?_, ?_, ?_, ?_⟩ <;>
      (intro globals rest hread; obtain ⟨rfl, hserver⟩ := hreads globals rest (hport ▸ hread))
    · exact hserver
    · exact fun line hmem => absurd hmem List.not_mem_nil
    · exact fun line hmem => absurd hmem List.not_mem_nil
    · exact fun operands hmem => absurd hmem List.not_mem_nil
  | subcommand index =>
    obtain ⟨after, hread, hserver, hne, hdevice⟩ := fillAdbDevice_reads
      { noGlobals with port := some (toString options.adbServerPort) } hwalk hfill
    rw [← hport] at hread
    rw [goesOnSafely_iff hproxy hwalk, allowed_afterWaits_iff]
    have hmem_args : ∀ word ∈ args.drop index, word ∈ args := fun word => List.mem_of_mem_drop
    constructor
    · intro hcontained
      exact ⟨fun line hmem => (hcontained.verbs after _ hread line hmem).2,
        hcontained.console after _ hread⟩
    · rintro ⟨hdisconnect, hemu⟩
      have hsame : ∀ {globals rest}, readGlobals command.args noGlobals = some (globals, rest) →
          after = globals ∧ args.drop index = rest := fun hread' =>
        Prod.mk.inj (Option.some.inj (hread.symm.trans hread'))
      refine ⟨?_, ?_, ?_, ?_⟩ <;>
        (intro globals rest hread'; obtain ⟨rfl, rfl⟩ := hsame hread')
      · exact hserver
      · intro line hmem hact
        refine hdevice ?_
        obtain ⟨subcommand, rest, hline⟩ := List.exists_cons_of_ne_nil hne
        rw [hline] at hmem ⊢
        cases hwaits : waits subcommand with
        | true => exact actsOnNoDevice_of_waits rest hwaits
        | false =>
          rw [commandsOf, if_neg (by rw [hwaits]; decide), List.mem_singleton] at hmem
          rw [← hmem, ← Bool.not_eq_true]
          intro hnone
          rw [hacts line hnone] at hact
          cases hact
      · intro line hmem
        refine ⟨?_, hdisconnect line hmem⟩
        intro hhead
        rcases mem_commandsOf hmem with ⟨word, operands, rfl, -, hword⟩ | rfl
        · obtain rfl : word = "kill-server" := Option.some.inj hhead
          exact hkill (hmem_args _ hword)
        · have hin : "kill-server" ∈ afterWaits (args.drop index) := List.mem_of_head? hhead
          exact hkill (hmem_args _ ((afterWaits_suffix _).mem hin))
      · exact hemu

/-- A driver on port 5137, with no phones. -/
def simlockAdb : PassthroughRulesOptions :=
  ⟨"adb", 5137, "android", fun _ args _ => .error ⟨"adb", " ".intercalate args⟩⟩

theorem passthrough_contained_shell :
    Contained "5137" "emulator-5554" (fun line => !actsOnNoDevice line)
      ["-P", "5137", "-s", "emulator-5554", "wait-for-device", "shell", "id"] :=
  (passthrough_contained_iff simlockAdb (fun line => !actsOnNoDevice line)
    (fun line hline => by rw [hline]; rfl) "emulator-5554" (by decide)
    ["wait-for-device", "shell", "id"] none
    ⟨"adb", ["-P", "5137", "-s", "emulator-5554", "wait-for-device", "shell", "id"],
      [("ANDROID_ADB_SERVER_PORT", "5137")]⟩ (by decide +kernel)).2 (by decide +kernel)

/-- `wait-for-device disconnect` is let through, and adb disconnects. -/
theorem passthrough_disconnects :
    ∃ command, passthrough simlockAdb (some (.emulator "emulator-5554"))
        ["wait-for-device", "disconnect"] none = .ok command ∧
      ¬ Contained "5137" "emulator-5554" (fun line => !actsOnNoDevice line) command.args := by
  refine ⟨⟨"adb", ["-P", "5137", "-s", "emulator-5554", "wait-for-device", "disconnect"],
    [("ANDROID_ADB_SERVER_PORT", "5137")]⟩, by decide +kernel, ?_⟩
  intro hcontained
  have hverbs := hcontained.verbs
    ⟨some "5137", none, none, some (.serial "emulator-5554")⟩ ["wait-for-device", "disconnect"]
    (by decide +kernel) ["disconnect"] (by decide +kernel)
  exact hverbs.2 rfl

end Simlock.Android
