import Mathlib.Data.List.Basic
import Simlock.Updater.RunUpdater

/-! Where the processes are gone when the updater takes them to be, it keeps the databases whole.

    The invariant follows the stages: up to the backup there is only the old daemon, during the
    backup none lives, and from there on the backup is what the old daemon left. A restore begins
    only when no process lives, and writes back exactly that. -/

namespace Simlock.Updater

open Simlock.Lib

variable {β : Type} {names : Version → String} {s : Run β}

/-! ### What the update keeps whole -/

/-- A database file is copied into the backup, or out of it. -/
def Copies (s : Run β) : Action β → Prop
  | .proceed =>
    (∃ name rest, s.stage = .backingUp (name :: rest) ∧ s.files name ≠ none) ∨
      ∃ name rest, s.stage = .restoring (name :: rest) ∧ s.backup name ≠ none
  | _ => False

/-- A step copies no database file beside a daemon that has the databases open; restored files are
    what the old daemon left; and the run's own backup is deleted only after the daemon it started
    last answered that it runs, as the version it was started as. -/
structure Whole (names : Version → String) (s : Run β) (a : Action β) : Prop where
  closed : Copies s a → ∀ daemon ∈ s.daemons, daemon.opened = false
  restored : s.stage = .restoring [] →
    ∃ left, s.left = some left ∧ ∀ name ∈ databaseFiles, s.files name = left name
  deleted : s.made = true → (step names s a).made = false →
    ∃ version earlier, s.seen = .running version :: .started version :: earlier

/-- The wait for the old daemon does not give up on a living process, and no daemon process lives
    when the socket is found free ahead of the restore. -/
def Fits (s : Run β) : Action β → Prop
  | .poll listening alive expired =>
    (s.stage = .waitingStopped → listening = true ∨ alive = true → expired = true →
        s.oldAlive = false) ∧
      (s.stage = .checking ∨ s.stage = .waitingAnswering → listening = false →
        s.anyAlive = false)
  | _ => True

instance (s : Run β) : (a : Action β) → Decidable (Fits s a)
  | .poll _ _ _ => inferInstanceAs (Decidable ((_ → _ → _ → _) ∧ (_ → _ → _)))
  | .npm _ _ => .isTrue trivial
  | .stopReturned => .isTrue trivial
  | .proceed => .isTrue trivial
  | .command _ => .isTrue trivial
  | .state _ _ => .isTrue trivial
  | .launch => .isTrue trivial
  | .opens _ => .isTrue trivial
  | .writes _ _ _ => .isTrue trivial
  | .exits _ => .isTrue trivial

/-! ### The invariant -/

/-- The backup is what the old daemon left. -/
def Kept (s : Run β) : Prop :=
  ∃ left, s.left = some left ∧ ∀ name ∈ databaseFiles, s.backup name = left name

/-- What holds in each stage. -/
def StageOk (s : Run β) : Prop :=
  match s.stage with
  | .installing | .stopping | .waitingStopped =>
    s.made = false ∧ s.daemons.length = 1 ∧
      s.left = if s.anyAlive then none else some s.files
  | .clearing => s.made = false ∧ s.anyAlive = false ∧ s.left = some s.files
  | .backingUp rest =>
    s.anyAlive = false ∧ s.left = some s.files ∧ ∃ done, databaseFiles = done ++ rest ∧
      (∀ name ∈ done, s.backup name = s.files name) ∧ ∀ name ∉ done, s.backup name = none
  | .starting .target | .awaiting .target =>
    Kept s ∧ ∃ earlier, s.seen = .started .target :: earlier
  | .starting .source | .awaiting .source => ∃ earlier, s.seen = .started .source :: earlier
  | .restoring rest =>
    s.anyAlive = false ∧ Kept s ∧ ∃ done, databaseFiles = done ++ rest ∧
      ∀ name ∈ done, s.files name = s.backup name
  | .deleting _ => ∃ version earlier, s.seen = .running version :: .started version :: earlier
  | .finished _ => True
  | .probing _ | .stoppingNew _ | .waitingNew _ | .recording _ | .reinstalling | .checking
  | .stoppingAnswering | .waitingAnswering => Kept s

structure Inv (s : Run β) : Prop where
  opened : ∀ daemon ∈ s.daemons, daemon.opened = true → daemon.alive = true
  stage : StageOk s

theorem closed_of_dead (h : Inv s) (hdead : s.anyAlive = false) :
    ∀ daemon ∈ s.daemons, daemon.opened = false := by
  intro daemon hmem
  cases hopened : daemon.opened with
  | false => rfl
  | true =>
    have halive := h.opened daemon hmem hopened
    have hnone := List.any_eq_false.1 hdead daemon hmem
    exact absurd halive hnone

/-- In a given stage the invariant is what holds of it. -/
theorem Inv.at (h : Inv s) {stage : Stage} (hstage : s.stage = stage) :
    StageOk { s with stage := stage } := by
  rw [← hstage]
  exact h.stage

/-- A step on to another stage in which the same holds. -/
theorem Inv.moved (h : Inv s) {stage stage' : Stage} (hstage : s.stage = stage)
    (hsame : StageOk { s with stage := stage } → StageOk { s with stage := stage' }) :
    Inv { s with stage := stage' } :=
  ⟨h.opened, hsame (h.at hstage)⟩

/-- Only the deletion makes the run's backup go. -/
theorem made_kept (a : Action β) (hmade : s.made = true)
    (hgone : (step names s a).made = false) : ∃ code, s.stage = .deleting code := by
  by_contra hno
  have hkept : (step names s a).made = true := by
    cases a with
    | npm ok message =>
      change (s.npm names ok message).made = true
      unfold Run.npm
      split
      · exact hmade
      · split <;> exact hmade
      · exact hmade
    | stopReturned =>
      change s.stopReturned.made = true
      unfold Run.stopReturned
      split <;> exact hmade
    | poll listening alive expired =>
      unfold step
      dsimp only
      split
      · exact hmade
      · unfold Run.poll
        split
        · split
          · split <;> exact hmade
          · exact hmade
        · split
          · split <;> exact hmade
          · exact hmade
        · split <;> exact hmade
        · split
          · split <;> exact hmade
          · exact hmade
        · exact hmade
    | proceed =>
      change (s.proceed names).made = true
      unfold Run.proceed
      split
      · rfl
      · exact hmade
      · exact hmade
      · exact hmade
      · exact hmade
      · exact hmade
      · rename_i code hstage
        exact absurd ⟨code, hstage⟩ hno
      · exact hmade
    | command outcome =>
      change (s.command names outcome).made = true
      unfold Run.command Run.startFailed
      split
      · split
        · split <;> exact hmade
        · split <;> exact hmade
        · exact hmade
      · exact hmade
    | state answer expired =>
      change (s.state names answer expired).made = true
      unfold Run.state Run.startFailed
      split
      · split
        · exact hmade
        · split
          · split <;> exact hmade
          · split
            · split <;> exact hmade
            · exact hmade
      · split <;> exact hmade
      · exact hmade
    | launch =>
      change s.launch.made = true
      unfold Run.launch
      split <;> exact hmade
    | opens i => exact hmade
    | writes i name content =>
      change (s.writes i name content).made = true
      unfold Run.writes
      split
      · split <;> exact hmade
      · exact hmade
    | exits i => exact hmade
  rw [hgone] at hkept
  cases hkept

/-- What the invariant says of the steps taken under it. -/
theorem Inv.whole (h : Inv s) (a : Action β) : Whole names s a where
  closed hcopies := by
    refine closed_of_dead h ?_
    cases a with
    | proceed =>
      rcases hcopies with ⟨name, rest, heq, -⟩ | ⟨name, rest, heq, -⟩
      · exact (h.at heq).1
      · exact (h.at heq).1
    | _ => exact hcopies.elim
  restored hrestored := by
    obtain ⟨-, ⟨left, hleft, hbackup⟩, done, hdone, hfiles⟩ := h.at hrestored
    rw [List.append_nil] at hdone
    exact ⟨left, hleft, fun name hname => (hfiles name (hdone ▸ hname)).trans (hbackup name hname)⟩
  deleted hmade hgone := by
    obtain ⟨code, hstage⟩ := made_kept a hmade hgone
    exact h.at hstage

/-! ### The updater's steps -/

theorem Inv.npm (h : Inv s) (ok : Bool) (message : String) : Inv (s.npm names ok message) := by
  unfold Run.npm
  split
  · rename_i heq
    cases ok with
    | true => exact h.moved heq fun hok => hok
    | false => exact ⟨h.opened, trivial⟩
  · rename_i heq
    split
    · exact h.moved heq fun hok => hok
    · exact ⟨h.opened, trivial⟩
  · exact h

theorem Inv.stopReturned (h : Inv s) : Inv s.stopReturned := by
  unfold Run.stopReturned
  split
  · rename_i heq
    exact h.moved heq fun hok => hok
  · rename_i heq
    exact h.moved heq fun hok => hok
  · rename_i heq
    exact h.moved heq fun hok => hok
  · exact h

/-- Up to the backup the old daemon is the only process. -/
theorem oldAlive_eq (hlength : s.daemons.length = 1) : s.oldAlive = s.anyAlive := by
  obtain ⟨old, hold⟩ := List.length_eq_one_iff.1 hlength
  simp [Run.oldAlive, Run.anyAlive, hold]

/-- A restore begins where no process lives. -/
theorem Inv.restore (h : Inv s) (hkept : Kept s) (hdead : s.anyAlive = false) :
    Inv { s with stage := .restoring databaseFiles } :=
  ⟨h.opened, hdead, hkept, [], rfl, by simp⟩

/-- The backup begins where the old daemon has gone. -/
theorem Inv.backup (h : Inv s) (heq : s.stage = .waitingStopped) (hdead : s.oldAlive = false) :
    Inv { s with stage := .clearing } := by
  obtain ⟨hmade, hlength, hleft⟩ := h.at heq
  have hnone : s.anyAlive = false := (oldAlive_eq hlength).symm.trans hdead
  refine ⟨h.opened, hmade, hnone, ?_⟩
  have hleft' : s.left = if s.anyAlive then none else some s.files := hleft
  rw [hnone] at hleft'
  exact hleft'

/-- What holds of a stage depends on the processes only through their number and whether one lives. -/
theorem StageOk.daemons (h : StageOk s) {daemons : List Daemon}
    (hlength : daemons.length = s.daemons.length)
    (halive : daemons.any (·.alive) = s.anyAlive) : StageOk { s with daemons := daemons } := by
  have hsame : ({ s with daemons := daemons } : Run β).anyAlive = s.anyAlive := halive
  unfold StageOk at h ⊢
  dsimp only
  rw [hsame, hlength]
  exact h

theorem any_modify_alive (daemons : List Daemon) (i : Nat) {f : Daemon → Daemon}
    (hf : ∀ daemon, (f daemon).alive = daemon.alive) :
    (daemons.modify i f).any (·.alive) = daemons.any (·.alive) := by
  induction daemons generalizing i with
  | nil => cases i <;> rfl
  | cons daemon daemons ih =>
    cases i with
    | zero => simp [List.modify_zero_cons, hf]
    | succ i =>
      rw [List.modify_succ_cons, List.any_cons, List.any_cons, ih]

theorem mem_modify {daemons : List Daemon} {i : Nat} {f : Daemon → Daemon} {daemon : Daemon}
    (hmem : daemon ∈ daemons.modify i f) : daemon ∈ daemons ∨ ∃ old ∈ daemons, daemon = f old := by
  induction daemons generalizing i with
  | nil => cases i <;> cases hmem
  | cons first daemons ih =>
    cases i with
    | zero =>
      rw [List.modify_zero_cons] at hmem
      rcases List.mem_cons.1 hmem with rfl | hmem
      · exact .inr ⟨first, List.mem_cons_self, rfl⟩
      · exact .inl (List.mem_cons_of_mem _ hmem)
    | succ i =>
      rw [List.modify_succ_cons] at hmem
      rcases List.mem_cons.1 hmem with rfl | hmem
      · exact .inl List.mem_cons_self
      · rcases ih hmem with hmem | ⟨old, hold, rfl⟩
        · exact .inl (List.mem_cons_of_mem _ hmem)
        · exact .inr ⟨old, List.mem_cons_of_mem _ hold, rfl⟩

theorem Inv.signalOld (h : Inv s) (hdead : s.oldAlive = false) :
    Inv s.signalOld ∧ s.signalOld.oldAlive = false := by
  have hkilled : ∀ daemon : Daemon,
      ({ daemon with killed := true } : Daemon).alive = daemon.alive := fun _ => rfl
  refine ⟨⟨fun daemon hmem hopened => ?_, h.stage.daemons (List.length_modify ..)
    (any_modify_alive _ _ hkilled)⟩, ?_⟩
  · rcases mem_modify hmem with hmem | ⟨old, hold, rfl⟩
    · exact h.opened daemon hmem hopened
    · exact h.opened old hold hopened
  · unfold Run.oldAlive Run.signalOld at *
    cases hdaemons : s.daemons with
    | nil => rfl
    | cons old rest =>
      rw [hdaemons] at hdead
      exact hdead

theorem Inv.poll (h : Inv s) (listening alive expired : Bool)
    (hpid : alive = false → s.stage = .waitingStopped → s.oldAlive = false)
    (hfits : Fits s (.poll listening alive expired : Action β)) :
    Inv (s.poll names listening alive expired) := by
  unfold Run.poll
  split
  · rename_i heq
    split
    · rename_i hheld
      split
      · rename_i hexpired
        have hdead := hfits.1 heq hheld hexpired
        obtain ⟨hsignal, hsignalDead⟩ := h.signalOld hdead
        exact hsignal.backup heq hsignalDead
      · exact h
    · rename_i hfree
      exact h.backup heq (hpid (by simpa using fun halive => hfree (.inr halive)) heq)
  · rename_i reason heq
    split
    · split
      · exact h.moved heq fun hok => hok
      · exact h
    · exact h.moved heq fun hok => hok
  · rename_i heq
    split
    · exact h.moved heq fun hok => hok
    · rename_i hfree
      exact h.restore (h.at heq) (hfits.2 (.inl heq) (by simpa using hfree))
  · rename_i heq
    split
    · split
      · exact ⟨h.opened, trivial⟩
      · exact h
    · rename_i hfree
      exact h.restore (h.at heq) (hfits.2 (.inr heq) (by simpa using hfree))
  · exact h

/-- A started daemon that did not come up. -/
theorem Inv.startFailed (h : Inv s) {version : Version} (hkept : version = .target → Kept s)
    (reason : String) : Inv (s.startFailed names version reason) := by
  unfold Run.startFailed
  cases version with
  | target => exact ⟨h.opened, hkept rfl⟩
  | source => exact ⟨h.opened, trivial⟩

theorem Inv.proceed (h : Inv s) : Inv (s.proceed names) := by
  unfold Run.proceed
  split
  · rename_i heq
    obtain ⟨hmade, hdead, hleft⟩ := h.at heq
    exact ⟨h.opened, hdead, hleft, [], rfl, by simp, fun _ _ => rfl⟩
  · rename_i heq
    obtain ⟨hdead, hleft, done, hdone, hsame, hnone⟩ := h.at heq
    rw [List.append_nil] at hdone
    refine ⟨h.opened, ⟨s.files, hleft, fun name hname => hsame name (hdone ▸ hname)⟩, _, rfl⟩
  · rename_i name rest heq
    obtain ⟨hdead, hleft, done, hdone, hsame, hnone⟩ := h.at heq
    have hnew : name ∉ done := by
      have hnodup : (done ++ name :: rest).Nodup := hdone ▸ (by decide : databaseFiles.Nodup)
      exact fun hmem => (List.nodup_append.1 hnodup).2.2 name hmem name (by simp) rfl
    -- a file that is absent leaves the empty backup as it is
    suffices hinv : ∀ backup, backup = Function.update s.backup name (s.files name) →
        Inv { s with stage := .backingUp rest, backup := backup } by
      refine hinv _ ?_
      cases hfile : s.files name with
      | some content => rfl
      | none =>
        have hold : s.backup name = none := hnone name hnew
        have hsame := Function.update_eq_self name s.backup
        rw [hold] at hsame
        exact hsame.symm
    rintro backup rfl
    refine ⟨h.opened, hdead, hleft, done ++ [name], by rw [hdone]; simp, ?_, ?_⟩
    · intro other hother
      rcases List.mem_append.1 hother with hother | hother
      · have hne : other ≠ name := fun heq => hnew (heq ▸ hother)
        exact (Function.update_of_ne hne _ _).trans (hsame other hother)
      · rw [List.mem_singleton.1 hother]
        exact Function.update_self _ _ _
    · intro other hother
      have hne : other ≠ name := fun heq => hother (by simp [heq])
      have hold : other ∉ done := fun hmem => hother (List.mem_append_left _ hmem)
      exact (Function.update_of_ne hne _ _).trans (hnone other hold)
  · rename_i reason heq
    have hkept := h.at heq
    exact ⟨h.opened, hkept⟩
  · rename_i heq
    exact ⟨h.opened, _, rfl⟩
  · rename_i name rest heq
    obtain ⟨hdead, hkept, done, hdone, hsame⟩ := h.at heq
    refine ⟨h.opened, hdead, hkept, done ++ [name], by rw [hdone]; simp, ?_⟩
    intro other hother
    by_cases hother' : other = name
    · rw [hother']
      exact Function.update_self _ _ _
    · have hmem : other ∈ done := by
        rcases List.mem_append.1 hother with hmem | hmem
        · exact hmem
        · exact absurd (List.mem_singleton.1 hmem) hother'
      exact (Function.update_of_ne hother' _ _).trans (hsame other hmem)
  · exact ⟨h.opened, trivial⟩
  · exact h

theorem Inv.command (h : Inv s) (outcome : Command) : Inv (s.command names outcome) := by
  unfold Run.command
  split
  · rename_i version heq
    have hkept : version = .target → Kept s := by
      rintro rfl
      exact (h.at heq).1
    split
    · exact h.startFailed hkept _
    · exact h.startFailed hkept _
    · cases version with
      | target => exact h.moved heq fun hok => hok
      | source => exact h.moved heq fun hok => hok
  · exact h

theorem Inv.state (h : Inv s) (answer : Option DaemonState) (expired : Bool) :
    Inv (s.state names answer expired) := by
  unfold Run.state
  split
  · rename_i version heq
    have hkept : version = .target → Kept s := by
      rintro rfl
      exact (h.at heq).1
    split
    · refine ⟨h.opened, version, ?_⟩
      cases version with
      | target =>
        obtain ⟨earlier, hseen⟩ := (h.at heq).2
        exact ⟨earlier, congrArg (Event.running Version.target :: ·) hseen⟩
      | source =>
        obtain ⟨earlier, hseen⟩ := h.at heq
        exact ⟨earlier, congrArg (Event.running Version.source :: ·) hseen⟩
    · split
      · exact h.startFailed hkept _
      · split
        · exact h.startFailed hkept _
        · exact h
  · rename_i reason heq
    split
    · exact h.moved heq fun hok => hok
    · exact h.moved heq fun hok => hok
  · exact h

/-! ### The daemons' steps -/

theorem Inv.launch (h : Inv s) : Inv s.launch := by
  unfold Run.launch
  split
  · rename_i version heq
    refine ⟨fun daemon hmem hopened => ?_, ?_⟩
    · rcases List.mem_append.1 hmem with hmem | hmem
      · exact h.opened daemon hmem hopened
      · rw [List.mem_singleton.1 hmem] at hopened
        cases hopened
    · have hstage := h.at heq
      unfold StageOk at hstage ⊢
      dsimp only at hstage ⊢
      rw [heq]
      cases version with
      | target => exact hstage
      | source => exact hstage
  · exact h

theorem Inv.opens (h : Inv s) (i : Nat) : Inv (s.opens i) := by
  have hopens : ∀ daemon : Daemon,
      ({ daemon with opened := daemon.alive } : Daemon).alive = daemon.alive := fun _ => rfl
  refine ⟨fun daemon hmem hopened => ?_, h.stage.daemons (List.length_modify ..)
    (any_modify_alive _ _ hopens)⟩
  rcases mem_modify hmem with hmem | ⟨old, -, rfl⟩
  · exact h.opened daemon hmem hopened
  · exact hopened

/-- While a process lives, what holds of a stage does not depend on the files. -/
theorem StageOk.files (h : StageOk s) (halive : s.anyAlive = true) (files : String → Option β) :
    StageOk { s with files := files } := by
  have hdead : s.anyAlive = false → False := fun hdead => by
    rw [halive] at hdead
    cases hdead
  have hleft : s.made = false ∧ s.daemons.length = 1 ∧
      (s.left = if s.anyAlive then none else some s.files) →
      s.made = false ∧ s.daemons.length = 1 ∧
        s.left = if s.anyAlive then none else some files := by
    rintro ⟨hmade, hlength, hleft⟩
    rw [halive] at hleft ⊢
    exact ⟨hmade, hlength, hleft⟩
  unfold StageOk at h ⊢
  dsimp only
  cases hstage : s.stage with
  | installing => rw [hstage] at h; exact hleft h
  | stopping => rw [hstage] at h; exact hleft h
  | waitingStopped => rw [hstage] at h; exact hleft h
  | clearing => rw [hstage] at h; exact (hdead h.2.1).elim
  | backingUp rest => rw [hstage] at h; exact (hdead h.1).elim
  | restoring rest => rw [hstage] at h; exact (hdead h.1).elim
  | starting version =>
    rw [hstage] at h
    cases version <;> exact h
  | awaiting version =>
    rw [hstage] at h
    cases version <;> exact h
  | _ => rw [hstage] at h; exact h

theorem Inv.writes (h : Inv s) (i : Nat) (name : String) (content : Option β) :
    Inv (s.writes i name content) := by
  unfold Run.writes
  split
  · rename_i daemon hdaemon
    split
    · rename_i hopened
      have hmem := List.mem_of_getElem? hdaemon
      have halive : s.anyAlive = true :=
        List.any_eq_true.2 ⟨daemon, hmem, h.opened daemon hmem hopened⟩
      exact ⟨h.opened, h.stage.files halive _⟩
    · exact h
  · exact h

/-- What the exit of a process makes of the processes. -/
def exited (daemon : Daemon) : Daemon := { daemon with alive := false, opened := false }

theorem any_modify_exited (daemons : List Daemon) (i : Nat)
    (hdead : daemons.any (·.alive) = false) :
    (daemons.modify i exited).any (·.alive) = false := by
  rw [List.any_eq_false] at hdead ⊢
  intro daemon hmem
  rcases mem_modify hmem with hmem | ⟨old, -, rfl⟩
  · exact hdead daemon hmem
  · simp [exited]

theorem Inv.exits (h : Inv s) (i : Nat) : Inv (s.exits i) := by
  refine ⟨fun daemon hmem hopened => ?_, ?_⟩
  · rcases mem_modify hmem with hmem | ⟨old, -, rfl⟩
    · exact h.opened daemon hmem hopened
    · cases hopened
  have hdead : s.anyAlive = false → (s.exits i).anyAlive = false :=
    any_modify_exited s.daemons i
  have hleft : s.left ≠ none → (s.exits i).left = s.left := fun hsome =>
    if_neg fun hnone => hsome hnone.2
  have hkept : Kept s → Kept (s.exits i) := by
    rintro ⟨left, hsome, hbackup⟩
    exact ⟨left, (hleft (by simp [hsome])).trans hsome, hbackup⟩
  have hfirst : (s.made = false ∧ s.daemons.length = 1 ∧
      (s.left = if s.anyAlive then none else some s.files)) →
      (s.exits i).made = false ∧ (s.exits i).daemons.length = 1 ∧
        (s.exits i).left = if (s.exits i).anyAlive then none else some (s.exits i).files := by
    rintro ⟨hmade, hlength, hleftIs⟩
    refine ⟨hmade, (List.length_modify ..).trans hlength, ?_⟩
    cases halive : s.anyAlive with
    | false =>
      rw [hdead halive]
      rw [halive] at hleftIs
      exact (hleft (by simp [hleftIs])).trans hleftIs
    | true =>
      rw [halive] at hleftIs
      obtain ⟨old, hold⟩ := List.length_eq_one_iff.1 hlength
      cases i with
      | zero =>
        have hgone : (s.exits 0).anyAlive = false := by
          simp [Run.exits, Run.anyAlive, hold]
        rw [hgone]
        exact if_pos ⟨rfl, hleftIs⟩
      | succ i =>
        have hsame : (s.exits (i + 1)).anyAlive = true := by
          rw [← halive]
          simp [Run.exits, Run.anyAlive, hold]
        rw [hsame]
        have hkeep : (s.exits (i + 1)).left = s.left := by simp [Run.exits]
        exact hkeep.trans hleftIs
  have h := h.stage
  have hstageSame : (s.exits i).stage = s.stage := rfl
  unfold StageOk at h ⊢
  rw [hstageSame]
  cases hstage : s.stage with
  | installing => rw [hstage] at h; exact hfirst h
  | stopping => rw [hstage] at h; exact hfirst h
  | waitingStopped => rw [hstage] at h; exact hfirst h
  | clearing =>
    rw [hstage] at h
    obtain ⟨hmade, hnone, hsome⟩ := h
    exact ⟨hmade, hdead hnone, (hleft (by simp [hsome])).trans hsome⟩
  | backingUp rest =>
    rw [hstage] at h
    obtain ⟨hnone, hsome, hdone⟩ := h
    exact ⟨hdead hnone, (hleft (by simp [hsome])).trans hsome, hdone⟩
  | restoring rest =>
    rw [hstage] at h
    obtain ⟨hnone, hsome, hdone⟩ := h
    exact ⟨hdead hnone, hkept hsome, hdone⟩
  | starting version =>
    rw [hstage] at h
    cases version with
    | target => exact ⟨hkept h.1, h.2⟩
    | source => exact h
  | awaiting version =>
    rw [hstage] at h
    cases version with
    | target => exact ⟨hkept h.1, h.2⟩
    | source => exact h
  | deleting code => rw [hstage] at h; exact h
  | finished code => trivial
  | _ => rw [hstage] at h; exact hkept h

/-! ### Every run -/

theorem Inv.step (h : Inv s) (a : Action β) (hfits : Fits s a) : Inv (Updater.step names s a) := by
  cases a with
  | npm ok message => exact h.npm ok message
  | stopReturned => exact h.stopReturned
  | poll listening alive expired =>
    unfold Updater.step
    dsimp only
    split
    · exact h
    · rename_i hpid
      refine h.poll listening alive expired (fun halive hstage => ?_) hfits
      cases hold : s.oldAlive with
      | false => rfl
      | true => exact absurd ⟨halive, hold, hstage⟩ hpid
  | proceed => exact h.proceed
  | command outcome => exact h.command outcome
  | state answer expired => exact h.state answer expired
  | launch => exact h.launch
  | opens i => exact h.opens i
  | writes i name content => exact h.writes i name content
  | exits i => exact h.exits i

theorem inv_start (files : String → Option β) : Inv (Run.start files) :=
  ⟨by simp [Run.start], rfl, rfl, rfl⟩

/-- Where the wait for the old daemon gives up on no living process, and none lives when the socket
    is found free ahead of the restore, every step of the update keeps the databases whole. -/
theorem update_whole (names : Version → String) (files : String → Option β)
    (acts : List (Action β)) (hfits : AllSteps (step names) Fits (Run.start files) acts) :
    AllSteps (step names) (Whole names) (Run.start files) acts :=
  AllSteps.of_invariant (fun _ a hfit h => h.step a hfit) (fun _ a _ h => h.whole a) acts _
    (inv_start files) hfits

def twoVersions : Version → String
  | .source => "0.3.0"
  | .target => "0.4.0"

def twoDatabases : String → Option Nat
  | "state.db" => some 1
  | "history.db" => some 2
  | _ => none

/-- The new daemon migrates the databases and fails; the copies are restored and the old version
    started again. -/
def rolledBack : List (Action Nat) :=
  [.npm true "", .stopReturned, .poll true true false, .exits 0, .poll false false false] ++
    List.replicate 8 .proceed ++
    [.launch, .opens 1, .writes 1 "state.db" (some 7), .writes 1 "state.db-wal" (some 8),
      .command (.exited true ""), .state (some ⟨"failed", "0.4.0"⟩) false,
      .state none false, .exits 1, .proceed, .npm true "", .poll false false false] ++
    List.replicate 7 .proceed ++
    [.launch, .opens 2, .command (.exited true ""), .state (some ⟨"running", "0.3.0"⟩) false,
      .proceed]

theorem update_whole_rolledBack :
    AllSteps (step twoVersions) Fits (Run.start twoDatabases) rolledBack ∧
      AllSteps (step twoVersions) (Whole twoVersions) (Run.start twoDatabases) rolledBack ∧
        (run (step twoVersions) (Run.start twoDatabases) rolledBack).stage = .finished 1 ∧
          (run (step twoVersions) (Run.start twoDatabases) rolledBack).files "state.db" =
            some 1 := by
  have hfits : AllSteps (step twoVersions) Fits (Run.start twoDatabases) rolledBack := by
    decide +kernel
  exact ⟨hfits, update_whole twoVersions twoDatabases rolledBack hfits, by decide +kernel,
    by decide +kernel⟩

/-- The old daemon ignores the stop, the wait gives up, the signal is sent, and the first file is
    copied while the process still has the databases open. -/
theorem update_not_whole :
    ¬ ∀ (names : Version → String) (files : String → Option Nat) (acts : List (Action Nat)),
      AllSteps (step names) (Whole names) (Run.start files) acts := by
  intro hall
  have hwhole := hall twoVersions twoDatabases
    [.npm true "", .stopReturned, .poll true true true, .proceed, .proceed]
  have hcopy := hwhole.2.2.2.2.1.closed
    (.inl ⟨"state.db", databaseFiles.tail, by decide, by decide⟩)
  exact absurd (hcopy ⟨true, true, true⟩ (by decide)) (by decide)

end Simlock.Updater
