import Simlock.Ports.WorkerLock

/-! At most one worker per user, as far as the lock's checks and writes are not torn apart.

    A daemon looks at the lock (`mkdir` or a read of the owner) and writes its own record later. While
    a live daemon holds the lock its record is at the path, or a loser's release has moved it aside
    and puts it back. So another daemon's look shows the holder and its start is refused -- unless
    the holder came by the lock after that look, or the look fell between the two renames. -/

namespace Simlock.Ports

open Lib

/-- It completed `claimed` and has not released. -/
def Daemon.Holds (x : Daemon) : Prop := x.live = true ∧ x.holding = true

instance (x : Daemon) : Decidable x.Holds := inferInstanceAs (Decidable (_ ∧ _))

/-- The lock that a release under way has renamed away and not yet dealt with. -/
def Daemon.moving (x : Daemon) : Option Lock :=
  match x.release with
  | .read | .putBack => x.aside
  | _ => none

/-- At most one live daemon holds the lock, and the path shows its record, unless another live
    daemon's release is between its two renames with it. -/
structure OneWorker (w : World) : Prop where
  one : ∀ (i j : Nat) (x y : Daemon), w.daemons[i]? = some x → w.daemons[j]? = some y → x.Holds → y.Holds → i = j
  kept : ∀ y ∈ w.daemons, y.Holds → w.path = some (.of y.owner) ∨
    ∃ x ∈ w.daemons, x.live = true ∧ x.owner ≠ y.owner ∧ x.moving = some (.of y.owner)

/-- The path shows the record of every live holder but `x`. -/
def Shows (w : World) (x : Daemon) : Prop :=
  ∀ y ∈ w.daemons, y.Holds → y.owner = x.owner ∨ w.path = some (.of y.owner)

/-- No live daemon but `x` holds the lock. -/
def NoOther (w : World) (x : Daemon) : Prop := ∀ y ∈ w.daemons, y.Holds → y.owner = x.owner

instance (w : World) (x : Daemon) : Decidable (Shows w x) :=
  inferInstanceAs (Decidable (∀ y ∈ w.daemons, y.Holds → _))

instance (w : World) (x : Daemon) : Decidable (NoOther w x) :=
  inferInstanceAs (Decidable (∀ y ∈ w.daemons, y.Holds → _))

def Claim.writes : Claim → Bool
  | .write _ => true
  | _ => false

/-- An owner file is written after the look it rests on was overtaken only if the overtaker holds the
    lock no more. While a release has a live holder's lock aside, nobody looks at the path, the
    releasing daemon does not crash, and no other release puts another lock back. -/
def Careful (w : World) : Action → Prop
  | .take i => ∀ x ∈ w.daemons[i]?, x.live = true →
      (x.take = .write ∧ x.overtaken = true → NoOther w x) ∧
      ((x.take = .mkdir ∧ w.path = none) ∨ x.take = .read → Shows w x)
  | .claim i => ∀ x ∈ w.daemons[i]?, x.live = true →
      (x.claim.writes = true ∧ x.overtaken = true → NoOther w x) ∧ (x.claim = .read → Shows w x)
  | .release i => ∀ x ∈ w.daemons[i]?, x.live = true → x.release = .putBack →
      ∀ y ∈ w.daemons, y.Holds → w.path = some (.of y.owner) ∨ x.aside = some (.of y.owner)
  | .crash i => ∀ x ∈ w.daemons[i]?, ∀ y ∈ w.daemons, y.Holds → y.owner ≠ x.owner →
      x.moving = some (.of y.owner) → w.path = some (.of y.owner)
  | _ => True

instance (w : World) (a : Action) : Decidable (Careful w a) := by
  unfold Careful
  split <;> infer_instance

/-! ### The invariant -/

/-- No owner file is at the path. -/
def Bare (path : Option Lock) : Prop := path = none ∨ path = some .bare

/-- The record of a holder, the `j`-th daemon, is at the path or is being moved by another's
    release. -/
def Held (path : Option Lock) (daemons : List Daemon) (j : Nat) (owner : WorkerLockOwner) : Prop :=
  path = some (.of owner) ∨
    (Bare path ∧ ∃ (k : Nat) (z : Daemon), daemons[k]? = some z ∧ z.live = true ∧ k ≠ j ∧
      z.moving = some (.of owner))

/-- A start that has seen `owner` hold the lock does not go on to a write. -/
def Take.AwareOf (owner : WorkerLockOwner) : Take → Prop
  | .write => False
  | .judge holder => holder = some owner
  | _ => True

def Claim.AwareOf (owner : WorkerLockOwner) : Claim → Prop
  | .mkdirp _ | .write _ | .readBack _ => False
  | .judge holder => holder = some owner
  | _ => True

def Daemon.AwareOf (x : Daemon) (owner : WorkerLockOwner) : Prop :=
  x.take.AwareOf owner ∧ x.claim.AwareOf owner

structure Inv (w : World) : Prop where
  pids : ∀ (i j : Nat) (x y : Daemon), w.daemons[i]? = some x → w.daemons[j]? = some y → x.live = true →
    y.live = true → x.owner.pid = y.owner.pid → i = j
  folders : ∀ (i j : Nat) (x y : Daemon), w.daemons[i]? = some x → w.daemons[j]? = some y → x.live = true →
    y.live = true → x.owner.folder = y.owner.folder → i = j
  pos : ∀ x ∈ w.daemons, 1 ≤ x.owner.pid
  idle : ∀ x ∈ w.daemons, x.take ≠ .taken → x.claim = .idle
  one : ∀ (i j : Nat) (x y : Daemon), w.daemons[i]? = some x → w.daemons[j]? = some y → x.Holds → y.Holds → i = j
  held : ∀ (j : Nat) (y : Daemon), w.daemons[j]? = some y → y.Holds → Held w.path w.daemons j y.owner
  aware : ∀ (i j : Nat) (x y : Daemon), w.daemons[i]? = some x → w.daemons[j]? = some y → x.live = true →
    x.overtaken = false → y.Holds → i ≠ j → x.AwareOf y.owner

theorem Inv.oneWorker {w : World} (h : Inv w) : OneWorker w where
  one := h.one
  kept y hy hholds := by
    obtain ⟨j, hj⟩ := List.mem_iff_getElem?.mp hy
    rcases h.held j y hj hholds with hpath | ⟨-, k, z, hk, hlive, hne, hmoving⟩
    · exact .inl hpath
    · refine .inr ⟨z, List.mem_of_getElem? hk, hlive, fun howner => hne ?_, hmoving⟩
      exact h.pids k j z y hk hj hlive hholds.1 (by rw [howner])

theorem inv_init (path : Option Lock) : Inv (World.init path) := by
  constructor <;> simp [World.init]

theorem isAlive_of_live {w : World} {x : Daemon} (hx : x ∈ w.daemons) (hlive : x.live = true) :
    w.isAlive x.owner.pid = true :=
  List.any_eq_true.mpr ⟨x, hx, by simp [hlive]⟩

theorem readOwner_of {path : Option Lock} {owner : WorkerLockOwner} (hpath : path = some (.of owner))
    (hpos : 1 ≤ owner.pid) : readOwner path = some owner := by
  rw [hpath]
  exact if_neg (by omega)

section Turn

variable {w : World} {i : Nat} {x : Daemon}

/-- Two live daemons with one record are one daemon. -/
theorem Inv.index_eq (h : Inv w) (hx : w.daemons[i]? = some x) (hlive : x.live = true) {j : Nat}
    {y : Daemon} (hy : w.daemons[j]? = some y) (hlivey : y.live = true) (howner : y.owner = x.owner) :
    j = i := h.pids j i y x hy hx hlivey hlive (by rw [howner])

theorem Inv.none_of_noOther (h : Inv w) (hx : w.daemons[i]? = some x) (hlive : x.live = true)
    (hno : NoOther w x) {j : Nat} {y : Daemon} (hy : w.daemons[j]? = some y) (hholds : y.Holds) :
    j = i :=
  h.index_eq hx hlive hy hholds.1 (hno y (List.mem_of_getElem? hy) hholds)

/-- Another holder's record is at the path when the look shows every other holder. -/
theorem Inv.path_of_shows (h : Inv w) (hx : w.daemons[i]? = some x) (hlive : x.live = true)
    (hshows : Shows w x) {j : Nat} {y : Daemon} (hy : w.daemons[j]? = some y) (hholds : y.Holds)
    (hne : j ≠ i) : w.path = some (.of y.owner) := by
  rcases hshows y (List.mem_of_getElem? hy) hholds with howner | hpath
  · exact absurd (h.index_eq hx hlive hy hholds.1 howner) hne
  · exact hpath

/-- Held goes on when one daemon's record is replaced by one that moves the same lock. -/
theorem Held.set {path : Option Lock} {daemons : List Daemon} {j : Nat} {owner : WorkerLockOwner}
    (h : Held path daemons j owner) (hx : daemons[i]? = some x) {x' : Daemon}
    (hlive : x'.live = x.live) (hmoving : x'.moving = x.moving) :
    Held path (daemons.set i x') j owner := by
  rcases h with hpath | ⟨hbare, k, z, hk, hlivez, hne, hmovez⟩
  · exact .inl hpath
  · refine .inr ⟨hbare, ?_⟩
    by_cases hki : k = i
    · subst hki
      cases hk.symm.trans hx
      exact ⟨k, x', getElem?_set_of_getElem? hx, hlive.trans hlivez, hne, hmoving.trans hmovez⟩
    · refine ⟨k, z, ?_, hlivez, hne, hmovez⟩
      rw [getElem?_set_if hx, if_neg hki]
      exact hk

/-- A directory is made where there was none. -/
theorem Held.made {daemons : List Daemon} {j : Nat} {owner : WorkerLockOwner}
    (h : Held none daemons j owner) : Held (some .bare) daemons j owner := by
  rcases h with hpath | ⟨-, hmover⟩
  · cases hpath
  · exact .inr ⟨.inr rfl, hmover⟩

/-- What a daemon becomes keeps the invariant when it keeps every lock held and the daemon, unless
    overtaken, is still aware of every other holder. -/
theorem Inv.put (h : Inv w) (hx : w.daemons[i]? = some x) (path' : Option Lock) {x' : Daemon}
    (howner : x'.owner = x.owner) (hlive : x'.live = true → x.live = true)
    (hidle : x'.take ≠ .taken → x'.claim = .idle)
    (hholding : x'.holding = true → x.holding = true)
    (hheld : ∀ (j : Nat) (y : Daemon), w.daemons[j]? = some y → y.Holds → (j = i → x'.Holds) →
      Held path' (w.daemons.set i x') j y.owner)
    (haware : ∀ (j : Nat) (y : Daemon), w.daemons[j]? = some y → y.Holds → j ≠ i →
      x'.live = true → x'.overtaken = false → x'.AwareOf y.owner) :
    Inv (w.put path' i x') := by
  have hstored : ∀ (j : Nat) (y : Daemon), (w.daemons.set i x')[j]? = some y →
      ∃ y₀, w.daemons[j]? = some y₀ ∧ y.owner = y₀.owner ∧ (y.live = true → y₀.live = true) ∧
        (y.holding = true → y₀.holding = true) ∧ (j ≠ i → y = y₀) ∧ (j = i → y = x') := by
    intro j y hy
    rw [getElem?_set_if hx] at hy
    split at hy
    · rename_i hji
      obtain rfl := Option.some.inj hy
      subst hji
      exact ⟨x, hx, howner, hlive, hholding, fun hne => absurd rfl hne, fun _ => rfl⟩
    · rename_i hji
      exact ⟨y, hy, rfl, id, id, fun _ => rfl, fun heq => absurd heq hji⟩
  refine ⟨?_, ?_, ?_, ?_, ?_, ?_, ?_⟩
  · intro a b y z hy hz hlivey hlivez hpid
    obtain ⟨y₀, hy₀, howny, hly, -⟩ := hstored a y hy
    obtain ⟨z₀, hz₀, hownz, hlz, -⟩ := hstored b z hz
    exact h.pids a b y₀ z₀ hy₀ hz₀ (hly hlivey) (hlz hlivez) (by rw [← howny, ← hownz, hpid])
  · intro a b y z hy hz hlivey hlivez hfolder
    obtain ⟨y₀, hy₀, howny, hly, -⟩ := hstored a y hy
    obtain ⟨z₀, hz₀, hownz, hlz, -⟩ := hstored b z hz
    exact h.folders a b y₀ z₀ hy₀ hz₀ (hly hlivey) (hlz hlivez)
      (by rw [← howny, ← hownz, hfolder])
  · intro y hy
    obtain ⟨j, hj⟩ := List.mem_iff_getElem?.mp hy
    obtain ⟨y₀, hy₀, howny, -⟩ := hstored j y hj
    rw [howny]
    exact h.pos y₀ (List.mem_of_getElem? hy₀)
  · intro y hy
    rcases List.mem_or_eq_of_mem_set hy with hy | rfl
    · exact h.idle y hy
    · exact hidle
  · intro a b y z hy hz hholdsy hholdsz
    obtain ⟨y₀, hy₀, -, hly, hhy, -⟩ := hstored a y hy
    obtain ⟨z₀, hz₀, -, hlz, hhz, -⟩ := hstored b z hz
    exact h.one a b y₀ z₀ hy₀ hz₀ ⟨hly hholdsy.1, hhy hholdsy.2⟩ ⟨hlz hholdsz.1, hhz hholdsz.2⟩
  · intro j y hy hholdsy
    obtain ⟨y₀, hy₀, howny, hly, hhy, -, hself⟩ := hstored j y hy
    rw [howny]
    exact hheld j y₀ hy₀ ⟨hly hholdsy.1, hhy hholdsy.2⟩ fun hji => hself hji ▸ hholdsy
  · intro a b y z hy hz hlivey hover hholdsz hab
    obtain ⟨y₀, hy₀, -, hly, -, hother, hself⟩ := hstored a y hy
    obtain ⟨z₀, hz₀, hownz, hlz, hhz, -⟩ := hstored b z hz
    have hholdsz₀ : z₀.Holds := ⟨hlz hholdsz.1, hhz hholdsz.2⟩
    rw [hownz]
    by_cases hai : a = i
    · obtain rfl := hself hai
      exact haware b z₀ hz₀ hholdsz₀ (fun hbi => hab (hai.trans hbi.symm)) hlivey hover
    · obtain rfl := hother hai
      exact h.aware a b y z₀ hy₀ hz₀ hlivey hover hholdsz₀ hab

/-- A turn that touches no file, or only makes the directory. -/
theorem Inv.put_quiet (h : Inv w) (hx : w.daemons[i]? = some x) {path' : Option Lock} {x' : Daemon}
    (hpath : path' = w.path ∨ (w.path = none ∧ path' = some .bare))
    (howner : x'.owner = x.owner) (hlive : x'.live = x.live)
    (hidle : x'.take ≠ .taken → x'.claim = .idle)
    (hholding : x'.holding = x.holding) (hmoving : x'.moving = x.moving)
    (haware : ∀ (j : Nat) (y : Daemon), w.daemons[j]? = some y → y.Holds → j ≠ i → x'.overtaken = false →
      x'.AwareOf y.owner) :
    Inv (w.put path' i x') := by
  refine h.put hx path' howner (by rw [hlive]; exact id) hidle (by rw [hholding]; exact id) ?_
    fun j y hy hholds hne _ hover => haware j y hy hholds hne hover
  intro j y hy hholds _
  have hset := (h.held j y hy hholds).set hx hlive hmoving
  rcases hpath with rfl | ⟨hnone, rfl⟩
  · exact hset
  · rw [hnone] at hset
    exact hset.made

/-- A write of a daemon's own record while nobody else holds the lock. -/
theorem Inv.put_write (h : Inv w) (hx : w.daemons[i]? = some x)
    (hno : ∀ (j : Nat) (y : Daemon), w.daemons[j]? = some y → y.Holds → j = i) {x' : Daemon}
    (howner : x'.owner = x.owner) (hlive : x'.live = x.live)
    (hidle : x'.take ≠ .taken → x'.claim = .idle) (hholding : x'.holding = x.holding) :
    Inv (w.put (some (.of x.owner)) i x') := by
  refine h.put hx _ howner (by rw [hlive]; exact id) hidle (by rw [hholding]; exact id) ?_ ?_
  · intro j y hy hholds _
    obtain rfl := hno j y hy hholds
    cases hy.symm.trans hx
    exact .inl rfl
  · intro j y hy hholds hne
    exact absurd (hno j y hy hholds) hne

/-- A write is made while nobody else holds the lock: the writer is not aware of another holder, and
    was overtaken only by a daemon that holds it no more. -/
theorem Inv.no_other_at_write (h : Inv w) (hx : w.daemons[i]? = some x) (hlive : x.live = true)
    (hunaware : ∀ owner, ¬ x.AwareOf owner) (hcareful : x.overtaken = true → NoOther w x) (j : Nat)
    (y : Daemon) (hy : w.daemons[j]? = some y) (hholds : y.Holds) : j = i := by
  by_contra hne
  cases hover : x.overtaken with
  | true => exact hne (h.none_of_noOther hx hlive (hcareful hover) hy hholds)
  | false =>
    exact hunaware y.owner (h.aware i j x y hx hy hlive hover hholds (Ne.symm hne))

/-! ### take -/

/-- A start whose `take` is not done has made no claim. -/
theorem Inv.claim_idle (h : Inv w) (hx : w.daemons[i]? = some x) (htake : x.take ≠ .taken) :
    x.claim = .idle := h.idle x (List.mem_of_getElem? hx) htake

/-- A `take` step that moves on to `take'`, a place where nothing is written next. -/
theorem Inv.take_on (h : Inv w) (hx : w.daemons[i]? = some x) (hlive : x.live = true) {take' : Take}
    {owns' : Bool} (htake : x.take ≠ .taken)
    (haware : ∀ owner, x.take.AwareOf owner → take'.AwareOf owner) :
    Inv (w.put w.path i { x with take := take', owns := owns' }) := by
  have hidle := h.claim_idle hx htake
  refine h.put_quiet hx (.inl rfl) rfl rfl (fun _ => hidle) rfl rfl ?_
  intro j y hy hholds hne hover
  obtain ⟨htaken, -⟩ := h.aware i j x y hx hy hlive hover hholds (Ne.symm hne)
  refine ⟨haware y.owner htaken, ?_⟩
  rw [hidle]
  trivial

/-- The judgement lets a start on only if it has seen no live holder of another folder. -/
theorem Inv.judged (h : Inv w) (hx : w.daemons[i]? = some x) (hlive : x.live = true)
    {holder : Option WorkerLockOwner} (htake : x.take = .judge holder)
    (hpass : ∀ owner, holder = some owner → w.isAlive owner.pid = false) :
    Inv (w.put w.path i { x with take := .write }) := by
  have hnot : x.take ≠ .taken := by simp [htake]
  have hidle := h.claim_idle hx hnot
  refine h.put_quiet hx (.inl rfl) rfl rfl (fun _ => hidle) rfl rfl ?_
  intro j y hy hholds hne hover
  obtain ⟨htaken, -⟩ := h.aware i j x y hx hy hlive hover hholds (Ne.symm hne)
  rw [htake] at htaken
  have hdead := hpass y.owner htaken
  rw [isAlive_of_live (List.mem_of_getElem? hy) hholds.1] at hdead
  cases hdead

theorem Inv.takes (h : Inv w) (hx : w.daemons[i]? = some x) (hlive : x.live = true)
    (hwrite : x.take = .write ∧ x.overtaken = true → NoOther w x)
    (hlook : (x.take = .mkdir ∧ w.path = none) ∨ x.take = .read → Shows w x) :
    Inv (w.put (x.takes w.path w.isAlive).1 i (x.takes w.path w.isAlive).2) := by
  unfold Daemon.takes
  split
  case h_1 htake =>
    exact h.take_on hx hlive (by simp [htake]) fun _ _ => trivial
  case h_2 htake =>
    split
    · rename_i hpath
      -- the directory is made: no other holder's record is at the path, so there is none
      have hidle := h.claim_idle hx (by simp [htake])
      refine h.put_quiet hx (.inr ⟨hpath, rfl⟩) rfl rfl (fun _ => hidle) rfl rfl ?_
      intro j y hy hholds hne _
      have hshown := h.path_of_shows hx hlive (hlook (.inl ⟨htake, hpath⟩)) hy hholds hne
      rw [hpath] at hshown
      cases hshown
    · exact h.take_on hx hlive (by simp [htake]) fun _ _ => trivial
  case h_3 htake =>
    have hidle := h.claim_idle hx (by simp [htake])
    refine h.put_quiet hx (.inl rfl) rfl rfl (fun _ => hidle) rfl rfl ?_
    intro j y hy hholds hne _
    have hshown := h.path_of_shows hx hlive (hlook (.inr htake)) hy hholds hne
    refine ⟨readOwner_of hshown (h.pos y (List.mem_of_getElem? hy)), ?_⟩
    simp only [hidle]
    trivial
  case h_4 holder htake =>
    have hnot : x.take ≠ .taken := by simp [htake]
    split
    · rename_i owner
      split
      · split
        · exact h.take_on hx hlive hnot fun _ _ => trivial
        · exact h.take_on hx hlive hnot fun _ _ => trivial
      · rename_i hdead
        exact h.judged hx hlive htake fun other hother => by
          cases hother
          simpa using hdead
    · exact h.judged hx hlive htake nofun
  case h_5 htake =>
    have hnot : x.take ≠ .taken := by simp [htake]
    split
    · exact h.take_on hx hlive hnot fun _ _ => trivial
    · have hno := h.no_other_at_write hx hlive (fun _ haware => by simp [Daemon.AwareOf, htake,
        Take.AwareOf] at haware) fun hover => hwrite ⟨htake, hover⟩
      exact h.put_write hx hno rfl rfl (fun htaken => absurd rfl htaken) rfl
  case h_6 | h_7 =>
    refine h.put_quiet hx (.inl rfl) rfl rfl (h.idle x (List.mem_of_getElem? hx)) rfl rfl ?_
    intro j y hy hholds hne hover
    exact h.aware i j x y hx hy hlive hover hholds (Ne.symm hne)

/-! ### claimed -/

/-- A claim under way belongs to a handle. -/
theorem Inv.taken (h : Inv w) (hx : w.daemons[i]? = some x) (hclaim : x.claim ≠ .idle) :
    x.take = .taken := by
  by_contra htake
  exact hclaim (h.claim_idle hx htake)

/-- A claim step that moves on to a place that is as aware of the holders. -/
theorem Inv.claim_on (h : Inv w) (hx : w.daemons[i]? = some x) (hlive : x.live = true)
    {path' : Option Lock} {claim' : Claim}
    (hpath : path' = w.path ∨ (w.path = none ∧ path' = some .bare)) (htake : x.take = .taken)
    (haware : ∀ j y, w.daemons[j]? = some y → y.Holds → j ≠ i → x.claim.AwareOf y.owner →
      claim'.AwareOf y.owner) :
    Inv (w.put path' i { x with claim := claim' }) := by
  refine h.put_quiet hx hpath rfl rfl (fun hne => absurd htake hne) rfl rfl ?_
  intro j y hy hholds hne hover
  obtain ⟨htaken, hclaimed⟩ := h.aware i j x y hx hy hlive hover hholds (Ne.symm hne)
  exact ⟨htaken, haware j y hy hholds hne hclaimed⟩

/-- A call of `claimed` that does not complete it. -/
theorem Inv.claims (h : Inv w) (hx : w.daemons[i]? = some x) (hlive : x.live = true)
    (hnot : x.completes w.path = false)
    (hwrite : x.claim.writes = true ∧ x.overtaken = true → NoOther w x)
    (hlook : x.claim = .read → Shows w x) :
    Inv (w.put (x.claims w.path w.isAlive).1 i (x.claims w.path w.isAlive).2) := by
  unfold Daemon.claims
  split
  case h_1 =>
    refine h.put_quiet hx (.inl rfl) rfl rfl (h.idle x (List.mem_of_getElem? hx)) rfl rfl ?_
    intro j y hy hholds hne hover
    exact h.aware i j x y hx hy hlive hover hholds (Ne.symm hne)
  case h_2 hclaim =>
    have htake := h.taken hx (by simp [hclaim])
    refine h.put_quiet hx (.inl rfl) rfl rfl (fun hne => absurd htake hne) rfl rfl ?_
    intro j y hy hholds hne _
    have hshown := h.path_of_shows hx hlive (hlook hclaim) hy hholds hne
    refine ⟨?_, readOwner_of hshown (h.pos y (List.mem_of_getElem? hy))⟩
    simp only [htake]
    trivial
  case h_3 holder hclaim =>
    have htake := h.taken hx (by simp [hclaim])
    split
    · rename_i owner
      split
      · exact h.claim_on hx hlive (.inl rfl) htake fun _ _ _ _ _ _ => trivial
      · rename_i hpass
        refine h.claim_on hx hlive (.inl rfl) htake fun j y hy hholds hne haware => ?_
        rw [hclaim] at haware
        cases haware
        refine absurd ⟨fun hfolder => hne ?_, ?_⟩ hpass
        · exact h.folders j i y x hy hx hholds.1 hlive hfolder
        · exact isAlive_of_live (List.mem_of_getElem? hy) hholds.1
    · refine h.claim_on hx hlive (.inl rfl) htake fun j y hy hholds hne haware => ?_
      rw [hclaim] at haware
      cases haware
  case h_4 attempt hclaim =>
    have htake := h.taken hx (by simp [hclaim])
    refine h.claim_on hx hlive ?_ htake fun j y hy hholds hne haware => ?_
    · cases w.path with
      | none => exact .inr ⟨rfl, rfl⟩
      | some lock => exact .inl rfl
    · rw [hclaim] at haware
      exact haware.elim
  case h_5 attempt hclaim =>
    have htake := h.taken hx (by simp [hclaim])
    split
    · refine h.claim_on hx hlive (.inl rfl) htake fun j y hy hholds hne haware => ?_
      rw [hclaim] at haware
      exact haware.elim
    · have hno := h.no_other_at_write hx hlive (fun _ haware => by simp [Daemon.AwareOf, hclaim,
        Claim.AwareOf] at haware) fun hover => hwrite ⟨by rw [hclaim]; rfl, hover⟩
      exact h.put_write hx hno rfl rfl (fun hne => absurd htake hne) rfl
  case h_6 attempt hclaim =>
    have htake := h.taken hx (by simp [hclaim])
    have hpath : w.path ≠ some (.of x.owner) := by
      simpa [Daemon.completes, hclaim] using hnot
    rw [if_neg hpath]
    refine h.claim_on hx hlive (.inl rfl) htake fun j y hy hholds hne haware => ?_
    rw [hclaim] at haware
    exact haware.elim

/-- A daemon whose record is at the path is the only one that may hold the lock. -/
theorem Inv.alone (h : Inv w) (hx : w.daemons[i]? = some x) (hlive : x.live = true)
    (hpath : w.path = some (.of x.owner)) {j : Nat} {y : Daemon} (hy : w.daemons[j]? = some y)
    (hholds : y.Holds) : j = i := by
  rcases h.held j y hy hholds with hshown | ⟨hbare, -⟩
  · rw [hpath] at hshown
    exact h.index_eq hx hlive hy hholds.1 (by simpa using hshown.symm)
  · rcases hbare with hnone | hbare
    · rw [hpath] at hnone
      cases hnone
    · rw [hpath] at hbare
      cases hbare

theorem overtake_getElem? (w : World) (i j : Nat) :
    (w.overtake i).daemons[j]? =
      w.daemons[j]?.map fun y => if j = i then y else { y with overtaken := true } := by
  simp [World.overtake]

/-- What completes `claimed`: the read-back shows the daemon's own content. -/
theorem completes_iff {path : Option Lock} (h : x.completes path = true) :
    (∃ attempt, x.claim = .readBack attempt) ∧ path = some (.of x.owner) := by
  unfold Daemon.completes at h
  split at h
  · rename_i attempt hclaim
    exact ⟨⟨attempt, hclaim⟩, by simpa using h⟩
  · cases h

/-- The daemon that completes `claimed` is the one holder, and overtakes every other one. -/
theorem Inv.completed (h : Inv w) (hx : w.daemons[i]? = some x) (hlive : x.live = true)
    (hcompletes : x.completes w.path = true) : Inv ((w.turn i Daemon.claims).overtake i) := by
  obtain ⟨⟨attempt, hclaim⟩, hpath⟩ := completes_iff hcompletes
  have htake := h.taken hx (by simp [hclaim])
  have hturn : w.turn i Daemon.claims =
      w.put w.path i { x with claim := .idle, owns := true, holding := true } := by
    simp [World.turn, hx, hlive, Daemon.claims, hclaim, hpath]
  rw [hturn]
  have hstored : ∀ (j : Nat) (y : Daemon),
      ((w.put w.path i { x with claim := .idle, owns := true, holding := true }).overtake
        i).daemons[j]? = some y →
      (j = i ∧ y = { x with claim := .idle, owns := true, holding := true }) ∨
        (j ≠ i ∧ ∃ y₀, w.daemons[j]? = some y₀ ∧ y = { y₀ with overtaken := true }) := by
    intro j y hy
    rw [overtake_getElem?, World.put, getElem?_set_if hx] at hy
    by_cases hji : j = i
    · simp only [hji, if_true, Option.map_some, Option.some.injEq] at hy
      exact .inl ⟨hji, hy.symm⟩
    · simp only [hji, if_false, Option.map_eq_some_iff] at hy
      obtain ⟨y₀, hy₀, rfl⟩ := hy
      exact .inr ⟨hji, y₀, hy₀, rfl⟩
  have hsame : ∀ (j : Nat) (y : Daemon),
      ((w.put w.path i { x with claim := .idle, owns := true, holding := true }).overtake
        i).daemons[j]? = some y →
      ∃ y₀, w.daemons[j]? = some y₀ ∧ y.owner = y₀.owner ∧ y.live = y₀.live ∧ y.take = y₀.take ∧
        (y.claim = y₀.claim ∨ y.take = .taken) := by
    intro j y hy
    rcases hstored j y hy with ⟨rfl, rfl⟩ | ⟨-, y₀, hy₀, rfl⟩
    · exact ⟨x, hx, rfl, rfl, rfl, .inr htake⟩
    · exact ⟨y₀, hy₀, rfl, rfl, rfl, .inl rfl⟩
  have hone : ∀ (j : Nat) (y : Daemon),
      ((w.put w.path i { x with claim := .idle, owns := true, holding := true }).overtake
        i).daemons[j]? = some y → y.Holds → j = i := by
    intro j y hy hholds
    rcases hstored j y hy with ⟨hji, -⟩ | ⟨-, y₀, hy₀, rfl⟩
    · exact hji
    · exact h.alone hx hlive hpath hy₀ hholds
  refine ⟨?_, ?_, ?_, ?_, ?_, ?_, ?_⟩
  · intro a b y z hy hz hlivey hlivez hpid
    obtain ⟨y₀, hy₀, howny, hly, -⟩ := hsame a y hy
    obtain ⟨z₀, hz₀, hownz, hlz, -⟩ := hsame b z hz
    exact h.pids a b y₀ z₀ hy₀ hz₀ (hly ▸ hlivey) (hlz ▸ hlivez) (by rw [← howny, ← hownz, hpid])
  · intro a b y z hy hz hlivey hlivez hfolder
    obtain ⟨y₀, hy₀, howny, hly, -⟩ := hsame a y hy
    obtain ⟨z₀, hz₀, hownz, hlz, -⟩ := hsame b z hz
    exact h.folders a b y₀ z₀ hy₀ hz₀ (hly ▸ hlivey) (hlz ▸ hlivez)
      (by rw [← howny, ← hownz, hfolder])
  · intro y hy
    obtain ⟨j, hj⟩ := List.mem_iff_getElem?.mp hy
    obtain ⟨y₀, hy₀, howny, -⟩ := hsame j y hj
    rw [howny]
    exact h.pos y₀ (List.mem_of_getElem? hy₀)
  · intro y hy hnot
    obtain ⟨j, hj⟩ := List.mem_iff_getElem?.mp hy
    obtain ⟨y₀, hy₀, -, -, htakey, hclaimy⟩ := hsame j y hj
    rw [hclaimy.resolve_right hnot]
    exact h.idle y₀ (List.mem_of_getElem? hy₀) (htakey ▸ hnot)
  · intro a b y z hy hz hholdsy hholdsz
    exact (hone a y hy hholdsy).trans (hone b z hz hholdsz).symm
  · intro j y hy hholds
    obtain rfl := hone j y hy hholds
    rcases hstored j y hy with ⟨-, rfl⟩ | ⟨hne, -⟩
    · exact .inl hpath
    · exact absurd rfl hne
  · intro a b y z hy hz _ hover hholds hab
    obtain rfl := hone b z hz hholds
    rcases hstored a y hy with ⟨hai, -⟩ | ⟨-, y₀, -, rfl⟩
    · exact absurd hai hab
    · cases hover

/-! ### release -/

/-- What a release does to its daemon leaves its awareness alone. -/
theorem Inv.aware_of (h : Inv w) (hx : w.daemons[i]? = some x) {x' : Daemon}
    (htake : x'.take = x.take) (hclaim : x'.claim = x.claim) (hover : x'.overtaken = x.overtaken)
    (hlive : x'.live = true → x.live = true) (j : Nat) (y : Daemon) (hy : w.daemons[j]? = some y)
    (hholds : y.Holds) (hne : j ≠ i) (hlivex : x'.live = true) (hnot : x'.overtaken = false) :
    x'.AwareOf y.owner := by
  have haware := h.aware i j x y hx hy (hlive hlivex) (hover ▸ hnot) hholds (Ne.symm hne)
  unfold Daemon.AwareOf
  rw [htake, hclaim]
  exact haware

theorem moving_of_read (hrelease : x.release = .read) : x.moving = x.aside := by
  simp [Daemon.moving, hrelease]

theorem moving_of_putBack (hrelease : x.release = .putBack) : x.moving = x.aside := by
  simp [Daemon.moving, hrelease]

/-- The mover of a lock that stays aside when daemon `i`, which moves another one or none, goes on. -/
theorem Held.other {j : Nat} {owner : WorkerLockOwner} {path' : Option Lock} {x' : Daemon}
    (hx : w.daemons[i]? = some x) (hheld : Held w.path w.daemons j owner)
    (hpath : w.path = some (.of owner) → Held path' (w.daemons.set i x') j owner)
    (hbare : Bare w.path → Bare path')
    (hself : Bare w.path → x.live = true → i ≠ j → x.moving = some (.of owner) →
      Held path' (w.daemons.set i x') j owner) :
    Held path' (w.daemons.set i x') j owner := by
  rcases hheld with hshown | ⟨hnone, k, z, hk, hlivez, hne, hmoving⟩
  · exact hpath hshown
  · by_cases hki : k = i
    · subst hki
      cases hk.symm.trans hx
      exact hself hnone hlivez hne hmoving
    · refine .inr ⟨hbare hnone, k, z, ?_, hlivez, hne, hmoving⟩
      rw [getElem?_set_if hx, if_neg hki]
      exact hk

theorem bare_not_of {path : Option Lock} {owner : WorkerLockOwner} (h : Bare path) :
    path ≠ some (.of owner) := by
  rintro rfl
  rcases h with h | h <;> cases h

theorem Inv.releases (h : Inv w) (hx : w.daemons[i]? = some x) (hlive : x.live = true)
    (hback : x.release = .putBack → ∀ y ∈ w.daemons, y.Holds →
      w.path = some (.of y.owner) ∨ x.aside = some (.of y.owner)) :
    Inv (w.put (x.releases w.path w.isAlive).1 i (x.releases w.path w.isAlive).2) := by
  have hidle := h.idle x (List.mem_of_getElem? hx)
  unfold Daemon.releases
  split
  case h_1 =>
    exact h.put_quiet hx (.inl rfl) rfl rfl hidle rfl rfl fun j y hy hholds hne hover =>
      h.aware_of hx rfl rfl rfl id j y hy hholds hne hlive hover
  case h_2 hrelease =>
    have hmoving : x.moving = none := by simp [Daemon.moving, hrelease]
    split
    · rename_i hnone
      refine h.put hx _ rfl id hidle nofun (fun j y hy hholds _ => ?_) (h.aware_of hx rfl rfl rfl id)
      refine Held.other hx (h.held j y hy hholds) ?_ id ?_
      · intro hshown
        exact .inl hshown
      · intro _ _ _ hmoves
        rw [hmoving] at hmoves
        cases hmoves
    · rename_i lock hpath
      refine h.put hx _ rfl id hidle nofun (fun j y hy hholds hself => ?_)
        (h.aware_of hx rfl rfl rfl id)
      have hji : i ≠ j := by
        rintro rfl
        cases (hself rfl).2
      refine Held.other hx (h.held j y hy hholds) ?_ (fun _ => .inl rfl) ?_
      · intro hshown
        rw [hpath] at hshown
        refine .inr ⟨.inl rfl, i, _, getElem?_set_of_getElem? hx, hlive, hji, ?_⟩
        simpa [Daemon.moving] using hshown
      · intro _ _ _ hmoves
        rw [hmoving] at hmoves
        cases hmoves
  case h_3 hrelease =>
    have hmoving := moving_of_read hrelease
    split
    · rename_i hown
      refine h.put hx _ rfl id hidle id (fun j y hy hholds _ => ?_) (h.aware_of hx rfl rfl rfl id)
      refine Held.other hx (h.held j y hy hholds) .inl id ?_
      intro _ _ hij hmoves
      rw [hmoving, hown] at hmoves
      exact absurd (h.index_eq hx hlive hy hholds.1 (by simpa using hmoves.symm)) (Ne.symm hij)
    · refine h.put_quiet hx (.inl rfl) rfl rfl hidle rfl ?_ fun j y hy hholds hne hover =>
        h.aware_of hx rfl rfl rfl id j y hy hholds hne hlive hover
      rw [hmoving]
      rfl
  case h_4 hrelease =>
    have hmoving := moving_of_putBack hrelease
    have hplaced : ∀ lock, x.aside = some lock → Bare w.path →
        Inv (w.put (some lock) i { x with release := .remove, aside := none }) := by
      intro lock haside hbare
      refine h.put hx _ rfl id hidle id (fun j y hy hholds _ => ?_) (h.aware_of hx rfl rfl rfl id)
      rcases hback hrelease y (List.mem_of_getElem? hy) hholds with hshown | hmine
      · exact absurd hshown (bare_not_of hbare)
      · rw [haside] at hmine
        exact .inl hmine
    split
    · rename_i lock haside hpath
      exact hplaced lock haside (.inl hpath)
    · rename_i lock haside hpath
      exact hplaced lock haside (.inr hpath)
    · rename_i hnone hbare
      refine h.put hx _ rfl id hidle id (fun j y hy hholds _ => ?_) (h.aware_of hx rfl rfl rfl id)
      refine Held.other hx (h.held j y hy hholds) .inl id ?_
      intro hfree _ _ hmoves
      rw [hmoving] at hmoves
      rcases hfree with hfree | hfree
      · exact absurd hfree (hnone _ hmoves)
      · exact absurd hfree (hbare _ hmoves)
  case h_5 hrelease =>
    refine h.put_quiet hx (.inl rfl) rfl rfl hidle rfl ?_ fun j y hy hholds hne hover =>
      h.aware_of hx rfl rfl rfl id j y hy hholds hne hlive hover
    simp [Daemon.moving, hrelease]

theorem Inv.callClaimed (h : Inv w) (hx : w.daemons[i]? = some x) (hlive : x.live = true) :
    Inv (w.put (x.callClaimed w.path w.isAlive).1 i (x.callClaimed w.path w.isAlive).2) := by
  unfold Daemon.callClaimed
  split
  · rename_i hcall
    exact h.claim_on hx hlive (.inl rfl) hcall.1 fun _ _ _ _ _ _ => trivial
  · exact h.put_quiet hx (.inl rfl) rfl rfl (h.idle x (List.mem_of_getElem? hx)) rfl rfl
      fun j y hy hholds hne hover => h.aware_of hx rfl rfl rfl id j y hy hholds hne hlive hover

theorem Inv.callRelease (h : Inv w) (hx : w.daemons[i]? = some x) (hlive : x.live = true) :
    Inv (w.put (x.callRelease w.path w.isAlive).1 i (x.callRelease w.path w.isAlive).2) := by
  have hidle := h.idle x (List.mem_of_getElem? hx)
  unfold Daemon.callRelease
  split
  · rename_i hcall
    refine h.put_quiet hx (.inl rfl) rfl rfl hidle rfl ?_ fun j y hy hholds hne hover =>
      h.aware_of hx rfl rfl rfl id j y hy hholds hne hlive hover
    simp [Daemon.moving, hcall.2.1]
  · exact h.put_quiet hx (.inl rfl) rfl rfl hidle rfl rfl fun j y hy hholds hne hover =>
      h.aware_of hx rfl rfl rfl id j y hy hholds hne hlive hover

/-! ### Starts, crashes and sweeps -/

theorem Inv.crash (h : Inv w) (hx : w.daemons[i]? = some x)
    (hcareful : ∀ y ∈ w.daemons, y.Holds → y.owner ≠ x.owner → x.moving = some (.of y.owner) →
      w.path = some (.of y.owner)) : Inv (w.put w.path i { x with live := false }) := by
  have hidle := h.idle x (List.mem_of_getElem? hx)
  refine h.put hx _ rfl nofun hidle id (fun j y hy hholds _ => ?_) (h.aware_of hx rfl rfl rfl nofun)
  refine Held.other hx (h.held j y hy hholds) .inl id ?_
  intro _ hlive hij hmoves
  refine .inl (hcareful y (List.mem_of_getElem? hy) hholds (fun howner => hij ?_) hmoves)
  exact (h.index_eq hx hlive hy hholds.1 howner).symm

/-- What a sweep removes is no live daemon's. -/
theorem Inv.sweep (h : Inv w) (hx : w.daemons[i]? = some x)
    (hdead : w.isAlive x.owner.pid = false) : Inv (w.put w.path i { x with aside := none }) := by
  have hidle := h.idle x (List.mem_of_getElem? hx)
  have hnot : x.live ≠ true := by
    intro hlive
    rw [isAlive_of_live (List.mem_of_getElem? hx) hlive] at hdead
    cases hdead
  refine h.put hx _ rfl id hidle id (fun j y hy hholds _ => ?_)
    fun _ _ _ _ _ hlive => absurd hlive hnot
  exact Held.other hx (h.held j y hy hholds) .inl id fun _ hlive => absurd hlive hnot

end Turn

/-- A daemon that starts has a pid and a folder of its own. -/
theorem Inv.start {w : World} (h : Inv w) (owner : WorkerLockOwner) : Inv (w.start owner) := by
  unfold World.start
  split
  · rename_i hstart
    obtain ⟨hpos, hfree⟩ := hstart
    have hstored : ∀ (j : Nat) (y : Daemon), (w.daemons ++ [Daemon.ofStart owner])[j]? = some y →
        (y = Daemon.ofStart owner ∧ j = w.daemons.length) ∨ w.daemons[j]? = some y := by
      intro j y hy
      rw [getElem?_append_one] at hy
      split at hy
      · exact .inl ⟨(Option.some.inj hy).symm, by assumption⟩
      · exact .inr hy
    have hmem : ∀ y ∈ w.daemons ++ [Daemon.ofStart owner], y = Daemon.ofStart owner ∨
        y ∈ w.daemons := by
      intro y hy
      rcases List.mem_append.mp hy with hy | hy
      · exact .inr hy
      · exact .inl (List.mem_singleton.mp hy)
    -- the new daemon holds nothing
    have hholder : ∀ (j : Nat) (y : Daemon), (w.daemons ++ [Daemon.ofStart owner])[j]? = some y →
        y.Holds → w.daemons[j]? = some y := by
      intro j y hy hholds
      rcases hstored j y hy with ⟨rfl, -⟩ | hy
      · cases hholds.2
      · exact hy
    refine ⟨?_, ?_, ?_, ?_, ?_, ?_, ?_⟩
    · intro a b y z hy hz hlivey hlivez hpid
      rcases hstored a y hy with ⟨rfl, rfl⟩ | hy <;> rcases hstored b z hz with ⟨rfl, rfl⟩ | hz
      · rfl
      · exact absurd hpid.symm (hfree z (List.mem_of_getElem? hz) hlivez).1
      · exact absurd hpid (hfree y (List.mem_of_getElem? hy) hlivey).1
      · exact h.pids a b y z hy hz hlivey hlivez hpid
    · intro a b y z hy hz hlivey hlivez hfolder
      rcases hstored a y hy with ⟨rfl, rfl⟩ | hy <;> rcases hstored b z hz with ⟨rfl, rfl⟩ | hz
      · rfl
      · exact absurd hfolder.symm (hfree z (List.mem_of_getElem? hz) hlivez).2
      · exact absurd hfolder (hfree y (List.mem_of_getElem? hy) hlivey).2
      · exact h.folders a b y z hy hz hlivey hlivez hfolder
    · intro y hy
      rcases hmem y hy with rfl | hy
      · exact hpos
      · exact h.pos y hy
    · intro y hy
      rcases hmem y hy with rfl | hy
      · exact fun _ => rfl
      · exact h.idle y hy
    · intro a b y z hy hz hholdsy hholdsz
      exact h.one a b y z (hholder a y hy hholdsy) (hholder b z hz hholdsz) hholdsy hholdsz
    · intro j y hy hholds
      rcases h.held j y (hholder j y hy hholds) hholds with hshown | ⟨hbare, k, z, hk, hrest⟩
      · exact .inl hshown
      · refine .inr ⟨hbare, k, z, ?_, hrest⟩
        obtain ⟨hlt, -⟩ := List.getElem?_eq_some_iff.mp hk
        rw [List.getElem?_append_left hlt]
        exact hk
    · intro a b y z hy hz hlivey hover hholdsz hab
      rcases hstored a y hy with ⟨rfl, -⟩ | hy
      · exact ⟨trivial, trivial⟩
      · exact h.aware a b y z hy (hholder b z hz hholdsz) hlivey hover hholdsz hab
  · exact h

/-! ### Steps and runs -/

/-- A turn keeps the invariant when its call does, for a live daemon. -/
theorem Inv.turn {w : World} (h : Inv w) (i : Nat)
    {call : Option Lock → (Nat → Bool) → Daemon → Option Lock × Daemon}
    (hcall : ∀ x, w.daemons[i]? = some x → x.live = true →
      Inv (w.put (call w.path w.isAlive x).1 i (call w.path w.isAlive x).2)) :
    Inv (w.turn i call) := by
  unfold World.turn
  split
  · exact h
  · rename_i x hx
    split
    · rename_i hlive
      exact hcall x hx hlive
    · exact h

theorem inv_step (w : World) (a : Action) (hcareful : Careful w a) (h : Inv w) :
    Inv (step w a) := by
  cases a with
  | start owner => exact h.start owner
  | crash i =>
    simp only [step, World.crash]
    split
    · exact h
    · rename_i x hx
      exact h.crash hx (hcareful x hx)
  | sweep i j =>
    simp only [step, World.sweep]
    split
    · rename_i x y _ hy
      split
      · rename_i hsweep
        exact h.sweep hy hsweep.2.2
      · exact h
    · exact h
  | take i =>
    refine h.turn i fun x hx hlive => ?_
    obtain ⟨hwrite, hlook⟩ := hcareful x hx hlive
    exact h.takes hx hlive hwrite hlook
  | callClaimed i => exact h.turn i fun x hx hlive => h.callClaimed hx hlive
  | claim i =>
    simp only [step, World.claims]
    split
    · exact h
    · rename_i x hx
      split
      · rename_i hcompletes
        obtain ⟨hlive, hcompletes⟩ := Bool.and_eq_true_iff.mp hcompletes
        exact h.completed hx hlive hcompletes
      · rename_i hnot
        refine h.turn i fun x' hx' hlive => ?_
        obtain rfl := Option.some.inj (hx.symm.trans hx')
        obtain ⟨hwrite, hlook⟩ := hcareful x hx hlive
        refine h.claims hx hlive ?_ hwrite hlook
        simpa [hlive] using hnot
  | callRelease i => exact h.turn i fun x hx hlive => h.callRelease hx hlive
  | release i =>
    exact h.turn i fun x hx hlive => h.releases hx hlive (hcareful x hx hlive)

/-- Whatever lock is found first, and in whatever order daemons take, claim, release and crash: in
    a careful run at most one live daemon holds the lock, and no release leaves the path without the
    holder's record. -/
theorem one_worker_per_user (path : Option Lock) (acts : List Action)
    (hcareful : AllSteps step Careful (World.init path) acts) :
    OneWorker (run step (World.init path) acts) :=
  (run_invariant_of_allSteps inv_step acts (World.init path) (inv_init path) hcareful).oneWorker

def home : WorkerLockOwner := { pid := 100, folder := "/home/a/.simlock", startedAt := "t0" }
def elsewhere : WorkerLockOwner := { pid := 200, folder := "/home/b/.simlock", startedAt := "t1" }

/-- The first daemon takes and claims the lock; the second finds it held and is refused. -/
def secondRefused : List Action :=
  [.start home, .take 0, .take 0, .take 0, .callClaimed 0] ++ List.replicate 5 (.claim 0) ++
    [.start elsewhere, .take 1, .take 1, .take 1, .take 1]

theorem one_worker_per_user_secondRefused :
    (run step (World.init none) secondRefused).daemons.map (fun x => (x.holding, x.take)) =
        [(true, .taken), (false, .failed)] ∧
      OneWorker (run step (World.init none) secondRefused) :=
  ⟨by decide +kernel, one_worker_per_user none secondRefused (by decide +kernel)⟩

/-! ### Two starts at once -/

/-- The second start reads the owner file between the first one's `mkdir` and its write, and writes
    its own when the first has completed its claim. -/
def twoStarts : List Action :=
  [.start home, .start elsewhere, .take 0, .take 1, .take 0, .take 1, .take 1, .take 1, .take 0,
    .callClaimed 0] ++ List.replicate 5 (.claim 0) ++ [.take 1, .callClaimed 1] ++
    List.replicate 5 (.claim 1)

theorem OneWorker.count_le {w : World} (h : OneWorker w) :
    w.daemons.countP (fun x => x.live && x.holding) ≤ 1 :=
  countP_le_one fun i j x y hx hy hholdsx hholdsy =>
    h.one i j x y hx hy (Bool.and_eq_true_iff.mp hholdsx) (Bool.and_eq_true_iff.mp hholdsy)

/-- Both live daemons have completed `claimed`, and neither has released. -/
theorem two_workers_at_once :
    (run step (World.init none) twoStarts).daemons.countP (fun x => x.live && x.holding) = 2 ∧
      ¬ ∀ path acts, OneWorker (run step (World.init path) acts) := by
  have hboth : (run step (World.init none) twoStarts).daemons.countP
      (fun x => x.live && x.holding) = 2 := by decide +kernel
  refine ⟨hboth, fun h => ?_⟩
  have hone := (h none twoStarts).count_le
  rw [hboth] at hone
  omega

end Simlock.Ports
