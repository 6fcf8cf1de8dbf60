import Simlock.Link.CreditTurns

/-! No credit is lost between two connected ends.

    What the receiver granted is at the sender, on the wire or in the receiver's lane:

        Snd ◀── CREDIT ── wire ◀── lane ◀── Rcv        window + granted ≤ allowance + credits

    Every step of an end is, for each channel number, nothing, an opening or a turn of its channel
    (`EndMove`), and the account is kept by each of them. A direction whose bytes have all been read
    has its whole window again, so a writer that waits does so for its own queue alone. -/

namespace Simlock.Link

open Simlock.Lib

/-! ### What a step does to one channel number -/

/-- The object of a number before and after a step that takes `got` credit and queues `fs`. -/
inductive Ran : Option Channel → Option Channel → Nat → List Envelope → Prop
  | kept (o : Option Channel) : Ran o o 0 []
  | opened (number : Nat) (id : String) (ownedByUs : Bool) :
      Ran none (some (Channel.new number id ownedByUs)) 0 []
  | turn {c c' : Channel} {got : Nat} {fs : List Envelope} (h : Turn c c' got fs) :
      Ran (some c) (some c') got fs

/-- A step of an end, as channel number `n` sees it: `out` is what it wrote to the transport. -/
structure EndMove (l l' : Link) (n got : Nat) (out : List Envelope) : Prop where
  object : ∃ fs, Ran (l.objects n) (l'.objects n) got fs ∧ (l'.closed = false →
    credits (numbered n l.priority) + credits fs ≤ credits out + credits (numbered n l'.priority))
  closed : l.closed = true → l'.closed = true
  shut : l.closed = false → l'.closed = true → ∀ c', l'.objects n = some c' →
    c'.failure.isSome = true ∨ c'.done = true
  fresh : l.closed = true → l.objects n = none → l'.objects n = none

/-- The calls of a channel's host: they queue `fs` and may open channels. -/
structure Adds (l l' : Link) (fs : List Envelope) : Prop where
  objects : ∀ n, l'.objects n = l.objects n ∨ l.closed = false ∧ l.objects n = none ∧
    ∃ number id, l'.objects n = some (Channel.new number id true)
  lane : l.closed = false → ∀ n, credits (numbered n l.priority) +
    credits (numbered n (fs.map .binary)) ≤ credits (numbered n l'.priority)
  closed : l'.closed = l.closed

section
variable {l l' l'' : Link} {n : Nat} {fs gs : List Envelope}

theorem Adds.same (hobjects : l'.objects = l.objects) (hpriority : l'.priority = l.priority)
    (hclosed : l'.closed = l.closed) : Adds l l' [] := by
  refine ⟨fun n => .inl (by rw [hobjects]), fun _ n => ?_, hclosed⟩
  rw [hpriority]
  exact Nat.le_refl _

theorem Adds.trans (h : Adds l l' fs) (k : Adds l' l'' gs) : Adds l l'' (fs ++ gs) := by
  refine ⟨fun n => ?_, fun hcl n => ?_, k.closed.trans h.closed⟩
  · rcases h.objects n with hsame | ⟨hcl, hnone, number, id, hnew⟩
    · rcases k.objects n with ksame | ⟨kcl, knone, knew⟩
      · exact .inl (ksame.trans hsame)
      · exact .inr ⟨h.closed.symm.trans kcl, hsame ▸ knone, knew⟩
    · rcases k.objects n with ksame | ⟨-, knone, -⟩
      · exact .inr ⟨hcl, hnone, number, id, ksame.trans hnew⟩
      · rw [hnew] at knone
        cases knone
  · have hfirst := h.lane hcl n
    have hsecond := k.lane (h.closed.trans hcl) n
    rw [List.map_append, numbered_append, credits_append]
    omega

theorem openOwn_adds (h : TableOk l) (hcl : l.closed = false) : Adds l l.openOwn.1 [] := by
  rcases openOwn_spec hcl with ⟨ws, ids, heq, -⟩ | ⟨id, rest, -, -, -, heq⟩
  · rw [heq]
    exact .same rfl rfl rfl
  · rw [heq]
    refine ⟨fun k => ?_, fun _ k => ?_, rfl⟩
    · by_cases hk : k = l.nextOwn
      · subst hk
        exact .inr ⟨hcl, h.unused_own, _, id, Function.update_self _ _ _⟩
      · exact .inl (Function.update_of_ne hk _ _)
    · change _ ≤ credits (numbered k (l.priority ++ [.binary ⟨.OPEN, l.nextOwn, encodeId id⟩]))
      rw [numbered_append, credits_append]
      exact Nat.add_le_add_left (Nat.zero_le _) _

theorem drainWaiters_adds (ws : List Nat) (h : TableOk l) : Adds l (Link.drainWaiters ws l) [] := by
  refine (drainWaiters_induct (P := fun l' => TableOk l' ∧ Adds l l' []) (fun l' waiters hl' => ?_)
    (fun l' hl' hcl _ => ⟨(hl'.1.openOwn hcl).table, hl'.2.trans (openOwn_adds hl'.1 hcl)⟩) ws l
    ⟨h, .same rfl rfl rfl⟩).2
  exact ⟨hl'.1.same ⟨rfl, rfl, rfl, rfl, rfl, rfl⟩, hl'.2.trans (.same rfl rfl rfl)⟩

theorem channelDone_adds (n : Nat) (h : TableOk l) : Adds l (l.channelDone n) [] := by
  unfold Link.channelDone
  split
  · rename_i hn
    have hforgot : Adds l (l.forget n) [] := by
      unfold Link.forget
      split
      · exact .same rfl rfl rfl
      · dsimp only
        split <;> exact .same rfl rfl rfl
    exact hforgot.trans (drainWaiters_adds _ (h.forget hn).table)
  · exact .same rfl rfl rfl

theorem perform_adds (n : Nat) (call : HostCall) (h : TableOk l) :
    Adds l (l.perform n call) (frames [call]) := by
  cases call with
  | binary e =>
    change Adds l (l.binary e) [e]
    unfold Link.binary
    split
    · rename_i hclosed
      exact ⟨fun _ => .inl rfl, fun hcl => absurd (hclosed.symm.trans hcl) (by decide), rfl⟩
    · refine ⟨fun _ => .inl rfl, fun _ k => ?_, rfl⟩
      change _ ≤ credits (numbered k (l.priority ++ [.binary e]))
      rw [numbered_append, credits_append]
      exact Nat.le_refl _
  | addBulk =>
    change Adds l (l.addBulk n) []
    unfold Link.addBulk
    split <;> exact .same rfl rfl rfl
  | removeBulk =>
    change Adds l (l.removeBulk n) []
    unfold Link.removeBulk
    split <;> exact .same rfl rfl rfl
  | channelDone => exact channelDone_adds n h
  | warn message => exact .same rfl rfl rfl

theorem performs_adds (n : Nat) : ∀ (calls : List HostCall) {l : Link}, TableOk l →
    Adds l (calls.foldl (Link.perform n) l) (frames calls)
  | [], _, _ => .same rfl rfl rfl
  | call :: calls, l, h => by
    have hcall := perform_adds n call h
    have hrest := performs_adds n calls (h.perform n call).table
    rw [show frames (call :: calls) = frames [call] ++ frames calls from
      frames_append [call] calls]
    exact hcall.trans hrest

/-- A method runs on channel `n`, and the host its calls. -/
theorem on_moves {op : Channel → Channel × List HostCall} {c : Channel} {got : Nat}
    (h : TableOk l) (hc : l.objects n = some c) (hnumber : c.number = n)
    (hkeeps : Keeps c (op c).1) (hturn : Turn c (op c).1 got (frames (op c).2)) (k : Nat) :
    EndMove l (l.on n op) k (if k = n then got else 0) [] := by
  have hput := h.put hc hkeeps
  have hon : l.on n op = (op c).2.foldl (Link.perform n) (l.put n (op c).1) := by
    unfold Link.on
    rw [hc]
  have hadds := performs_adds n (op c).2 hput
  rw [← hon] at hadds
  have hsame : (l.on n op).closed = l.closed := hadds.closed
  have hother : k ≠ n → (l.put n (op c).1).objects k = l.objects k :=
    fun hk => Function.update_of_ne hk _ _
  refine ⟨?_, fun hcl => hsame.trans hcl, fun hcl hcl' => ?_, fun hcl hnone => ?_⟩
  rotate_left
  · exact absurd ((hsame.symm.trans hcl').symm.trans hcl) (by decide)
  · have hk : k ≠ n := by
      rintro rfl
      rw [hc] at hnone
      cases hnone
    rcases hadds.objects k with hobject | ⟨hopen, -⟩
    · exact hobject.trans ((hother hk).trans hnone)
    · exact absurd (hcl.symm.trans hopen) (by decide)
  by_cases hk : k = n
  · subst hk
    rw [if_pos rfl]
    refine ⟨frames (op c).2, ?_, fun hcl => ?_⟩
    · rcases hadds.objects k with hobject | ⟨-, hnone, -⟩
      · rw [hobject, hc]
        change Ran (some c) (Function.update l.objects k (some (op c).1) k) _ _
        rw [Function.update_self]
        exact .turn hturn
      · change Function.update l.objects k (some (op c).1) k = none at hnone
        rw [Function.update_self] at hnone
        cases hnone
    · have hlane := hadds.lane (hsame.symm.trans hcl) k
      rw [numbered_map fun e he => (hturn.frames e he).trans hnumber, if_pos rfl] at hlane
      exact hlane.trans (Nat.le_add_left _ _)
  · rw [if_neg hk]
    refine ⟨[], ?_, fun hcl => ?_⟩
    · rcases hadds.objects k with hobject | ⟨-, hnone, number, id, hnew⟩
      · rw [hobject, hother hk]
        exact .kept _
      · rw [hnew, ← hother hk, hnone]
        exact .opened number id true
    · have hlane := hadds.lane (hsame.symm.trans hcl) k
      exact (Nat.le_of_add_right_le hlane).trans (Nat.le_add_left _ _)

theorem EndMove.refl (l : Link) (n : Nat) : EndMove l l n 0 [] :=
  ⟨⟨[], .kept _, fun _ => Nat.le_add_left _ _⟩, id,
    fun hcl hcl' => absurd (hcl.symm.trans hcl') (by decide), fun _ hnone => hnone⟩

/-- A step that leaves the objects, and at most adds to the lane. -/
theorem EndMove.same (hobjects : l'.objects = l.objects) (hclosed : l'.closed = l.closed)
    (hlane : credits (numbered n l.priority) ≤ credits (numbered n l'.priority)) :
    EndMove l l' n 0 [] := by
  refine ⟨⟨[], ?_, fun _ => hlane.trans (Nat.le_add_left _ _)⟩, fun hcl => hclosed.trans hcl,
    fun hcl hcl' => absurd (hcl.symm.trans (hclosed.symm.trans hcl')) (by decide),
    fun _ hnone => (congrFun hobjects n).trans hnone⟩
  rw [hobjects]
  exact .kept _

theorem Ran.before {c c₁ : Channel} {o : Option Channel} {got : Nat} (hturn : Turn c c₁ 0 [])
    (hkeeps : Keeps c c₁) (h : Ran (some c₁) o got fs) : Ran (some c) o got fs := by
  cases h with
  | kept => exact .turn hturn
  | turn h =>
    have hboth := hturn.trans hkeeps h
    rw [Nat.zero_add, List.nil_append] at hboth
    exact .turn hboth

/-- The object of channel `n` as it is after a first change `l₀` of the end. -/
def Prepared (l l₀ : Link) (n : Nat) : Prop :=
  l₀.objects n = l.objects n ∨
    ∃ c c₁, l.objects n = some c ∧ l₀.objects n = some c₁ ∧ Turn c c₁ 0 [] ∧ Keeps c c₁

/-- A first change of the end writes `out`, and a step follows. -/
theorem EndMove.before {l₀ : Link} {got : Nat} {out : List Envelope} (h : EndMove l₀ l' n got [])
    (hobject : Prepared l l₀ n) (hclosed : l₀.closed = l.closed)
    (hlane : credits (numbered n l.priority) ≤ credits out + credits (numbered n l₀.priority)) :
    EndMove l l' n got out := by
  obtain ⟨fs, hran, hqueued⟩ := h.object
  refine ⟨⟨fs, ?_, fun hcl => ?_⟩, fun hcl => h.closed (hclosed.trans hcl),
    fun hcl => h.shut (hclosed.trans hcl), fun hcl hnone => h.fresh (hclosed.trans hcl) ?_⟩
  · rcases hobject with hsame | ⟨c, c₁, hc, hc₁, hturn, hkeeps⟩
    · rw [← hsame]
      exact hran
    · rw [hc₁] at hran
      rw [hc]
      exact hran.before hturn hkeeps
  · have hq := hqueued hcl
    simp only [credits] at hq
    omega
  · rcases hobject with hsame | ⟨c, -, hc, -⟩
    · exact hsame.trans hnone
    · rw [hnone] at hc
      cases hc

/-- A method runs on channel `n`, if there is one. -/
theorem on_moves' {op : Channel → Channel × List HostCall} (h : TableOk l) (hend : EndOk l)
    (hop : ∀ c, Keeps c (op c).1 ∧ Turn c (op c).1 0 (frames (op c).2)) (k : Nat) :
    EndMove l (l.on n op) k 0 [] := by
  cases hc : l.objects n with
  | none =>
    have hnothing : l.on n op = l := by
      unfold Link.on
      rw [hc]
    rw [hnothing]
    exact .refl l k
  | some c =>
    have hmoves := on_moves h hc (hend.obj n c hc).number (hop c).1 (hop c).2 k
    rwa [ite_self] at hmoves

/-- The channels in the table take a turn each, and say nothing. -/
theorem replaceLive_moves {op : Channel → Channel} (n : Nat) (hop : ∀ c, Turn c (op c) 0 []) :
    Ran (l.objects n) (if n ∈ l.channels then (l.objects n).map op else l.objects n) 0 [] := by
  split
  · cases l.objects n with
    | none => exact .kept none
    | some c => exact .turn (hop c)
  · exact .kept _

theorem onTransportClosed_moves (hend : EndOk l) (n : Nat) : EndMove l l.onTransportClosed n 0 [] := by
  unfold Link.onTransportClosed
  split
  · exact .refl l n
  · rename_i hopen
    have hcl : l.closed = false := by simpa using hopen
    refine ⟨⟨[], replaceLive_moves n fun c => c.closeWith_turn _, fun hcl' => by cases hcl'⟩,
      fun _ => rfl, fun _ _ c' hc' => ?_, fun hcl' => absurd (hcl.symm.trans hcl') (by decide)⟩
    dsimp only at hc'
    split at hc'
    · obtain ⟨c, -, rfl⟩ := Option.map_eq_some_iff.mp hc'
      exact .inl (closeWith_spec c).2.2.2.2.2.2.2
    · rename_i hn
      refine .inr ?_
      by_contra hlive
      exact hn (((hend.obj n c' hc').live hcl).mpr (by simpa using hlive))

theorem appCall_turn (unsentBytes : Nat) (call : AppCall) (c : Channel) :
    Turn c (appCall unsentBytes call c).1 0 (frames (appCall unsentBytes call c).2) := by
  cases call with
  | write chunk => exact c.write_turn chunk
  | close => exact c.close_turn
  | abortWritable => exact c.abortWritable_turn
  | read again => exact c.pull_turn again
  | cancel => exact c.cancel_turn
  | abort reason => exact c.fail_turn _ _ 0
  | whenCredit => exact c.whenCredit_turn unsentBytes

/-- A step of an end by itself. -/
theorem localStep_moves (h : TableOk l) (hend : EndOk l) (a : LocalAction) (n : Nat) :
    EndMove l (l.localStep a) n 0 [] := by
  cases a with
  | openChannel w =>
    change EndMove l (l.openChannel w) n 0 []
    unfold Link.openChannel
    split
    · exact .refl l n
    · rename_i hopen
      have hcl : l.closed = false := by simpa using hopen
      split
      · have hadds := openOwn_adds h hcl
        refine ⟨⟨[], ?_, fun _ => ?_⟩, fun hcl' => hadds.closed.trans hcl',
          fun _ hcl' => absurd ((hadds.closed.symm.trans hcl').symm.trans hcl) (by decide),
          fun hcl' => absurd (hcl.symm.trans hcl') (by decide)⟩
        · rcases hadds.objects n with hsame | ⟨-, hnone, number, id, hnew⟩
          · rw [hsame]
            exact .kept _
          · rw [hnone, hnew]
            exact .opened number id true
        · exact (hadds.lane hcl n).trans (Nat.le_add_left _ _)
      · exact .same rfl rfl (Nat.le_refl _)
  | abortWaiter w => exact .same rfl rfl (Nat.le_refl _)
  | acceptChannel id =>
    change EndMove l (l.acceptChannel id) n 0 []
    unfold Link.acceptChannel
    split
    · exact .refl l n
    · rename_i q _
      have htable : TableOk { l with
          unaccepted := l.unaccepted.filter (fun q => decide (q.1 ≠ id)) } :=
        h.same ⟨rfl, rfl, rfl, rfl, rfl, rfl⟩
      have hfiltered : EndOk { l with
          unaccepted := l.unaccepted.filter (fun q => decide (q.1 ≠ id)) } :=
        hend.same ⟨rfl, rfl, rfl, rfl, rfl, rfl, rfl, rfl⟩ (fun _ hr => (List.mem_filter.mp hr).1)
          (fun _ hk => hk) (fun hcl => (hend.closed hcl).2) hend.warnings
      refine EndMove.before (on_moves' htable hfiltered (fun c => ?_) n) (.inl rfl) rfl
        (Nat.le_add_left _ _)
      have haccepted : Sheds c c.markAccepted := ⟨rfl, rfl, rfl, rfl, Nat.le_refl _⟩
      exact ⟨haccepted.keeps, c.markAccepted_turn⟩
  | app m call =>
    refine on_moves' h hend (fun c => ?_) n
    split
    · exact ⟨appCall_keeps _ call c, appCall_turn _ call c⟩
    · exact ⟨.refl c, .refl c⟩
  | sink m => exact on_moves' h hend (fun c => ⟨(c.sinkNext_sheds _).keeps, c.sinkNext_turn _⟩) n
  | resume m =>
    exact on_moves' h hend (fun c => ⟨(c.resumeWrite_sheds _).keeps, c.resumeWrite_turn _⟩) n
  | written m =>
    refine on_moves' h hend (fun c => ?_) n
    have hwritten : Sheds c (c.onItemWritten l.unsentBytes) := ⟨rfl, rfl, rfl, rfl, Nat.le_refl _⟩
    exact ⟨hwritten.keeps, c.onItemWritten_turn _⟩
  | acceptTimeout m =>
    exact on_moves' h hend (fun c => ⟨c.acceptTimeout_sheds.keeps, c.acceptTimeout_turn⟩) n
  | stallTimeout m =>
    exact on_moves' h hend (fun c => ⟨c.stallTimeout_sheds.keeps, c.stallTimeout_turn⟩) n
  | sent unsentBytes =>
    exact ⟨⟨[], replaceLive_moves n fun c => c.updateStall_turn unsentBytes,
      fun _ => Nat.le_add_left _ _⟩, id,
      fun hcl hcl' => absurd (hcl.symm.trans hcl') (by decide), fun _ hnone => by
        dsimp only [Link.localStep]
        rw [hnone, Option.map_none, ite_self]⟩
  | sendText t =>
    change EndMove l (l.text t) n 0 []
    unfold Link.text
    split
    · exact .refl l n
    · refine .same rfl rfl ?_
      rw [numbered_append, credits_append]
      exact Nat.le_add_right _ _
  | generate ids => exact .same rfl rfl (Nat.le_refl _)
  | close => exact onTransportClosed_moves hend n

/-- The messages of channel `n` among what a turn of the pump wrote. -/
def wroteTo (n : Nat) (m : Option Message) : List Envelope := numbered n m.toList

theorem onPriorityHanded_moves (h : TableOk l) (hend : EndOk l) (e : Envelope) (n : Nat) :
    EndMove l (l.onPriorityHanded e) n 0 [] := by
  unfold Link.onPriorityHanded
  split
  · refine on_moves' h hend (fun c => ?_) n
    have hhanded : Sheds c c.onOpenHanded.1 := ⟨rfl, rfl, rfl, rfl, Nat.le_refl _⟩
    exact ⟨hhanded.keeps, c.onOpenHanded_turn⟩
  · exact on_moves' h hend (fun c => ⟨c.onResetHanded_sheds.keeps, c.onResetHanded_turn⟩) n
  · exact .refl l n

/-- A message that leaves the lane is on the wire. -/
theorem lane_of_sent {m : Message} {rest : List Message} (hpriority : l.priority = m :: rest)
    (n : Nat) : credits (numbered n l.priority) ≤
      credits (wroteTo n (some m)) + credits (numbered n rest) := by
  rw [hpriority, show m :: rest = [m] ++ rest from rfl, numbered_append, credits_append]
  exact Nat.le_refl _

theorem rotate_quiet (l : Link) (n : Nat) (rest : List Nat) (more : Bool) :
    (l.rotate n rest more).objects = l.objects ∧ (l.rotate n rest more).closed = l.closed ∧
      (l.rotate n rest more).priority = l.priority := by
  unfold Link.rotate
  split <;> exact ⟨rfl, rfl, rfl⟩

/-- The item leaves the queue first, which no counter of credit notices. -/
theorem itemHanded_moves {c : Channel} {m : Nat} (h : TableOk l) (hend : EndOk l)
    (hc : l.objects m = some c) (queue : List QueueItem) (rest : List Nat) (more : Bool)
    (item : QueueItem) (unsentBytes : Nat) (out : List Envelope) (n : Nat) :
    EndMove l (Link.on { (l.put m { c with queue := queue }).rotate m rest more with
      prioritySinceBulk := 0 } m (fun c => c.onItemHanded item unsentBytes)) n 0 out := by
  have hkeeps : Keeps c { c with queue := queue } :=
    ⟨rfl, fun hw => ⟨hw.granted, hw.window, hw.held⟩⟩
  have hturn : Turn c { c with queue := queue } 0 [] :=
    .same rfl rfl rfl rfl rfl rfl rfl fun hs => ⟨hs.chunks, hs.granted, hs.waits⟩
  have hrotated := (h.put hc hkeeps).same (rotate_same m rest more)
  have htable : TableOk { (l.put m { c with queue := queue }).rotate m rest more with
      prioritySinceBulk := 0 } := hrotated.same ⟨rfl, rfl, rfl, rfl, rfl, rfl⟩
  obtain ⟨hobjects, hclosed, hpriority⟩ :=
    rotate_quiet (l.put m { c with queue := queue }) m rest more
  have hobject : ((l.put m { c with queue := queue }).rotate m rest more).objects m =
      some { c with queue := queue } := by
    rw [hobjects]
    exact Function.update_self _ _ _
  have hmoves : EndMove { (l.put m { c with queue := queue }).rotate m rest more with
      prioritySinceBulk := 0 } (Link.on { (l.put m { c with queue := queue }).rotate m rest more with
        prioritySinceBulk := 0 } m (fun c => c.onItemHanded item unsentBytes)) n
          (if n = m then 0 else 0) [] :=
    on_moves htable hobject (hend.obj m c hc).number (Channel.onItemHanded_sheds _ item _).keeps
      (Channel.onItemHanded_turn _ item _) n
  rw [ite_self] at hmoves
  refine hmoves.before ?_ hclosed ?_
  · by_cases hn : n = m
    · subst hn
      exact .inr ⟨c, _, hc, hobject, hturn, hkeeps⟩
    · exact .inl ((congrFun hobjects n).trans (Function.update_of_ne hn _ _))
  · change _ ≤ credits out +
      credits (numbered n ((l.put m { c with queue := queue }).rotate m rest more).priority)
    rw [hpriority]
    exact Nat.le_add_left _ _

theorem pump_moves (h : TableOk l) (hend : EndOk l) (n : Nat) :
    EndMove l l.pump.1 n 0 (wroteTo n l.pump.2) := by
  have hquiet : ∀ (l₀ : Link), l₀.objects = l.objects → l₀.closed = l.closed →
      l₀.priority = l.priority → EndMove l l₀ n 0 (wroteTo n none) := by
    intro l₀ hobjects hclosed hpriority
    refine .same hobjects hclosed ?_
    rw [hpriority]
  unfold Link.pump
  split
  · exact hquiet l rfl rfl rfl
  rename_i hopen
  dsimp only
  split
  · unfold Link.sendPriority
    split
    · exact hquiet l rfl rfl rfl
    · rename_i t rest hpriority
      exact EndMove.before (.refl _ n) (.inl rfl) rfl (lane_of_sent hpriority n)
    · rename_i e rest hpriority
      refine EndMove.before (onPriorityHanded_moves ?_ ?_ e n) (.inl rfl) rfl
        (lane_of_sent hpriority n)
      · exact h.same ⟨rfl, rfl, rfl, rfl, rfl, rfl⟩
      · exact hend.same ⟨rfl, rfl, rfl, rfl, rfl, rfl, rfl, rfl⟩ (fun _ hq => hq)
          (fun _ hk => hk) (fun hcl => absurd hcl hopen) hend.warnings
  · split
    · unfold Link.sendBulk
      split
      · exact hquiet l rfl rfl rfl
      · rename_i m rest hring
        obtain ⟨hobjects, hclosed, hpriority⟩ := rotate_quiet l m rest false
        split
        · exact hquiet _ hobjects hclosed hpriority
        · rename_i c hc
          split
          · exact hquiet _ hobjects hclosed hpriority
          · rename_i item queue hqueue
            exact itemHanded_moves h hend hc queue rest (!queue.isEmpty) item _ _ n
    · exact hquiet l rfl rfl rfl

end

/-! ### The account of two ends -/

/-- No credit of the direction from `a` to `b` is lost while it runs: `back` is what `b` has on its
    way to `a`. -/
def Lossless (a b : Channel) (back : List Envelope) : Prop :=
  a.failure.isSome = false → a.endQueued = false → a.resetHanded = false →
    b.failure.isSome = false → channelWindow + b.granted ≤ a.allowance + credits back

structure CreditOk (p : Pair) : Prop where
  table : ∀ s, TableOk (p.ends s)
  settled : ∀ s n c, (p.ends s).objects n = some c → Settled c
  shut : ∀ s n c, (p.ends s).closed = true → (p.ends s).objects n = some c →
    c.failure.isSome = true ∨ c.done = true
  lossless : ∀ s n, Lossless ((p.view s n).chan n) ((p.view s.other n).chan n)
    ((p.view s.other n).wire ++ (p.view s.other n).lane)

section
variable {p : Pair} {s : Side} {l : Link} {w : Side → List Message} {n got : Nat}
  {fs : List Envelope} {o o' : Option Channel}

/-- The object of a number, or a new channel while there is none. -/
abbrev chanOf (o : Option Channel) (n : Nat) : Channel := o.getD (Channel.new n "" false)

/-- What the sender of a direction makes of the credit it gets. -/
theorem Ran.sender (h : Ran o o' got fs) (n : Nat)
    (hruns : (chanOf o' n).failure.isSome = false) :
    (chanOf o n).failure.isSome = false ∧
      ((chanOf o' n).endQueued = false → (chanOf o n).endQueued = false) ∧
      ((chanOf o' n).resetHanded = false → (chanOf o n).resetHanded = false) ∧
      (chanOf o n).allowance + got ≤ (chanOf o' n).allowance := by
  have hback : ∀ {x y : Bool}, (x = true → y = true) → y = false → x = false := by decide
  cases h with
  | kept => exact ⟨hruns, fun he => he, fun hr => hr, Nat.le_refl _⟩
  | opened number id ownedByUs => exact ⟨rfl, fun _ => rfl, fun _ => rfl, Nat.le_refl _⟩
  | turn h => exact ⟨hback h.failed hruns, hback h.ended, hback h.reset, h.allowance hruns⟩

/-- What the receiver of a direction grants, it queues. -/
theorem Ran.receiver (h : Ran o o' got fs) (n : Nat) (hwithin : ∀ c, o = some c → Within c)
    (hruns : (chanOf o' n).failure.isSome = false) :
    (chanOf o n).failure.isSome = false ∧
      (chanOf o' n).granted ≤ (chanOf o n).granted + credits fs := by
  have hback : ∀ {x y : Bool}, (x = true → y = true) → y = false → x = false := by decide
  cases h with
  | kept => exact ⟨hruns, Nat.le_refl _⟩
  | opened number id ownedByUs => exact ⟨rfl, Nat.le_refl _⟩
  | turn h => exact ⟨hback h.failed hruns, h.granted (hwithin _ rfl)⟩

theorem Ran.settled (h : Ran o o' got fs) (hsettled : ∀ c, o = some c → Settled c) {c' : Channel}
    (hc' : o' = some c') : Settled c' := by
  cases h with
  | kept => exact hsettled c' hc'
  | opened number id ownedByUs =>
    cases hc'
    exact Channel.new_settled number id ownedByUs
  | turn h =>
    cases hc'
    exact h.settled (hsettled _ rfl)

/-- A number that no channel has at an end has no message of that end on its way. -/
theorem PairOk.quiet_of_none (h : PairOk p) (hnone : (p.ends s).objects n = none) :
    (p.view s n).wire = [] ∧ (p.view s n).lane = [] := by
  have hobj : (p.view s n).obj = none := hnone
  have hopened := (h.chan s n).opened
  unfold OpenedAt at hopened
  split at hopened
  · cases hopened with
    | unused ho hq hw hl => exact ⟨hw, hl⟩
    | queued a la ho => rw [hobj] at ho; cases ho
    | lost a ho => rw [hobj] at ho; cases ho
    | sent a wa ho => rw [hobj] at ho; cases ho
    | both a b ho => rw [hobj] at ho; cases ho
  · cases hopened with
    | unused ho hq hw hl hqw hql => exact ⟨hqw, hql⟩
    | queued a la ho hq hid hh hw hl hno hqw hql => exact ⟨hqw, hql⟩
    | lost a ho hq hid hh hc hw hl hqw hql => exact ⟨hqw, hql⟩
    | sent a wa ho hq hid hh hw hno hqw hql => exact ⟨hqw, hql⟩
    | both a b ho hq => rw [hobj] at hq; cases hq

/-- A channel that ended without a fault got the `END` of the other end's writer. -/
theorem PairOk.ended_of_done (h : PairOk p) {b : Channel} (hb : (p.ends s).objects n = some b)
    (hruns : b.failure.isSome = false) (hdone : b.done = true) :
    ((p.view s.other n).chan n).endQueued = true := by
  have hinto := (h.chan s n).exchange.into
  have hchan : (p.view s n).chan n = b := by simp [Pair.view, View.chan, hb]
  rw [hchan] at hinto
  have htheirs := ((h.ends s).obj n b hb).done (.inr hruns)
  rw [hdone, eq_comm, Bool.and_eq_true] at htheirs
  rcases Bool.or_eq_true_iff.mp htheirs.2 with hreset | hend
  · exact absurd ((hinto.rcv.reset hreset).symm.trans hruns) (by decide)
  · exact (hinto.snd.endGone (hinto.endSent (.inr hend))).2

/-- A channel that ended has sent its `END` or its `RESET`. -/
theorem PairOk.sent_of_done (h : PairOk p) {a : Channel} (ha : (p.ends s).objects n = some a)
    (hruns : a.failure.isSome = false) (hdone : a.done = true) :
    a.endQueued = true ∨ a.resetHanded = true := by
  have hout := (h.chan s n).exchange.out
  have hchan : (p.view s n).chan n = a := by simp [Pair.view, View.chan, ha]
  rw [hchan] at hout
  have hours := ((h.ends s).obj n a ha).done (.inr hruns)
  rw [hdone, eq_comm, Bool.and_eq_true] at hours
  rcases Bool.or_eq_true_iff.mp hours.1 with hreset | hend
  · exact .inr hreset
  · exact .inl (hout.snd.endGone hend).2

/-- Credit that reaches no running channel is no loss. -/
def Idle (l l' : Link) (n : Nat) : Prop :=
  ∃ c, l.objects n = some c ∧ l'.objects n = some c ∧
    (c.failure.isSome = true ∨ c.endQueued = true ∨ c.resetHanded = true)

/-- The end that moved sends on the direction. -/
theorem CreditOk.sender (h : CreditOk p) {out : List Envelope}
    (hmove : EndMove (p.ends s) l n got out)
    (htook : credits (numbered n (p.wire s.other)) ≤ got + credits (numbered n (w s.other)) ∨
      Idle (p.ends s) l n) :
    Lossless (chanOf (l.objects n) n) ((p.view s.other n).chan n)
      (numbered n (w s.other) ++ (p.view s.other n).lane) := by
  obtain ⟨fs, hran, -⟩ := hmove.object
  intro hf he hr hb
  obtain ⟨hf', he', hr', hallowance⟩ := hran.sender n hf
  have hold : channelWindow + ((p.view s.other n).chan n).granted ≤
      (chanOf ((p.ends s).objects n) n).allowance +
        credits ((p.view s.other n).wire ++ (p.view s.other n).lane) :=
    h.lossless s n hf' (he' he) (hr' hr) hb
  rw [credits_append] at hold ⊢
  have hwire : (p.view s.other n).wire = numbered n (p.wire s.other) := rfl
  rw [hwire] at hold
  rcases htook with htook | ⟨c, hc, hc', hidle⟩
  · omega
  · exfalso
    rw [hc'] at hf he hr
    rcases hidle with hfailed | hended | hreset
    · exact absurd (hfailed.symm.trans hf) (by decide)
    · exact absurd (hended.symm.trans he) (by decide)
    · exact absurd (hreset.symm.trans hr) (by decide)

/-- The end that moved receives on the direction. -/
theorem CreditOk.receiver (h : CreditOk p) (hpair : PairOk p) (hpair' : PairOk (p.set s l w))
    {out : List Envelope} (hmove : EndMove (p.ends s) l n got out)
    (hshut : ∀ c, l.closed = true → l.objects n = some c →
      c.failure.isSome = true ∨ c.done = true)
    (hwrote : numbered n (w s) = numbered n (p.wire s) ++ out) :
    Lossless ((p.view s.other n).chan n) (chanOf (l.objects n) n)
      (numbered n (w s) ++ numbered n l.priority) := by
  obtain ⟨fs, hran, hqueued⟩ := hmove.object
  intro hf he hr hb
  obtain ⟨hb', hgranted⟩ := hran.receiver n (fun c hc => (h.table s).within n c hc) hb
  have hold : channelWindow + (chanOf ((p.ends s).objects n) n).granted ≤
      ((p.view s.other n).chan n).allowance +
        credits ((p.view s n).wire ++ (p.view s n).lane) := by
    have hlossless := h.lossless s.other n hf he hr
    rw [Side.other_other] at hlossless
    exact hlossless hb'
  have hwire : (p.view s n).wire = numbered n (p.wire s) := rfl
  have hlane : (p.view s n).lane = numbered n (p.ends s).priority := rfl
  cases hcl : l.closed with
  | false =>
    have hq := hqueued hcl
    rw [hwire, hlane, credits_append] at hold
    rw [hwrote, credits_append, credits_append]
    omega
  | true =>
    cases hc : l.objects n with
    | none =>
      -- nothing was granted, and nothing is on its way
      have hnone : (p.ends s).objects n = none := by
        rw [hc] at hran
        cases ho : (p.ends s).objects n with
        | none => rfl
        | some c =>
          rw [ho] at hran
          cases hran
      obtain ⟨hw, hl⟩ := hpair.quiet_of_none hnone
      rw [hnone, hw, hl] at hold
      have hzero : (chanOf none n).granted = 0 := rfl
      have hnil : credits ([] ++ []) = 0 := rfl
      rw [hzero, hnil] at hold
      rw [hzero]
      omega
    | some c =>
      rw [hc] at hb
      rcases hshut c hcl hc with hfailed | hdone
      · exact absurd (hfailed.symm.trans hb) (by decide)
      · have hended := hpair'.ended_of_done (s := s) (by simpa using hc) hb hdone
        rw [set_view_other] at hended
        exact absurd (hended.symm.trans he) (by decide)

/-- End `s` moves and the wires with it: what it wrote is on its own, what it took is off the
    other's. -/
theorem CreditOk.move (h : CreditOk p) (hpair : PairOk p) (hpair' : PairOk (p.set s l w))
    (htable : TableOk l) {taken : Nat → Nat} {out : Nat → List Envelope}
    (hmoves : ∀ n, EndMove (p.ends s) l n (taken n) (out n))
    (hwrote : ∀ n, numbered n (w s) = numbered n (p.wire s) ++ out n)
    (htook : ∀ n, credits (numbered n (p.wire s.other)) ≤
      taken n + credits (numbered n (w s.other)) ∨ Idle (p.ends s) l n) :
    CreditOk (p.set s l w) := by
  have hshut : ∀ n c, l.closed = true → l.objects n = some c →
      c.failure.isSome = true ∨ c.done = true := by
    intro n c' hcl' hc'
    cases hcl : (p.ends s).closed with
    | false => exact (hmoves n).shut hcl hcl' c' hc'
    | true =>
      obtain ⟨fs, hran, -⟩ := (hmoves n).object
      cases hc : (p.ends s).objects n with
      | none =>
        rw [(hmoves n).fresh hcl hc] at hc'
        cases hc'
      | some c =>
        rw [hc, hc'] at hran
        have hold := h.shut s n c hcl hc
        generalize taken n = got at hran
        cases hran with
        | kept => exact hold
        | turn hturn => exact hold.imp hturn.failed hturn.done
  have hself : ∀ n, (p.set s l w).view s n = linkView l (w s) n := fun n => set_view_self
  have hother : ∀ n, (p.set s l w).view s.other n = otherView p s w n := fun n => set_view_other
  refine ⟨fun t => ?_, fun t n c hc => ?_, fun t n c hcl hc => ?_, fun t n => ?_⟩
  · rcases Side.eq_or s t with ht | ht
    · rw [ht, set_ends_self]
      exact htable
    · rw [ht, set_ends_other]
      exact h.table s.other
  · rcases Side.eq_or s t with ht | ht
    · rw [ht, set_ends_self] at hc
      obtain ⟨fs, hran, -⟩ := (hmoves n).object
      exact hran.settled (h.settled s n) hc
    · rw [ht, set_ends_other] at hc
      exact h.settled s.other n c hc
  · rcases Side.eq_or s t with ht | ht
    · rw [ht, set_ends_self] at hcl hc
      exact hshut n c hcl hc
    · rw [ht, set_ends_other] at hcl hc
      exact h.shut s.other n c hcl hc
  · rcases Side.eq_or s t with ht | ht
    · rw [ht, hself, hother]
      exact h.sender (hmoves n) (htook n)
    · rw [ht, Side.other_other, hself, hother]
      exact h.receiver hpair hpair' (hmoves n) (hshut n) (hwrote n)

theorem CreditOk.act (h : CreditOk p) (hpair : PairOk p) (a : LocalAction) :
    CreditOk (p.step (.act s a)) := by
  refine CreditOk.move (s := s) (l := (p.ends s).localStep a) (w := p.wire) h hpair (hpair.act a)
    ((h.table s).localStep a) (fun n => localStep_moves (h.table s) (hpair.ends s) a n) ?_ ?_
  · exact fun n => (List.append_nil _).symm
  · exact fun n => .inl (Nat.le_add_left _ _)

theorem CreditOk.pump (h : CreditOk p) (hpair : PairOk p) : CreditOk (p.step (.pump s)) := by
  refine CreditOk.move (s := s) (l := (p.ends s).pump.1)
    (w := Function.update p.wire s (p.wire s ++ (p.ends s).pump.2.toList)) h hpair hpair.pump
    (h.table s).pump (fun n => pump_moves (h.table s) (hpair.ends s) n) ?_ ?_
  · intro n
    rw [Function.update_self, numbered_append]
    rfl
  · intro n
    rw [Function.update_of_ne (Side.other_ne s)]
    exact .inl (Nat.le_add_left _ _)

/-- The credit of one message, by channel number. -/
theorem credits_cons (e : Envelope) (rest : List Message) (n : Nat) :
    credits (numbered n (.binary e :: rest)) =
      (if n = e.number then credits [e] else 0) + credits (numbered n rest) := by
  rw [numbered]
  by_cases hn : n = e.number
  · rw [if_pos hn.symm, if_pos hn]
    simp [credits]
  · rw [if_neg (Ne.symm hn), if_neg hn, Nat.zero_add]

/-- An `OPEN` of the other end makes a channel here. -/
theorem openedPeer_moves {number : Nat} {id : String} (hcl : l.closed = false)
    (hnone : l.objects number = none) (n : Nat) : EndMove l (l.openedPeer number id) n 0 [] := by
  refine ⟨⟨[], ?_, fun _ => Nat.le_add_left _ _⟩, fun hcl' => hcl',
    fun _ hcl' => absurd (hcl.symm.trans hcl') (by decide),
    fun hcl' => absurd (hcl.symm.trans hcl') (by decide)⟩
  change Ran (l.objects n) (Function.update l.objects number _ n) 0 []
  by_cases hn : n = number
  · subst hn
    rw [Function.update_self, hnone]
    exact .opened n id false
  · rw [Function.update_of_ne hn]
    exact .kept _

/-- A message of a channel reaches the end. -/
theorem CreditOk.recvOther (h : CreditOk p) (hpair : PairOk p) (hcl : (p.ends s).closed = false)
    {e : Envelope} {rest : List Message} (hw : p.wire s.other = .binary e :: rest)
    (he : e.type ≠ .OPEN) (again : Nat) :
    CreditOk (p.set s ((p.ends s).onMessage again (.binary e)) (took p s rest)) := by
  have hpair' := hpair.recvOther hcl hw he again
  have htable : TableOk ((p.ends s).onMessage again (.binary e)) :=
    (h.table s).onBinary e.bytes again
  have hend := hpair.ends s
  have hwire : (p.view s.other e.number).wire = e :: numbered e.number rest := by
    simp [Pair.view, hw, numbered]
  obtain ⟨⟨c, hvc, -⟩, -⟩ := (hpair.chan s e.number).opened.recv hwire he
  have hc : (p.ends s).objects e.number = some c := hvc
  have hobj := hend.obj _ c hc
  have hwrote : ∀ n, numbered n (took p s rest s) = numbered n (p.wire s) ++ [] := by
    intro n
    rw [took_self, List.append_nil]
  rw [onBinary_eq hobj.small he again] at hpair' htable ⊢
  split at hpair'
  · rename_i hlive
    rw [if_pos hlive] at htable ⊢
    refine h.move hpair hpair' htable (fun n => on_moves (h.table s) hc hobj.number
      (c.receive_keeps e again _) (c.receive_turn e again _) n) hwrote fun n => .inl ?_
    rw [hw, took_other, credits_cons]
  · rename_i hnot
    rw [if_neg hnot] at htable ⊢
    rw [if_pos (hend.isLate hc)] at hpair' htable ⊢
    refine h.move hpair hpair' htable (fun n => .refl _ n) hwrote fun n => ?_
    rw [hw, took_other, credits_cons]
    by_cases hn : n = e.number
    · subst hn
      refine .inr ⟨c, hc, hc, ?_⟩
      cases hf : c.failure.isSome with
      | true => exact .inl rfl
      | false =>
        have hdone : c.done = true := by
          by_contra hne
          exact hnot ((hobj.live hcl).mpr (by simpa using hne))
        exact .inr (hpair.sent_of_done hc hf hdone)
    · rw [if_neg hn]
      exact .inl (Nat.le_refl _)

theorem CreditOk.receive (h : CreditOk p) (hpair : PairOk p) (again : Nat) :
    CreditOk (p.step (.receive s again)) := by
  have hpair' := hpair.receive (s := s) again
  simp only [Pair.step] at hpair' ⊢
  split
  · exact h
  rename_i hopen
  rw [if_neg hopen] at hpair'
  have hcl : (p.ends s).closed = false := by simpa using hopen
  split
  · exact h
  rename_i m rest hw
  have hwrote : ∀ n, numbered n (took p s rest s) = numbered n (p.wire s) ++ [] := by
    intro n
    rw [took_self, List.append_nil]
  cases m with
  | text t =>
    refine CreditOk.move (s := s) (w := took p s rest) h hpair (hpair.recvText hcl hw again)
      ((h.table s).same ⟨rfl, rfl, rfl, rfl, rfl, rfl⟩) (fun n => .same rfl rfl (Nat.le_refl _))
      hwrote fun n => .inl ?_
    rw [hw, took_other, numbered]
    exact Nat.le_add_left _ _
  | binary e =>
    by_cases he : e.type = .OPEN
    · obtain ⟨a, -, heq, -, -, hnone, -⟩ := hpair.onMessage_open hcl hw he again
      have htable : TableOk ((p.ends s).onMessage again (.binary e)) :=
        (h.table s).onBinary e.bytes again
      have hopened := hpair.recvOpen hcl hw he again
      rw [heq] at htable hopened
      change CreditOk (p.set s ((p.ends s).onMessage again (.binary e)) (took p s rest))
      rw [heq]
      refine h.move hpair hopened htable (fun n => openedPeer_moves hcl hnone n) hwrote
        fun n => .inl ?_
      rw [hw, took_other, credits_cons]
      have hzero : credits [e] = 0 := by simp [credits, he]
      rw [hzero, ite_self]
    · exact h.recvOther hpair hcl hw he again

theorem CreditOk.step (h : CreditOk p) (hpair : PairOk p) (a : Pair.Action) :
    CreditOk (p.step a) := by
  cases a with
  | act s a => exact h.act hpair a
  | pump s => exact h.pump hpair
  | receive s again => exact h.receive hpair again

theorem CreditOk.create : CreditOk Pair.create := by
  refine ⟨fun _ => .create _, fun _ _ c hc => ?_, fun _ _ c hcl => ?_, fun _ _ _ _ _ _ => ?_⟩
  · cases hc
  · cases hcl
  · exact Nat.le_refl _

/-- In every state of every run the account of every direction is whole. -/
theorem CreditOk.run (acts : List Pair.Action) : CreditOk (Lib.run Pair.step Pair.create acts) :=
  (Lib.run_invariant (I := fun p => PairOk p ∧ CreditOk p)
    (fun _ a h => ⟨h.1.step a, h.2.step h.1 a⟩) acts Pair.create ⟨.create, .create⟩).2

end

/-! ### A direction that has been read to its end -/

/-- What end `s` has of channel `n`, a new channel while it knows none. -/
def Pair.channel (p : Pair) (s : Side) (n : Nat) : Channel := (p.view s n).chan n

/-- The messages of channel `n` that end `s` has queued or sent and the other end has not got. -/
def Pair.onWay (p : Pair) (s : Side) (n : Nat) : List Envelope :=
  (p.view s n).wire ++ (p.view s n).lane

/-- What end `s` sends on channel `n` is neither ended, stopped nor reset. -/
structure Flowing (p : Pair) (s : Side) (n : Nat) : Prop where
  ended : (p.channel s n).endQueued = false
  stopped : (p.channel s n).stoppedByPeer = false ∧ (p.channel s.other n).stopSent = false
  reset : (p.channel s n).failure = none ∧ (p.channel s n).resetHanded = false ∧
    (p.channel s.other n).failure = none

/-- Every byte end `s` handed over on channel `n` has been read, and no `CREDIT` is on its way. -/
structure Drained (p : Pair) (s : Side) (n : Nat) : Prop where
  read : (p.channel s.other n).readTotal = (p.channel s n).handed
  delivered : ∀ e ∈ p.onWay s.other n, e.type ≠ .CREDIT

theorem credits_eq_zero {es : List Envelope} (h : ∀ e ∈ es, e.type ≠ .CREDIT) : credits es = 0 := by
  induction es with
  | nil => rfl
  | cons e es ih =>
    obtain ⟨he, hes⟩ := List.forall_mem_cons.mp h
    rw [credits, if_neg he, ih hes]

/-- Once everything handed over has been read, the sender has the whole window but what it queued,
    and waits for credit only with a whole window in its own queue. -/
theorem credit_never_lost (acts : List Pair.Action) (s : Side) (n : Nat)
    (hflow : Flowing (Lib.run Pair.step Pair.create acts) s n)
    (hdrained : Drained (Lib.run Pair.step Pair.create acts) s n) :
    ((Lib.run Pair.step Pair.create acts).channel s n).credit =
        channelWindow - ((Lib.run Pair.step Pair.create acts).channel s n).queuedBytes ∧
      ((Lib.run Pair.step Pair.create acts).channel s n).queuedBytes ≤ channelWindow ∧
      (((Lib.run Pair.step Pair.create acts).channel s n).pendingWrite = true ∨
          0 < ((Lib.run Pair.step Pair.create acts).channel s n).creditWaiters →
        ((Lib.run Pair.step Pair.create acts).channel s n).queuedBytes = channelWindow) := by
  have hpair := PairOk.run acts
  have hcredit := CreditOk.run acts
  generalize Lib.run Pair.step Pair.create acts = p at *
  have hlossless := hcredit.lossless s n
  have hout := (hpair.chan s n).exchange.out
  have hsettled : ∀ t, Settled ((p.view t n).chan n) := by
    intro t
    cases hc : (p.ends t).objects n with
    | none => simpa [Pair.view, View.chan, hc] using Channel.new_settled n "" false
    | some c => simpa [Pair.view, View.chan, hc] using hcredit.settled t n c hc
  have hsnd := hsettled s
  have hrcv := hsettled s.other
  obtain ⟨hended, ⟨hstopped, hstop⟩, hfa, hreset, hfb⟩ := hflow
  obtain ⟨hread, hdelivered⟩ := hdrained
  rw [Pair.onWay] at hdelivered
  unfold Pair.channel at *
  generalize (p.view s n).chan n = a at *
  generalize (p.view s.other n).chan n = b at *
  have hzero := credits_eq_zero hdelivered
  have hruns : a.failure.isSome = false := by rw [hfa]; rfl
  have hruns' : b.failure.isSome = false := by rw [hfb]; rfl
  have hnotEnded : b.inEnded = false := by
    cases hend : b.inEnded with
    | false => rfl
    | true =>
      have hsent := (hout.snd.endGone (hout.endSent (.inr hend))).2
      exact absurd (hsent.symm.trans hended) (by decide)
  -- nothing is held back: all that was received was read, and all of it granted
  have hreceived : b.received + (dataBytes (p.view s n).wire).length ≤ a.handed := hout.received
  have hheld : b.readTotal + (b.inQueue.flatten ++ b.inTail).length ≤ b.received := hout.rcv.read
  have hempty : b.inQueue.flatten ++ b.inTail = [] := List.length_eq_zero_iff.mp (by omega)
  obtain ⟨hqueue, htail⟩ := List.append_eq_nil_iff.mp hempty
  have hnone : b.inQueue = [] := by
    cases hq : b.inQueue with
    | nil => rfl
    | cons chunk rest =>
      rw [hq, List.flatten_cons, List.append_eq_nil_iff] at hqueue
      exact absurd hqueue.1 (hrcv.chunks chunk (by rw [hq]; exact List.mem_cons_self))
  have hgranted := hrcv.granted hruns' hstop hnotEnded hnone htail
  have hwhole := hlossless hruns hended hreset hruns'
  have hbound : a.allowance + credits ((p.view s.other n).wire ++ (p.view s.other n).lane) ≤
      channelWindow + b.granted := hout.credit
  have hle : b.granted ≤ b.readTotal := hout.rcv.granted
  have hwindow : a.handed + a.queuedBytes ≤ a.allowance := hout.snd.window
  rw [hzero] at hwhole hbound
  refine ⟨?_, ?_, fun hwaits => ?_⟩
  · unfold Channel.credit
    rw [hruns, hended, hstopped]
    simp only [Bool.or_self, Bool.false_eq_true, if_false]
    omega
  · omega
  · have hfull := hsnd.waits hruns hended hwaits
    omega

/-- The two bytes are read, and their credit comes back. -/
def passTwoBytesBack : List Pair.Action := passTwoBytes ++ [.pump .gateway, .receive .worker 0]

theorem credit_never_lost_passTwoBytesBack :
    ((Lib.run Pair.step Pair.create passTwoBytesBack).channel .worker 1).handed = 2 ∧
      ((Lib.run Pair.step Pair.create passTwoBytesBack).channel .worker 1).credit =
        channelWindow -
          ((Lib.run Pair.step Pair.create passTwoBytesBack).channel .worker 1).queuedBytes :=
  ⟨by decide +kernel, (credit_never_lost passTwoBytesBack .worker 1
    ⟨by decide +kernel, by decide +kernel, by decide +kernel⟩
    ⟨by decide +kernel, by decide +kernel⟩).1⟩

end Simlock.Link
