import Simlock.Leasing.RequestBook

/-! A repeated request gets the result of the one wait it started.

    The invariant accounts for every record: an open one has an entry whose wait runs in this process
    and is not granted, or it was left by an earlier process and the daemon does not serve yet; a
    settled one has the result of its wait, or the failure of a restart that found it open. Replays
    and admissions share the serialized section, so a key never has two retained records. -/

namespace Simlock.Leasing

open Simlock.Lib Simlock.Core

/-- The same result; a grant is shown with its device as the registry has it now. -/
def SameResult (x y : LeaseRequestOutcome) : Prop :=
  x = y ∨ ∃ g g', x = .granted g ∧ y = .granted g' ∧ g'.named = g.named

/-- At most one of the records retained at `now` has a given requester and key. -/
def OnePerKey (retentionMs : Int) (records : List LeaseRequestRecord) (now : Int) : Prop :=
  ∀ q ∈ records, ∀ q' ∈ records, isRetained now retentionMs q = true →
    isRetained now retentionMs q' = true → q.requesterId = q'.requesterId →
    q.idempotencyKey = q'.idempotencyKey → q.idempotencyKey.isSome → q.id = q'.id

/-- What becomes of a record and its wait. -/
inductive Accounted (h : RequestHost) (q : LeaseRequestRecord) : Prop
  | driven {e : OpenRequest} {w : Wait} (hopen : isSettled q = false) (he : h.open_ q.id = some e)
    (hw : h.waits q.id = some w) (hlive : w.process = h.process) (hwritten : e.written ≠ some true)
    (hgrant : ∀ g, w.outcome ≠ some (.granted g))
  | left {w : Wait} (hopen : isSettled q = false) (hw : h.waits q.id = some w)
    (hpast : w.process < h.process) (hserving : h.serving = false)
  | answered {w : Wait} {x : LeaseRequestOutcome} (hsettled : isSettled q = true)
    (hw : h.waits q.id = some w) (hx : w.outcome = some x) (hsame : SameResult x (storedResult q))
  | restarted {w : Wait} (hsettled : isSettled q = true) (hw : h.waits q.id = some w)
    (hpast : w.process < h.process) (hfailed : storedResult q = .failed daemonRestarted)

/-- An entry's wait runs in this process, and the outcome it writes is the wait's. -/
structure EntryOk (h : RequestHost) (id : String) (e : OpenRequest) : Prop where
  serving : h.serving = true
  wait : ∃ w, h.waits id = some w ∧ w.process = h.process ∧ ∀ x, e.outcome = some x → w.outcome = some x

structure RequestsInv (o : RegistryOptions) (h : RequestHost) : Prop where
  store : StoreOk h.store
  keys : OnePerKey o.retentionMs h.store.registry.leaseRequests h.store.clock
  process : ∀ id w, h.waits id = some w → w.process ≤ h.process
  records : ∀ q ∈ h.store.registry.leaseRequests, Accounted h q
  entries : ∀ id e, h.open_ id = some e → EntryOk h id e

/-! ### Records -/

section Records

variable {q q' : LeaseRequestRecord} {now clock retentionMs : Int}

theorem SameResult.refl (x : LeaseRequestOutcome) : SameResult x x := .inl rfl

/-- What is retained at a time was retained at every earlier one. -/
theorem isRetained_earlier (hle : clock ≤ now) (h : isRetained now retentionMs q = true) :
    isRetained clock retentionMs q = true := by
  rw [isRetained, Bool.or_eq_true, decide_eq_true_eq] at h ⊢
  refine h.imp_right fun hlt => ?_
  cases hs : q.settledAt with
  | none =>
    rw [hs] at hlt
    simp only [Option.getD_none] at hlt ⊢
    omega
  | some t =>
    rw [hs] at hlt
    simp only [Option.getD_some] at hlt ⊢
    omega

theorem isRetained_open (h : isSettled q = false) : isRetained now retentionMs q = true := by
  rw [isRetained, h]
  rfl

theorem isRetained_stored (h : q'.stored = q.stored) :
    isRetained now retentionMs q' = isRetained now retentionMs q := by
  rw [isRetained, isRetained, isSettled_of_stored h, (stored_fields h).2.2.2.2.1]

@[simp] theorem storedResult_settle (q : LeaseRequestRecord) (now : Int) (x : LeaseRequestOutcome) :
    storedResult (x.settle q now) = x := by
  cases x with
  | granted g => rfl
  | failed f => simp [storedResult, LeaseRequestOutcome.settle]
  | cancelled => simp [storedResult, LeaseRequestOutcome.settle]

/-- A record read back has the result it was stored with. -/
theorem storedResult_stored (h : q'.stored = q.stored) :
    SameResult (storedResult q) (storedResult q') := by
  obtain ⟨-, -, -, hstate, -, hfailure⟩ := stored_fields h
  have hgrant : q'.grant.map LeaseGrant.named = q.grant.map LeaseGrant.named := congrArg Prod.snd h
  unfold storedResult
  rw [hstate, hfailure]
  cases hg : q.grant with
  | none =>
    rw [hg, Option.map_none, Option.map_eq_none_iff] at hgrant
    rw [hgrant]
    exact .refl _
  | some g =>
    rw [hg, Option.map_some] at hgrant
    obtain ⟨g', hg', hnamed⟩ := Option.map_eq_some_iff.mp hgrant
    rw [hg']
    cases q.state with
    | granted => exact .inr ⟨g, g', rfl, rfl, hnamed⟩
    | _ => exact .refl _

theorem SameResult.trans {x y z : LeaseRequestOutcome} (h : SameResult x y) (h' : SameResult y z) :
    SameResult x z := by
  rcases h with rfl | ⟨g, g', rfl, rfl, hnamed⟩
  · exact h'
  · rcases h' with rfl | ⟨g₁, g'', hg, rfl, hnamed'⟩
    · exact .inr ⟨g, g', rfl, rfl, hnamed⟩
    · cases hg
      exact .inr ⟨g, g'', rfl, rfl, hnamed'.trans hnamed⟩

theorem SameResult.failed {f : LeaseRequestFailure} {x : LeaseRequestOutcome}
    (h : SameResult (.failed f) x) : x = .failed f := by
  rcases h with rfl | ⟨g, g', hg, -⟩
  · rfl
  · cases hg

/-- The records of the next state come from those of this one, with their requester and key, and a
    retained one from a retained one. -/
def Comes (retentionMs clock now : Int) (q q' : LeaseRequestRecord) : Prop :=
  q'.id = q.id ∧ q'.requesterId = q.requesterId ∧ q'.idempotencyKey = q.idempotencyKey ∧
    (isRetained now retentionMs q' = true → isRetained clock retentionMs q = true)

theorem Comes.refl (hle : clock ≤ now) (q : LeaseRequestRecord) : Comes retentionMs clock now q q :=
  ⟨rfl, rfl, rfl, isRetained_earlier hle⟩

theorem comes_of_settled {x : LeaseRequestOutcome} (h : SettledAs now x q q') :
    Comes retentionMs clock now q q' := by
  obtain ⟨hopen, rfl⟩ := h
  exact ⟨settle_id .., (settle_key ..).1, (settle_key ..).2, fun _ => isRetained_open hopen⟩

theorem comes_of_stored (hle : clock ≤ now) (h : q'.stored = q.stored) :
    Comes retentionMs clock now q q' := by
  obtain ⟨hid, hrequester, hkey, -⟩ := stored_fields h
  refine ⟨hid, hrequester, hkey, fun hretained => isRetained_earlier hle ?_⟩
  rwa [← isRetained_stored h]

theorem OnePerKey.step {records records' : List LeaseRequestRecord}
    (h : OnePerKey retentionMs records clock)
    (hcomes : ∀ q' ∈ records', ∃ q ∈ records, Comes retentionMs clock now q q') :
    OnePerKey retentionMs records' now := by
  intro q₁' hq₁' q₂' hq₂' hret₁ hret₂ hrequester hkey hsome
  obtain ⟨q₁, hq₁, hid₁, hrequester₁, hkey₁, hkept₁⟩ := hcomes q₁' hq₁'
  obtain ⟨q₂, hq₂, hid₂, hrequester₂, hkey₂, hkept₂⟩ := hcomes q₂' hq₂'
  rw [hid₁, hid₂]
  refine h q₁ hq₁ q₂ hq₂ (hkept₁ hret₁) (hkept₂ hret₂) ?_ ?_ (hkey₁ ▸ hsome)
  · rw [← hrequester₁, ← hrequester₂, hrequester]
  · rw [← hkey₁, ← hkey₂, hkey]

end Records

/-! ### One step -/

section Steps

variable {o : RegistryOptions} {h h' : RequestHost} {q q' : LeaseRequestRecord} {now : Int}

theorem Accounted.wait (ha : Accounted h q) : ∃ w, h.waits q.id = some w := by
  cases ha with
  | driven _ _ hw => exact ⟨_, hw⟩
  | left _ hw => exact ⟨_, hw⟩
  | answered _ hw => exact ⟨_, hw⟩
  | restarted _ hw => exact ⟨_, hw⟩

/-- A record is accounted for by what the host has under its id. -/
theorem Accounted.frame (ha : Accounted h q) (hentry : h'.open_ q.id = h.open_ q.id)
    (hwaits : h'.waits q.id = h.waits q.id) (hprocess : h'.process = h.process)
    (hserving : h'.serving = h.serving) : Accounted h' q := by
  cases ha with
  | driven hopen he hw hlive hwritten hgrant =>
    exact .driven hopen (hentry ▸ he) (hwaits ▸ hw) (hprocess ▸ hlive) hwritten hgrant
  | left hopen hw hpast hserving' =>
    exact .left hopen (hwaits ▸ hw) (hprocess ▸ hpast) (hserving ▸ hserving')
  | answered hsettled hw hx hsame => exact .answered hsettled (hwaits ▸ hw) hx hsame
  | restarted hsettled hw hpast hfailed =>
    exact .restarted hsettled (hwaits ▸ hw) (hprocess ▸ hpast) hfailed

theorem EntryOk.frame {id : String} {e : OpenRequest} (he : EntryOk h id e)
    (hwaits : h'.waits id = h.waits id) (hprocess : h'.process = h.process)
    (hserving : h'.serving = h.serving) : EntryOk h' id e := by
  obtain ⟨w, hw, hlive, hout⟩ := he.wait
  exact ⟨hserving ▸ he.serving, w, hwaits ▸ hw, hprocess ▸ hlive, hout⟩

/-- A step that leaves the book and the queue alone, and the records but for those that go. -/
theorem RequestsInv.keep (hi : RequestsInv o h) (hstore : StoreOk h'.store)
    (hle : h.store.clock ≤ h'.store.clock)
    (hrecords : ∀ q ∈ h'.store.registry.leaseRequests, q ∈ h.store.registry.leaseRequests)
    (hopen : h'.open_ = h.open_) (hwaits : h'.waits = h.waits) (hprocess : h'.process = h.process)
    (hserving : h'.serving = h.serving) : RequestsInv o h' where
  store := hstore
  keys := hi.keys.step fun q hq => ⟨q, hrecords q hq, .refl hle q⟩
  process := by
    rw [hwaits, hprocess]
    exact hi.process
  records q hq :=
    (hi.records q (hrecords q hq)).frame (by rw [hopen]) (by rw [hwaits]) hprocess hserving
  entries id e he := by
    rw [hopen] at he
    exact (hi.entries id e he).frame (by rw [hwaits]) hprocess hserving

/-- The live wait of an id is the one on record. -/
theorem live_eq_some {id : String} {w : Wait} :
    h.live id = some w ↔ h.waits id = some w ∧ w.process = h.process := by
  rw [RequestHost.live, Option.filter_eq_some_iff]
  simp

/-- The clock moves. -/
theorem RequestsInv.tick (hi : RequestsInv o h) (hle : h.store.clock ≤ now) :
    RequestsInv o { h with store := { h.store with clock := now } } :=
  hi.keep (hi.store.later hle) hle (fun _ hq => hq) rfl rfl rfl rfl

theorem RequestsInv.other (hi : RequestsInv o h) {c : Call} {writable : Bool}
    (hle : h.store.clock ≤ now) (hfits : c.Fits h.store.registry) (hc : c.writesRequests = false) :
    RequestsInv o { h with store := h.store.attempted o c now writable } := by
  obtain ⟨hstore, hsame | ⟨-, draft, hcall, hcommit⟩⟩ := attempted_spec writable hi.store hle hfits
  · refine hi.keep hstore hle ?_ rfl rfl rfl rfl
    intro q hq
    rwa [hsame.1] at hq
  · refine hi.keep hstore hle ?_ rfl rfl rfl rfl
    intro q hq
    change q ∈ (h.store.attempted o c now writable).registry.leaseRequests at hq
    rw [hcommit] at hq
    have hkept := mem_commit_requests hq
    rwa [call_keeps_requests hc hcall, vals_keep] at hkept

theorem settleWith_of_some {w : Wait} {x y : LeaseRequestOutcome} (h : w.outcome = some y) :
    w.settleWith x = w := by
  rw [Wait.settleWith, h]
  rfl

@[simp] theorem settleWith_process (w : Wait) (x : LeaseRequestOutcome) :
    (w.settleWith x).process = w.process := by
  unfold Wait.settleWith
  split <;> rfl

/-- A wait keeps the outcome it has. -/
theorem settleWith_keeps {w : Wait} {x y : LeaseRequestOutcome} (h : w.outcome = some y) :
    (w.settleWith x).outcome = some y := by rw [settleWith_of_some h, h]

theorem setWait_self (h : RequestHost) (id : String) (w : Wait) :
    (h.setWait id w).waits id = some w := Function.update_self ..

theorem setWait_of_ne (h : RequestHost) {id id' : String} (w : Wait) (hne : id' ≠ id) :
    (h.setWait id w).waits id' = h.waits id' := Function.update_of_ne hne ..

theorem setOpen_self (h : RequestHost) (id : String) (e : Option OpenRequest) :
    (h.setOpen id e).open_ id = e := Function.update_self ..

theorem setOpen_of_ne (h : RequestHost) {id id' : String} (e : Option OpenRequest)
    (hne : id' ≠ id) : (h.setOpen id e).open_ id' = h.open_ id' := Function.update_of_ne hne ..

/-- A live wait that settles leaves the entries well formed and the processes as they were. -/
theorem RequestsInv.waits_settle (hi : RequestsInv o h) {id : String} {w : Wait}
    (hw : h.waits id = some w) (x : LeaseRequestOutcome) :
    (∀ id' w', (h.setWait id (w.settleWith x)).waits id' = some w' → w'.process ≤ h.process) ∧
      ∀ id' e, h.open_ id' = some e → EntryOk (h.setWait id (w.settleWith x)) id' e := by
  constructor
  · intro id' w' hw'
    by_cases hid : id' = id
    · rw [hid, setWait_self] at hw'
      cases hw'
      rw [settleWith_process]
      exact hi.process id w hw
    · rw [setWait_of_ne _ _ hid] at hw'
      exact hi.process id' w' hw'
  · intro id' e he
    have hok := hi.entries id' e he
    by_cases hid : id' = id
    · subst hid
      obtain ⟨w₁, hw₁, hlive, hout⟩ := hok.wait
      obtain rfl := Option.some.inj (hw.symm.trans hw₁)
      refine ⟨hok.serving, _, setWait_self .., (settleWith_process ..).trans hlive, ?_⟩
      exact fun y hy => settleWith_keeps (hout y hy)
    · exact hok.frame (setWait_of_ne _ _ hid) rfl rfl

/-- A rejection leaves every record as it was: an open one is still not granted. -/
theorem RequestsInv.reject (hi : RequestsInv o h) (id : String) (why : RequestHost.Rejection) :
    RequestsInv o (h.reject id why) := by
  rw [RequestHost.reject]
  cases hlive : h.live id with
  | none => exact hi
  | some w =>
    obtain ⟨hw, hprocess⟩ := live_eq_some.mp hlive
    obtain ⟨hwaits, hentries⟩ := hi.waits_settle hw why.outcome
    refine ⟨hi.store, hi.keys, hwaits, ?_, hentries⟩
    intro q hq
    have ha := hi.records q hq
    by_cases hid : q.id = id
    · subst hid
      cases ha with
      | @driven e w₁ hopen he hw₁ hlive₁ hwritten hgrant =>
        obtain rfl := Option.some.inj (hw.symm.trans hw₁)
        refine .driven hopen he (setWait_self ..) ((settleWith_process ..).trans hprocess) hwritten ?_
        intro g hg
        cases hout : w.outcome with
        | some y =>
          rw [settleWith_of_some hout] at hg
          exact hgrant g hg
        | none =>
          rw [Wait.settleWith, hout] at hg
          cases why <;> cases hg
      | @left w₁ hopen hw₁ hpast hserving =>
        obtain rfl := Option.some.inj (hw.symm.trans hw₁)
        exact absurd hprocess (Nat.ne_of_lt hpast)
      | @answered w₁ x hsettled hw₁ hx hsame =>
        obtain rfl := Option.some.inj (hw.symm.trans hw₁)
        exact .answered hsettled (setWait_self ..) (settleWith_keeps hx) hsame
      | @restarted w₁ hsettled hw₁ hpast hfailed =>
        obtain rfl := Option.some.inj (hw.symm.trans hw₁)
        exact absurd hprocess (Nat.ne_of_lt hpast)
    · exact ha.frame rfl (setWait_of_ne _ _ hid) rfl rfl

/-- What a settle does to an entry. -/
theorem RequestsInv.setOpen (hi : RequestsInv o h) {id : String} {e : OpenRequest}
    (he : h.open_ id = some e) {e' : Option OpenRequest}
    (hkeeps : ∀ e₁, e' = some e₁ → EntryOk h id e₁)
    (hdriven : ∀ q ∈ h.store.registry.leaseRequests, q.id = id → isSettled q = false →
      e.written ≠ some true → ∃ e₁, e' = some e₁ ∧ e₁.written ≠ some true) :
    RequestsInv o (h.setOpen id e') := by
  refine ⟨hi.store, hi.keys, hi.process, ?_, ?_⟩
  · intro q hq
    have ha := hi.records q hq
    by_cases hid : q.id = id
    · have hself : (h.setOpen id e').open_ q.id = e' := by rw [hid]; exact setOpen_self ..
      cases ha with
      | driven hopen he₁ hw hlive hwritten hgrant =>
        obtain rfl := Option.some.inj (he.symm.trans (hid ▸ he₁))
        obtain ⟨e₁, rfl, hwritten₁⟩ := hdriven q hq hid hopen hwritten
        exact .driven hopen hself hw hlive hwritten₁ hgrant
      | left hopen hw hpast hserving => exact .left hopen hw hpast hserving
      | answered hsettled hw hx hsame => exact .answered hsettled hw hx hsame
      | restarted hsettled hw hpast hfailed => exact .restarted hsettled hw hpast hfailed
    · exact ha.frame (setOpen_of_ne _ _ hid) rfl rfl rfl
  · intro id' e₁ he₁
    by_cases hid : id' = id
    · subst hid
      rw [setOpen_self] at he₁
      exact (hkeeps e₁ he₁).frame rfl rfl rfl
    · rw [setOpen_of_ne _ _ hid] at he₁
      exact (hi.entries id' e₁ he₁).frame rfl rfl rfl

theorem RequestsInv.beginSettle (hi : RequestsInv o h) (id : String) :
    RequestsInv o (h.beginSettle id) := by
  unfold RequestHost.beginSettle
  split
  · rename_i e x he hx
    split
    · refine hi.setOpen he ?_ fun q _ _ _ hwritten => ⟨_, rfl, hwritten⟩
      rintro e₁ ⟨⟩
      obtain ⟨hserving, w, hw, hlive, -⟩ := hi.entries id e he
      refine ⟨hserving, w, hw, hlive, ?_⟩
      rintro y ⟨⟩
      rwa [hw] at hx
    · exact hi
  · exact hi

theorem RequestsInv.endSettle (hi : RequestsInv o h) (id : String) :
    RequestsInv o (h.endSettle id) := by
  unfold RequestHost.endSettle
  cases he : h.open_ id with
  | none => exact hi
  | some e =>
    simp only
    split
    · rename_i hwritten
      exact hi.setOpen he (fun e₁ he₁ => by cases he₁) fun q _ _ _ hnot => absurd hwritten hnot
    · refine hi.setOpen he ?_ fun q _ _ _ hwritten => ⟨_, rfl, hwritten⟩
      rintro e₁ ⟨⟩
      obtain ⟨hserving, w, hw, hlive, hout⟩ := hi.entries id e he
      exact ⟨hserving, w, hw, hlive, hout⟩
    · exact hi

/-- What a commit that settles the request `id` with `x` makes of the records. -/
def Settles (now : Int) (id : String) (x : LeaseRequestOutcome) (r r' : Registry) : Prop :=
  ∀ q' ∈ r'.leaseRequests, ∃ q ∈ r.leaseRequests, q'.id = q.id ∧ (q.id ≠ id → q' = q) ∧
    (q.id = id → (isSettled q = true ∧ q' = q) ∨ SettledAs now x q q')

/-- A commit that settles a request with the result its wait settles with. -/
theorem RequestsInv.settles (hi : RequestsInv o h) {s : Store} (hstore : StoreOk s)
    (hle : h.store.clock ≤ s.clock) {id : String} {w : Wait} {x y : LeaseRequestOutcome}
    (hw : h.waits id = some w) (hy : (w.settleWith y).outcome = some y) (hsame : SameResult y x)
    (hsettles : Settles s.clock id x h.store.registry s.registry) :
    RequestsInv o ({ h with store := s }.setWait id (w.settleWith y)) := by
  obtain ⟨hwaits, hentries⟩ := hi.waits_settle hw y
  refine ⟨hstore, hi.keys.step ?_, hwaits, ?_, fun id' e he => (hentries id' e he).frame rfl rfl rfl⟩
  · intro q' hq'
    obtain ⟨q, hq, -, hother, hid⟩ := hsettles q' hq'
    refine ⟨q, hq, ?_⟩
    by_cases hne : q.id = id
    · rcases hid hne with ⟨-, rfl⟩ | hset
      · exact .refl hle _
      · exact comes_of_settled hset
    · rw [hother hne]
      exact .refl hle q
  · intro q' hq'
    obtain ⟨q, hq, hid', hother, hid⟩ := hsettles q' hq'
    have ha := hi.records q hq
    by_cases hne : q.id = id
    · subst hne
      rcases hid rfl with ⟨hsettled, rfl⟩ | hset
      · cases ha with
        | driven hopen => rw [hsettled] at hopen; cases hopen
        | left hopen => rw [hsettled] at hopen; cases hopen
        | @answered w₁ z _ hw₁ hz hsame₁ =>
          obtain rfl := Option.some.inj (hw.symm.trans hw₁)
          exact .answered hsettled (setWait_self ..) (settleWith_keeps hz) hsame₁
        | @restarted w₁ _ hw₁ hpast hfailed =>
          obtain rfl := Option.some.inj (hw.symm.trans hw₁)
          exact .restarted hsettled (setWait_self ..) ((settleWith_process ..).symm ▸ hpast) hfailed
      · refine .answered (x := y) (hset.eq ▸ isSettled_settle ..) ?_ hy ?_
        · rw [hid']
          exact setWait_self ..
        · rw [hset.eq, storedResult_settle]
          exact hsame
    · rw [hother hne]
      exact ha.frame rfl (setWait_of_ne _ _ hne) rfl rfl

/-- The record of a granted wait is settled: the grant was stored with its lease. -/
theorem RequestsInv.settled_of_granted (hi : RequestsInv o h) {id : String} {w : Wait}
    {g : LeaseGrant} (hw : h.waits id = some w) (hlive : w.process = h.process)
    (hg : w.outcome = some (.granted g)) :
    ∀ q ∈ h.store.registry.leaseRequests, q.id = id → isSettled q = true := by
  rintro q hq rfl
  cases hi.records q hq with
  | driven _ _ hw₁ _ _ hgrant =>
    obtain rfl := Option.some.inj (hw.symm.trans hw₁)
    exact absurd hg (hgrant g)
  | left _ hw₁ hpast =>
    obtain rfl := Option.some.inj (hw.symm.trans hw₁)
    exact absurd hlive (Nat.ne_of_lt hpast)
  | answered hsettled => exact hsettled
  | restarted hsettled => exact hsettled

theorem RequestsInv.write_fits (hi : RequestsInv o h) {id : String} {w : Wait}
    {x : LeaseRequestOutcome} (hw : h.waits id = some w) (hlive : w.process = h.process)
    (hx : w.outcome = some x) : (Call.settleLeaseRequest id x).Fits h.store.registry := by
  cases x with
  | granted g => exact hi.settled_of_granted hw hlive hx
  | failed f => trivial
  | cancelled => trivial

theorem setWait_same {id : String} {w : Wait} (hw : h.waits id = some w) (s : Store) :
    { h with store := s }.setWait id w = { h with store := s } := by
  rw [RequestHost.setWait, ← hw, Function.update_eq_self]

/-- The call that writes a wait's result keeps the invariant, and if it returns no record of the id
    is open. -/
theorem RequestsInv.written (hi : RequestsInv o h) {id : String} {w : Wait}
    {x : LeaseRequestOutcome} (writable : Bool) (hle : h.store.clock ≤ now)
    (hw : h.waits id = some w) (hlive : w.process = h.process) (hx : w.outcome = some x) :
    RequestsInv o { h with store := h.store.attempted o (.settleLeaseRequest id x) now writable } ∧
      (h.store.returns o (.settleLeaseRequest id x) now writable = true →
        ∀ q ∈ (h.store.attempted o (.settleLeaseRequest id x) now writable).registry.leaseRequests,
          q.id = id → isSettled q = true) := by
  obtain ⟨hstore, hcases⟩ := attempted_spec writable (o := o) hi.store hle
    (hi.write_fits hw hlive hx)
  rcases hcases with ⟨hsame, hnone⟩ | ⟨-, draft, hcall, hcommit⟩
  · refine ⟨hi.keep hstore hle ?_ rfl rfl rfl rfl, fun hreturns => ?_⟩
    · intro q hq
      rwa [hsame] at hq
    · rw [hsame]
      exact settleLeaseRequest_none hi.store.ok.keys (hnone hreturns)
  · have hfrom : ∀ q' ∈ (h.store.attempted o (.settleLeaseRequest id x) now
        writable).registry.leaseRequests, ∃ q ∈ h.store.registry.leaseRequests, q'.id = q.id ∧
        (q.id ≠ id → q' = q) ∧ (q.id = id → SettledAs now x q q') := by
      intro q' hq'
      rw [hcommit] at hq'
      exact settleLeaseRequest_requests hi.store.ok.keys hcall q' (mem_commit_requests hq')
    have hsettles : Settles now id x h.store.registry
        (h.store.attempted o (.settleLeaseRequest id x) now writable).registry := by
      intro q' hq'
      obtain ⟨q, hq, hid, hother, hset⟩ := hfrom q' hq'
      exact ⟨q, hq, hid, hother, fun h => .inr (hset h)⟩
    have hinv := hi.settles hstore hle hw (settleWith_keeps hx) (.refl x) hsettles
    rw [settleWith_of_some hx, setWait_same hw] at hinv
    refine ⟨hinv, fun _ q' hq' hid => ?_⟩
    obtain ⟨q, hq, hid', -, hset⟩ := hfrom q' hq'
    rw [(hset (hid' ▸ hid)).eq]
    exact isSettled_settle ..

theorem RequestsInv.writeResult (hi : RequestsInv o h) (id : String) {writable : Bool}
    (hle : h.store.clock ≤ now) : RequestsInv o (h.writeResult o id now writable) := by
  unfold RequestHost.writeResult
  cases he : h.open_ id with
  | none => exact hi
  | some e =>
    simp only
    split
    · rename_i x hphase hunwritten hx
      obtain ⟨hserving, w, hw, hlive, hout⟩ := hi.entries id e he
      obtain ⟨hinv, hwritten⟩ := hi.written writable hle hw hlive (hout x hx)
      refine hinv.setOpen he ?_ ?_
      · rintro e₁ ⟨⟩
        exact ⟨hserving, w, hw, hlive, hout⟩
      · intro q hq hid hopen _
        refine ⟨_, rfl, fun hdone => ?_⟩
        rw [hwritten (Option.some.inj hdone) q hq hid] at hopen
        cases hopen
    · exact hi

/-- A grant that returns has committed, and the device it names is of the commit. -/
theorem grantCall_commits (writable : Bool) (hstore : StoreOk h.store) {id : String} {w : Wait}
    {g : RequestHost.GrantInput} (hle : h.store.clock ≤ now)
    (hfits : (RequestHost.grantCall id w g now).Fits h.store.registry) :
    StoreOk (h.store.attempted o (RequestHost.grantCall id w g now) now writable) ∧
      ((h.store.attempted o (RequestHost.grantCall id w g now) now writable).registry =
          h.store.registry ∧
        h.store.returns o (RequestHost.grantCall id w g now) now writable = false ∨
      h.store.returns o (RequestHost.grantCall id w g now) now writable = true ∧
        ∃ device, device.id = g.deviceId ∧
          (∃ d, (h.store.attempted o (RequestHost.grantCall id w g now) now
            writable).registry.device g.deviceId = some d) ∧
          Settles now id (.granted ⟨device, g.environment,
            grantedLease now g.generated (RequestHost.leaseInput id w g now), g.timing⟩)
            h.store.registry
            (h.store.attempted o (RequestHost.grantCall id w g now) now writable).registry) := by
  obtain ⟨hok, hcases⟩ := attempted_spec writable (o := o) hstore hle hfits
  refine ⟨hok, ?_⟩
  rcases hcases with ⟨hsame, hnone⟩ | ⟨hreturns, draft, hcall, hcommit⟩
  · refine .inl ⟨hsame, ?_⟩
    rw [← Bool.not_eq_true]
    exact fun hreturns => (createLease_commits _ _).ne_none (hnone hreturns)
  · refine .inr ⟨hreturns rfl, ?_⟩
    obtain ⟨device, hdevice, hrequests⟩ := createLease_requests hstore.ok.keys rfl hcall
    refine ⟨device, hdevice, ?_, ?_⟩
    · rw [hcommit]
      exact createLease_found hstore.ok hcall
    · intro q' hq'
      rw [hcommit] at hq'
      exact hrequests q' (mem_commit_requests hq')

/-- A live wait with no outcome, or with a grant, is granted or goes on. -/
theorem RequestsInv.grant (hi : RequestsInv o h) (id : String) (g : RequestHost.GrantInput)
    {writable : Bool} (hle : h.store.clock ≤ now)
    (hfits : ∀ w, h.live id = some w → (RequestHost.grantCall id w g now).Fits h.store.registry) :
    RequestsInv o (h.grant o id g now writable) := by
  unfold RequestHost.grant
  cases hlive : h.live id with
  | none => exact hi
  | some w =>
    obtain ⟨hw, hprocess⟩ := live_eq_some.mp hlive
    obtain ⟨hstore, hcases⟩ :=
      grantCall_commits writable (o := o) hi.store hle (hfits w hlive)
    simp only
    split
    · exact hi.tick hle
    · exact hi.tick hle
    · rename_i hfailed hcancelled
      rcases hcases with ⟨hsame, hreturns⟩ | ⟨hreturns, device, hdevice, ⟨found, hfound⟩, hsettles⟩
      · rw [hreturns]
        refine hi.keep hstore hle ?_ rfl rfl rfl rfl
        intro q hq
        rwa [hsame] at hq
      · rw [hreturns, hfound]
        have hid := (Registry.device_mem hfound).2
        cases hout : w.outcome with
        | none =>
          refine hi.settles hstore hle hw ?_ (.inr ⟨_, _, rfl, rfl, ?_⟩) hsettles
          · rw [Wait.settleWith, hout]
            rfl
          · simp [LeaseGrant.named, hdevice, hid]
        | some y =>
          -- granted before: the record has that grant already, and keeps it
          obtain ⟨g', rfl⟩ : ∃ g', y = .granted g' := by
            cases y with
            | granted g' => exact ⟨g', rfl⟩
            | failed f => exact absurd hout (hfailed f)
            | cancelled => exact absurd hout hcancelled
          simp only
          rw [settleWith_of_some hout, setWait_same hw]
          refine hi.keep hstore hle ?_ rfl rfl rfl rfl
          intro q' hq'
          obtain ⟨q, hq, -, hother, hid'⟩ := hsettles q' hq'
          by_cases hne : q.id = id
          · rcases hid' hne with ⟨-, rfl⟩ | hset
            · exact hq
            · have hsettled := hi.settled_of_granted hw hprocess hout q hq hne
              rw [hset.wasOpen] at hsettled
              cases hsettled
          · rwa [hother hne]

/-- A request that no retained record answers is stored with its entry and its wait. -/
theorem RequestsInv.admitted (hi : RequestsInv o h) {request : DeviceRequest}
    {options : LeaseRequestOptions} {id : String} {thrown : Option LeaseRequestFailure}
    {writable : Bool} (hle : h.store.clock ≤ now) (hserving : h.serving = true)
    (hid : h.waits id = none)
    (hnone : ∀ q ∈ h.store.registry.leaseRequests, isRetained now o.retentionMs q = true →
      q.requesterId = options.requesterId → q.idempotencyKey = options.idempotencyKey →
      q.idempotencyKey.isSome → False) :
    RequestsInv o (h.admitRequest o request options id thrown now writable).2 := by
  have hnew : ∀ q ∈ h.store.registry.leaseRequests, q.id ≠ id := by
    rintro q hq rfl
    obtain ⟨w, hw⟩ := (hi.records q hq).wait
    rw [hid] at hw
    cases hw
  have hfits : (Call.createLeaseRequest (RequestHost.newRequest request options id)).Fits h.store.registry := by
    intro hmem
    obtain ⟨q, hq, hqid⟩ := List.mem_map.mp hmem
    exact hnew q hq hqid
  obtain ⟨hstore, hcases⟩ := attempted_spec writable (o := o) hi.store hle hfits
  simp only [RequestHost.admitRequest]
  rcases hcases with ⟨hsame, hcommits⟩ | ⟨hreturns, draft, hcall, hcommit⟩
  · rw [if_neg fun hdone => by cases hcommits hdone]
    refine hi.keep hstore hle ?_ rfl rfl rfl rfl
    intro q hq
    rwa [← hsame]
  · rw [if_pos (hreturns rfl)]
    have hrecords : ∀ q ∈ (h.store.attempted o
        (.createLeaseRequest (RequestHost.newRequest request options id)) now
        writable).registry.leaseRequests, q ∈ h.store.registry.leaseRequests ∨
        q = newLeaseRequestRecord (RequestHost.newRequest request options id) now := by
      intro q hq
      rw [hcommit] at hq
      exact createLeaseRequest_requests hcall q (mem_commit_requests hq)
    refine ⟨hstore, ?_, ?_, ?_, ?_⟩
    · intro q hq q' hq' hret hret' hrequester hkey hsome
      rcases hrecords q hq with hold | rfl
      · rcases hrecords q' hq' with hold' | rfl
        · exact hi.keys q hold q' hold' (isRetained_earlier hle hret)
            (isRetained_earlier hle hret') hrequester hkey hsome
        · exact (hnone q hold hret hrequester hkey hsome).elim
      · rcases hrecords q' hq' with hold' | rfl
        · exact (hnone q' hold' hret' hrequester.symm hkey.symm (hkey ▸ hsome)).elim
        · rfl
    · intro id' w hw
      by_cases hsame : id' = id
      · rw [hsame, setWait_self] at hw
        cases hw
        exact Nat.le_refl _
      · rw [setWait_of_ne _ _ hsame] at hw
        exact hi.process id' w hw
    · intro q hq
      rcases hrecords q hq with hold | rfl
      · exact (hi.records q hold).frame (setOpen_of_ne _ _ (hnew q hold))
          (setWait_of_ne _ _ (hnew q hold)) rfl rfl
      · refine .driven rfl (setOpen_self ..) (setWait_self ..) rfl (by simp) ?_
        intro g hg
        obtain ⟨f, -, hf⟩ := Option.map_eq_some_iff.mp hg
        cases hf
    · intro id' e he
      by_cases hsame : id' = id
      · subst hsame
        have he' : (RequestHost.setOpen h id' (some ⟨.open_, none, none⟩)).open_ id' = some e := he
        rw [setOpen_self] at he'
        cases he'
        exact ⟨hserving, _, setWait_self .., rfl, fun x hx => by cases hx⟩
      · have hother : (RequestHost.setOpen h id (some ⟨.open_, none, none⟩)).open_ id' = some e := he
        rw [setOpen_of_ne _ _ hsame] at hother
        exact (hi.entries id' e hother).frame (setWait_of_ne _ _ hsame) rfl rfl

/-- A lookup that finds no record leaves none that is retained under the key. -/
theorem stored_none {request : DeviceRequest} {options : LeaseRequestOptions}
    (hstored : h.stored o request options now = .ok none) :
    ∀ q ∈ h.store.registry.leaseRequests, isRetained now o.retentionMs q = true →
      q.requesterId = options.requesterId → q.idempotencyKey = options.idempotencyKey →
      q.idempotencyKey.isSome → False := by
  intro q hq hretained hrequester hkey hsome
  unfold RequestHost.stored at hstored
  cases hoptions : options.idempotencyKey with
  | none =>
    rw [hkey, hoptions] at hsome
    cases hsome
  | some key =>
    simp only [hoptions] at hstored
    split at hstored
    · rename_i hfind
      obtain ⟨-, hrequester', hkey', -⟩ :=
        stored_fields (withCurrentDevice_stored h.store.registry q)
      have hmem : h.store.registry.withCurrentDevice q ∈ h.store.registry.leaseRequestsAt o now :=
        List.mem_map_of_mem (List.mem_filter.mpr ⟨hq, hretained⟩)
      have hnot := List.find?_eq_none.mp hfind _ hmem
      rw [hrequester', hkey', hrequester, hkey, hoptions] at hnot
      simp at hnot
    · split at hstored
      · cases hstored
      · split at hstored <;> cases hstored

theorem RequestsInv.request (hi : RequestsInv o h) {request : DeviceRequest}
    {options : LeaseRequestOptions} {id : String} {refusal : Option Refusal}
    {thrown : Option LeaseRequestFailure} {writable : Bool} (hle : h.store.clock ≤ now)
    (hserving : h.serving = true) (hid : h.waits id = none) :
    RequestsInv o (h.request o request options id refusal thrown now writable).2 := by
  unfold RequestHost.request
  cases hreplay : h.replay o request options now with
  | some answer => exact hi.tick hle
  | none =>
    have hstored : h.stored o request options now = .ok none := by
      unfold RequestHost.replay at hreplay
      split at hreplay
      · cases hreplay
      · assumption
      · split at hreplay
        · cases hreplay
        · split at hreplay <;> cases hreplay
    simp only
    split
    · exact hi.tick hle
    · exact hi.tick hle
    · exact hi.admitted hle hserving hid (stored_none hstored)

/-- A restart leaves every record as it was stored; the open ones have lost their wait. -/
theorem RequestsInv.restart (hi : RequestsInv o h) (hle : h.store.clock ≤ now) :
    RequestsInv o (h.restart o now) := by
  obtain ⟨r', db', hload, hopened⟩ := load_opens (o := o) hi.store.ok hi.store.stored hle
  have hstep : h.store.step o (.reopen now) = ⟨r', db', now⟩ := by
    simp only [Store.step, hload]
  have hrecords := load_requests hi.store.ok hi.store.stored hload
  unfold RequestHost.restart
  rw [hstep]
  refine ⟨⟨hopened.ok, hopened.stored⟩, hi.keys.step ?_, ?_, ?_, ?_⟩
  · intro q' hq'
    obtain ⟨q, hq, hstored⟩ := hrecords q' hq'
    exact ⟨q, hq, comes_of_stored hle hstored⟩
  · exact fun id w hw => Nat.le_succ_of_le (hi.process id w hw)
  · intro q' hq'
    obtain ⟨q, hq, hstored⟩ := hrecords q' hq'
    obtain ⟨hid, -⟩ := stored_fields hstored
    have hsettled := isSettled_of_stored hstored
    have hresult := storedResult_stored hstored
    cases hi.records q hq with
    | driven hopen he hw hlive =>
      exact .left (hsettled.trans hopen) (hid ▸ hw) (Nat.lt_succ_of_le (Nat.le_of_eq hlive)) rfl
    | left hopen hw hpast =>
      exact .left (hsettled.trans hopen) (hid ▸ hw) (Nat.lt_succ_of_lt hpast) rfl
    | answered hset hw hx hsame =>
      exact .answered (hsettled.trans hset) (hid ▸ hw) hx (hsame.trans hresult)
    | restarted hset hw hpast hfailed =>
      refine .restarted (hsettled.trans hset) (hid ▸ hw) (Nat.lt_succ_of_lt hpast) ?_
      rw [hfailed] at hresult
      exact hresult.failed
  · intro id e he
    cases he

/-- The start fails what is open; a start that could not write it does not serve. -/
theorem RequestsInv.settleRequests (hi : RequestsInv o h) {writable : Bool}
    (hle : h.store.clock ≤ now) : RequestsInv o (h.settleRequests o now writable) := by
  unfold RequestHost.settleRequests
  cases hserving : h.serving with
  | true => exact hi
  | false =>
    obtain ⟨hstore, hcases⟩ := attempted_spec writable (o := o) (c := .failOpenLeaseRequests daemonRestarted) hi.store hle trivial
    -- nothing is driven before the daemon serves
    have hentries : ∀ id e, h.open_ id ≠ some e := by
      intro id e he
      have := (hi.entries id e he).serving
      rw [hserving] at this
      cases this
    have hfrom : ∀ q' ∈ (h.store.attempted o (.failOpenLeaseRequests daemonRestarted) now
        writable).registry.leaseRequests, ∃ q ∈ h.store.registry.leaseRequests, q'.id = q.id ∧
        ((q' = q ∧ (h.store.returns o (.failOpenLeaseRequests daemonRestarted) now writable = true →
          isSettled q = true)) ∨ SettledAs now (.failed daemonRestarted) q q') := by
      intro q' hq'
      rcases hcases with ⟨hsame, hnone⟩ | ⟨-, draft, hcall, hcommit⟩
      · rw [hsame] at hq'
        exact ⟨q', hq', rfl, .inl ⟨rfl, fun hreturns =>
          failOpenLeaseRequests_none (hnone hreturns) q' hq'⟩⟩
      · rw [hcommit] at hq'
        obtain ⟨q, hq, hid, hset⟩ :=
          failOpenLeaseRequests_requests hi.store.ok.keys hcall q' (mem_commit_requests hq')
        exact ⟨q, hq, hid, hset.imp_left fun hs => ⟨hs.2, fun _ => hs.1⟩⟩
    refine ⟨hstore, hi.keys.step ?_, hi.process, ?_, fun id e he => absurd he (hentries id e)⟩
    · intro q' hq'
      obtain ⟨q, hq, -, hsame | hset⟩ := hfrom q' hq'
      · rw [hsame.1]
        exact ⟨q, hq, .refl hle q⟩
      · exact ⟨q, hq, comes_of_settled hset⟩
    · intro q' hq'
      obtain ⟨q, hq, hid, hcase⟩ := hfrom q' hq'
      have ha := hi.records q hq
      rcases hcase with ⟨rfl, hreturned⟩ | hset
      · cases ha with
        | driven _ he => exact absurd he (hentries _ _)
        | left hopen hw hpast =>
          refine .left hopen hw hpast ?_
          rw [← Bool.not_eq_true]
          intro hreturns
          rw [hreturned hreturns] at hopen
          cases hopen
        | answered hsettled hw hx hsame => exact .answered hsettled hw hx hsame
        | restarted hsettled hw hpast hfailed => exact .restarted hsettled hw hpast hfailed
      · have hsettled : isSettled q' = true := hset.eq ▸ isSettled_settle ..
        have hresult : storedResult q' = .failed daemonRestarted := by
          rw [hset.eq, storedResult_settle]
        cases ha with
        | driven _ he => exact absurd he (hentries _ _)
        | left hopen hw hpast => exact .restarted hsettled (hid ▸ hw) hpast hresult
        | answered hs => rw [hset.wasOpen] at hs; cases hs
        | restarted hs => rw [hset.wasOpen] at hs; cases hs

theorem RequestsInv.step (hi : RequestsInv o h) {a : RequestAction} (hadmits : h.Admits a) :
    RequestsInv o (RequestHost.step o h a) := by
  cases a with
  | request request options id refusal thrown now writable =>
    simp only [RequestHost.step]
    split
    · rename_i hserving
      exact hi.request hadmits.1 hserving hadmits.2
    · exact hi
  | grant id g now writable => exact hi.grant id g hadmits.1 hadmits.2
  | reject id why => exact hi.reject id why
  | beginSettle id => exact hi.beginSettle id
  | writeResult id now writable => exact hi.writeResult id hadmits
  | endSettle id => exact hi.endSettle id
  | other c now writable =>
    simp only [RequestHost.step]
    split
    · exact hi
    · rename_i hc
      exact hi.other hadmits.1 hadmits.2 (by simpa using hc)
  | restart now => exact hi.restart hadmits
  | settleRequests now writable => exact hi.settleRequests hadmits

theorem RequestsInv.create (start : Int) : RequestsInv o (RequestHost.create start) := by
  refine ⟨create_ok start, ?_, ?_, ?_, ?_⟩
  · intro q hq
    cases hq
  · intro id w hw
    cases hw
  · intro q hq
    cases hq
  · intro id e he
    cases he

theorem RequestsInv.reached (hs : h.Reached o) : RequestsInv o h := by
  obtain ⟨start, acts, hall, rfl⟩ := hs
  exact run_invariant_of_allSteps (fun h a hadmits hi => hi.step hadmits) acts _ (.create start) hall

/-! ### Whole runs -/

/-- A later state keeps every outcome of a wait, and its records of known requests come from records
    of this one, as they were if they were settled. -/
structure KeepsResults (h h' : RequestHost) : Prop where
  known : ∀ id w, h.waits id = some w → ∃ w', h'.waits id = some w' ∧
    ∀ x, w.outcome = some x → w'.outcome = some x
  records : ∀ q' ∈ h'.store.registry.leaseRequests, ∀ w, h.waits q'.id = some w →
    ∃ q ∈ h.store.registry.leaseRequests, q'.id = q.id ∧
      (isSettled q = true → q'.stored = q.stored)

theorem KeepsResults.of_waits (hwaits : h'.waits = h.waits)
    (hrecords : ∀ q' ∈ h'.store.registry.leaseRequests, ∀ w, h.waits q'.id = some w →
      ∃ q ∈ h.store.registry.leaseRequests, q'.id = q.id ∧
        (isSettled q = true → q'.stored = q.stored)) : KeepsResults h h' := by
  refine ⟨fun id w hw => ⟨w, ?_, fun x hx => hx⟩, hrecords⟩
  rw [hwaits]
  exact hw

theorem KeepsResults.of_same (hwaits : h'.waits = h.waits)
    (hstore : h'.store.registry = h.store.registry) : KeepsResults h h' := by
  refine .of_waits hwaits fun q' hq' w _ => ⟨q', ?_, rfl, fun _ => rfl⟩
  rwa [← hstore]

theorem KeepsResults.trans {h'' : RequestHost} (h₁ : KeepsResults h h') (h₂ : KeepsResults h' h'') :
    KeepsResults h h'' where
  known id w hw := by
    obtain ⟨w', hw', hx'⟩ := h₁.known id w hw
    obtain ⟨w'', hw'', hx''⟩ := h₂.known id w' hw'
    exact ⟨w'', hw'', fun x hx => hx'' x (hx' x hx)⟩
  records q'' hq'' w hw := by
    obtain ⟨w', hw', -⟩ := h₁.known q''.id w hw
    obtain ⟨q', hq', hid', hsame'⟩ := h₂.records q'' hq'' w' hw'
    obtain ⟨q, hq, hid, hsame⟩ := h₁.records q' hq' w (hid' ▸ hw)
    refine ⟨q, hq, hid'.trans hid, fun hsettled => ?_⟩
    have hstored := hsame hsettled
    rw [hsame' ((isSettled_of_stored hstored).trans hsettled), hstored]

/-- The waits keep their outcomes when one of them settles. -/
theorem setWait_keeps {id : String} {w : Wait} (hw : h.waits id = some w) (x : LeaseRequestOutcome)
    (id' : String) (w' : Wait) (hw' : h.waits id' = some w') :
    ∃ w₁, (h.setWait id (w.settleWith x)).waits id' = some w₁ ∧
      ∀ y, w'.outcome = some y → w₁.outcome = some y := by
  by_cases hid : id' = id
  · subst hid
    obtain rfl := Option.some.inj (hw.symm.trans hw')
    exact ⟨_, setWait_self .., fun y hy => settleWith_keeps hy⟩
  · exact ⟨w', (setWait_of_ne _ _ hid).trans hw', fun y hy => hy⟩

section

variable (hi : RequestsInv o h)
include hi

theorem RequestsInv.keeps_attempted (writable : Bool) {c : Call} (hle : h.store.clock ≤ now)
    (hfits : c.Fits h.store.registry)
    (hnew : ∀ input, c = .createLeaseRequest input → h.waits input.id = none) :
    ∀ q' ∈ (h.store.attempted o c now writable).registry.leaseRequests, ∀ w,
      h.waits q'.id = some w → ∃ q ∈ h.store.registry.leaseRequests, q'.id = q.id ∧
        (isSettled q = true → q'.stored = q.stored) := by
  intro q' hq' w hw
  rcases attempted_comesFrom hi.store hle hfits hq' with ⟨q, hq, hid, hsame⟩ | ⟨input, hc, hid⟩
  · exact ⟨q, hq, hid, fun hsettled => by rw [hsame hsettled]⟩
  · rw [hid, hnew input hc] at hw
    cases hw

theorem RequestsInv.keeps_grant (id : String) (g : RequestHost.GrantInput) {writable : Bool}
    (hle : h.store.clock ≤ now)
    (hfits : ∀ w, h.live id = some w → (RequestHost.grantCall id w g now).Fits h.store.registry) :
    KeepsResults h (h.grant o id g now writable) := by
  unfold RequestHost.grant
  cases hlive : h.live id with
  | none => exact .of_same rfl rfl
  | some w =>
    obtain ⟨hw, -⟩ := live_eq_some.mp hlive
    have hrecords := hi.keeps_attempted writable hle (hfits w hlive) fun _ hc => by cases hc
    simp only
    split
    · exact .of_same rfl rfl
    · exact .of_same rfl rfl
    · split
      · exact ⟨setWait_keeps hw _, hrecords⟩
      · exact .of_waits rfl hrecords

theorem RequestsInv.keeps_admitted {request : DeviceRequest} {options : LeaseRequestOptions}
    {id : String} {thrown : Option LeaseRequestFailure} {writable : Bool}
    (hle : h.store.clock ≤ now) (hid : h.waits id = none) :
    KeepsResults h (h.admitRequest o request options id thrown now writable).2 := by
  have hfits : (Call.createLeaseRequest (RequestHost.newRequest request options id)).Fits
      h.store.registry := by
    intro hmem
    obtain ⟨q, hq, hqid⟩ := List.mem_map.mp hmem
    obtain ⟨w, hw⟩ := (hi.records q hq).wait
    have hnone : h.waits q.id = none := (congrArg h.waits hqid).trans hid
    rw [hnone] at hw
    cases hw
  have hrecords := hi.keeps_attempted writable hle hfits (by rintro _ ⟨⟩; exact hid)
  simp only [RequestHost.admitRequest]
  split
  · refine ⟨fun id' w hw => ⟨w, ?_, fun y hy => hy⟩, hrecords⟩
    have hne : id' ≠ id := by
      rintro rfl
      rw [hid] at hw
      cases hw
    exact (setWait_of_ne _ _ hne).trans hw
  · exact .of_waits rfl hrecords

theorem RequestsInv.keeps_writeResult (id : String) {writable : Bool}
    (hle : h.store.clock ≤ now) : KeepsResults h (h.writeResult o id now writable) := by
  unfold RequestHost.writeResult
  cases he : h.open_ id with
  | none => exact .of_same rfl rfl
  | some e =>
    simp only
    split
    · rename_i x _ _ hx
      obtain ⟨-, w, hw, hlive, hout⟩ := hi.entries id e he
      exact .of_waits rfl (hi.keeps_attempted _ hle (hi.write_fits hw hlive (hout x hx)) (fun _ hc => by cases hc))
    · exact .of_same rfl rfl

theorem RequestsInv.keeps_step {a : RequestAction} (hadmits : h.Admits a) :
    KeepsResults h (RequestHost.step o h a) := by
  cases a with
  | request request options id refusal thrown now writable =>
    simp only [RequestHost.step, RequestHost.request]
    split
    · split
      · exact .of_same rfl rfl
      · split
        · exact .of_same rfl rfl
        · exact .of_same rfl rfl
        · exact hi.keeps_admitted hadmits.1 hadmits.2
    · exact .of_same rfl rfl
  | grant id g now writable => exact hi.keeps_grant id g hadmits.1 hadmits.2
  | reject id why =>
    simp only [RequestHost.step, RequestHost.reject]
    cases hlive : h.live id with
    | none => exact .of_same rfl rfl
    | some w =>
      obtain ⟨hw, -⟩ := live_eq_some.mp hlive
      exact ⟨setWait_keeps hw _, (KeepsResults.of_same rfl rfl : KeepsResults h h).records⟩
  | beginSettle id =>
    simp only [RequestHost.step, RequestHost.beginSettle]
    split
    · split <;> exact .of_same rfl rfl
    · exact .of_same rfl rfl
  | writeResult id now writable => exact hi.keeps_writeResult id hadmits
  | endSettle id =>
    simp only [RequestHost.step, RequestHost.endSettle]
    split
    · exact .of_same rfl rfl
    · split <;> exact .of_same rfl rfl
  | other c now writable =>
    simp only [RequestHost.step]
    split
    · exact .of_same rfl rfl
    · rename_i hc
      refine .of_waits rfl (hi.keeps_attempted _ hadmits.1 hadmits.2 ?_)
      rintro input rfl
      exact absurd rfl hc
  | restart now =>
    obtain ⟨r', db', hload, hopened⟩ := load_opens (o := o) hi.store.ok hi.store.stored hadmits
    refine .of_waits rfl ?_
    simp only [RequestHost.step, RequestHost.restart, Store.step, hload]
    intro q' hq' w _
    obtain ⟨q, hq, hstored⟩ := load_requests hi.store.ok hi.store.stored hload q' hq'
    exact ⟨q, hq, (stored_fields hstored).1, fun _ => hstored⟩
  | settleRequests now writable =>
    simp only [RequestHost.step, RequestHost.settleRequests]
    split
    · exact .of_same rfl rfl
    · exact .of_waits rfl (hi.keeps_attempted _ hadmits trivial (fun _ hc => by cases hc))

end

theorem RequestsInv.keeps_run (acts : List RequestAction) (hi : RequestsInv o h)
    (hall : AllSteps (RequestHost.step o) RequestHost.Admits h acts) :
    KeepsResults h (run (RequestHost.step o) h acts) := by
  induction acts generalizing h with
  | nil => exact .of_same rfl rfl
  | cons a acts ih =>
    rw [run_cons]
    exact (hi.keeps_step hall.1).trans (ih (hi.step hall.1) hall.2)

/-! ### Repeats -/

/-- The answer carries the result of the wait of `q`, or the failure of the restart that ended it. -/
inductive GetsResult (h : RequestHost) (q : LeaseRequestRecord) : Answer → Prop
  | attached {w : Wait} (hw : h.waits q.id = some w) (hlive : w.process = h.process) :
    GetsResult h q (.attached q.id)
  | stored {w : Wait} {x y : LeaseRequestOutcome} (hw : h.waits q.id = some w)
    (hx : w.outcome = some x) (hsame : SameResult x y) : GetsResult h q (.stored q.id y)
  | restarted {w : Wait} (hw : h.waits q.id = some w) (hpast : w.process < h.process) :
    GetsResult h q (.stored q.id (.failed daemonRestarted))

/-- What a request under the key of `q` is told. It starts no wait and writes nothing. -/
structure RepeatOf (h : RequestHost) (q : LeaseRequestRecord) (request : DeviceRequest)
    (options : LeaseRequestOptions) (key : String) (now : Int) (told : Answer × RequestHost) :
    Prop where
  same : told.2 = { h with store := { h.store with clock := now } }
  forbidden : q.ownerId ≠ options.ownerId → told.1 = .forbidden q.id
  conflict : q.ownerId = options.ownerId →
    sameDeviceRequest q.request request = false ∨ q.leaseId ≠ options.leaseId →
    told.1 = .conflict options.requesterId key
  result : q.ownerId = options.ownerId → sameDeviceRequest q.request request = true →
    q.leaseId = options.leaseId → GetsResult h q told.1

/-- A reader sees one record per requester and key. -/
theorem RequestsInv.one_record (hi : RequestsInv o h) (hle : h.store.clock ≤ now) :
    ∀ q ∈ h.store.registry.leaseRequestsAt o now, ∀ q' ∈ h.store.registry.leaseRequestsAt o now,
      q.requesterId = q'.requesterId → q.idempotencyKey = q'.idempotencyKey →
      q.idempotencyKey.isSome → q = q' := by
  intro q hq q' hq' hrequester hkey hsome
  obtain ⟨p, hp, rfl⟩ := List.mem_map.mp hq
  obtain ⟨p', hp', rfl⟩ := List.mem_map.mp hq'
  obtain ⟨hmem, hret⟩ := List.mem_filter.mp hp
  obtain ⟨hmem', hret'⟩ := List.mem_filter.mp hp'
  obtain ⟨-, hr, hk, -⟩ := stored_fields (withCurrentDevice_stored h.store.registry p)
  obtain ⟨-, hr', hk', -⟩ := stored_fields (withCurrentDevice_stored h.store.registry p')
  rw [hr, hr'] at hrequester
  rw [hk] at hkey hsome
  rw [hk'] at hkey
  have hid := hi.keys p hmem p' hmem' (isRetained_earlier hle hret) (isRetained_earlier hle hret')
    hrequester hkey hsome
  rw [List.inj_on_of_nodup_map hi.store.ok.keys.requests hmem hmem' hid]

/-- What a serving daemon answers a proven repeat with. -/
theorem RequestsInv.answer (hi : RequestsInv o h) (hserving : h.serving = true)
    {q : LeaseRequestRecord} (hq : q ∈ h.store.registry.leaseRequestsAt o now) :
    GetsResult h q (if (h.open_ q.id).isSome then .attached q.id
      else if !isSettled q then .undriven q.id else .stored q.id (storedResult q)) := by
  obtain ⟨p, hp, rfl⟩ := List.mem_map.mp hq
  have hstored := withCurrentDevice_stored h.store.registry p
  have hid := (stored_fields hstored).1
  have hresult := storedResult_stored hstored
  rw [isSettled_of_stored hstored]
  split
  · rename_i hentry
    obtain ⟨e, he⟩ := Option.isSome_iff_exists.mp hentry
    obtain ⟨-, w, hw, hlive, -⟩ := hi.entries _ e he
    exact .attached hw hlive
  · rename_i hentry
    cases hi.records p (List.mem_filter.mp hp).1 with
    | driven _ he =>
      rw [hid, he] at hentry
      exact absurd rfl hentry
    | left _ _ _ hparked =>
      rw [hserving] at hparked
      cases hparked
    | answered hsettled hw hx hsame =>
      rw [hsettled]
      exact .stored (hid ▸ hw) hx (hsame.trans hresult)
    | restarted hsettled hw hpast hfailed =>
      rw [hsettled]
      rw [hfailed] at hresult
      rw [if_neg (by simp), hresult.failed]
      exact .restarted (hid ▸ hw) hpast

theorem RequestsInv.repeat_of (hi : RequestsInv o h) (hle : h.store.clock ≤ now)
    (hserving : h.serving = true) {q : LeaseRequestRecord}
    (hq : q ∈ h.store.registry.leaseRequestsAt o now) {request : DeviceRequest}
    {options : LeaseRequestOptions} {key : String} (hrequester : options.requesterId = q.requesterId)
    (hkey : q.idempotencyKey = some key) (hoptions : options.idempotencyKey = some key) (id : String)
    (refusal : Option Refusal) (thrown : Option LeaseRequestFailure) (writable : Bool) :
    RepeatOf h q request options key now
      (h.request o request options id refusal thrown now writable) := by
  have hfind : (h.store.registry.leaseRequestsAt o now).find? (fun p =>
      p.requesterId = options.requesterId && p.idempotencyKey = some key) = some q := by
    cases hfind : (h.store.registry.leaseRequestsAt o now).find? (fun p =>
        p.requesterId = options.requesterId && p.idempotencyKey = some key) with
    | none =>
      have hnot := List.find?_eq_none.mp hfind q hq
      simp [hrequester, hkey] at hnot
    | some p =>
      have hp := List.find?_some hfind
      rw [Bool.and_eq_true, decide_eq_true_eq, decide_eq_true_eq] at hp
      have heq := hi.one_record hle p (List.mem_of_find?_eq_some hfind) q hq
        (hp.1.trans hrequester) (hp.2.trans hkey.symm) (by rw [hp.2]; rfl)
      rw [heq]
  have hanswer := hi.answer hserving hq
  have hstored : h.stored o request options now =
      if q.ownerId ≠ options.ownerId then .error (.forbidden q.id)
      else if !sameDeviceRequest q.request request || q.leaseId ≠ options.leaseId then
        .error (.conflict options.requesterId key)
      else .ok (some q) := by
    simp only [RequestHost.stored, hoptions, hfind]
  unfold RequestHost.request RequestHost.replay
  rw [hstored]
  by_cases howner : q.ownerId = options.ownerId
  · rw [if_neg (not_not_intro howner)]
    by_cases hsame : sameDeviceRequest q.request request = true ∧ q.leaseId = options.leaseId
    · rw [if_neg (by simp [hsame])]
      simp only
      have htold : ∀ answer : Answer, GetsResult h q answer →
          RepeatOf h q request options key now
            (answer, { h with store := { h.store with clock := now } }) := by
        intro answer hresult
        refine ⟨rfl, fun hne => absurd howner hne, fun _ hdiffers => ?_, fun _ _ _ => hresult⟩
        rcases hdiffers with hdiffers | hdiffers
        · rw [hsame.1] at hdiffers
          cases hdiffers
        · exact absurd hsame.2 hdiffers
      split at hanswer
      · rename_i hentry
        rw [if_pos hentry]
        exact htold _ hanswer
      · rename_i hentry
        rw [if_neg hentry]
        split at hanswer
        · rename_i hopen
          rw [if_pos hopen]
          exact htold _ hanswer
        · rename_i hopen
          rw [if_neg hopen]
          exact htold _ hanswer
    · have hdiffers : (!sameDeviceRequest q.request request || decide (q.leaseId ≠ options.leaseId)) =
          true := by
        rw [Bool.or_eq_true, Bool.not_eq_true', decide_eq_true_eq]
        rw [not_and_or, Bool.not_eq_true] at hsame
        exact hsame
      rw [if_pos hdiffers]
      refine ⟨rfl, fun hne => absurd howner hne, fun _ _ => rfl, fun _ hdevice hlease => ?_⟩
      exact absurd ⟨hdevice, hlease⟩ hsame
  · rw [if_pos howner]
    exact ⟨rfl, fun _ => rfl, fun heq => absurd heq howner, fun heq => absurd heq howner⟩

end Steps

/-- In every daemon that any order of admissions, grants, rejections, settlements, failed writes and
    restarts reaches: a reader sees one record per requester and key; a repeat under the key of such
    a record starts no wait, is refused if its owner or its request differs, and otherwise gets the
    result of the record's wait, or the failure of the restart that ended the wait before its result
    was stored; and from then on no wait changes its outcome and no settled record its result. -/
theorem repeats_get_one_result (o : RegistryOptions) (h : RequestHost) (hs : h.Reached o) :
    (∀ now, h.store.clock ≤ now → ∀ q ∈ h.store.registry.leaseRequestsAt o now,
      ∀ q' ∈ h.store.registry.leaseRequestsAt o now, q.requesterId = q'.requesterId →
        q.idempotencyKey = q'.idempotencyKey → q.idempotencyKey.isSome → q = q') ∧
    (∀ now, h.store.clock ≤ now → h.serving = true →
      ∀ q ∈ h.store.registry.leaseRequestsAt o now, ∀ request options key,
        options.requesterId = q.requesterId → q.idempotencyKey = some key →
        options.idempotencyKey = some key → ∀ id refusal thrown writable,
          RepeatOf h q request options key now
            (h.request o request options id refusal thrown now writable)) ∧
    ∀ acts, AllSteps (RequestHost.step o) RequestHost.Admits h acts →
      (∀ id w x, h.waits id = some w → w.outcome = some x →
        ∃ w', (run (RequestHost.step o) h acts).waits id = some w' ∧ w'.outcome = some x) ∧
      ∀ q ∈ h.store.registry.leaseRequests, isSettled q = true →
        ∀ q' ∈ (run (RequestHost.step o) h acts).store.registry.leaseRequests, q'.id = q.id →
          q'.stored = q.stored := by
  have hi := RequestsInv.reached hs
  refine ⟨fun now hle => hi.one_record hle, ?_, ?_⟩
  · intro now hle hserving q hq request options key hrequester hkey hoptions
    exact hi.repeat_of hle hserving hq hrequester hkey hoptions
  · intro acts hall
    have hkeeps := hi.keeps_run acts hall
    constructor
    · intro id w x hw hx
      obtain ⟨w', hw', hx'⟩ := hkeeps.known id w hw
      exact ⟨w', hw', hx' x hx⟩
    · intro q hq hsettled q' hq' hid
      obtain ⟨w, hw⟩ := (hi.records q hq).wait
      obtain ⟨q₀, hq₀, hid₀, hsame⟩ := hkeeps.records q' hq' w (hid ▸ hw)
      rw [List.inj_on_of_nodup_map hi.store.ok.keys.requests hq₀ hq (hid₀.symm.trans hid)] at hsame
      exact hsame hsettled

/-! ### A result that was not stored -/

/-- A request for any phone, under a key. -/
def phoneRequest : DeviceRequest := ⟨.ios, none, none, none, none, none, none, some .phone, none⟩

def keyed : LeaseRequestOptions := ⟨"agent", "owner", some "key", none, none⟩

/-- The request times out, its result cannot be written, and the daemon is restarted. -/
def unstoredTimeout : List RequestAction :=
  [.settleRequests 1 true,
    .request phoneRequest keyed "req_1" none none 2 true,
    .reject "req_1" (.failed ⟨"QUEUE_TIMEOUT", "Timed out waiting for a device: req_1"⟩),
    .beginSettle "req_1",
    .writeResult "req_1" 3 false,
    .endSettle "req_1",
    .restart 4,
    .settleRequests 5 true]

theorem unstoredTimeout_reached :
    (run (RequestHost.step shortRetention) (RequestHost.create 0) unstoredTimeout).Reached
      shortRetention := by
  refine ⟨0, unstoredTimeout, ⟨?_, ⟨?_, ?_⟩, trivial, trivial, ?_, trivial, ?_, ?_, trivial⟩, rfl⟩
  · show (0 : Int) ≤ 1
    decide
  · decide +kernel
  · decide +kernel
  · show Store.clock _ ≤ 3
    decide +kernel
  · show Store.clock _ ≤ 4
    decide +kernel
  · show Store.clock _ ≤ 5
    decide +kernel

/-- The record of the request, as the start has settled it. -/
def restartedRecord : LeaseRequestRecord where
  id := "req_1"
  requesterId := "agent"
  ownerId := "owner"
  idempotencyKey := some "key"
  leaseId := none
  fleetRequestId := none
  request := phoneRequest
  createdAt := 2
  state := .failed
  settledAt := some 5
  grant := none
  failure := some daemonRestarted

/-- Within the retention a repeat is told what the record says, and nothing else changes. -/
theorem repeats_get_one_result_unstoredTimeout :
    RepeatOf (run (RequestHost.step shortRetention) (RequestHost.create 0) unstoredTimeout)
      restartedRecord phoneRequest keyed "key" 6
      ((run (RequestHost.step shortRetention) (RequestHost.create 0) unstoredTimeout).request
        shortRetention phoneRequest keyed "req_2" none none 6 true) := by
  have hclock : (run (RequestHost.step shortRetention) (RequestHost.create 0)
      unstoredTimeout).store.clock ≤ 6 := by decide +kernel
  have hrecords : ((run (RequestHost.step shortRetention) (RequestHost.create 0)
      unstoredTimeout).store.registry.leaseRequestsAt shortRetention 6) = [restartedRecord] := by
    decide +kernel
  obtain ⟨-, hrepeats, -⟩ :=
    repeats_get_one_result shortRetention _ unstoredTimeout_reached
  exact hrepeats 6 hclock (by decide +kernel) restartedRecord
    (hrecords ▸ List.mem_singleton_self restartedRecord) phoneRequest keyed "key" rfl rfl rfl
    "req_2" none none true

/-- The wait timed out, and a repeat of its request is told of the restart. -/
theorem repeat_after_unstored_timeout :
    ¬ ∀ (o : RegistryOptions) (h : RequestHost), h.Reached o → ∀ now, h.store.clock ≤ now →
      h.serving = true → ∀ request options id id' y h',
        h.request o request options id none none now true = (.stored id' y, h') →
        ∀ w x, h.waits id' = some w → w.outcome = some x → SameResult x y := by
  intro hall
  have hsame := hall shortRetention _ unstoredTimeout_reached 6 (by decide +kernel)
    (by decide +kernel) phoneRequest keyed "req_2" "req_1" (.failed daemonRestarted) _
    (Prod.ext (by decide +kernel) rfl)
    ⟨keyed, some (.failed ⟨"QUEUE_TIMEOUT", "Timed out waiting for a device: req_1"⟩), 0⟩ _
    rfl rfl
  exact absurd hsame.failed (by decide)

end Simlock.Leasing
