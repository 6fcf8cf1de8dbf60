import Mathlib.Data.List.Basic

/-! A stream that comes in chunks, read by a machine that keeps what it cannot read yet.

    `next` reads once, or finds that it has to wait, or fails. Where more input changes neither a
    read nor a failure, and every read uses something up, reading what each chunk allows gives in
    the end what reading all of it at once gives: how the stream was cut does not matter. -/

namespace Simlock.Lib

variable {σ τ α β ε : Type}

/-- Read until the machine waits; `fuel` bounds the reads. -/
def drain (next : σ → Except ε (Option (List α × σ))) : Nat → σ → Except ε (List α × σ)
  | 0, s => .ok ([], s)
  | fuel + 1, s =>
    match next s with
    | .error e => .error e
    | .ok none => .ok ([], s)
    | .ok (some (xs, s')) =>
      match drain next fuel s' with
      | .error e => .error e
      | .ok (ys, s'') => .ok (xs ++ ys, s'')

/-- What one machine reads, another does. -/
theorem drain_map {next : σ → Except ε (Option (List α × σ))}
    {next' : τ → Except ε (Option (List α × τ))} (f : σ → τ)
    (h : ∀ s, (next s).map (Option.map (Prod.map id f)) = next' (f s)) (fuel : Nat) (s : σ) :
    (drain next fuel s).map (Prod.map id f) = drain next' fuel (f s) := by
  induction fuel generalizing s with
  | zero => rfl
  | succ fuel ih =>
    have hs := h s
    rw [drain, drain]
    cases hnext : next s with
    | error e =>
      rw [hnext] at hs
      rw [← hs]
      rfl
    | ok read =>
      rw [hnext] at hs
      rw [← hs]
      cases read with
      | none => rfl
      | some read =>
        obtain ⟨xs, s'⟩ := read
        have hrest := ih s'
        simp only [Except.map, Option.map_some, Prod.map_apply, id_eq]
        rw [← hrest]
        cases drain next fuel s' with
        | error e => rfl
        | ok result => rfl

/-- A machine that reads the same however its input is cut. -/
structure Chunked (next : σ → Except ε (Option (List α × σ))) (feed : σ → List β → σ)
    (size : σ → Nat) : Prop where
  shrinks : ∀ s xs s', next s = .ok (some (xs, s')) → size s' < size s
  reads : ∀ s xs s' more, next s = .ok (some (xs, s')) →
    next (feed s more) = .ok (some (xs, feed s' more))
  fails : ∀ s e more, next s = .error e → next (feed s more) = .error e
  feed_feed : ∀ s more more', feed (feed s more) more' = feed s (more ++ more')
  feed_nil : ∀ s, feed s [] = s

namespace Chunked

variable {next : σ → Except ε (Option (List α × σ))} {feed : σ → List β → σ} {size : σ → Nat}

/-- All that can be read. -/
def drainAll (next : σ → Except ε (Option (List α × σ))) (size : σ → Nat) (s : σ) :
    Except ε (List α × σ) := drain next (size s + 1) s

theorem drain_fuel (h : Chunked next feed size) {m n : Nat} {s : σ} (hm : size s < m)
    (hn : size s < n) : drain next m s = drain next n s := by
  induction m generalizing n s with
  | zero => omega
  | succ m ih =>
    cases n with
    | zero => omega
    | succ n =>
      rw [drain, drain]
      cases hnext : next s with
      | error e => rfl
      | ok read =>
        cases read with
        | none => rfl
        | some read =>
          obtain ⟨xs, s'⟩ := read
          have hless := h.shrinks s xs s' hnext
          have hsame : drain next m s' = drain next n s' := ih (by omega) (by omega)
          dsimp only
          rw [hsame]

theorem drainAll_error {s : σ} {e : ε} (hnext : next s = .error e) :
    drainAll next size s = .error e := by
  rw [drainAll, drain, hnext]

theorem drainAll_waits {s : σ} (hnext : next s = .ok none) :
    drainAll next size s = .ok ([], s) := by
  rw [drainAll, drain, hnext]

theorem drainAll_read (h : Chunked next feed size) {s s' : σ} {xs : List α}
    (hnext : next s = .ok (some (xs, s'))) :
    drainAll next size s =
      (drainAll next size s').map fun result => (xs ++ result.1, result.2) := by
  have hless := h.shrinks s xs s' hnext
  have hsame : drain next (size s) s' = drain next (size s' + 1) s' :=
    h.drain_fuel hless (Nat.lt_succ_self _)
  rw [drainAll, drain, hnext]
  dsimp only
  rw [hsame, drainAll]
  cases drain next (size s' + 1) s' with
  | error e => rfl
  | ok result => rfl

/-- A machine that has read all it can waits. -/
theorem drainAll_end (h : Chunked next feed size) {s s' : σ} {xs : List α}
    (hread : drainAll next size s = .ok (xs, s')) : next s' = .ok none := by
  induction hn : size s using Nat.strongRecOn generalizing s xs with
  | _ n ih =>
    cases hnext : next s with
    | error e =>
      rw [drainAll_error hnext] at hread
      cases hread
    | ok read =>
      cases read with
      | none =>
        rw [drainAll_waits hnext] at hread
        cases hread
        exact hnext
      | some read =>
        obtain ⟨ys, t⟩ := read
        have hless := h.shrinks s ys t hnext
        rw [h.drainAll_read hnext] at hread
        cases hrest : drainAll next size t with
        | error e =>
          rw [hrest] at hread
          cases hread
        | ok result =>
          rw [hrest] at hread
          cases hread
          exact ih (size t) (by omega) hrest rfl

/-- Reading before more input comes changes nothing. -/
theorem drainAll_feed (h : Chunked next feed size) (s : σ) (more : List β) :
    drainAll next size (feed s more) =
      (drainAll next size s).bind fun first =>
        (drainAll next size (feed first.2 more)).map fun result =>
          (first.1 ++ result.1, result.2) := by
  induction hn : size s using Nat.strongRecOn generalizing s with
  | _ n ih =>
    cases hnext : next s with
    | error e =>
      rw [drainAll_error hnext, drainAll_error (h.fails s e more hnext)]
      rfl
    | ok read =>
      cases read with
      | none =>
        rw [drainAll_waits hnext]
        simp only [Except.bind, List.nil_append]
        cases drainAll next size (feed s more) with
        | error e => rfl
        | ok result => rfl
      | some read =>
        obtain ⟨xs, s'⟩ := read
        have hless := h.shrinks s xs s' hnext
        rw [h.drainAll_read hnext, h.drainAll_read (h.reads s xs s' more hnext),
          ih (size s') (by omega) s' rfl]
        cases drainAll next size s' with
        | error e => rfl
        | ok first =>
          simp only [Except.map, Except.bind]
          cases drainAll next size (feed first.2 more) with
          | error e => rfl
          | ok result => simp

/-- The chunks are pushed one by one, each read as far as it goes. -/
def pushAll (next : σ → Except ε (Option (List α × σ))) (feed : σ → List β → σ)
    (size : σ → Nat) : σ → List (List β) → Except ε (List α × σ)
  | s, [] => .ok ([], s)
  | s, chunk :: chunks =>
    match drainAll next size (feed s chunk) with
    | .error e => .error e
    | .ok (xs, s') =>
      match pushAll next feed size s' chunks with
      | .error e => .error e
      | .ok (ys, s'') => .ok (xs ++ ys, s'')

/-- However the stream is cut, the machine reads what it reads of the whole. -/
theorem pushAll_eq (h : Chunked next feed size) {s : σ} (hwaits : next s = .ok none)
    (chunks : List (List β)) :
    pushAll next feed size s chunks = drainAll next size (feed s chunks.flatten) := by
  induction chunks generalizing s with
  | nil => rw [pushAll, List.flatten_nil, h.feed_nil, drainAll_waits hwaits]
  | cons chunk chunks ih =>
    rw [pushAll, List.flatten_cons, ← h.feed_feed, h.drainAll_feed (feed s chunk)]
    cases hread : drainAll next size (feed s chunk) with
    | error e => rfl
    | ok result =>
      obtain ⟨xs, s'⟩ := result
      dsimp only [Except.bind]
      rw [ih (h.drainAll_end hread)]
      cases drainAll next size (feed s' chunks.flatten) with
      | error e => rfl
      | ok result => rfl

end Chunked

end Simlock.Lib
