/-
  The WARP client: all tunnels share one QUIC connection (`dial`, `connection` and `invalidate` in
  `src/warp/mod.rs`).

  1. **Program** — a dial takes the cached connection if it is usable, and makes one otherwise, with the lock
     `establishing` held and after a second look.  If CONNECT fails on a connection that has closed, the
     dial forgets the connection and tries once more.  Dials act in ANY order, connections close at any time,
     and a dial may be dropped at any time.

  2. **The log** — `Sound` says what an entry needs before it: what is replaced, closed or given up for another
     attempt has closed by itself.

  3. **The crux** — between the second look and the store, nobody else can store, for the lock is held; so what
     the store replaces has closed (`Phase` at `establishing` and `storing`).

  The theorem is `one_live_connection`.
-/
import Httproxy.Lib.Log
import Httproxy.Lib.Tasks

namespace Httproxy.Dialing

open Machine Log

/-! ## Program -/

inductive DialError where
  /-- `connection` has failed. -/
  | establish
  /-- `open` has failed. -/
  | connect
  deriving DecidableEq, Repr

/-- What happens, as seen from outside; `i` is the dial and `n` the connection. -/
inductive Note where
  /-- The connection has a `close_reason`. -/
  | died (n : Nat)
  | stored (i n : Nat)
  /-- `close` is called. -/
  | closed (i n : Nat)
  /-- CONNECT is sent. -/
  | connect (i n : Nat)
  /-- `dial` returns a stream of the connection, or an error. -/
  | returned (i : Nat) (r : Except DialError Nat)
  deriving DecidableEq

/-- `WarpClient`; connections are numbered as they are established. -/
structure WarpClient where
  cached : Option Nat
  establishing : Bool
  conns : Nat
  dead : Nat → Bool
  log : List Note

/-- `is_usable`. -/
def WarpClient.isUsable (g : WarpClient) (n : Nat) : Bool := !g.dead n

def WarpClient.note (g : WarpClient) (n : Note) : WarpClient := { g with log := g.log ++ [n] }

/-- Where a dial is, in its attempt `k`. -/
inductive Dial where
  | idle
  | reading (k : Nat)
  | locking (k : Nat)
  | locked (k : Nat)
  | establishing (k : Nat)
  | storing (k n : Nat)
  /-- `connection` has returned. -/
  | got (k n : Nat)
  | opening (k n : Nat)
  | failed (k n : Nat)
  | invalidating (k n : Nat)
  | ended

inductive Action where
  | dial
  | read
  | lock
  | recheck
  | handshake (ok : Bool)
  | store
  | openStream
  | opened (ok : Bool)
  | check
  | invalidate
  /-- The future of the dial is dropped. -/
  | drop

/-- The connection that `connection` returns at once. -/
def WarpClient.reuse (g : WarpClient) : Option Nat := g.cached.filter g.isUsable

/-- `invalidate`, by dial `i`. -/
def invalidate (g : WarpClient) (i n : Nat) : WarpClient :=
  if g.cached = some n then { g.note (.closed i n) with cached := none } else g

/-- The dial holds the guard of `establishing`. -/
def Dial.holds : Dial → Bool
  | .locked _ | .establishing _ | .storing _ _ => true
  | _ => false

/-- The guard is dropped, where it is held. -/
def dropped (g : WarpClient) (d : Dial) : WarpClient :=
  if d.holds then { g with establishing := false } else g

def act (g : WarpClient) (i : Nat) (d : Dial) (a : Action) : Option (WarpClient × Dial) :=
  match a, d with
  | .dial, .idle => some (g, .reading 0)
  | .read, .reading k =>
    match g.reuse with
    | some n => some (g, .got k n)
    | none => some (g, .locking k)
  | .lock, .locking k =>
    if g.establishing then none else some ({ g with establishing := true }, .locked k)
  | .recheck, .locked k =>
    match g.reuse with
    | some n => some ({ g with establishing := false }, .got k n)
    | none => some (g, .establishing k)
  | .handshake ok, .establishing k =>
    if ok then some ({ g with conns := g.conns + 1 }, .storing k g.conns)
    else some ({ g.note (.returned i (.error .establish)) with establishing := false }, .ended)
  | .store, .storing k n =>
    some ({ g.note (.stored i n) with cached := some n, establishing := false }, .got k n)
  | .openStream, .got k n => some (g.note (.connect i n), .opening k n)
  | .opened ok, .opening k n =>
    if ok then some (g.note (.returned i (.ok n)), .ended) else some (g, .failed k n)
  | .check, .failed k n =>
    let stale := !g.isUsable n
    if stale then some (g, .invalidating k n)
    else some (g.note (.returned i (.error .connect)), .ended)
  | .invalidate, .invalidating k n =>
    if k + 1 < 2 then some (invalidate g i n, .reading (k + 1))
    else some ((invalidate g i n).note (.returned i (.error .connect)), .ended)
  | .drop, d => some (dropped g d, .ended)
  | _, _ => none

abbrev State : Type := Tasks.State WarpClient Nat Dial

inductive Event where
  | dial (i : Nat) (a : Action)
  /-- Connection `n` closes: the peer, the idle timeout or an error. -/
  | die (n : Nat)

def step (s : State) : Event → Option State
  | .dial i a => Tasks.step act s (i, a)
  | .die n =>
    if n < s.shared.conns then
      some { s with shared := { s.shared.note (.died n) with dead := Function.update s.shared.dead n true } }
    else none

/-- `init`: no connection yet. -/
def State.start : State := ⟨⟨none, false, 0, fun _ => false, []⟩, fun _ => .idle⟩

/-! ## Specification -/

/-- CONNECT is sent by dial `i`. -/
def isConnect (i : Nat) : Note → Bool
  | .connect j _ => i = j
  | _ => false

/-- How often dial `i` has sent CONNECT. -/
def attempts (i : Nat) (log : List Note) : Nat := log.countP (isConnect i)

/-- What an entry of the log needs before it. -/
def Sound (log : List Note) : Note → Prop
  | .died _ => True
  | .stored _ _ => ∀ j m, .stored j m ∈ log → .died m ∈ log
  | .closed _ n => .died n ∈ log
  | .connect i n => (∃ j, .stored j n ∈ log) ∧ attempts i log ≤ 1 ∧
      ∀ m, .connect i m ∈ log → .died m ∈ log ∧ m ≠ n
  | .returned i (.ok n) => .connect i n ∈ log
  | .returned _ (.error .establish) => True
  | .returned i (.error .connect) =>
    -- CONNECT has failed on a usable connection, or twice
    (∃ n, .connect i n ∈ log ∧ .died n ∉ log) ∨ attempts i log = 2

/-! ## What a dial can do -/

/-- Nothing that is usable is cached. -/
def NoneUsable (g : WarpClient) : Prop := ∀ n, g.cached = some n → g.dead n = true

/-- Everything that a dial can do, its guards included. -/
inductive Acts (g : WarpClient) (i : Nat) : Dial → WarpClient → Dial → Prop where
  | dial : Acts g i .idle g (.reading 0)
  | hit {k n} (hcached : g.cached = some n) (husable : g.dead n = false) :
      Acts g i (.reading k) g (.got k n)
  | miss {k} : Acts g i (.reading k) g (.locking k)
  | lock {k} (hfree : g.establishing = false) :
      Acts g i (.locking k) { g with establishing := true } (.locked k)
  | hitLocked {k n} (hcached : g.cached = some n) (husable : g.dead n = false) :
      Acts g i (.locked k) { g with establishing := false } (.got k n)
  | missLocked {k} (hnone : NoneUsable g) : Acts g i (.locked k) g (.establishing k)
  | handshake {k} : Acts g i (.establishing k) { g with conns := g.conns + 1 } (.storing k g.conns)
  | handshakeFailed {k} :
      Acts g i (.establishing k)
        { g.note (.returned i (.error .establish)) with establishing := false } .ended
  | store {k n} :
      Acts g i (.storing k n) { g.note (.stored i n) with cached := some n, establishing := false }
        (.got k n)
  | openStream {k n} : Acts g i (.got k n) (g.note (.connect i n)) (.opening k n)
  | opened {k n} : Acts g i (.opening k n) (g.note (.returned i (.ok n))) .ended
  | openFailed {k n} : Acts g i (.opening k n) g (.failed k n)
  | stale {k n} (hdead : g.dead n = true) : Acts g i (.failed k n) g (.invalidating k n)
  | usable {k n} (husable : g.dead n = false) :
      Acts g i (.failed k n) (g.note (.returned i (.error .connect))) .ended
  | again {k n} (hk : k + 1 < 2) : Acts g i (.invalidating k n) (invalidate g i n) (.reading (k + 1))
  | giveUp {k n} (hk : ¬ k + 1 < 2) :
      Acts g i (.invalidating k n) ((invalidate g i n).note (.returned i (.error .connect))) .ended
  | drop {d : Dial} : Acts g i d (dropped g d) .ended

variable {g g' : WarpClient} {i j : Nat} {d d' u : Dial} {a : Action}

theorem reuse_some {n : Nat} (h : g.reuse = some n) : g.cached = some n ∧ g.dead n = false := by
  obtain ⟨hcached, husable⟩ := Option.filter_eq_some_iff.mp h
  exact ⟨hcached, by simpa [WarpClient.isUsable] using husable⟩

theorem reuse_none (h : g.reuse = none) : NoneUsable g := by
  intro n hn
  rw [WarpClient.reuse, hn, Option.filter_some] at h
  split at h
  · cases h
  · rename_i husable
    simpa [WarpClient.isUsable] using husable

theorem acts_of_act (h : act g i d a = some (g', d')) : Acts g i d g' d' := by
  unfold act at h
  split at h
  · obtain ⟨rfl, rfl⟩ := Prod.mk.inj (Option.some.inj h)
    exact .dial
  · split at h <;> rename_i hreuse <;> obtain ⟨rfl, rfl⟩ := Prod.mk.inj (Option.some.inj h)
    · exact .hit (reuse_some hreuse).1 (reuse_some hreuse).2
    · exact .miss
  · split at h
    · cases h
    · rename_i hfree
      obtain ⟨rfl, rfl⟩ := Prod.mk.inj (Option.some.inj h)
      exact .lock (Bool.eq_false_iff.mpr hfree)
  · split at h <;> rename_i hreuse <;> obtain ⟨rfl, rfl⟩ := Prod.mk.inj (Option.some.inj h)
    · exact .hitLocked (reuse_some hreuse).1 (reuse_some hreuse).2
    · exact .missLocked (reuse_none hreuse)
  · split at h <;> obtain ⟨rfl, rfl⟩ := Prod.mk.inj (Option.some.inj h)
    · exact .handshake
    · exact .handshakeFailed
  · obtain ⟨rfl, rfl⟩ := Prod.mk.inj (Option.some.inj h)
    exact .store
  · obtain ⟨rfl, rfl⟩ := Prod.mk.inj (Option.some.inj h)
    exact .openStream
  · split at h <;> obtain ⟨rfl, rfl⟩ := Prod.mk.inj (Option.some.inj h)
    · exact .opened
    · exact .openFailed
  · dsimp only at h
    split at h <;> rename_i hstale <;> obtain ⟨rfl, rfl⟩ := Prod.mk.inj (Option.some.inj h)
    · exact .stale (by simpa [WarpClient.isUsable] using hstale)
    · exact .usable (by simpa [WarpClient.isUsable] using hstale)
  · split at h <;> rename_i hk <;> obtain ⟨rfl, rfl⟩ := Prod.mk.inj (Option.some.inj h)
    · exact .again hk
    · exact .giveUp hk
  · obtain ⟨rfl, rfl⟩ := Prod.mk.inj (Option.some.inj h)
    exact .drop
  · cases h

/-! ## The invariant -/

/-- The attempt that the dial is in. -/
def Dial.attempt : Dial → Option Nat
  | .reading k | .locking k | .locked k | .establishing k | .storing k _ | .got k _ | .opening k _
  | .failed k _ | .invalidating k _ => some k
  | .idle | .ended => none

/-- How often the dial has sent CONNECT. -/
def Dial.sent : Dial → Option Nat
  | .idle => some 0
  | .reading k | .locking k | .locked k | .establishing k | .storing k _ | .got k _ => some k
  | .opening k _ | .failed k _ | .invalidating k _ => some (k + 1)
  | .ended => none

/-- Every connection that the dial has tried has closed. -/
def Past (g : WarpClient) (i : Nat) : Prop := ∀ m, .connect i m ∈ g.log → g.dead m = true

/-- What holds of a dial while it is where it is. -/
def Phase (g : WarpClient) (i : Nat) : Dial → Prop
  | .idle | .reading _ | .locking _ | .locked _ => Past g i
  | .establishing _ => Past g i ∧ NoneUsable g
  | .storing _ n => Past g i ∧ NoneUsable g ∧ n < g.conns ∧ ∀ j, .stored j n ∉ g.log
  | .got _ n => Past g i ∧ (∃ j, .stored j n ∈ g.log) ∧ .connect i n ∉ g.log
  | .opening _ n | .failed _ n =>
    .connect i n ∈ g.log ∧ ∀ m, .connect i m ∈ g.log → g.dead m = true ∨ m = n
  | .invalidating _ n => Past g i ∧ g.dead n = true
  | .ended => True

structure Local (g : WarpClient) (i : Nat) (d : Dial) : Prop where
  phase : Phase g i d
  attempt : ∀ k, d.attempt = some k → k < 2
  sent : ∀ k, d.sent = some k → attempts i g.log = k

structure Global (g : WarpClient) : Prop where
  log : Justified Sound g.log
  died : ∀ n, g.dead n = true ↔ .died n ∈ g.log
  stored : ∀ i n, .stored i n ∈ g.log → n < g.conns ∧ (g.dead n = true ∨ g.cached = some n)
  cached : ∀ n, g.cached = some n → ∃ i, .stored i n ∈ g.log
  connects : ∀ i n, .connect i n ∈ g.log → ∃ j, .stored j n ∈ g.log

/-- What the other dials may rely on when dial `i` acts. -/
structure Keeps (i : Nat) (g g' : WarpClient) : Prop where
  mem : g.log ⊆ g'.log
  connect : ∀ j n, j ≠ i → .connect j n ∈ g'.log → .connect j n ∈ g.log
  attempts : ∀ j, j ≠ i → attempts j g'.log = attempts j g.log
  dead : ∀ n, g.dead n = true → g'.dead n = true
  conns : g.conns ≤ g'.conns

theorem Keeps.same (hlog : g'.log = g.log) (hdead : g'.dead = g.dead) (hconns : g.conns ≤ g'.conns) :
    Keeps i g g' where
  mem := by rw [hlog]; exact List.Subset.refl _
  connect := by rw [hlog]; exact fun _ _ _ => id
  attempts := by rw [hlog]; exact fun _ _ => rfl
  dead := by rw [hdead]; exact fun _ => id
  conns := hconns

theorem attempts_snoc (j : Nat) (log : List Note) (x : Note) :
    attempts j (log ++ [x]) = attempts j log + if isConnect j x then 1 else 0 := by
  simp [attempts, List.countP_append, List.countP_cons]

/-- A note is of no other dial than `i`. -/
theorem Keeps.snoc {x : Note} (hlog : g'.log = g.log ++ [x])
    (hx : ∀ j, j ≠ i → isConnect j x = false) (hdead : g'.dead = g.dead) (hconns : g.conns ≤ g'.conns) :
    Keeps i g g' where
  mem := by rw [hlog]; exact List.subset_append_left _ _
  connect := fun j n hj hmem => by
    rw [hlog, List.mem_append, List.mem_singleton] at hmem
    rcases hmem with hmem | rfl
    · exact hmem
    · have := hx j hj
      simp [isConnect] at this
  attempts := fun j hj => by
    rw [hlog, attempts_snoc, hx j hj]
    rfl
  dead := by rw [hdead]; exact fun _ => id
  conns := hconns

theorem Keeps.trans {g'' : WarpClient} (h : Keeps i g g') (h' : Keeps i g' g'') : Keeps i g g'' where
  mem := fun _ hx => h'.mem (h.mem hx)
  connect := fun j n hj hmem => h.connect j n hj (h'.connect j n hj hmem)
  attempts := fun j hj => (h'.attempts j hj).trans (h.attempts j hj)
  dead := fun n hn => h'.dead n (h.dead n hn)
  conns := Nat.le_trans h.conns h'.conns

theorem Keeps.invalidate (g : WarpClient) (i n : Nat) : Keeps i g (invalidate g i n) := by
  unfold Dialing.invalidate
  split
  · exact .snoc rfl (fun _ _ => rfl) rfl (Nat.le_refl _)
  · exact .same rfl rfl (Nat.le_refl _)

theorem Acts.keeps (h : Acts g i d g' d') : Keeps i g g' := by
  cases h with
  | handshake => exact .same rfl rfl (Nat.le_succ _)
  | handshakeFailed | store | opened | usable =>
    exact .snoc rfl (fun _ _ => rfl) rfl (Nat.le_refl _)
  | openStream =>
    exact .snoc rfl (fun j hj => decide_eq_false hj) rfl (Nat.le_refl _)
  | again => exact .invalidate _ _ _
  | giveUp => exact (Keeps.invalidate _ _ _).trans (.snoc rfl (fun _ _ => rfl) rfl (Nat.le_refl _))
  | drop =>
    unfold dropped
    split <;> exact .same rfl rfl (Nat.le_refl _)
  | _ => exact .same rfl rfl (Nat.le_refl _)

/-- What a dial does to `cached`. -/
inductive Caches (g g' : WarpClient) (d : Dial) : Prop where
  | same (hcached : g'.cached = g.cached)
      (hstored : ∀ j n, .stored j n ∈ g'.log → .stored j n ∈ g.log)
  | none (hcached : g'.cached = none)
      (hstored : ∀ j n, .stored j n ∈ g'.log → .stored j n ∈ g.log)
  /-- Only with the lock. -/
  | stored (hholds : d.holds = true)

theorem stored_snoc {log : List Note} {x : Note} {j n : Nat} (hx : x ≠ .stored j n)
    (h : .stored j n ∈ log ++ [x]) : .stored j n ∈ log := by
  rcases List.mem_append.mp h with h | h
  · exact h
  · exact absurd (List.mem_singleton.mp h).symm hx

theorem Caches.invalidate (g : WarpClient) (i n : Nat) (d : Dial) : Caches g (invalidate g i n) d := by
  unfold Dialing.invalidate
  split
  · exact .none rfl fun _ _ => stored_snoc (by simp)
  · exact .same rfl fun _ _ => id

theorem Acts.caches (h : Acts g i d g' d') : Caches g g' d := by
  cases h with
  | store => exact .stored rfl
  | handshakeFailed | opened | usable | openStream =>
    exact .same rfl fun _ _ => stored_snoc (by simp)
  | again => exact .invalidate _ _ _ _
  | giveUp =>
    cases Caches.invalidate g i _ _ with
    | same hcached hstored => exact .same hcached fun _ _ hmem => hstored _ _ (stored_snoc (by simp) hmem)
    | none hcached hstored => exact .none hcached fun _ _ hmem => hstored _ _ (stored_snoc (by simp) hmem)
    | stored hholds => exact .stored hholds
  | drop =>
    unfold dropped
    split <;> exact .same rfl fun _ _ => id
  | _ => exact .same rfl fun _ _ => id

theorem Past.keeps (h : Past g j) (hkeeps : Keeps i g g') (hne : j ≠ i) : Past g' j := by
  intro m hm
  exact hkeeps.dead m (h m (hkeeps.connect j m hne hm))

theorem NoneUsable.caches (h : NoneUsable g) (hkeeps : Keeps i g g') (hcaches : Caches g g' d)
    (hfree : d.holds = false) : NoneUsable g' := by
  intro n hn
  cases hcaches with
  | same hcached => exact hkeeps.dead n (h n (hcached ▸ hn))
  | none hcached =>
    rw [hcached] at hn
    cases hn
  | stored hholds =>
    rw [hfree] at hholds
    cases hholds

/-- **What a dial leaves to the others**: with the lock in `u`, it does not hold the lock itself. -/
theorem Local.keeps (hu : Local g j u) (hkeeps : Keeps i g g') (hcaches : Caches g g' d) (hne : j ≠ i)
    (hlock : u.holds = true → d.holds = false) : Local g' j u where
  attempt := hu.attempt
  sent := fun k hk => by
    rw [hkeeps.attempts j hne]
    exact hu.sent k hk
  phase := by
    have hphase := hu.phase
    cases u with
    | idle | reading k | locking k | locked k => exact Past.keeps hphase hkeeps hne
    | establishing k => exact ⟨hphase.1.keeps hkeeps hne, hphase.2.caches hkeeps hcaches (hlock rfl)⟩
    | storing k n =>
      obtain ⟨hpast, hnone, hlt, hnew⟩ := hphase
      refine ⟨hpast.keeps hkeeps hne, hnone.caches hkeeps hcaches (hlock rfl),
        Nat.lt_of_lt_of_le hlt hkeeps.conns, fun k hk => ?_⟩
      cases hcaches with
      | same _ hstored | none _ hstored => exact hnew k (hstored k n hk)
      | stored hholds =>
        rw [hlock rfl] at hholds
        cases hholds
    | got k n =>
      obtain ⟨hpast, ⟨m, hm⟩, hnot⟩ := hphase
      exact ⟨hpast.keeps hkeeps hne, ⟨m, hkeeps.mem hm⟩, fun h => hnot (hkeeps.connect j n hne h)⟩
    | opening k n | failed k n =>
      refine ⟨hkeeps.mem hphase.1, fun m hm => ?_⟩
      exact (hphase.2 m (hkeeps.connect j m hne hm)).imp_left (hkeeps.dead m)
    | invalidating k n => exact ⟨hphase.1.keeps hkeeps hne, hkeeps.dead n hphase.2⟩
    | ended => trivial

/-! ## What a dial keeps up -/

theorem Global.relabel (h : Global g) (hlog : g'.log = g.log) (hdead : g'.dead = g.dead)
    (hcached : g'.cached = g.cached) (hconns : g.conns ≤ g'.conns) : Global g' where
  log := hlog ▸ h.log
  died := by rw [hlog, hdead]; exact h.died
  stored := by
    rw [hlog, hdead, hcached]
    exact fun i n hmem => (h.stored i n hmem).imp_left (Nat.lt_of_lt_of_le · hconns)
  cached := by rw [hlog, hcached]; exact h.cached
  connects := by rw [hlog]; exact h.connects

/-- Something is written down that is about neither the end of a connection nor the cache. -/
theorem Global.note (h : Global g) {x : Note} (hx : Sound g.log x) (hdied : ∀ n, x ≠ .died n)
    (hstored : ∀ j n, x ≠ .stored j n)
    (hconnect : ∀ j n, x = .connect j n → ∃ k, .stored k n ∈ g.log) : Global (g.note x) where
  log := h.log.snoc hx
  died := fun n => by
    show g.dead n = true ↔ .died n ∈ g.log ++ [x]
    rw [List.mem_append, List.mem_singleton, h.died n]
    exact ⟨.inl, fun hmem => hmem.resolve_right fun heq => hdied n heq.symm⟩
  stored := fun j n hmem => h.stored j n (stored_snoc (hstored j n) hmem)
  cached := fun n hn => (h.cached n hn).imp fun _ hmem => List.mem_append_left _ hmem
  connects := fun j n hmem => by
    rcases List.mem_append.mp hmem with hmem | hmem
    · exact (h.connects j n hmem).imp fun _ hmem => List.mem_append_left _ hmem
    · exact (hconnect j n (List.mem_singleton.mp hmem).symm).imp fun _ hmem =>
        List.mem_append_left _ hmem

/-- A connection that has closed is forgotten. -/
theorem Global.invalidate (h : Global g) {n : Nat} (hdead : g.dead n = true) :
    Global (invalidate g i n) := by
  unfold Dialing.invalidate
  split
  · rename_i hcached
    have hnote : Global (g.note (.closed i n)) :=
      h.note ((h.died n).mp hdead) (by simp) (by simp) (by simp)
    refine ⟨hnote.log, hnote.died, fun j m hmem => ?_, by rintro _ ⟨⟩, hnote.connects⟩
    refine ⟨(hnote.stored j m hmem).1, .inl ?_⟩
    rcases (hnote.stored j m hmem).2 with hm | hm
    · exact hm
    · obtain rfl := Option.some.inj (hcached.symm.trans hm)
      exact hdead
  · exact h

/-- With nothing usable cached, a connection is stored that was not. -/
theorem Global.store (h : Global g) {n : Nat} (hnone : NoneUsable g) (hn : n < g.conns) :
    Global { g.note (.stored i n) with cached := some n, establishing := false } where
  log := h.log.snoc fun j m hmem => by
    refine (h.died m).mp ?_
    rcases (h.stored j m hmem).2 with hm | hm
    · exact hm
    · exact hnone m hm
  died := fun m => by
    show g.dead m = true ↔ .died m ∈ g.log ++ [.stored i n]
    rw [List.mem_append, h.died m]
    exact ⟨.inl, fun hmem => hmem.resolve_right (by simp)⟩
  stored := fun j m hmem => by
    rcases List.mem_append.mp hmem with hmem | hmem
    · refine (h.stored j m hmem).imp_right fun hm => .inl ?_
      rcases hm with hm | hm
      · exact hm
      · exact hnone m hm
    · obtain ⟨rfl, rfl⟩ := Note.stored.inj (List.mem_singleton.mp hmem)
      exact ⟨hn, .inr rfl⟩
  cached := fun m hm => by
    obtain rfl := Option.some.inj hm
    exact ⟨i, List.mem_append_right _ List.mem_cons_self⟩
  connects := fun j m hmem => by
    rcases List.mem_append.mp hmem with hmem | hmem
    · exact (h.connects j m hmem).imp fun _ hmem => List.mem_append_left _ hmem
    · simp at hmem

theorem attempts_invalidate (g : WarpClient) (i j n : Nat) :
    attempts j (invalidate g i n).log = attempts j g.log := by
  unfold Dialing.invalidate
  split
  · exact attempts_snoc j g.log _
  · rfl

theorem global_self (hg : Global g) (hd : Local g i d) (h : Acts g i d g' d') : Global g' := by
  have hphase := hd.phase
  cases h with
  | dial | hit | miss | missLocked | openFailed | stale => exact hg
  | lock | hitLocked => exact hg.relabel rfl rfl rfl (Nat.le_refl _)
  | handshake => exact hg.relabel rfl rfl rfl (Nat.le_succ _)
  | handshakeFailed =>
    have hnote : Global (g.note (.returned i (.error .establish))) :=
      hg.note trivial (by simp) (by simp) (by simp)
    exact hnote.relabel rfl rfl rfl (Nat.le_refl _)
  | store => exact hg.store hphase.2.1 hphase.2.2.1
  | @openStream k n =>
    obtain ⟨hpast, hstored, hnot⟩ := hphase
    have hk := hd.attempt k rfl
    refine hg.note ⟨hstored, by rw [hd.sent k rfl]; omega, fun m hm => ?_⟩ (by simp) (by simp) ?_
    · exact ⟨(hg.died m).mp (hpast m hm), fun heq => hnot (heq ▸ hm)⟩
    · rintro _ _ ⟨⟩
      exact hstored
  | opened => exact hg.note hphase.1 (by simp) (by simp) (by simp)
  | @usable k n husable =>
    refine hg.note (.inl ⟨n, hphase.1, fun hmem => ?_⟩) (by simp) (by simp) (by simp)
    rw [(hg.died n).mpr hmem] at husable
    cases husable
  | again => exact hg.invalidate hphase.2
  | @giveUp k n hk =>
    have hlt := hd.attempt k rfl
    refine (hg.invalidate hphase.2).note (.inr ?_) (by simp) (by simp) (by simp)
    rw [attempts_invalidate, hd.sent (k + 1) rfl]
    omega
  | drop =>
    unfold dropped
    split
    · exact hg.relabel rfl rfl rfl (Nat.le_refl _)
    · exact hg

/-- A usable connection of the cache is not one that the dial has tried. -/
theorem got_cached (hg : Global g) {n : Nat} (k : Nat) (hpast : Past g i) (hcached : g.cached = some n)
    (husable : g.dead n = false) : Phase g i (.got k n) := by
  refine ⟨hpast, hg.cached n hcached, fun hmem => ?_⟩
  rw [hpast n hmem] at husable
  cases husable

theorem local_self (hg : Global g) (hd : Local g i d) (h : Acts g i d g' d') : Local g' i d' := by
  have hphase := hd.phase
  cases h with
  | dial => exact ⟨hphase, by rintro _ ⟨⟩; decide, hd.sent⟩
  | hit hcached husable => exact ⟨got_cached hg _ hphase hcached husable, hd.attempt, hd.sent⟩
  | miss | lock => exact ⟨hphase, hd.attempt, hd.sent⟩
  | @hitLocked k n hcached husable =>
    exact ⟨got_cached hg k hphase hcached husable, hd.attempt, hd.sent⟩
  | missLocked hnone => exact ⟨⟨hphase, hnone⟩, hd.attempt, hd.sent⟩
  | handshake =>
    refine ⟨⟨hphase.1, hphase.2, Nat.lt_succ_self _, fun j hj => ?_⟩, hd.attempt, hd.sent⟩
    exact absurd (hg.stored j _ hj).1 (Nat.lt_irrefl _)
  | @store k n =>
    obtain ⟨hpast, -, -, hnew⟩ := hphase
    have hmem : ∀ m, .connect i m ∈ g.log ++ [Note.stored i n] → .connect i m ∈ g.log := by simp
    refine ⟨⟨fun m hm => hpast m (hmem m hm), ⟨i, List.mem_append_right _ List.mem_cons_self⟩,
      fun hn => ?_⟩, hd.attempt, fun k' hk' => ?_⟩
    · obtain ⟨j, hj⟩ := hg.connects i n (hmem n hn)
      exact hnew j hj
    · exact (attempts_snoc i g.log _).trans (hd.sent k' hk')
  | @openStream k n =>
    obtain ⟨hpast, -, -⟩ := hphase
    refine ⟨⟨List.mem_append_right _ List.mem_cons_self, fun m hm => ?_⟩, hd.attempt,
      fun k' hk' => ?_⟩
    · rcases List.mem_append.mp hm with hm | hm
      · exact .inl (hpast m hm)
      · exact .inr (Note.connect.inj (List.mem_singleton.mp hm)).2
    · obtain rfl := Option.some.inj hk'
      refine (attempts_snoc i g.log _).trans ?_
      rw [hd.sent k rfl, isConnect, decide_eq_true rfl]
      rfl
  | openFailed => exact ⟨hphase, hd.attempt, hd.sent⟩
  | stale hdead =>
    refine ⟨⟨fun m hm => ?_, hdead⟩, hd.attempt, hd.sent⟩
    rcases hphase.2 m hm with hm | rfl
    · exact hm
    · exact hdead
  | @again k n hk =>
    refine ⟨?_, by rintro _ ⟨⟩; exact hk, fun k' hk' => ?_⟩
    · show Past (invalidate g i n) i
      unfold Dialing.invalidate
      split
      · exact fun m hm => hphase.1 m (by simpa [WarpClient.note] using hm)
      · exact hphase.1
    · rw [attempts_invalidate]
      exact hd.sent k' hk'
  | handshakeFailed | opened | usable | giveUp | drop =>
    exact ⟨trivial, by rintro _ ⟨⟩, by rintro _ ⟨⟩⟩

/-! ## Runs -/

/-- `establishing` is a lock. -/
def Dial.guard (d : Dial) : Option Unit := if d.holds then some () else none

theorem guard_eq_some {d : Dial} : d.guard = some () ↔ d.holds = true := by
  unfold Dial.guard
  cases d.holds <;> simp

theorem guard_move (h : Acts g i d g' d') :
    Tasks.LockMove (fun g _ => g.establishing) Dial.guard g d g' d' := by
  have hset : ∀ b : Bool, (fun _ : Unit => b) = Function.update (fun _ => g.establishing) () b :=
    fun b => funext fun u => by rw [Function.update_apply, if_pos (Subsingleton.elim u ())]
  have hinvalidate : ∀ n, (fun _ : Unit => (invalidate g i n).establishing) = fun _ => g.establishing := by
    intro n
    unfold invalidate
    split <;> rfl
  cases h with
  | lock hfree => exact .take () hfree rfl (hset true) rfl
  | hitLocked | handshakeFailed | store => exact .give () rfl (hset false) rfl
  | again | giveUp => exact .stay (hinvalidate _) rfl
  | drop =>
    unfold dropped
    cases hheld : d.holds with
    | false => exact .stay rfl (by rw [Dial.guard, Dial.guard, hheld]; rfl)
    | true => exact .give () (guard_eq_some.mpr hheld) (hset false) rfl
  | _ => exact .stay rfl rfl

structure Inv (s : State) : Prop where
  shared : Global s.shared
  tasks : ∀ i, Local s.shared i (s.tasks i)
  lock : Tasks.Locks (fun g _ => g.establishing) Dial.guard s

theorem inv_start : Inv State.start where
  shared := ⟨.nil _, by simp [State.start], by rintro _ _ ⟨⟩, by rintro _ ⟨⟩, by rintro _ _ ⟨⟩⟩
  tasks := fun _ => ⟨by rintro _ ⟨⟩, by rintro _ ⟨⟩, fun k hk => Option.some.inj hk⟩
  lock := ⟨fun _ => iff_of_false Bool.false_ne_true (by rintro ⟨_, ⟨⟩⟩), by rintro _ _ _ ⟨⟩⟩

/-- The end of a connection is no dial's doing. -/
theorem keeps_die (g : WarpClient) (i n : Nat) :
    Keeps i g { g.note (.died n) with dead := Function.update g.dead n true } where
  mem := List.subset_append_left _ _
  connect := fun j m _ hmem => by simpa [WarpClient.note] using hmem
  attempts := fun j _ => attempts_snoc j g.log _
  dead := fun m hm => by
    show Function.update g.dead n true m = true
    rw [Function.update_apply]
    split
    · rfl
    · exact hm
  conns := Nat.le_refl _

theorem global_die (hg : Global g) (n : Nat) :
    Global { g.note (.died n) with dead := Function.update g.dead n true } where
  log := hg.log.snoc trivial
  died := fun m => by
    show Function.update g.dead n true m = true ↔ .died m ∈ g.log ++ [.died n]
    rw [Function.update_apply, List.mem_append, List.mem_singleton, Note.died.injEq]
    split
    · rename_i heq
      exact iff_of_true rfl (.inr heq)
    · rename_i hne
      rw [hg.died m]
      exact ⟨.inl, fun h => h.resolve_right hne⟩
  stored := fun j m hmem => by
    obtain ⟨hlt, hm⟩ := hg.stored j m (stored_snoc (by simp) hmem)
    exact ⟨hlt, hm.imp_left ((keeps_die g 0 n).dead m)⟩
  cached := fun m hm => (hg.cached m hm).imp fun _ hmem => List.mem_append_left _ hmem
  connects := fun j m hmem => by
    have hmem' : .connect j m ∈ g.log := by simpa [WarpClient.note] using hmem
    exact (hg.connects j m hmem').imp fun _ hmem => List.mem_append_left _ hmem

theorem inv_step {s s' : State} {e : Event} (hs : Inv s) (h : step s e = some s') : Inv s' := by
  cases e with
  | dial i a =>
    obtain ⟨hact, hsame⟩ := Tasks.step_eq_some h
    have hacts := acts_of_act hact
    refine ⟨global_self hs.shared (hs.tasks i) hacts, fun j => ?_, hs.lock.step (guard_move hacts) hsame⟩
    by_cases hj : j = i
    · exact hj ▸ local_self hs.shared (hs.tasks i) hacts
    · rw [hsame j hj]
      refine (hs.tasks j).keeps hacts.keeps hacts.caches hj fun hheld => ?_
      -- two dials do not hold the lock
      refine Bool.eq_false_iff.mpr fun hheld' => hj ?_
      exact hs.lock.alone (guard_eq_some.mpr hheld) (guard_eq_some.mpr hheld')
  | die n =>
    unfold step at h
    dsimp only at h
    split at h
    · obtain rfl := Option.some.inj h
      refine ⟨global_die hs.shared n, fun j => ?_, hs.lock.congr rfl⟩
      exact (hs.tasks j).keeps (d := .ended) (keeps_die s.shared (j + 1) n)
        (.same rfl fun k m => stored_snoc (by simp)) (by omega) fun _ => rfl
    · cases h

theorem inv_run {s s' : State} {es : List Event} (hs : Inv s) (h : run step s es = some s') : Inv s' :=
  run_invariant (fun _ _ _ hm he => inv_step hm he) es s s' hs h

/-! ## Every dial can come to its end -/

/-- `s'` is reached from `s` by steps of dials, and none of them is dropped. -/
abbrev Goes (s s' : State) : Prop :=
  Reaches step (fun _ e => ∃ i a, e = .dial i a ∧ a ≠ .drop) s s'

/-- Dial `i` can come to its end. -/
def CanEnd (s : State) (i : Nat) : Prop := ∃ s', Goes s s' ∧ s'.tasks i = .ended

theorem Goes.inv {s s' : State} (h : Goes s s') (hs : Inv s) : Inv s' := by
  obtain ⟨es, hrun, -⟩ := h
  exact inv_run hs hrun

theorem CanEnd.of_goes {s s' : State} (h : Goes s s') (hend : CanEnd s' i) : CanEnd s i := by
  obtain ⟨s'', hgoes, hi⟩ := hend
  exact ⟨s'', h.trans hgoes, hi⟩

/-- What a dial can do next, it can do; the others wait. -/
theorem dial_step {s : State} (a : Action) (ha : a ≠ .drop)
    (h : act s.shared i (s.tasks i) a = some (g', d')) :
    ∃ s', Goes s s' ∧ s'.shared = g' ∧ s'.tasks i = d' ∧ ∀ j, j ≠ i → s'.tasks j = s.tasks j := by
  obtain ⟨s', hs', hshared, htask⟩ := @Tasks.step_of_act _ _ _ _ _ act s (i, a) _ _ h
  exact ⟨s', .head (e := .dial i a) ⟨i, a, rfl, ha⟩ hs' (.refl _ _ _), hshared, htask,
    (Tasks.step_eq_some hs').2⟩

theorem canEnd_of_got {s : State} {k n : Nat} (h : s.tasks i = .got k n) : CanEnd s i := by
  obtain ⟨s₁, hgoes, -, htask, -⟩ := dial_step (i := i) (s := s) .openStream (by simp) (by rw [h]; rfl)
  obtain ⟨s₂, hgoes', -, htask', -⟩ :=
    dial_step (i := i) (s := s₁) (.opened true) (by simp) (by rw [htask]; rfl)
  exact ⟨s₂, hgoes.trans hgoes', htask'⟩

theorem canEnd_of_establishing {s : State} {k : Nat} (h : s.tasks i = .establishing k) : CanEnd s i := by
  obtain ⟨s', hgoes, -, htask, -⟩ :=
    dial_step (i := i) (s := s) (.handshake false) (by simp) (by rw [h]; rfl)
  exact ⟨s', hgoes, htask⟩

/-- With the lock, a dial has its connection at once, or makes one. -/
theorem recheck_cases {s : State} {k : Nat} (h : s.tasks i = .locked k) :
    (∃ n, act s.shared i (s.tasks i) .recheck = some ({ s.shared with establishing := false }, .got k n)) ∨
      act s.shared i (s.tasks i) .recheck = some (s.shared, .establishing k) := by
  rw [h, act]
  cases s.shared.reuse with
  | none => exact .inr rfl
  | some n => exact .inl ⟨n, rfl⟩

theorem canEnd_of_locked {s : State} {k : Nat} (h : s.tasks i = .locked k) : CanEnd s i := by
  rcases recheck_cases h with ⟨n, hact⟩ | hact
  · obtain ⟨s', hgoes, -, htask, -⟩ := dial_step .recheck (by simp) hact
    exact .of_goes hgoes (canEnd_of_got htask)
  · obtain ⟨s', hgoes, -, htask, -⟩ := dial_step .recheck (by simp) hact
    exact .of_goes hgoes (canEnd_of_establishing htask)

/-- From `s`, some steps of dial `j` free the lock; the others are where they were. -/
def Releases (s : State) (j : Nat) : Prop :=
  ∃ s', Goes s s' ∧ s'.shared.establishing = false ∧ ∀ k, k ≠ j → s'.tasks k = s.tasks k

theorem releases_establishing {s : State} {k : Nat} (h : s.tasks j = .establishing k) : Releases s j := by
  obtain ⟨s', hgoes, hshared, -, hsame⟩ :=
    dial_step (i := j) (s := s) (.handshake false) (by simp) (by rw [h]; rfl)
  exact ⟨s', hgoes, by rw [hshared], hsame⟩

/-- Whoever holds the lock can free it. -/
theorem releases {s : State} (h : (s.tasks j).holds = true) : Releases s j := by
  cases hj : s.tasks j with
  | idle | reading | locking | got | opening | failed | invalidating | ended =>
    rw [hj] at h
    cases h
  | establishing k => exact releases_establishing hj
  | storing k n =>
    obtain ⟨s', hgoes, hshared, -, hsame⟩ :=
      dial_step (i := j) (s := s) .store (by simp) (by rw [hj]; rfl)
    exact ⟨s', hgoes, by rw [hshared], hsame⟩
  | locked k =>
    rcases recheck_cases hj with ⟨n, hact⟩ | hact
    · obtain ⟨s', hgoes, hshared, -, hsame⟩ := dial_step .recheck (by simp) hact
      exact ⟨s', hgoes, by rw [hshared], hsame⟩
    · obtain ⟨s₁, hgoes, -, htask, hsame⟩ := dial_step .recheck (by simp) hact
      obtain ⟨s', hgoes', hfree, hsame'⟩ := releases_establishing htask
      exact ⟨s', hgoes.trans hgoes', hfree, fun k hk => (hsame' k hk).trans (hsame k hk)⟩

theorem canEnd_of_locking {s : State} (hs : Inv s) {k : Nat} (h : s.tasks i = .locking k) :
    CanEnd s i := by
  obtain ⟨s₁, hgoes, hfree, hi⟩ : ∃ s₁, Goes s s₁ ∧ s₁.shared.establishing = false ∧
      s₁.tasks i = .locking k := by
    cases hlock : s.shared.establishing with
    | false => exact ⟨s, .refl _ _ _, hlock, h⟩
    | true =>
      obtain ⟨j, hj⟩ := (hs.lock.holder ()).mp hlock
      obtain ⟨s₁, hgoes, hfree, hsame⟩ := releases (guard_eq_some.mp hj)
      refine ⟨s₁, hgoes, hfree, (hsame i ?_).trans h⟩
      rintro rfl
      rw [h] at hj
      cases hj
  obtain ⟨s₂, hgoes', -, htask, -⟩ :=
    dial_step (i := i) (s := s₁) .lock (by simp) (by rw [hi, act, hfree]; rfl)
  exact .of_goes hgoes (.of_goes hgoes' (canEnd_of_locked htask))

theorem canEnd_of_reading {s : State} (hs : Inv s) {k : Nat} (h : s.tasks i = .reading k) :
    CanEnd s i := by
  cases hreuse : s.shared.reuse with
  | some n =>
    obtain ⟨s₁, hgoes, -, htask, -⟩ :=
      dial_step (i := i) (s := s) .read (by simp) (by rw [h, act, hreuse])
    exact .of_goes hgoes (canEnd_of_got htask)
  | none =>
    obtain ⟨s₁, hgoes, -, htask, -⟩ :=
      dial_step (i := i) (s := s) .read (by simp) (by rw [h, act, hreuse])
    exact .of_goes hgoes (canEnd_of_locking (hgoes.inv hs) htask)

theorem canEnd_of_invalidating {s : State} (hs : Inv s) {k n : Nat} (h : s.tasks i = .invalidating k n) :
    CanEnd s i := by
  by_cases hk : k + 1 < 2
  · obtain ⟨s₁, hgoes, -, htask, -⟩ :=
      dial_step (i := i) (s := s) .invalidate (by simp) (by rw [h, act, if_pos hk])
    exact .of_goes hgoes (canEnd_of_reading (hgoes.inv hs) htask)
  · obtain ⟨s₁, hgoes, -, htask, -⟩ :=
      dial_step (i := i) (s := s) .invalidate (by simp) (by rw [h, act, if_neg hk])
    exact ⟨s₁, hgoes, htask⟩

/-- **No dial is left hanging.** -/
theorem canEnd {s : State} (hs : Inv s) (i : Nat) : CanEnd s i := by
  cases h : s.tasks i with
  | idle =>
    obtain ⟨s₁, hgoes, -, htask, -⟩ := dial_step (i := i) (s := s) .dial (by simp) (by rw [h]; rfl)
    exact .of_goes hgoes (canEnd_of_reading (hgoes.inv hs) htask)
  | reading k => exact canEnd_of_reading hs h
  | locking k => exact canEnd_of_locking hs h
  | locked k => exact canEnd_of_locked h
  | establishing k => exact canEnd_of_establishing h
  | storing k n =>
    obtain ⟨s₁, hgoes, -, htask, -⟩ := dial_step (i := i) (s := s) .store (by simp) (by rw [h]; rfl)
    exact .of_goes hgoes (canEnd_of_got htask)
  | got k n => exact canEnd_of_got h
  | opening k n =>
    obtain ⟨s₁, hgoes, -, htask, -⟩ :=
      dial_step (i := i) (s := s) (.opened true) (by simp) (by rw [h]; rfl)
    exact ⟨s₁, hgoes, htask⟩
  | failed k n =>
    cases husable : s.shared.isUsable n with
    | true =>
      obtain ⟨s₁, hgoes, -, htask, -⟩ :=
        dial_step (i := i) (s := s) .check (by simp) (by rw [h, act, husable]; rfl)
      exact ⟨s₁, hgoes, htask⟩
    | false =>
      obtain ⟨s₁, hgoes, -, htask, -⟩ :=
        dial_step (i := i) (s := s) .check (by simp) (by rw [h, act, husable]; rfl)
      exact .of_goes hgoes (canEnd_of_invalidating (hgoes.inv hs) htask)
  | invalidating k n => exact canEnd_of_invalidating hs h
  | ended => exact ⟨s, .refl _ _ _, h⟩

/-! ## Main result -/

/-- **All tunnels share one live connection, and dials do not get in each other's way.**

    However dials act among each other, whenever connections close and dials are dropped: a connection that
    has been shared and is usable is the one in the cache, so it is neither replaced nor closed while it
    works; a handshake goes on in one dial at a time, and only while nothing usable is cached; a dial tries
    at most two connections, the second only after the first has closed; and every dial can come to its
    end. -/
theorem one_live_connection (es : List Event) (s : State) (h : run step .start es = some s) :
    Justified Sound s.shared.log ∧
    (∀ i n, .stored i n ∈ s.shared.log → s.shared.dead n = false → s.shared.cached = some n) ∧
    (∀ i j, (s.tasks i).holds = true → (s.tasks j).holds = true → i = j) ∧
    (∀ i k, s.tasks i = .establishing k → s.shared.reuse = none) ∧
    ∀ i, CanEnd s i := by
  have hinv := inv_run inv_start h
  refine ⟨hinv.shared.log, fun i n hmem husable => ?_, fun i j hi hj => ?_, fun i k hi => ?_,
    canEnd hinv⟩
  · rcases (hinv.shared.stored i n hmem).2 with hdead | hcached
    · rw [husable] at hdead
      cases hdead
    · exact hcached
  · exact hinv.lock.alone (guard_eq_some.mpr hi) (guard_eq_some.mpr hj)
  · have hphase := (hinv.tasks i).phase
    rw [hi] at hphase
    refine Option.filter_eq_none_iff.mpr fun n hn => ?_
    rw [WarpClient.isUsable, hphase.2 n hn]
    decide

/-- Dial 0 makes a connection, and dials 1 and 2 wait for it; it closes under both, and one of them makes
    the next. -/
def demoEvents : List Event :=
  [.dial 0 .dial, .dial 1 .dial, .dial 0 .read, .dial 1 .read, .dial 0 .lock, .dial 0 .recheck,
    .dial 0 (.handshake true), .dial 0 .store, .dial 0 .openStream, .dial 0 (.opened true), .dial 1 .lock,
    .dial 1 .recheck, .dial 1 .openStream, .dial 2 .dial, .dial 2 .read, .dial 2 .openStream, .die 0,
    .dial 1 (.opened false), .dial 1 .check, .dial 2 (.opened false), .dial 2 .check, .dial 1 .invalidate,
    .dial 1 .read, .dial 1 .lock, .dial 1 .recheck, .dial 1 (.handshake true), .dial 1 .store,
    .dial 2 .invalidate, .dial 2 .read, .dial 2 .openStream, .dial 2 (.opened true)]

theorem one_live_connection_demo :
    ∃ s, run step .start demoEvents = some s ∧
      s.shared.log = [.stored 0 0, .connect 0 0, .returned 0 (.ok 0), .connect 1 0, .connect 2 0, .died 0,
        .closed 1 0, .stored 1 1, .connect 2 1, .returned 2 (.ok 1)] ∧
      s.shared.cached = some 1 ∧ Justified Sound s.shared.log := by
  have hlog : (run step .start demoEvents).map (fun s => (s.shared.log, s.shared.dead 1)) =
      some ([.stored 0 0, .connect 0 0, .returned 0 (.ok 0), .connect 1 0, .connect 2 0, .died 0,
        .closed 1 0, .stored 1 1, .connect 2 1, .returned 2 (.ok 1)], false) := by
    decide +kernel
  obtain ⟨s, hs, heq⟩ := Option.map_eq_some_iff.mp hlog
  obtain ⟨hlog, husable⟩ := Prod.mk.inj heq
  obtain ⟨hsound, hlive, -⟩ := one_live_connection demoEvents s hs
  exact ⟨s, hs, hlog, hlive 1 1 (by rw [hlog]; decide) husable, hsound⟩

end Httproxy.Dialing
