import RapidInbox.Db.ReadPool

/-!
# The read pool's slots and controls

`Sound` is the invariant of the pool.  What a worker owns is what stands in its queue and in its
hands; `_PAUSE` is sent when nothing is owned, so a worker that has acknowledged cannot open a
connection again before the pool is resumed; `_STOP` is sent when nothing is owned or after a failure,
and from then on no request is placed.

A pause that has completed is undone by `resume`.  A `pause_and_drain` that still has to return at that
time then returns into an open pool; `Timely` excludes such a resume.
-/

namespace RapidInbox

open Admission

/-- The slots that a worker owns besides its queue. -/
@[simp] def ReadPhase.owns : ReadPhase → Nat
  | .checking _ _ | .connecting _ _ | .executing _ _ | .sqliteFailed _ _ | .otherFailed _
  | .releasing _ | .releasingFailed | .fatal (some _) | .failingActive (some _) => 1
  | _ => 0

/-- The request that a worker holds and has not settled. -/
@[simp] def ReadPhase.active : ReadPhase → List Nat
  | .checking c _ | .connecting c _ | .executing c _ | .sqliteFailed c _ | .otherFailed c
  | .fatal (some c) | .failingActive (some c) => [c]
  | _ => []

/-- `_PAUSE` is in the worker's hands. -/
@[simp] def ReadPhase.pauses : ReadPhase → Nat
  | .pausing | .acknowledging => 1
  | _ => 0

/-- The worker has left its loop, with or without an exception. -/
@[simp] def ReadPhase.Ending : ReadPhase → Prop
  | .fatal _ | .failingActive _ | .releasingFailed | .failing | .finishing | .stopping | .exited => True
  | _ => False

/-- It has announced its failure. -/
@[simp] def ReadPhase.Failed : ReadPhase → Prop
  | .failingActive _ | .releasingFailed | .failing => True
  | _ => False

/-- It is past its queue. -/
@[simp] def ReadPhase.Over : ReadPhase → Prop
  | .finishing | .stopping | .exited => True
  | _ => False

def PoolItem.request? : PoolItem → Option Nat
  | .request c => some c
  | _ => none

/-- The requests among the items of a queue. -/
def PoolItem.requests (queue : List PoolItem) : List Nat :=
  queue.filterMap PoolItem.request?

@[simp] theorem PoolItem.requests_nil : PoolItem.requests [] = [] := rfl

@[simp] theorem PoolItem.requests_request (c : Nat) (rest : List PoolItem) :
    PoolItem.requests (.request c :: rest) = c :: PoolItem.requests rest := rfl

@[simp] theorem PoolItem.requests_pause (rest : List PoolItem) :
    PoolItem.requests (.pause :: rest) = PoolItem.requests rest := rfl

@[simp] theorem PoolItem.requests_stop (rest : List PoolItem) :
    PoolItem.requests (.stop :: rest) = PoolItem.requests rest := rfl

@[simp] theorem PoolItem.requests_append (front back : List PoolItem) :
    PoolItem.requests (front ++ back) = PoolItem.requests front ++ PoolItem.requests back :=
  List.filterMap_append

/-- No request stands behind `_STOP`. -/
def PoolItem.StopLast : List PoolItem → Prop
  | [] => True
  | .stop :: rest => PoolItem.requests rest = []
  | _ :: rest => StopLast rest

theorem PoolItem.StopLast.tail {item : PoolItem} {rest : List PoolItem}
    (h : PoolItem.StopLast (item :: rest)) : PoolItem.StopLast rest := by
  cases item with
  | request c => exact h
  | pause => exact h
  | stop =>
    change PoolItem.requests rest = [] at h
    induction rest with
    | nil => trivial
    | cons item rest ih =>
      cases item with
      | request c => simp at h
      | pause => exact ih h
      | stop => exact h

theorem PoolItem.StopLast.append {queue : List PoolItem} (h : PoolItem.StopLast queue)
    {item : PoolItem} (hitem : PoolItem.stop ∉ queue ∨ item.request? = none) :
    PoolItem.StopLast (queue ++ [item]) := by
  induction queue with
  | nil => cases item <;> trivial
  | cons head rest ih =>
    have hrest : PoolItem.stop ∉ rest ∨ item.request? = none :=
      hitem.imp (fun hn hm => hn (List.mem_cons_of_mem _ hm)) id
    cases head with
    | request c => exact ih h hrest
    | pause => exact ih h hrest
    | stop =>
      rcases hitem with hn | hn
      · exact absurd List.mem_cons_self hn
      · change PoolItem.requests rest = [] at h
        show PoolItem.requests (rest ++ [item]) = []
        rw [PoolItem.requests_append, h]
        simp [PoolItem.requests, hn]

namespace ReadWorker

/-- The slots of a worker. -/
def load (w : ReadWorker) : Nat :=
  (PoolItem.requests w.queue).length + w.phase.owns

/-- The requests that a worker has still to settle. -/
def holding (w : ReadWorker) : List Nat :=
  w.phase.active ++ PoolItem.requests w.queue

/-- `_PAUSE` is still to be acknowledged. -/
def pending (w : ReadWorker) : Nat :=
  w.queue.count .pause + w.phase.pauses

/-- The invariant of a worker. -/
structure Sound (stopEnqueued fatalError : Bool) (w : ReadWorker) : Prop where
  stops : w.stops ≤ 1
  stopQueued : w.queue.count .stop ≤ w.stops
  stopSent : 0 < w.stops → stopEnqueued = true
  stopLast : PoolItem.StopLast w.queue
  drained : w.phase.Over → PoolItem.requests w.queue = [] ∧ stopEnqueued = true
  failed : w.phase.Failed → fatalError = true
  acked : w.acked = true → w.connection = false ∧ w.connectionOpen = false ∧ w.pending = 0
  pausedOnce : w.pending ≤ 1
  closedForPause : w.phase = .acknowledging → w.connection = false ∧ w.connectionOpen = false
  ends : stopEnqueued = true → .stop ∈ w.queue ∨ w.phase.Ending

/-- A worker moves on in its code. -/
theorem Sound.evolve {w w' : ReadWorker} {stopEnqueued fatalError : Bool}
    (h : w.Sound stopEnqueued fatalError) (hqueue : w'.queue = w.queue) (hstops : w'.stops = w.stops)
    (hacked : w'.acked = w.acked)
    (hconn : w.acked = true → w'.connection = false ∧ w'.connectionOpen = false)
    (hpauses : w'.phase.pauses ≤ w.phase.pauses)
    (hover : w'.phase.Over → PoolItem.requests w.queue = [] ∧ stopEnqueued = true)
    (hfailed : w'.phase.Failed → fatalError = true)
    (hclosed : w'.phase = .acknowledging → w'.connection = false ∧ w'.connectionOpen = false)
    (hends : w.phase.Ending → w'.phase.Ending) : w'.Sound stopEnqueued fatalError := by
  have hpending : w'.pending ≤ w.pending := by
    unfold ReadWorker.pending
    rw [hqueue]
    omega
  refine ⟨?_, ?_, ?_, ?_, ?_, hfailed, ?_, Nat.le_trans hpending h.pausedOnce, hclosed, ?_⟩
  · rw [hstops]
    exact h.stops
  · rw [hqueue, hstops]
    exact h.stopQueued
  · rw [hstops]
    exact h.stopSent
  · rw [hqueue]
    exact h.stopLast
  · rw [hqueue]
    exact hover
  · intro hack
    rw [hacked] at hack
    obtain ⟨hc, ho⟩ := hconn hack
    exact ⟨hc, ho, by have hz := (h.acked hack).2.2; omega⟩
  · intro hstop
    rw [hqueue]
    exact (h.ends hstop).imp_right hends

/-- A worker takes an item out of its queue. -/
theorem Sound.dequeue {w : ReadWorker} {stopEnqueued fatalError : Bool}
    (h : w.Sound stopEnqueued fatalError)
    {item : PoolItem} {rest : List PoolItem} (hqueue : w.queue = item :: rest) {phase : ReadPhase}
    (hpending : rest.count .pause + phase.pauses ≤ w.pending)
    (hover : phase.Over → PoolItem.requests rest = [] ∧ stopEnqueued = true)
    (hfailed : phase.Failed → fatalError = true) (hclosed : phase ≠ .acknowledging)
    (hstop : item = .stop → phase.Ending) (hends : w.phase.Ending → phase.Ending) :
    ReadWorker.Sound stopEnqueued fatalError { w with queue := rest, phase := phase } := by
  refine ⟨h.stops, ?_, h.stopSent, ?_, hover, hfailed, ?_, Nat.le_trans hpending h.pausedOnce,
    fun ha => absurd ha hclosed, ?_⟩
  · have hcount := h.stopQueued
    rw [hqueue, List.count_cons] at hcount
    show rest.count .stop ≤ w.stops
    omega
  · have hlast := h.stopLast
    rw [hqueue] at hlast
    exact hlast.tail
  · intro ha
    obtain ⟨hc, ho, hz⟩ := h.acked ha
    exact ⟨hc, ho, Nat.le_zero.mp (hz ▸ hpending)⟩
  · intro hs
    rcases h.ends hs with hm | he
    · rw [hqueue] at hm
      rcases List.mem_cons.mp hm with rfl | hm
      · exact .inr (hstop rfl)
      · exact .inl hm
    · exact .inr (hends he)

end ReadWorker

namespace ReadPool

/-- Every worker has closed its connection for the pause under way. -/
def Quiet (s : ReadPool) : Prop :=
  s.pauseControlsEnqueued = true ∧ ∀ w ∈ s.workers, w.acked = true

/-- The invariant of the pool. -/
structure Sound (cfg : PoolConfig) (s : ReadPool) : Prop where
  size : s.workers.length = cfg.maxConnections
  next : s.nextWorker < cfg.maxConnections
  owed : s.adm.owed = (s.workers.map ReadWorker.load).sum
  bounded : s.adm.outstanding ≤ cfg.queueCapacity
  counted : ∀ c, s.dispatched.count c =
    s.resolved.count c + (s.workers.map fun w => w.holding.count c).sum
  gone : ∀ c ∈ s.dispatched, s.adm.Gone c
  nodup : s.dispatched.Nodup
  stopState : s.stopEnqueued = true →
    (s.state = .closing ∨ s.state = .closed) ∧ (s.adm.outstanding = 0 ∨ s.fatalError = true)
  fatal : s.fatalError = true → s.stopEnqueued = true
  closed : s.state = .closed → s.stopEnqueued = true
  controls : s.pauseControlsEnqueued = true → s.adm.outstanding = 0 ∧ s.state ≠ .opened
  acks : s.pauseAckCount = s.workers.countP (·.acked)
  fresh : s.pauseControlsEnqueued = false → ∀ w ∈ s.workers, w.acked = false ∧ w.pending = 0
  paused : s.state = .paused → s.Quiet
  held : s.held = true ∨ .completed ∈ s.pausers → s.Quiet
  workers : ∀ w ∈ s.workers, w.Sound s.stopEnqueued s.fatalError

/-- A closing pool that owns nothing has sent `_STOP`. -/
def Advanced (s : ReadPool) : Prop :=
  s.state = .closing → s.adm.outstanding = 0 → s.stopEnqueued = true

theorem sound_started (cfg : PoolConfig) : Sound cfg (started cfg) where
  size := List.length_replicate
  next := cfg.connections_pos
  owed := by simp [started, Admission.owed, Admission.granted, Admission.admitted, ReadWorker.load]
  bounded := Int.natCast_nonneg _
  counted := by simp [started, ReadWorker.holding]
  gone := nofun
  nodup := List.nodup_nil
  stopState := nofun
  fatal := nofun
  closed := nofun
  controls := nofun
  acks := by simp [started, List.countP_replicate]
  fresh := by simp [started, ReadWorker.pending]
  paused := nofun
  held := by simp [started]
  workers := by
    intro w hw
    obtain rfl := List.eq_of_mem_replicate hw
    constructor <;> simp [started, ReadWorker.pending, PoolItem.StopLast]

variable {cfg : PoolConfig} {s s' : ReadPool}

/-! ## Admission steps -/

theorem Sound.outstanding_nonneg (h : Sound cfg s) : 0 ≤ s.adm.outstanding := by
  have hle := owed_le s.adm
  have howed := h.owed
  omega

/-- Slots move within admission. -/
theorem Sound.withAdm (h : Sound cfg s) {adm : Admission}
    (hkeeps : Keeps cfg.queueCapacity (decide (s.state = .opened)) s.adm adm) :
    Sound cfg { s with adm := adm } := by
  have howed := hkeeps.owed.trans h.owed
  have hnonneg := owed_le adm
  -- while nobody is admitted, an empty pool stays empty
  have hempty : s.state ≠ .opened → s.adm.outstanding = 0 → adm.outstanding = 0 := by
    intro hstate hzero
    have hle := hkeeps.shut (decide_eq_false hstate)
    omega
  refine { h with
    owed := howed
    bounded := hkeeps.bounded h.bounded
    gone := fun c hc => hkeeps.gone c (h.gone c hc)
    stopState := ?_
    controls := ?_ }
  · intro hstop
    obtain ⟨hstate, hor⟩ := h.stopState hstop
    refine ⟨hstate, hor.imp_left (hempty ?_)⟩
    rcases hstate with hs | hs <;> simp [hs]
  · intro hcontrols
    obtain ⟨hzero, hstate⟩ := h.controls hcontrols
    exact ⟨hempty hstate hzero, hstate⟩

/-! ## Controls -/

theorem holding_push {w : ReadWorker} {item : PoolItem} (hitem : item.request? = none) :
    (w.push item).holding = w.holding := by
  simp [ReadWorker.holding, ReadWorker.push, PoolItem.requests, hitem]

theorem load_push {w : ReadWorker} {item : PoolItem} (hitem : item.request? = none) :
    (w.push item).load = w.load := by
  simp [ReadWorker.load, ReadWorker.push, PoolItem.requests, hitem]

theorem holding_pushStop (w : ReadWorker) : w.pushStop.holding = w.holding :=
  holding_push (w := w) rfl

theorem load_pushStop (w : ReadWorker) : w.pushStop.load = w.load :=
  load_push (w := w) rfl

/-- `_PAUSE` for a worker that has none. -/
theorem sound_pushPause {w : ReadWorker} {stopEnqueued fatalError : Bool}
    (h : w.Sound stopEnqueued fatalError) (hacked : w.acked = false) (hpending : w.pending = 0) :
    (w.push .pause).Sound stopEnqueued fatalError := by
  refine { h with stopQueued := ?_, stopLast := ?_, drained := ?_, acked := ?_, pausedOnce := ?_
                  ends := ?_ }
  · simpa [ReadWorker.push] using h.stopQueued
  · exact h.stopLast.append (.inr rfl)
  · intro hover
    simpa [ReadWorker.push, PoolItem.requests, PoolItem.request?] using h.drained hover
  · intro hack
    exact absurd (hacked.symm.trans hack) (by simp)
  · unfold ReadWorker.pending at hpending ⊢
    simp only [ReadWorker.push, List.count_append, List.count_singleton_self]
    omega
  · intro hstop
    exact (h.ends hstop).imp_left fun hm => List.mem_append_left _ hm

/-- `_STOP` for a worker that has none. -/
theorem sound_pushStop {w : ReadWorker} {fatalError : Bool} (h : w.Sound false fatalError)
    (fatalError' : Bool) (hfatal : fatalError = true → fatalError' = true) :
    w.pushStop.Sound true fatalError' := by
  have hnone : w.stops = 0 := by
    by_contra hne
    exact absurd (h.stopSent (Nat.pos_of_ne_zero hne)) (by simp)
  have hcount := h.stopQueued
  refine { stops := ?_, stopQueued := ?_, stopSent := fun _ => rfl, stopLast := ?_, drained := ?_
           failed := fun hf => hfatal (h.failed hf), acked := ?_, pausedOnce := ?_
           closedForPause := h.closedForPause, ends := ?_ }
  · show w.stops + 1 ≤ 1
    omega
  · show (w.queue ++ [PoolItem.stop]).count .stop ≤ w.stops + 1
    simp only [List.count_append, List.count_singleton_self]
    omega
  · exact h.stopLast.append (.inr rfl)
  · intro hover
    exact absurd (h.drained hover).2 (by simp)
  · intro hack
    simpa [ReadWorker.pushStop, ReadWorker.push, ReadWorker.pending] using h.acked hack
  · simpa [ReadWorker.pushStop, ReadWorker.push, ReadWorker.pending] using h.pausedOnce
  · intro _
    exact .inl (List.mem_append_right _ List.mem_cons_self)

theorem Sound.advanceLifecycle (h : Sound cfg s) :
    Sound cfg s.advanceLifecycle ∧ s.advanceLifecycle.Advanced := by
  unfold ReadPool.advanceLifecycle
  split
  · rename_i hne
    exact ⟨h, fun _ hzero => absurd hzero hne⟩
  · rename_i hzero
    simp only [ne_eq, not_not] at hzero
    split
    · rename_i hpause
      obtain ⟨hstate, hcontrols⟩ := hpause
      have hfresh := h.fresh hcontrols
      have hload : (ReadWorker.load ∘ fun w => w.push .pause) = ReadWorker.load :=
        funext fun w => load_push rfl
      refine ⟨{ h with
        size := ?_, owed := ?_, counted := ?_, controls := ?_, acks := ?_, fresh := nofun
        paused := ?_, held := ?_, workers := ?_ }, ?_⟩
      · rw [List.length_map]
        exact h.size
      · rw [List.map_map, hload]
        exact h.owed
      · intro c
        have hhold : ((fun w => w.holding.count c) ∘ fun w : ReadWorker => w.push .pause) =
            fun w => w.holding.count c := funext fun w => congrArg _ (holding_push rfl)
        rw [List.map_map, hhold]
        exact h.counted c
      · intro _
        exact ⟨hzero, by simp [hstate]⟩
      · rw [List.countP_map]
        exact h.acks
      · intro hpaused
        rw [show s.state = .paused from hpaused] at hstate
        cases hstate
      · intro hheld
        exact absurd ((h.held hheld).1) (by simp [hcontrols])
      · intro w hw
        obtain ⟨v, hv, rfl⟩ := List.mem_map.mp hw
        exact sound_pushPause (h.workers v hv) (hfresh v hv).1 (hfresh v hv).2
      · intro hclosing
        rw [show s.state = .closing from hclosing] at hstate
        cases hstate
    · split
      · rename_i hstop
        obtain ⟨hstate, hflag⟩ := hstop
        have hload : (ReadWorker.load ∘ ReadWorker.pushStop) = ReadWorker.load :=
          funext load_pushStop
        have hacked : ((fun w => w.acked) ∘ ReadWorker.pushStop) = fun w => w.acked := rfl
        refine ⟨{ h with
          size := ?_, owed := ?_, counted := ?_, stopState := ?_, fatal := fun _ => rfl
          closed := fun _ => rfl, acks := ?_, fresh := ?_, paused := ?_, held := ?_
          workers := ?_ }, fun _ _ => rfl⟩
        · rw [List.length_map]
          exact h.size
        · rw [List.map_map, hload]
          exact h.owed
        · intro c
          have hhold : ((fun w => w.holding.count c) ∘ ReadWorker.pushStop) =
              fun w => w.holding.count c :=
            funext fun w => congrArg (List.count c) (holding_pushStop w)
          rw [List.map_map, hhold]
          exact h.counted c
        · intro _
          exact ⟨.inl hstate, .inl hzero⟩
        · rw [List.countP_map, hacked]
          exact h.acks
        · intro hcontrols w hw
          obtain ⟨v, hv, rfl⟩ := List.mem_map.mp hw
          simpa [ReadWorker.pushStop, ReadWorker.push, ReadWorker.pending] using
            h.fresh hcontrols v hv
        · intro hpaused
          rw [show s.state = .paused from hpaused] at hstate
          cases hstate
        · intro hheld
          obtain ⟨hcontrols, hall⟩ := h.held hheld
          refine ⟨hcontrols, fun w hw => ?_⟩
          obtain ⟨v, hv, rfl⟩ := List.mem_map.mp hw
          exact hall v hv
        · intro w hw
          obtain ⟨v, hv, rfl⟩ := List.mem_map.mp hw
          have hv' := h.workers v hv
          rw [hflag] at hv'
          exact sound_pushStop hv' _ id
      · rename_i hnot
        refine ⟨h, fun hclosing _ => ?_⟩
        cases hflag : s.stopEnqueued with
        | true => rfl
        | false => exact absurd ⟨hclosing, hflag⟩ hnot

theorem Sound.regrant (h : Sound cfg s) :
    Sound cfg (s.regrant cfg) ∧ (s.regrant cfg).Advanced :=
  (h.withAdm grantWaiters_keeps).advanceLifecycle

/-! ## One worker -/

section Change

variable {i : Nat} {w w' : ReadWorker}

theorem mem_of_set {l : List ReadWorker} {v : ReadWorker} (hv : v ∈ l.set i w') : v ∈ l ∨ v = w' :=
  List.mem_or_eq_of_mem_set hv

/-- A worker goes on, perhaps settling requests or releasing a slot. -/
theorem Sound.change (h : Sound cfg s) (hget : s.workers[i]? = some w) (adm : Admission)
    (out : List Nat) (howed : adm.owed + w.load = s.adm.owed + w'.load)
    (hle : adm.outstanding ≤ s.adm.outstanding)
    (hzero : s.adm.outstanding = 0 → adm.outstanding = 0) (hgone : ∀ c, s.adm.Gone c → adm.Gone c)
    (hhold : ∀ c, w'.holding.count c + out.count c = w.holding.count c)
    (hacked : w'.acked = w.acked) (hpending : w'.pending ≤ w.pending)
    (hw' : w'.Sound s.stopEnqueued s.fatalError) :
    Sound cfg { s with adm := adm, workers := s.workers.set i w', resolved := s.resolved ++ out } := by
  have hw := List.mem_of_getElem? hget
  have hquiet : s.Quiet → Quiet { s with adm := adm, workers := s.workers.set i w',
                                         resolved := s.resolved ++ out } := by
    rintro ⟨hcontrols, hall⟩
    refine ⟨hcontrols, fun v hv => ?_⟩
    rcases mem_of_set hv with hv | rfl
    · exact hall v hv
    · exact hacked.trans (hall w hw)
  refine { h with
    size := ?_, owed := ?_, bounded := ?_, counted := ?_, gone := fun c hc => hgone c (h.gone c hc)
    stopState := ?_, controls := ?_, acks := ?_, fresh := ?_
    paused := fun hp => hquiet (h.paused hp), held := fun hh => hquiet (h.held hh), workers := ?_ }
  · rw [List.length_set]
    exact h.size
  · have hsum := List.sum_map_set_add hget w' ReadWorker.load
    have hs := h.owed
    show adm.owed = (((s.workers.set i w').map ReadWorker.load).sum : Int)
    omega
  · exact Int.le_trans hle h.bounded
  · intro c
    have hsum := List.sum_map_set_add hget w' fun v => v.holding.count c
    have hs := h.counted c
    have hc := hhold c
    show s.dispatched.count c = (s.resolved ++ out).count c +
      ((s.workers.set i w').map fun v => v.holding.count c).sum
    rw [List.count_append]
    omega
  · intro hstop
    obtain ⟨hstate, hor⟩ := h.stopState hstop
    exact ⟨hstate, hor.imp_left hzero⟩
  · intro hcontrols
    obtain ⟨hz, hstate⟩ := h.controls hcontrols
    exact ⟨hzero hz, hstate⟩
  · have hcount := List.countP_set_add hget w' (fun v => v.acked)
    have hs := h.acks
    rw [hacked] at hcount
    show s.pauseAckCount = (s.workers.set i w').countP (·.acked)
    omega
  · intro hcontrols v hv
    rcases mem_of_set hv with hv | rfl
    · exact h.fresh hcontrols v hv
    · obtain ⟨ha, hp⟩ := h.fresh hcontrols w hw
      exact ⟨hacked.trans ha, by omega⟩
  · intro v hv
    rcases mem_of_set hv with hv | rfl
    · exact h.workers v hv
    · exact hw'

/-- A worker goes on with what it owns. -/
theorem Sound.setWorker (h : Sound cfg s) (hget : s.workers[i]? = some w)
    (hload : w'.load = w.load) (hhold : ∀ c, w'.holding.count c = w.holding.count c)
    (hacked : w'.acked = w.acked) (hpending : w'.pending ≤ w.pending)
    (hw' : w'.Sound s.stopEnqueued s.fatalError) : Sound cfg (s.setWorker i w') := by
  have hchange := h.change hget s.adm [] (by rw [hload]) (Int.le_refl _) id
    (fun _ => id) (fun c => by simpa using hhold c) hacked hpending hw'
  simpa [ReadPool.setWorker] using hchange

/-- A worker settles the request that it holds. -/
theorem Sound.settle (h : Sound cfg s) (hget : s.workers[i]? = some w) {c : Nat}
    (hload : w'.load = w.load)
    (hhold : ∀ d, w'.holding.count d + [c].count d = w.holding.count d)
    (hacked : w'.acked = w.acked) (hpending : w'.pending ≤ w.pending)
    (hw' : w'.Sound s.stopEnqueued s.fatalError) : Sound cfg (s.settle i w' c) :=
  h.change hget s.adm [c] (by rw [hload]) (Int.le_refl _) id
    (fun _ => id) hhold hacked hpending hw'

theorem Sound.load_le (h : Sound cfg s) (hget : s.workers[i]? = some w) :
    (w.load : Int) ≤ s.adm.outstanding := by
  have howed := h.owed
  have hle := owed_le s.adm
  obtain ⟨before, after, hl, -, -⟩ := List.focus_getElem? hget
  rw [hl, List.map_append, List.map_cons, List.sum_append, List.sum_cons] at howed
  omega

/-- A request that a worker holds is not settled. -/
theorem Sound.holding_unsettled (h : Sound cfg s) (hget : s.workers[i]? = some w) {c : Nat}
    (hc : c ∈ w.holding) : c ∉ s.resolved := by
  intro hres
  have hcount := h.counted c
  have hone := List.nodup_iff_count.mp h.nodup c
  have hheld := List.count_pos_iff.mpr hc
  have hsettled := List.count_pos_iff.mpr hres
  obtain ⟨before, after, hl, -, -⟩ := List.focus_getElem? hget
  rw [hl, List.map_append, List.map_cons, List.sum_append, List.sum_cons] at hcount
  omega

/-- A worker that owns a slot has not acknowledged a pause. -/
theorem Sound.owner_not_acked (h : Sound cfg s) (hget : s.workers[i]? = some w) (hload : 0 < w.load) :
    w.acked = false := by
  have hle := h.load_le hget
  cases hc : s.pauseControlsEnqueued with
  | true =>
    have hzero := (h.controls hc).1
    omega
  | false => exact (h.fresh hc w (List.mem_of_getElem? hget)).1

theorem Sound.evolve (h : Sound cfg s) (hget : s.workers[i]? = some w) (hqueue : w'.queue = w.queue)
    (hstops : w'.stops = w.stops) (hacked : w'.acked = w.acked)
    (hconn : w.acked = true → w'.connection = false ∧ w'.connectionOpen = false)
    (howns : w'.phase.owns = w.phase.owns) (hactive : w'.phase.active = w.phase.active)
    (hpauses : w'.phase.pauses ≤ w.phase.pauses)
    (hover : w'.phase.Over → PoolItem.requests w.queue = [] ∧ s.stopEnqueued = true)
    (hfailed : w'.phase.Failed → s.fatalError = true)
    (hclosed : w'.phase = .acknowledging → w'.connection = false ∧ w'.connectionOpen = false)
    (hends : w.phase.Ending → w'.phase.Ending) : Sound cfg (s.setWorker i w') := by
  have hw := h.workers w (List.mem_of_getElem? hget)
  apply h.setWorker hget
  · rw [ReadWorker.load, ReadWorker.load, hqueue, howns]
  · intro c
    rw [ReadWorker.holding, ReadWorker.holding, hqueue, hactive]
  · exact hacked
  · rw [ReadWorker.pending, ReadWorker.pending, hqueue]
    omega
  · exact hw.evolve hqueue hstops hacked hconn hpauses hover hfailed hclosed hends

/-- A worker settles its active request. -/
theorem Sound.complete (h : Sound cfg s) (hget : s.workers[i]? = some w) {c : Nat}
    (hqueue : w'.queue = w.queue) (hstops : w'.stops = w.stops) (hacked : w'.acked = w.acked)
    (hconn : w.acked = true → w'.connection = false ∧ w'.connectionOpen = false)
    (howns : w'.phase.owns = w.phase.owns) (hfrom : w.phase.active = [c])
    (hnone : w'.phase.active = []) (hpauses : w'.phase.pauses ≤ w.phase.pauses)
    (hover : ¬ w'.phase.Over) (hfailed : w'.phase.Failed → s.fatalError = true)
    (hclosed : w'.phase ≠ .acknowledging) (hends : w.phase.Ending → w'.phase.Ending) :
    Sound cfg (s.settle i w' c) := by
  have hw := h.workers w (List.mem_of_getElem? hget)
  apply h.settle hget
  · rw [ReadWorker.load, ReadWorker.load, hqueue, howns]
  · intro d
    rw [ReadWorker.holding, ReadWorker.holding, hqueue, hnone, hfrom]
    simp only [List.count_append, List.count_nil]
    omega
  · exact hacked
  · rw [ReadWorker.pending, ReadWorker.pending, hqueue]
    omega
  · exact hw.evolve hqueue hstops hacked hconn hpauses (fun ho => absurd ho hover)
      hfailed (fun ha => absurd ha hclosed) hends

end Change

/-! ## Releasing a slot -/

/-- Where a worker stands does not take part in a regrant. -/
theorem regrant_setPhase (cfg : PoolConfig) {s : ReadPool} {i : Nat} {w : ReadWorker}
    (hget : s.workers[i]? = some w) (phase : ReadPhase) :
    ∃ w', (s.regrant cfg).workers[i]? = some w' ∧
      (s.regrant cfg).setWorker i { w' with phase := phase } =
        regrant cfg (s.setWorker i { w with phase := phase }) := by
  unfold ReadPool.regrant ReadPool.advanceLifecycle ReadPool.setWorker
  dsimp only
  split
  · exact ⟨w, hget, rfl⟩
  · split
    · refine ⟨w.push .pause, by simp [hget], ?_⟩
      rw [List.map_set]
      rfl
    · split
      · refine ⟨w.pushStop, by simp [hget], ?_⟩
        rw [List.map_set]
        rfl
      · exact ⟨w, hget, rfl⟩

/-- A worker releases its slot. -/
theorem Sound.release (h : Sound cfg s) {i : Nat} {w : ReadWorker} (hget : s.workers[i]? = some w)
    (phase : ReadPhase) (hfrom : w.phase.owns = 1) (hto : phase.owns = 0)
    (hactive : phase.active = w.phase.active) (hpauses : phase.pauses ≤ w.phase.pauses)
    (hover : ¬ phase.Over) (hfailed : phase.Failed → s.fatalError = true)
    (hclosed : phase ≠ .acknowledging) (hends : w.phase.Ending → phase.Ending) :
    ∃ s₁ w₁, releaseCapacity cfg s = some s₁ ∧ s₁.workers[i]? = some w₁ ∧
      Sound cfg (s₁.setWorker i { w₁ with phase := phase }) ∧
      (s₁.setWorker i { w₁ with phase := phase }).Advanced := by
  have hw := h.workers w (List.mem_of_getElem? hget)
  have hle := h.load_le hget
  have hload : w.load = (PoolItem.requests w.queue).length + 1 := by
    rw [ReadWorker.load, hfrom]
  have hpos : ¬ s.adm.outstanding ≤ 0 := by omega
  obtain ⟨w₁, hget₁, heq⟩ := regrant_setPhase cfg
    (s := { s with adm := { s.adm with outstanding := s.adm.outstanding - 1 } }) hget phase
  refine ⟨_, w₁, if_neg hpos, hget₁, ?_⟩
  rw [heq]
  apply Sound.regrant
  have hload' : ReadWorker.load { w with phase := phase } = (PoolItem.requests w.queue).length := by
    rw [ReadWorker.load, hto, Nat.add_zero]
  have hfinal : Sound cfg { s with
      adm := { s.adm with outstanding := s.adm.outstanding - 1 }
      workers := s.workers.set i { w with phase := phase }
      resolved := s.resolved ++ [] } := by
    refine h.change hget _ [] ?_ ?_ ?_ (fun _ => id) ?_ rfl ?_ ?_
    · rw [owed_release, hload, hload']
      omega
    · show s.adm.outstanding - 1 ≤ s.adm.outstanding
      omega
    · intro hzero
      omega
    · intro c
      rw [ReadWorker.holding, ReadWorker.holding, hactive]
      rfl
    · simp only [ReadWorker.pending]
      omega
    · exact hw.evolve rfl rfl rfl (fun ha => ⟨(hw.acked ha).1, (hw.acked ha).2.1⟩)
        hpauses (fun ho => absurd ho hover) hfailed (fun ha => absurd ha hclosed) hends
  rw [List.append_nil] at hfinal
  exact hfinal

/-! ## Pausing and stopping -/

/-- Ending the pause tells its pausers. -/
theorem Sound.settlePause (h : Sound cfg s) (outcome : FutureState) (phase : PauserPhase)
    (hphase : phase = .completed → s.Quiet) : Sound cfg (s.settlePause outcome phase) := by
  unfold ReadPool.settlePause
  split
  · refine { h with held := ?_ }
    intro hheld
    rcases hheld with hheld | hcompleted
    · exact h.held (.inl hheld)
    · obtain ⟨p, hp, heq⟩ := List.mem_map.mp hcompleted
      split at heq
      · exact hphase heq
      · exact h.held (.inr (heq ▸ hp))
  · exact h

theorem settlePause_frame (outcome : FutureState) (phase : PauserPhase) :
    (s.settlePause outcome phase).state = s.state ∧
      (s.settlePause outcome phase).adm = s.adm ∧
      (s.settlePause outcome phase).workers = s.workers ∧
      (s.settlePause outcome phase).stopEnqueued = s.stopEnqueued ∧
      (s.settlePause outcome phase).fatalError = s.fatalError := by
  unfold ReadPool.settlePause
  split <;> exact ⟨rfl, rfl, rfl, rfl, rfl⟩

/-- A worker acknowledges the pause; the last one completes it. -/
theorem Sound.acknowledge (h : Sound cfg s) (hadv : s.Advanced) {i : Nat} {w : ReadWorker}
    (hget : s.workers[i]? = some w) (hphase : w.phase = .acknowledging) :
    Sound cfg (acknowledgePause cfg (s.setWorker i { w with acked := true, phase := .idle })) ∧
      (acknowledgePause cfg (s.setWorker i { w with acked := true, phase := .idle })).Advanced := by
  have hmem := List.mem_of_getElem? hget
  have hw := h.workers w hmem
  have hone := hw.pausedOnce
  have hpending : w.pending = w.queue.count .pause + 1 := by
    rw [ReadWorker.pending, hphase, ReadPhase.pauses]
  have hzero : w.queue.count .pause = 0 := by omega
  have hnot : w.acked = false := by
    cases hack : w.acked with
    | false => rfl
    | true =>
      have hz := (hw.acked hack).2.2
      omega
  have hcontrols : s.pauseControlsEnqueued = true := by
    cases hc : s.pauseControlsEnqueued with
    | true => rfl
    | false =>
      have hz := (h.fresh hc w hmem).2
      omega
  obtain ⟨hout, hopen⟩ := h.controls hcontrols
  have hacks : s.pauseAckCount + 1 =
      (s.workers.set i { w with acked := true, phase := .idle }).countP (·.acked) := by
    have hcount := List.countP_set_add hget { w with acked := true, phase := .idle } (fun v => v.acked)
    have hs := h.acks
    simp only [hnot, Bool.false_eq_true, if_false, if_true] at hcount
    omega
  have hquiet : s.Quiet → Quiet { s with
      workers := s.workers.set i { w with acked := true, phase := .idle } } := by
    rintro ⟨-, hall⟩
    refine ⟨hcontrols, fun v hv => ?_⟩
    rcases mem_of_set hv with hv | rfl
    · exact hall v hv
    · rfl
  have hnext : Sound cfg { s.setWorker i { w with acked := true, phase := .idle } with
      pauseAckCount := s.pauseAckCount + 1 } := by
    have hload := List.sum_map_set_add hget { w with acked := true, phase := .idle } ReadWorker.load
    refine { h with
      size := ?_, owed := ?_, counted := ?_, acks := hacks, fresh := ?_
      paused := fun hp => hquiet (h.paused hp), held := fun hh => hquiet (h.held hh), workers := ?_ }
    · rw [← h.size]
      exact List.length_set
    · have hs := h.owed
      have hsame : ReadWorker.load { w with acked := true, phase := .idle } = w.load := by
        simp [ReadWorker.load, hphase]
      show s.adm.owed = (((s.workers.set i { w with acked := true, phase := .idle }).map
        ReadWorker.load).sum : Int)
      omega
    · intro c
      have hsum := List.sum_map_set_add hget { w with acked := true, phase := .idle }
        fun v => v.holding.count c
      have hsame : (ReadWorker.holding { w with acked := true, phase := .idle }).count c =
          w.holding.count c := by
        simp [ReadWorker.holding, hphase]
      have hs := h.counted c
      show s.dispatched.count c = s.resolved.count c +
        ((s.workers.set i { w with acked := true, phase := .idle }).map
          fun v => v.holding.count c).sum
      omega
    · intro hc
      exact absurd (hcontrols.symm.trans hc) (by simp)
    · intro v hv
      rcases mem_of_set hv with hv | rfl
      · exact h.workers v hv
      · refine { hw with drained := nofun, failed := nofun, acked := ?_, pausedOnce := ?_
                         closedForPause := nofun, ends := ?_ }
        · intro _
          obtain ⟨hc, ho⟩ := hw.closedForPause hphase
          exact ⟨hc, ho, by simp [ReadWorker.pending, hzero]⟩
        · simp [ReadWorker.pending, hzero]
        · intro hs
          refine (hw.ends hs).imp_right fun he => ?_
          rw [hphase] at he
          exact he.elim
  unfold acknowledgePause
  dsimp only
  split
  · exact ⟨hnext, hadv⟩
  · rename_i hall
    simp only [ne_eq, not_not] at hall
    split
    · rename_i hstate
      change s.state = .pausing at hstate
      have hnostop : s.stopEnqueued = false := by
        cases hs : s.stopEnqueued with
        | false => rfl
        | true => rcases (h.stopState hs).1 with hc | hc <;> rw [hstate] at hc <;> cases hc
      have hq : Quiet { s.setWorker i { w with acked := true, phase := .idle } with
          pauseAckCount := s.pauseAckCount + 1, state := .paused } := by
        refine ⟨hcontrols, fun v hv => ?_⟩
        change s.pauseAckCount + 1 = cfg.maxConnections at hall
        have hlen : (s.workers.set i { w with acked := true, phase := .idle }).countP (·.acked) =
            (s.workers.set i { w with acked := true, phase := .idle }).length := by
          rw [← hacks, hall, List.length_set, h.size]
        exact List.countP_eq_length.mp hlen v hv
      have hpaused : Sound cfg { s.setWorker i { w with acked := true, phase := .idle } with
          pauseAckCount := s.pauseAckCount + 1, state := .paused } := by
        refine { hnext with
          stopState := ?_, closed := nofun, controls := fun _ => ⟨hout, nofun⟩
          paused := fun _ => hq, held := fun _ => hq }
        intro hs
        exact absurd (hnostop.symm.trans hs) (by simp)
      refine ⟨hpaused.settlePause _ _ fun _ => hq, ?_⟩
      intro hclosing
      rw [(settlePause_frame _ _).1] at hclosing
      cases hclosing
    · exact ⟨hnext, hadv⟩

end ReadPool
end RapidInbox
