import GraphRefly.Collections.Backend
import GraphRefly.Wave.Batch

/-!
# Scans of a Log

`scan` folds a log as it grows. Its node listens to the delta node of the log and
keeps the fold of what it has processed. It reads the log itself for the values
and takes the deltas only as a hint: a trim or a clear among them starts the fold
anew, and if more values were appended than the log can hold on top of what was
processed, the run is skipped, because the trim that explains it is still to come.

The log is ahead of its deltas. It is trimmed before the delta of the append goes
out, and in a batch it changes at once while the delta node's slice waits for the
commit, where a later delta replaces an earlier one.

The node is a slot of the engine, and what it does with a message is what the
engine's slot functions do. What it sends to its own subscribers besides values is
left out.

## Main definitions

* `LogScan.run`: One run of the scan.
* `ScanWorld`: A log, its delta node and the scan node.
* `ScanWorld.Act`, `ScanWorld.step`: What a caller does.
* `ScanView`: What of the slot matters.

## Theorems

* `view_told`, `view_pauseScan`, `view_resumeScan`: The slot follows its view.
-/

namespace GraphRefly.Collections

variable {T A : Type}

/-- What the nodes around a log carry: a delta, or what a scan computed. -/
inductive Datum (T A : Type)
  | change (c : LogChange T)
  | acc (a : A)

/-! ### The scan fn -/

/-- How many values a delta appends. -/
def LogChange.appended : LogChange T → Nat
  | .append _ => 1
  | .appendMany values => values.length
  | .trimHead _ | .clear _ => 0

/-- The delta takes values away. -/
def LogChange.resets : LogChange T → Bool
  | .trimHead _ | .clear _ => true
  | _ => false

/-- How many values a batch of deltas appends. -/
def appendedBy (changes : List (LogChange T)) : Nat :=
  (changes.map LogChange.appended).sum

/-- What `scan` is given. -/
structure LogScan (T A : Type) where
  initial : A
  step : A → T → A

/-- What the node keeps between two runs. -/
structure LogScanState (A : Type) where
  acc : A
  processed : Nat

/-- The deltas that dep `i` delivered in this invocation. -/
def ctxBatch (records : List (DepRecord (Datum T A))) (i : Nat) : List (LogChange T) :=
  match records[i]? with
  | some r => r.waveData.flatten.filterMap fun
      | .data (.change c) => some c
      | _ => none
  | none => []

/-- One run: the state to keep, and the value to emit, if any. -/
def LogScan.run (k : LogScan T A) (changes : List (LogChange T))
    (previous : Option (LogScanState A)) (all : List T) : LogScanState A × Option A :=
  let appended := appendedBy changes
  let resetChange := changes.any LogChange.resets
  let s := previous.getD ⟨k.initial, 0⟩
  let s := if resetChange ∨ all.length < s.processed then ⟨k.initial, 0⟩ else s
  if 0 < appended ∧ all.length < s.processed + appended then (s, none)
  else
    let acc := (all.drop s.processed).foldl k.step s.acc
    (⟨acc, all.length⟩, some acc)

/-! ### The world -/

/-- A log with its delta node and a scan of it. `batch` has what the log emitted in
    the open batch, `announced` whether the DIRTY of the delta node is out. -/
structure ScanWorld (T A : Type) where
  content : List T
  delta : Option (LogChange T) := none
  announced : Bool := false
  batch : Option (List (LogChange T)) := none
  scan : Node (Datum T A) (LogScanState A)
  deliveries : Nat := 1

/-- The scan node before anybody subscribes to it. The delta node is node 0. -/
def scanNode (T A : Type) : Node (Datum T A) (LogScanState A) where
  live := true
  deps := [0]
  handle := some (0, .sync)
  config := { isPartial := true }
  dep := DepState.new 1
  unsubs := [none]
  idxBoxes := [none]
  restoredHandshake := [false]

section Slot

variable (k : LogScan T A) (all : List T)

section

variable (x : Node (Datum T A) (LogScanState A))

/-- A run of the scan node while the log holds `all`. -/
def runScan : Node (Datum T A) (LogScanState A) :=
  let r := k.run (ctxBatch x.depRecords 0) x.aux.state all
  let x1 := x.runStarted
  let x2 := { x1 with aux := { x1.aux with state := some r.1 } }
  let x3 := match r.2 with
    | some a => (x2.collectDown (.data (.acc a))).1
    | none => x2
  ({ x3 with wave := { x3.wave with insideRunWave := false } } : Node _ _).runRolled false

/-- The decision at the end of a delivery, and the run it leads to. -/
def maybeRunScan : Node (Datum T A) (LogScanState A) :=
  let r := x.decideMaybeRun
  match r.2 with
  | .run => runScan k all r.1
  | _ => r.1

/-- What a received message asks for: inside a delivery the decision is left to its
    end, otherwise it is there already. -/
def applyReceived (r : Node (Datum T A) (LogScanState A) × ReceiveAction (Datum T A)) :
    Node (Datum T A) (LogScanState A) :=
  if r.2.deferMaybeRun then maybeRunScan k all r.1
  else match r.2.maybeRunDecision with
    | .run => runScan k all r.1
    | _ => r.1

/-- A resumed node fires once if it skipped a wave, unless its dep is dirty. -/
def resumeScan (lock : LockId) :
    Node (Datum T A) (LogScanState A) :=
  if lock ∈ x.aux.pauseLockset then
    let left := x.aux.pauseLockset.filter (· ≠ lock)
    let x1 := { x with aux := { x.aux with pauseLockset := left } }
    if left.isEmpty then
      let x2 := { x1 with aux := { x1.aux with pausedDepWaveOccurred := false } }
      if x.aux.pausedDepWaveOccurred ∧ ¬ 0 < x2.dep.pending ∧ x2.gateOpen then
        runScan k all x2
      else x2
    else x1
  else x

end

end Slot

/-- Acquire a lock; a repeat of the same id is idempotent. -/
def pauseScan (x : Node (Datum T A) (LogScanState A)) (lock : LockId) :
    Node (Datum T A) (LogScanState A) :=
  if lock ∈ x.aux.pauseLockset then x
  else { x with aux := { x.aux with pauseLockset := x.aux.pauseLockset ++ [lock] } }

/-- The last slice the delta node hands to a batch replaces the earlier ones. -/
def heldSlice (emitted : List (LogChange T)) : List (NodeId × Wave (LogChange T)) :=
  emitted.foldl (fun held c => hold held 0 [.data c]) []

/-- What a commit delivers. -/
def committedDeltas (emitted : List (LogChange T)) : List (LogChange T) :=
  (heldSlice emitted).flatMap fun e => e.2.filterMap fun
    | .data c => some c
    | _ => none

/-- What a caller does. A nested batch belongs to the outer one. -/
inductive ScanAct (T : Type)
  | call (op : LogOp T)
  | openBatch
  | commit
  | rollback
  | pause (lock : LockId)
  | resume (lock : LockId)
  | subscribe
  | unsubscribe

namespace ScanWorld

section Step

variable (maxSize : Option ℕ+) (k : LogScan T A)

section

variable (w : ScanWorld T A)

/-- The delta node tells the scan node, if it listens. -/
def tell (inFlight : Bool) (m : Message (Datum T A)) : ScanWorld T A :=
  if w.scan.aux.activated then
    { w with scan := applyReceived k w.content (w.scan.receive w.deliveries inFlight 0 m) }
  else w

/-- DIRTY goes out once. -/
def announce : ScanWorld T A :=
  if w.announced then w else tell k { w with announced := true } true .dirty

/-- The delta node emits a delta. -/
def downDelta (c : LogChange T) : ScanWorld T A :=
  let w1 := announce k w
  let w2 := tell k { w1 with delta := some c, deliveries := w1.deliveries + 1 } true
    (.data (.change c))
  { w2 with announced := false }

/-- The log emits a delta: at once, or into the open batch. -/
def emit (c : LogChange T) : ScanWorld T A :=
  match w.batch with
  | some emitted => announce k { w with batch := some (emitted ++ [c]) }
  | none => downDelta k w c

/-- A mutation: the backend first, then its deltas. -/
def call (w : ScanWorld T A) (op : LogOp T) : ScanWorld T A :=
  let versions := (logBackend T maxSize).call w.content op
  (versions.map (·.1)).foldl (emit k)
    { w with content := Backend.final w.content versions }

/-- The batch commits: the held slice is emitted. -/
def commit (emitted : List (LogChange T)) : ScanWorld T A :=
  (committedDeltas emitted).foldl (downDelta k) { w with batch := none }

/-- The delta node balances its DIRTY with one RESOLVED. -/
def downResolved : ScanWorld T A :=
  let w1 := tell k { w with deliveries := w.deliveries + 1 } true .resolved
  { w1 with announced := false }

/-- The batch is rolled back. -/
def rollback (emitted : List (LogChange T)) : ScanWorld T A :=
  let w1 := { w with batch := none }
  if (heldSlice emitted).isEmpty then w1 else downResolved k w1

/-- The first subscriber activates the scan node, which the delta node greets with
    its last delta. -/
def subscribe : ScanWorld T A :=
  if w.scan.aux.activated then w
  else
    let w1 := { w with scan := { w.scan with aux := { w.scan.aux with activated := true } } }
    match w.delta with
    | some c => tell k w1 false (.data (.change c))
    | none => if w1.announced then tell k w1 false .dirty else w1

def step : ScanAct T → ScanWorld T A
  | .call op => call maxSize k w op
  | .openBatch => if w.batch.isSome then w else { w with batch := some [] }
  | .commit => match w.batch with
    | some emitted => commit k w emitted
    | none => w
  | .rollback => match w.batch with
    | some emitted => rollback k w emitted
    | none => w
  | .pause lock => { w with scan := pauseScan w.scan lock }
  | .resume lock => { w with scan := resumeScan k w.content w.scan lock }
  | .subscribe => subscribe k w
  | .unsubscribe => if w.scan.aux.activated then { w with scan := w.scan.deactivated } else w

end

end Step

end ScanWorld

/-! ### What of the slot matters -/

/-- The scan node as far as its value depends on it. -/
structure ScanView (T A : Type) where
  waiting : List (LogChange T)
  dirty : Bool
  locks : List LockId
  skipped : Bool
  state : Option (LogScanState A)
  cache : Option A
  activated : Bool

/-- What the scan node has computed. -/
def Datum.acc? : Datum T A → Option A
  | .acc a => some a
  | .change _ => none

/-- The deltas in what a dep delivered. -/
def deltasIn (waves : List (List (WaveData (Datum T A)))) : List (LogChange T) :=
  waves.flatten.filterMap fun
    | .data (.change c) => some c
    | _ => none

/-- The view of a slot. -/
def scanView (x : Node (Datum T A) (LogScanState A)) : ScanView T A where
  waiting := deltasIn (x.dep.batchWaves.getD 0 [])
  dirty := x.dep.dirty.getD 0 false
  locks := x.aux.pauseLockset
  skipped := x.aux.pausedDepWaveOccurred
  state := x.aux.state
  cache := x.value.cache.bind Datum.acc?
  activated := x.aux.activated

/-- A slot that listens to the delta node. -/
structure Listens (x : Node (Datum T A) (LogScanState A)) : Prop where
  deps : x.deps = [0]
  handle : x.handle = some (0, .sync)
  config : x.config = { isPartial := true }
  terminal : x.value.terminal = false
  settled : x.wave.inDepMutation = false
  handshake : x.restoredHandshake = [false]
  persist : x.aux.statePersist = false
  waves : ∃ ws, x.dep.batchWaves = [ws]
  dirty : ∃ b, x.dep.dirty = [b] ∧ x.dep.pending = if b then 1 else 0

theorem listens_scanNode (T A : Type) : Listens (scanNode T A) :=
  ⟨rfl, rfl, rfl, rfl, rfl, rfl, rfl, ⟨_, rfl⟩, ⟨_, rfl, rfl⟩⟩

namespace ScanView

variable (k : LogScan T A) (all : List T)

section

variable (v : ScanView T A)

/-- A run. -/
def run (v : ScanView T A) : ScanView T A :=
  { v with
    waiting := []
    state := some (k.run v.waiting v.state all).1
    cache := (k.run v.waiting v.state all).2.or v.cache }

/-- The end of a delivery: a paused node remembers that it did not run. -/
def settle : ScanView T A :=
  if v.locks.isEmpty then (if v.dirty then v else v.run k all) else { v with skipped := true }

/-- The message a slot can be told. -/
def told : Message (Datum T A) → ScanView T A
  | .dirty => { v with dirty := true }
  | .data (.change c) =>
    ({ v with waiting := v.waiting ++ [c], dirty := false } : ScanView T A).settle k all
  | .resolved => ({ v with dirty := false } : ScanView T A).settle k all
  | _ => v

def paused (lock : LockId) : ScanView T A :=
  if lock ∈ v.locks then v else { v with locks := v.locks ++ [lock] }

def resumed (lock : LockId) : ScanView T A :=
  if lock ∈ v.locks then
    let left := v.locks.filter (· ≠ lock)
    if left.isEmpty then
      let v1 := { v with locks := left, skipped := false }
      if v.skipped ∧ v.dirty = false then v1.run k all else v1
    else { v with locks := left }
  else v

end

end ScanView

section View

variable {k : LogScan T A} {all : List T} {x : Node (Datum T A) (LogScanState A)}

theorem Listens.ctxBatch (h : Listens x) : ctxBatch x.depRecords 0 = (scanView x).waiting := by
  unfold Node.depRecords
  rw [h.deps]
  rfl

theorem Listens.gateOpen (h : Listens x) : x.gateOpen = true := by
  unfold Node.gateOpen
  rw [h.config]
  simp

-- A run takes what is waiting, and keeps and emits what the fn says.
theorem view_runScan (h : Listens x) :
    Listens (runScan k all x) ∧ scanView (runScan k all x) = (scanView x).run k all := by
  rcases h.waves with ⟨ws, hws⟩
  rcases h.dirty with ⟨b, hb, hp⟩
  have htaken : (x.dep.taken x.deps.length).batchWaves = [[]] := by
    simp [DepState.taken, hws, h.deps]
  have hrun : (scanView x).run k all = { scanView x with
      waiting := []
      state := some (k.run (scanView x).waiting x.aux.state all).1
      cache := (k.run (scanView x).waiting x.aux.state all).2.or (scanView x).cache } := rfl
  rw [hrun]
  unfold runScan
  rw [h.ctxBatch]
  generalize k.run (scanView x).waiting x.aux.state all = r
  rcases r with ⟨st, out⟩
  cases out with
  | none =>
    refine ⟨⟨h.deps, h.handle, h.config, h.terminal, h.settled, h.handshake, h.persist,
      ⟨[], htaken⟩, ⟨b, hb, hp⟩⟩, ?_⟩
    simp only [scanView, Node.runRolled, Node.runStarted, DepState.rolled, htaken]
    rfl
  | some a =>
    refine ⟨⟨h.deps, h.handle, h.config, h.terminal, h.settled, h.handshake, h.persist,
      ⟨[], htaken⟩, ⟨b, hb, hp⟩⟩, ?_⟩
    simp only [scanView, Node.runRolled, Node.runStarted, Node.collectDown,
      DepState.rolled, htaken]
    rfl

-- The decision waits for the locks first, then for the dep.
theorem view_maybeRunScan (h : Listens x) :
    Listens (maybeRunScan k all x) ∧
      scanView (maybeRunScan k all x) = (scanView x).settle k all := by
  rcases h.dirty with ⟨b, hb, hp⟩
  have hquiet : x.pullQuiet = false := by
    unfold Node.pullQuiet
    rw [h.config]
    rfl
  have hlocks : (scanView x).locks.isEmpty = !x.isPaused := by
    unfold Node.isPaused
    exact (Bool.not_not _).symm
  have hdirty : (scanView x).dirty = b := by
    simp [scanView, hb]
  unfold maybeRunScan Node.decideMaybeRun ScanView.settle
  rw [if_neg (by rw [h.settled]; exact Bool.false_ne_true), hquiet, hlocks]
  cases hpaused : x.isPaused with
  | true =>
    rw [if_pos ⟨by rw [h.config], Or.inl rfl⟩, if_neg (by simp)]
    exact ⟨⟨h.deps, h.handle, h.config, h.terminal, h.settled, h.handshake, h.persist, h.waves,
      h.dirty⟩, rfl⟩
  | false =>
    rw [if_neg (by simp), if_pos (show (!false) = true from rfl)]
    cases b with
    | true =>
      rw [if_pos (by rw [hp]; decide), if_pos hdirty]
      exact ⟨h, rfl⟩
    | false =>
      rw [if_neg (by rw [hp]; decide), if_neg (by rw [h.handle]; decide),
        if_neg (by rw [h.gateOpen]; decide), if_neg (by rw [hdirty]; decide)]
      exact view_runScan h

-- What a delivery adds to the waves of a dep, it adds to what they carry.
theorem deltasIn_recordInWave {d : DepState (Datum T A)} {ws : List (List (WaveData (Datum T A)))}
    (h : d.batchWaves = [ws]) (id : Nat) (items : List (WaveData (Datum T A))) :
    ∃ ws', (d.recordInWave id 0 items).batchWaves = [ws'] ∧
      deltasIn ws' = deltasIn ws ++ deltasIn [items] := by
  unfold DepState.recordInWave
  simp only [h, List.getD_cons_zero]
  split_ifs
  · refine ⟨ws.dropLast ++ [ws.getLastD [] ++ items], rfl, ?_⟩
    cases ws using List.reverseRecOn with
    | nil => rfl
    | append_singleton ws w =>
      simp [deltasIn, List.filterMap_append]
  · refine ⟨ws ++ [items], rfl, ?_⟩
    simp [deltasIn, List.filterMap_append]

-- With the only dep settled, the decision is due.
theorem applyReceived_settled (h : Listens x) (hb : x.dep.dirty.getD 0 false = false)
    (inFlight : Bool) :
    applyReceived k all (x.settleReceived inFlight) = maybeRunScan k all x := by
  rcases h.dirty with ⟨b, hd, hp⟩
  have hp0 : x.dep.pending = 0 := by
    rw [hd] at hb
    rw [hp, if_neg (by rw [show b = false from hb]; decide)]
  have hnote : x.noteSkippedWave = x := by
    unfold Node.noteSkippedWave
    exact if_neg fun hne => hne.1 hp0
  unfold Node.settleReceived
  rw [hnote]
  simp only [hp0, if_true]
  cases inFlight <;> rfl

-- The dep is no longer dirty.
theorem undirty_zero {V : Type} {d : DepState V} {b : Bool} (hd : d.dirty = [b])
    (hp : d.pending = if b then 1 else 0) :
    (d.undirty 0).dirty = [false] ∧ (d.undirty 0).pending = 0 ∧
      (d.undirty 0).batchWaves = d.batchWaves := by
  unfold DepState.undirty
  cases b with
  | true =>
    rw [if_pos (by rw [hd]; rfl)]
    refine ⟨by rw [hd]; rfl, ?_, rfl⟩
    rw [hp]
    rfl
  | false =>
    rw [if_neg (by rw [hd]; decide)]
    exact ⟨hd, hp, rfl⟩

-- Taking a message in, and what follows when the delivery is over.
theorem view_dirty (h : Listens x) (id : Nat) (inFlight : Bool) :
    Listens (applyReceived k all (x.receive id inFlight 0 .dirty)) ∧
      scanView (applyReceived k all (x.receive id inFlight 0 .dirty)) =
        { scanView x with dirty := true } := by
  rcases h.dirty with ⟨b, hd, hp⟩
  unfold Node.receive
  rw [if_neg (by rw [h.terminal]; decide)]
  simp only [Node.receiveDirty]
  cases b with
  | true =>
    rw [if_pos (by rw [hd]; rfl)]
    refine ⟨h, ?_⟩
    have hdirty : (scanView x).dirty = true := by
      simp [scanView, hd]
    conv_lhs => rw [show applyReceived k all (x, {}) = x from rfl]
    rw [← hdirty]
  | false =>
    rw [if_neg (by rw [hd]; decide)]
    have hset : x.dep.dirty.set 0 true = [true] := by rw [hd]; rfl
    have hone : x.dep.pending + 1 = if true then 1 else 0 := by rw [hp]; rfl
    split_ifs
    · refine ⟨⟨h.deps, h.handle, h.config, h.terminal, h.settled, h.handshake, h.persist, h.waves,
        ⟨true, hset, hone⟩⟩, ?_⟩
      simp only [applyReceived, scanView, hset]
      rfl
    · refine ⟨⟨h.deps, h.handle, h.config, h.terminal, h.settled, h.handshake, h.persist, h.waves,
        ⟨true, hset, hone⟩⟩, ?_⟩
      simp only [applyReceived, scanView, hset]
      rfl

-- The only dep has settled with these items: what the wave carries waits.
theorem view_settled (h : Listens x) (id : Nat) (inFlight : Bool)
    (items : List (WaveData (Datum T A))) {y : Node (Datum T A) (LogScanState A)}
    (hy : ∃ d, d.batchWaves = (x.dep.recordInWave id 0 items).batchWaves ∧
      d.dirty = x.dep.dirty ∧ d.pending = x.dep.pending ∧
      y = { x with dep := DepState.undirty d 0 }) :
    Listens (applyReceived k all (y.settleReceived inFlight)) ∧
      scanView (applyReceived k all (y.settleReceived inFlight)) =
        ({ scanView x with
          waiting := (scanView x).waiting ++ deltasIn [items]
          dirty := false } : ScanView T A).settle k all := by
  rcases hy with ⟨d, hwaves, hdirty, hpending, rfl⟩
  rcases h.waves with ⟨ws, hws⟩
  rcases h.dirty with ⟨b, hd, hp⟩
  rcases deltasIn_recordInWave hws id items with ⟨ws', hws', hitems⟩
  rcases undirty_zero (hdirty.trans hd) (hpending.trans hp) with ⟨hd', hp', hw'⟩
  have hw : (d.undirty 0).batchWaves = [ws'] := hw'.trans (hwaves.trans hws')
  have hlistens : Listens { x with dep := d.undirty 0 } :=
    ⟨h.deps, h.handle, h.config, h.terminal, h.settled, h.handshake, h.persist, ⟨ws', hw⟩,
      ⟨false, hd', hp'⟩⟩
  have hview : scanView { x with dep := d.undirty 0 } =
      { scanView x with
        waiting := (scanView x).waiting ++ deltasIn [items]
        dirty := false } := by
    simp only [scanView, hw, hd', hws, List.getD_cons_zero, hitems]
  rw [applyReceived_settled hlistens (by rw [hd']; rfl), ← hview]
  exact view_maybeRunScan hlistens

theorem view_data (h : Listens x) (id : Nat) (inFlight : Bool) (c : LogChange T) :
    Listens (applyReceived k all (x.receive id inFlight 0 (.data (.change c)))) ∧
      scanView (applyReceived k all (x.receive id inFlight 0 (.data (.change c)))) =
        ({ scanView x with waiting := (scanView x).waiting ++ [c], dirty := false } :
          ScanView T A).settle k all := by
  have hreceive : x.receive id inFlight 0 (.data (.change c)) =
      x.receiveData id inFlight 0 (.change c) := by
    unfold Node.receive
    rw [if_neg (by rw [h.terminal]; decide)]
  rw [hreceive]
  unfold Node.receiveData
  rw [if_neg (by rw [h.handshake]; decide)]
  refine view_settled h id inFlight [.data (.change c)] ⟨_, ?_, ?_, ?_, rfl⟩
  · simp only [DepState.recordWaveData, DepState.recordInWave]
    split_ifs <;> rfl
  · simp only [DepState.recordWaveData, DepState.recordInWave]
    split_ifs <;> rfl
  · simp only [DepState.recordWaveData, DepState.recordInWave]
    split_ifs <;> rfl

theorem view_resolved (h : Listens x) (id : Nat) (inFlight : Bool) :
    Listens (applyReceived k all (x.receive id inFlight 0 .resolved)) ∧
      scanView (applyReceived k all (x.receive id inFlight 0 .resolved)) =
        ({ scanView x with dirty := false } : ScanView T A).settle k all := by
  have hreceive : x.receive id inFlight 0 .resolved = x.receiveResolved id inFlight 0 := by
    unfold Node.receive
    rw [if_neg (by rw [h.terminal]; decide)]
  rw [hreceive]
  unfold Node.receiveResolved
  have hnil : (scanView x).waiting = (scanView x).waiting ++
      deltasIn [([] : List (WaveData (Datum T A)))] := (List.append_nil _).symm
  have hsame : ({ scanView x with dirty := false } : ScanView T A) =
      { scanView x with
        waiting := (scanView x).waiting ++ deltasIn [([] : List (WaveData (Datum T A)))]
        dirty := false } := by
    rw [← hnil]
  rw [hsame]
  refine view_settled h id inFlight [] ⟨_, ?_, ?_, ?_, rfl⟩
  · rfl
  · simp only [DepState.recordResolvedWave, DepState.recordInWave]
    split_ifs <;> rfl
  · simp only [DepState.recordResolvedWave, DepState.recordInWave]
    split_ifs <;> rfl

/-- What a message does to the view. -/
theorem view_told (h : Listens x) (id : Nat) (inFlight : Bool) {m : Message (Datum T A)}
    (hm : m = .dirty ∨ m = .resolved ∨ ∃ c, m = .data (.change c)) :
    Listens (applyReceived k all (x.receive id inFlight 0 m)) ∧
      scanView (applyReceived k all (x.receive id inFlight 0 m)) = (scanView x).told k all m := by
  rcases hm with rfl | rfl | ⟨c, rfl⟩
  · exact view_dirty h id inFlight
  · exact view_resolved h id inFlight
  · exact view_data h id inFlight c

theorem view_pauseScan (h : Listens x) (lock : LockId) :
    Listens (pauseScan x lock) ∧ scanView (pauseScan x lock) = (scanView x).paused lock := by
  unfold pauseScan ScanView.paused
  by_cases hlock : lock ∈ x.aux.pauseLockset
  · rw [if_pos hlock, if_pos (show lock ∈ (scanView x).locks from hlock)]
    exact ⟨h, rfl⟩
  · rw [if_neg hlock, if_neg (show lock ∉ (scanView x).locks from hlock)]
    exact ⟨⟨h.deps, h.handle, h.config, h.terminal, h.settled, h.handshake, h.persist, h.waves,
      h.dirty⟩, rfl⟩

theorem view_resumeScan (h : Listens x) (lock : LockId) :
    Listens (resumeScan k all x lock) ∧
      scanView (resumeScan k all x lock) = (scanView x).resumed k all lock := by
  rcases h.dirty with ⟨b, hd, hp⟩
  have hdirty : (scanView x).dirty = b := by
    simp [scanView, hd]
  unfold resumeScan ScanView.resumed
  by_cases hlock : lock ∈ x.aux.pauseLockset
  · rw [if_pos hlock, if_pos (show lock ∈ (scanView x).locks from hlock)]
    dsimp only
    by_cases hleft : (x.aux.pauseLockset.filter (· ≠ lock)).isEmpty
    · rw [if_pos hleft, if_pos (show ((scanView x).locks.filter (· ≠ lock)).isEmpty from hleft)]
      have hlistens : Listens { x with aux := { x.aux with
          pauseLockset := x.aux.pauseLockset.filter (· ≠ lock)
          pausedDepWaveOccurred := false } } :=
        ⟨h.deps, h.handle, h.config, h.terminal, h.settled, h.handshake, h.persist,
          h.waves, h.dirty⟩
      by_cases hfire : x.aux.pausedDepWaveOccurred = true ∧ b = false
      · rw [if_pos ⟨hfire.1, by rw [hp, hfire.2]; decide, hlistens.gateOpen⟩,
          if_pos ⟨hfire.1, hdirty.trans hfire.2⟩]
        exact view_runScan hlistens
      · rw [if_neg, if_neg]
        · exact ⟨hlistens, rfl⟩
        · exact fun hne => hfire ⟨hne.1, hdirty.symm.trans hne.2⟩
        · rintro ⟨hskipped, hpending, _⟩
          refine hfire ⟨hskipped, ?_⟩
          cases b with
          | true => exact absurd (by rw [hp]; decide) hpending
          | false => rfl
    · rw [if_neg hleft, if_neg (show ¬ ((scanView x).locks.filter (· ≠ lock)).isEmpty from hleft)]
      exact ⟨⟨h.deps, h.handle, h.config, h.terminal, h.settled, h.handshake, h.persist, h.waves,
        h.dirty⟩, rfl⟩
  · rw [if_neg hlock, if_neg (show lock ∉ (scanView x).locks from hlock)]
    exact ⟨h, rfl⟩

-- Whoever deactivates the node clears all it has seen and computed.
theorem view_deactivated (h : Listens x) :
    Listens x.deactivated ∧ scanView x.deactivated = ⟨[], false, [], false, none, none, false⟩ := by
  rcases h.waves with ⟨ws, hws⟩
  rcases h.dirty with ⟨b, hd, hp⟩
  have hwaves : (x.dep.wiped x.deps.length).batchWaves = [[]] := by
    simp [DepState.wiped, hws, h.deps]
  have hdirty : (x.dep.wiped x.deps.length).dirty = [false] := by
    simp [DepState.wiped, hd, h.deps]
  refine ⟨⟨h.deps, h.handle, h.config, ?_, h.settled, ?_, h.persist, ⟨[], hwaves⟩,
    ⟨false, hdirty, rfl⟩⟩, ?_⟩
  · simp [Node.deactivated, h.handle, h.terminal]
  · simp [Node.deactivated, h.handshake]
  · simp only [scanView, Node.deactivated, hwaves, hdirty, h.handle, h.persist]
    rfl

end View

end GraphRefly.Collections
