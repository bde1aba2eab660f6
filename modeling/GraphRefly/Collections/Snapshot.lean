import GraphRefly.Collections.Scan

/-!
# Snapshots on Demand

Every collection has a snapshot node. It listens to the delta node of the collection and
stays quiet: only a PULL of its own pull id runs its fn, which reads the content and emits
it. The fn remembers the version it has read last, and emits nothing while the version is
still the same.

An INVALIDATE that is sent up from the snapshot node is honoured by the delta node, and
what was sent up or down there comes back down and clears the cache of the snapshot node.
The version that the fn remembers is cleared only when the node is deactivated. So a PULL
after an INVALIDATE finds nothing new to read, and leaves the cache empty.

The two nodes are slots of the engine, and what they do with a message is what the slot
functions of the engine do. What the snapshot node sends to its own subscribers is left
out. It announces DIRTY only while it serves a demand, so the RESOLVED that a node owes
after a DIRTY is left out as well, and so is the pause buffer, which such a node never
fills. Every version goes out as it is made: a quiet node does not look at the content
while the deltas go out.

## Main definitions

* `SnapshotWorld`, `SnapshotWorld.step`: A collection with its two nodes.
* `SnapshotWorld.Current`: What a PULL should leave.
* `Requests`, `Requests.step`: What matters of the requests made so far.
* `Requests.Served`: What has to hold when a PULL is made.

## Theorems

* `Matches.step`: The nodes follow the requests.
* `snapshots_current_iff`: The snapshots are current exactly if every PULL is served.
* `cleared_snapshot_stays_empty`: A snapshot that is cleared is not read again.
-/

namespace GraphRefly.Collections

variable {B : Backend} {R : Type}

/-- What the two nodes carry: a delta, or a content as it was read. -/
inductive Pulled (B : Backend) (R : Type)
  | change (c : B.Change)
  | rows (r : R)

/-! ### The snapshot node -/

/-- The fn of the snapshot node: the version to remember, and what to emit, if anything. -/
def snapshotFn (version : Nat) (rows : R) (last : Option Nat) : Option Nat × Option R :=
  if last = some version then (last, none) else (some version, some rows)

/-- DIRTY is announced once in a wave. -/
def announced (x : Node (Pulled B R) Nat) : Node (Pulled B R) Nat :=
  { x with
    wave := { x.wave with emittedDirtyThisWave := true }
    value := { x.value with status := .dirty } }

section Slot

variable (version : Nat) (rows : R)

section

variable (x : Node (Pulled B R) Nat)

/-- A run of the snapshot node. -/
def runSnapshot : Node (Pulled B R) Nat :=
  let r := snapshotFn version rows x.aux.state
  let x1 := x.runStarted
  let x2 := { x1 with aux := { x1.aux with state := r.1 } }
  let x3 := match r.2 with
    | some rows =>
      let led := if x2.aux.pullDirtyOwed ∧ ¬ x2.wave.emittedDirtyThisWave then announced x2
        else x2
      (led.collectDown (.data (.rows rows))).1
    | none => x2
  ({ x3 with wave := { x3.wave with insideRunWave := false } } : Node _ _).runRolled false

/-- Run unless the dep is dirty. -/
def tryRunSnapshot : Node (Pulled B R) Nat :=
  if 0 < x.dep.pending then x
  else if x.gateOpen then runSnapshot version rows x
  else x

/-- A demand runs the fn, whether or not a wave was skipped. -/
def firePullDemand : Node (Pulled B R) Nat :=
  let armed := { x with
    aux := { x.aux with pullDirtyOwed := true, pausedDepWaveOccurred := false }
    wave := { x.wave with emittedDirtyThisWave := false } }
  if x.aux.pausedDepWaveOccurred then
    if x.dep.pending ≠ 0 ∨ (x.handle.isSome ∧ ¬ x.gateOpen) then x
    else tryRunSnapshot version rows armed
  else if x.handle.isSome then tryRunSnapshot version rows armed
  else x

/-- Serve the demand that is owed when it can be delivered. -/
def fireOwedDemand : Node (Pulled B R) Nat :=
  if x.aux.inDeliverDemand || !x.canFireDemand then x
  else
    match x.aux.pullDemandOwed with
    | none => x
    | some d =>
      let y := firePullDemand version rows { x with aux := { x.aux with
        pullDemandOwed := none
        activePull := some d
        inDeliverDemand := true } }
      { y with aux := { y.aux with
        activePull := none
        inDeliverDemand := false
        pullDirtyOwed := false } }

/-- A PULL has reached its holder. -/
def onDemand (d : PullDemand (Pulled B R)) :
    Node (Pulled B R) Nat :=
  if x.config.pullId.isNone || x.aux.inDeliverDemand then x
  else fireOwedDemand version rows { x with aux := { x.aux with pullDemandOwed := some d } }

/-- The decision at the end of a delivery, and the run it leads to. -/
def maybeRunSnapshot : Node (Pulled B R) Nat :=
  let r := x.decideMaybeRun
  match r.2 with
  | .run => runSnapshot version rows r.1
  | _ => r.1

end

/-- What a received message asks for. Inside a delivery the decision is left to its end. -/
def applyPulled (r : Node (Pulled B R) Nat × ReceiveAction (Pulled B R)) :
    Node (Pulled B R) Nat :=
  let x := if r.2.doInvalidate ∧ r.1.value.hasData then r.1.invalidated else r.1
  let x1 := match r.2.maybeRunDecision with
    | .run => runSnapshot version rows x
    | _ => x
  let x2 := if r.2.fireDemand then fireOwedDemand version rows x1 else x1
  if r.2.deferMaybeRun then maybeRunSnapshot version rows x2 else x2

end Slot

/-! ### The world -/

/-- A collection with its delta node and its snapshot node, and the number of subscribers
    of the latter. The version of the backend wraps around. -/
structure SnapshotWorld (B : Backend) (R : Type) where
  content : B.Content
  version : Nat := 0
  delta : Node (Pulled B R) Nat := Config.freshNode {}
  snapshot : Node (Pulled B R) Nat
  subscribers : Nat := 0
  deliveries : Nat := 1

/-- What a caller does. An INVALIDATE goes up from the snapshot node, or down from the
    delta node. -/
inductive SnapshotAct (B : Backend) (R : Type)
  | call (op : B.Op)
  | pull (d : PullDemand (Pulled B R))
  | upInvalidate
  | downInvalidate
  | subscribe
  | unsubscribe

namespace SnapshotWorld

/-- A new collection. The delta node is node 0. -/
def new (content : B.Content) (pullId : LockId) : SnapshotWorld B R where
  content := content
  snapshot := Config.freshNode
    { deps := [0]
      handle := some (0, .sync)
      config := { isPartial := true, pullId := some pullId } }

section Step

variable (read : B.Content → R)

section

variable (w : SnapshotWorld B R)

/-- The delta node tells the snapshot node, if it listens. -/
def tell (inFlight : Bool) (m : Message (Pulled B R)) :
    SnapshotWorld B R :=
  if w.snapshot.aux.activated then
    { w with
      snapshot := applyPulled w.version (read w.content)
        (w.snapshot.receive w.deliveries inFlight 0 m) }
  else w

/-- DIRTY goes ahead of DATA, once. -/
def lead (m : Message (Pulled B R)) : SnapshotWorld B R :=
  if m.isData ∧ ¬ w.delta.wave.emittedDirtyThisWave then
    tell read { w with delta := announced w.delta } true .dirty
  else w

/-- The delta node emits a message. -/
def downDelta (m : Message (Pulled B R)) : SnapshotWorld B R :=
  let w1 := lead read w m
  let r := w1.delta.collectDown m
  let w2 := { w1 with
    delta := r.1
    deliveries := max 1 ((w1.deliveries + 1) % 2 ^ 64) }
  let w3 := match r.2 with
    | .nothing => w2
    | .emit => tell read w2 true m
    | .invalidate _ => tell read w2 true .invalidate
  { w3 with delta := { w3.delta with wave := { w3.delta.wave with
    emittedDirtyThisWave := false
    emittedTier3ThisWave := false } } }

/-- A version of the backend, and its delta. -/
def bump (v : B.Change × B.Content) : SnapshotWorld B R :=
  downDelta read { w with content := v.2, version := (w.version + 1) % 2 ^ 64 }
    (.data (.change v.1))

def call (w : SnapshotWorld B R) (op : B.Op) : SnapshotWorld B R :=
  (B.call w.content op).foldl (bump read) w

/-- The PULL of another id goes up to the delta node, which ignores it. -/
def pull (d : PullDemand (Pulled B R)) : SnapshotWorld B R :=
  if w.snapshot.config.pullId = some d.pullId then
    { w with snapshot := onDemand w.version (read w.content) w.snapshot d }
  else w

/-- INVALIDATE is forwarded to every dep. The delta node has none and honours it. -/
def upInvalidate : SnapshotWorld B R :=
  w.snapshot.deps.foldl (fun w _ => downDelta read w .invalidate) w

/-- The first subscriber activates the snapshot node, which the delta node greets with its
    last delta. -/
def subscribe : SnapshotWorld B R :=
  let w1 := { w with subscribers := w.subscribers + 1 }
  if w.snapshot.aux.activated then w1
  else
    let w2 := { w1 with snapshot := { w.snapshot with
      aux := { w.snapshot.aux with activated := true } } }
    match w.delta.value.hasData, w.delta.value.cache with
    | true, some v => tell read w2 false (.data v)
    | _, _ => if w.delta.value.status = .dirty then tell read w2 false .dirty else w2

/-- The last subscriber to leave deactivates the snapshot node. -/
def unsubscribe : SnapshotWorld B R :=
  match w.subscribers with
  | 0 => w
  | 1 => { w with subscribers := 0, snapshot := w.snapshot.deactivated }
  | n + 2 => { w with subscribers := n + 1 }

def step : SnapshotAct B R → SnapshotWorld B R
  | .call op => call read w op
  | .pull d => pull read w d
  | .upInvalidate => upInvalidate read w
  | .downInvalidate => downDelta read w .invalidate
  | .subscribe => subscribe read w
  | .unsubscribe => unsubscribe w

def run (acts : List (SnapshotAct B R)) : SnapshotWorld B R :=
  acts.foldl (step read) w

/-- Every PULL that is delivered to an active snapshot node leaves the content in its
    cache. -/
def Current (acts : List (SnapshotAct B R)) : Prop :=
  ∀ before d after, acts = before ++ .pull d :: after →
    (run read w before).snapshot.config.pullId = some d.pullId →
    (run read w before).snapshot.aux.activated = true →
    (run read w (before ++ [.pull d])).snapshot.value.cache =
      some (.rows (read (run read w (before ++ [.pull d])).content))

end

end Step

end SnapshotWorld

/-! ### The requests -/

/-- The last PULL that read the content: how many versions had been made, the content, and
    whether an INVALIDATE has reached the snapshot node since. -/
structure LastRead (B : Backend) where
  made : Nat
  content : B.Content
  cleared : Bool

/-- What matters of the requests so far. `delta` says that a delta has gone out and no
    INVALIDATE after it. -/
structure Requests (B : Backend) where
  content : B.Content
  made : Nat := 0
  delta : Bool := false
  subscribers : Nat := 0
  lastRead : Option (LastRead B) := none

namespace Requests

/-- A PULL reads the content if the number of versions made since the last such PULL is not
    a multiple of the range of the version. -/
def Reads (h : Requests B) : Prop :=
  ∀ s, h.lastRead = some s → (h.made - s.made) % 2 ^ 64 ≠ 0

instance (h : Requests B) : Decidable h.Reads :=
  match hs : h.lastRead with
  | none => isTrue fun s hsome => by rw [hs] at hsome; cases hsome
  | some s =>
    if hne : (h.made - s.made) % 2 ^ 64 ≠ 0 then
      isTrue fun t ht => by rw [hs] at ht; cases ht; exact hne
    else isFalse fun hreads => hne (hreads s hs)

/-- INVALIDATE gets through if there is a delta to invalidate and somebody listens. -/
def invalidate (h : Requests B) : Requests B :=
  { h with
    delta := false
    lastRead := if h.delta ∧ 0 < h.subscribers then
      h.lastRead.map fun s => { s with cleared := true } else h.lastRead }

def step (pullId : LockId) (h : Requests B) : SnapshotAct B R → Requests B
  | .call op =>
    let versions := B.call h.content op
    { h with
      content := Backend.final h.content versions
      made := h.made + versions.length
      delta := h.delta || !versions.isEmpty }
  | .pull d =>
    if d.pullId = pullId ∧ h.Reads then
      { h with lastRead := some ⟨h.made, h.content, false⟩ }
    else h
  | .upInvalidate | .downInvalidate => h.invalidate
  | .subscribe => { h with subscribers := h.subscribers + 1 }
  | .unsubscribe =>
    { h with
      subscribers := h.subscribers - 1
      lastRead := if h.subscribers = 1 then none else h.lastRead }

def run (pullId : LockId) (h : Requests B) (acts : List (SnapshotAct B R)) : Requests B :=
  acts.foldl (step pullId) h

/-- A PULL is served: the content is read, or what was read last has not been cleared and
    is still the content. -/
def Served (read : B.Content → R) (h : Requests B) : Prop :=
  ∀ s, h.lastRead = some s →
    (h.made - s.made) % 2 ^ 64 ≠ 0 ∨ (s.cleared = false ∧ read s.content = read h.content)

end Requests

/-! ### The snapshot node at rest -/

/-- A snapshot node that serves no demand and holds no lock. Its dep may be dirty. -/
structure Quiet (pullId : LockId) (dirty : Bool) (x : Node (Pulled B R) Nat) : Prop where
  deps : x.deps = [0]
  handle : x.handle = some (0, .sync)
  config : x.config = { isPartial := true, pullId := some pullId }
  terminal : x.value.terminal = false
  hasData : x.value.hasData = x.value.cache.isSome
  wave : x.wave = {}
  handshake : x.restoredHandshake = [false]
  persist : x.aux.statePersist = false
  owed : x.aux.pullDemandOwed = none
  active : x.aux.activePull = none
  serving : x.aux.inDeliverDemand = false
  locks : x.aux.pauseLockset = []
  marks : x.dep.dirty = [dirty]
  pending : x.dep.pending = if dirty then 1 else 0

/-- Two slots that remember and hold the same. -/
structure SameRead (x y : Node (Pulled B R) Nat) : Prop where
  state : y.aux.state = x.aux.state
  cache : y.value.cache = x.value.cache
  activated : y.aux.activated = x.aux.activated

theorem SameRead.trans {x y z : Node (Pulled B R) Nat} (h : SameRead x y) (h' : SameRead y z) :
    SameRead x z :=
  ⟨h'.state.trans h.state, h'.cache.trans h.cache, h'.activated.trans h.activated⟩

section Quiet

variable {version : Nat} {rows : R} {pullId : LockId} {b : Bool} {x : Node (Pulled B R) Nat}

theorem Quiet.pullQuiet (h : Quiet pullId b x) : x.pullQuiet = true := by
  rw [Node.pullQuiet, h.config, h.active]
  rfl

theorem Quiet.gateOpen (h : Quiet pullId b x) : x.gateOpen = true := by
  rw [Node.gateOpen, h.config, Bool.or_true, Bool.true_or]

theorem Quiet.owes_nothing (h : Quiet pullId b x) : fireOwedDemand version rows x = x := by
  unfold fireOwedDemand
  rw [h.owed]
  split_ifs <;> rfl

/-- The node with the mark that it has skipped a wave. -/
def skipped (x : Node (Pulled B R) Nat) : Node (Pulled B R) Nat :=
  { x with aux := { x.aux with pausedDepWaveOccurred := true } }

theorem Quiet.decides (h : Quiet pullId b x) : x.decideMaybeRun = (skipped x, .skip) := by
  unfold Node.decideMaybeRun
  rw [if_neg (by rw [h.wave]; exact Bool.false_ne_true),
    if_pos ⟨by rw [h.config], .inr h.pullQuiet⟩]
  rfl

theorem Quiet.skips (h : Quiet pullId b x) :
    Quiet pullId b (skipped x) ∧ SameRead x (skipped x) :=
  ⟨⟨h.deps, h.handle, h.config, h.terminal, h.hasData, h.wave, h.handshake, h.persist, h.owed,
    h.active, h.serving, h.locks, h.marks, h.pending⟩, ⟨rfl, rfl, rfl⟩⟩

theorem Quiet.settled (h : Quiet pullId false x) (inFlight : Bool) :
    applyPulled version rows (x.settleReceived inFlight) = skipped x := by
  have hpending : x.dep.pending = 0 := h.pending
  have hnote : x.noteSkippedWave = x := by
    unfold Node.noteSkippedWave
    exact if_neg fun hne => hne.1 hpending
  unfold Node.settleReceived
  rw [hnote]
  simp only [hpending, if_true]
  unfold Node.setMaybeRunAction
  cases inFlight with
  | true =>
    have hrun : maybeRunSnapshot version rows x = skipped x := by
      unfold maybeRunSnapshot
      rw [h.decides]
    have hfire : fireOwedDemand version rows x = x := h.owes_nothing
    rw [← hrun]
    conv_rhs => rw [← hfire]
    rfl
  | false =>
    rw [if_neg Bool.false_ne_true, h.decides]
    exact h.skips.1.owes_nothing

theorem applyPulled_nothing (x : Node (Pulled B R) Nat) :
    applyPulled version rows (x, {}) = x := rfl

theorem Quiet.dirtied (h : Quiet pullId b x) (version : Nat) (rows : R) (id : Nat)
    (inFlight : Bool) :
    Quiet pullId true (applyPulled version rows (x.receive id inFlight 0 .dirty)) ∧
      SameRead x (applyPulled version rows (x.receive id inFlight 0 .dirty)) := by
  have hreceive : x.receive id inFlight 0 .dirty = x.receiveDirty 0 := by
    rw [Node.receive, if_neg (by rw [h.terminal]; decide)]
  rw [hreceive, Node.receiveDirty, h.marks]
  cases b with
  | true => exact ⟨h, ⟨rfl, rfl, rfl⟩⟩
  | false =>
    -- The node counts its dep, and tells nobody.
    have hpending : x.dep.pending = 0 := h.pending
    set y : Node (Pulled B R) Nat := { x with dep := { x.dep with
      dirty := [true]
      pending := x.dep.pending + 1
      tier := x.dep.tier.set 0 2 } } with hy
    have hquiet : y.pullQuiet = true := h.pullQuiet
    have hy' : Quiet pullId true y := ⟨h.deps, h.handle, h.config, h.terminal, h.hasData,
      h.wave, h.handshake, h.persist, h.owed, h.active, h.serving, h.locks, rfl,
      by rw [hy, hpending]; rfl⟩
    have happly : applyPulled version rows
        (if y.pullQuiet = true ∨ y.wave.emittedDirtyThisWave = true then (y, {})
          else ({ y with
            wave := { y.wave with emittedDirtyThisWave := true }
            value := { y.value with status := .dirty } }, { emitDirty := true })) = y := by
      rw [if_pos (.inl hquiet)]
      exact applyPulled_nothing y
    have hall : Quiet pullId true y ∧ SameRead x y := ⟨hy', ⟨rfl, rfl, rfl⟩⟩
    rw [← happly] at hall
    exact hall

theorem Quiet.noted (h : Quiet pullId b x) (version : Nat) (rows : R) (id : Nat)
    (inFlight : Bool) (v : Pulled B R) :
    Quiet pullId false (applyPulled version rows (x.receive id inFlight 0 (.data v))) ∧
      SameRead x (applyPulled version rows (x.receive id inFlight 0 (.data v))) := by
  have hreceive : x.receive id inFlight 0 (.data v) = x.receiveData id inFlight 0 v := by
    rw [Node.receive, if_neg (by rw [h.terminal]; exact Bool.false_ne_true)]
  rw [hreceive, Node.receiveData, if_neg (by rw [h.handshake]; exact Bool.false_ne_true)]
  set d : DepState (Pulled B R) := { x.dep with
    batch := x.dep.batch.set 0 (some ((x.dep.batch.getD 0 none).getD [] ++ [v])) } with hd
  have hmarks : (d.recordWaveData id 0 v).dirty = [b] := by
    rw [← h.marks]
    simp only [DepState.recordWaveData, DepState.recordInWave]
    split_ifs <;> rfl
  have hpending : (d.recordWaveData id 0 v).pending = if b then 1 else 0 := by
    rw [← h.pending]
    simp only [DepState.recordWaveData, DepState.recordInWave]
    split_ifs <;> rfl
  set e : DepState (Pulled B R) := { d.recordWaveData id 0 v with
    hasData := (d.recordWaveData id 0 v).hasData.set 0 true
    tier := (d.recordWaveData id 0 v).tier.set 0 3 } with he
  obtain ⟨hmarks', hpending', -⟩ := undirty_zero (d := e) hmarks hpending
  have hquiet : Quiet pullId false { x with dep := e.undirty 0 } :=
    ⟨h.deps, h.handle, h.config, h.terminal, h.hasData, h.wave, h.handshake, h.persist, h.owed,
      h.active, h.serving, h.locks, hmarks', hpending'⟩
  dsimp only
  rw [hquiet.settled]
  exact ⟨hquiet.skips.1, ⟨rfl, rfl, rfl⟩⟩

theorem Quiet.receiveInvalidate (h : Quiet pullId b x) (id : Nat) : ∃ d skips a,
    x.receiveInvalidate id 0 =
      ({ x with dep := d, aux := { x.aux with pausedDepWaveOccurred := skips } }, a) ∧
    d.dirty = [false] ∧ d.pending = 0 ∧
    a.doInvalidate = true ∧ a.maybeRunDecision = .skip ∧ a.deferMaybeRun = false := by
  unfold Node.receiveInvalidate
  dsimp only
  set d : DepState (Pulled B R) := { x.dep with
    prev := x.dep.prev.set 0 none
    hasData := x.dep.hasData.set 0 false
    batch := x.dep.batch.set 0 none }
  generalize hcond : (!(d.batchWaveId.getD 0 none == some id) &&
    !(d.recordWaveSentinel id 0).hasRunTriggeringProjection) = cond
  set e : DepState (Pulled B R) := if cond = true then
    (d.recordWaveSentinel id 0).clearWaveProjection 0 else d.recordWaveSentinel id 0 with he
  have hmarks : e.dirty = [b] := by
    rw [← h.marks, he]
    simp only [DepState.recordWaveSentinel, DepState.recordInWave, DepState.clearWaveProjection]
    split_ifs <;> rfl
  have hpending : e.pending = if b then 1 else 0 := by
    rw [← h.pending, he]
    simp only [DepState.recordWaveSentinel, DepState.recordInWave, DepState.clearWaveProjection]
    split_ifs <;> rfl
  obtain ⟨hmarks', hpending', -⟩ := undirty_zero hmarks hpending
  exact ⟨e.undirty 0, _, _, rfl, hmarks', hpending', rfl, rfl, rfl⟩

theorem Quiet.cleared (h : Quiet pullId b x) (version : Nat) (rows : R) (id : Nat)
    (inFlight : Bool) :
    Quiet pullId false (applyPulled version rows (x.receive id inFlight 0 .invalidate)) ∧
      SameRead { x with value := { x.value with cache := none } }
        (applyPulled version rows (x.receive id inFlight 0 .invalidate)) := by
  have hreceive : x.receive id inFlight 0 .invalidate = x.receiveInvalidate id 0 := by
    rw [Node.receive, if_neg (by rw [h.terminal]; exact Bool.false_ne_true)]
  obtain ⟨d, skips, a, heq, hmarks, hpending, hinvalidate, hdecision, hdefer⟩ :=
    h.receiveInvalidate id
  rw [hreceive, heq]
  unfold applyPulled
  simp only [hinvalidate, hdecision, hdefer, true_and, Bool.false_eq_true, if_false]
  -- Nothing is owed, so that the node stays as it was left.
  have hstays : ∀ y : Node (Pulled B R) Nat, Quiet pullId false y →
      SameRead { x with value := { x.value with cache := none } } y →
      Quiet pullId false (if a.fireDemand = true then fireOwedDemand version rows y
        else y) ∧
      SameRead { x with value := { x.value with cache := none } }
        (if a.fireDemand = true then fireOwedDemand version rows y else y) := by
    intro y hy hsame
    rw [hy.owes_nothing, ite_self]
    exact ⟨hy, hsame⟩
  by_cases hdata : x.value.hasData = true
  · rw [if_pos hdata]
    exact hstays _ ⟨h.deps, h.handle, h.config, h.terminal, rfl, h.wave, h.handshake, h.persist,
      h.owed, h.active, h.serving, h.locks, hmarks, hpending⟩ ⟨rfl, rfl, rfl⟩
  · rw [if_neg hdata]
    have hcache : x.value.cache = none := by
      rw [h.hasData] at hdata
      exact Option.not_isSome_iff_eq_none.mp hdata
    exact hstays _ ⟨h.deps, h.handle, h.config, h.terminal, h.hasData, h.wave, h.handshake,
      h.persist, h.owed, h.active, h.serving, h.locks, hmarks, hpending⟩ ⟨rfl, hcache, rfl⟩

/-- The node while it serves a demand. -/
def armed (x : Node (Pulled B R) Nat) (d : PullDemand (Pulled B R)) : Node (Pulled B R) Nat :=
  { x with
    aux := { x.aux with
      pullDemandOwed := none
      activePull := some d
      inDeliverDemand := true
      pullDirtyOwed := true
      pausedDepWaveOccurred := false }
    wave := { x.wave with emittedDirtyThisWave := false } }

/-- The node after it has served a demand. -/
def released (x : Node (Pulled B R) Nat) : Node (Pulled B R) Nat :=
  { x with aux := { x.aux with
    activePull := none
    inDeliverDemand := false
    pullDirtyOwed := false } }

theorem Quiet.canFireDemand (h : Quiet pullId false x) : x.canFireDemand = true := by
  have hpending : x.dep.pending = 0 := h.pending
  rw [Node.canFireDemand, Node.isPaused, h.config, h.terminal, hpending, h.locks, h.gateOpen]
  simp

theorem Quiet.serves (h : Quiet pullId false x) (d : PullDemand (Pulled B R)) :
    onDemand version rows x d = released (runSnapshot version rows (armed x d)) := by
  have hpending : x.dep.pending = 0 := h.pending
  have hgate : (armed x d).gateOpen = true := h.gateOpen
  have hpending' : (armed x d).dep.pending = 0 := hpending
  have htry : tryRunSnapshot version rows (armed x d) =
      runSnapshot version rows (armed x d) := by
    rw [tryRunSnapshot, if_neg (by rw [hpending']; decide), if_pos hgate]
  set asked : Node (Pulled B R) Nat := { x with aux := { x.aux with
    pullDemandOwed := none
    activePull := some d
    inDeliverDemand := true } } with hasked
  have hfire : firePullDemand version rows asked = runSnapshot version rows (armed x d) := by
    have hhandle : asked.handle.isSome = true := by
      rw [hasked, h.handle]
      rfl
    rw [← htry]
    unfold firePullDemand
    by_cases hskipped : asked.aux.pausedDepWaveOccurred = true
    · rw [if_pos hskipped, if_neg]
      · rfl
      · rintro (hne | ⟨-, hclosed⟩)
        · exact hne hpending
        · exact hclosed h.gateOpen
    · rw [if_neg hskipped, if_pos hhandle]
      rfl
  unfold onDemand
  rw [if_neg (by rw [h.config, h.serving]; exact Bool.false_ne_true)]
  unfold fireOwedDemand
  have hcan : ({ x with aux := { x.aux with pullDemandOwed := some d } } :
      Node (Pulled B R) Nat).canFireDemand = true := h.canFireDemand
  rw [if_neg (by rw [hcan, h.serving]; exact Bool.false_ne_true)]
  dsimp only
  rw [hfire]
  rfl

theorem Quiet.pulled (h : Quiet pullId false x) (version : Nat) (rows : R)
    (d : PullDemand (Pulled B R)) :
    Quiet pullId false (onDemand version rows x d) ∧
      (onDemand version rows x d).aux.state = some version ∧
      (onDemand version rows x d).value.cache =
        (if x.aux.state = some version then x.value.cache else some (.rows rows)) ∧
      (onDemand version rows x d).aux.activated = x.aux.activated := by
  rw [h.serves]
  have hmarks : ((armed x d).dep.taken (armed x d).deps.length).rolled.dirty = [false] :=
    h.marks
  have hwave : ({ x.wave with
      insideRunWave := false
      emittedDirtyThisWave := false
      emittedTier3ThisWave := false } : NodeWaveState) = {} := by
    rw [h.wave]
  by_cases hsame : x.aux.state = some version
  · have hfn : snapshotFn version rows (armed x d).aux.state = (x.aux.state, none) :=
      if_pos hsame
    unfold runSnapshot
    rw [hfn, if_pos hsame]
    exact ⟨⟨h.deps, h.handle, h.config, h.terminal, h.hasData, hwave, h.handshake, h.persist, rfl,
      rfl, rfl, h.locks, hmarks, h.pending⟩, hsame, rfl, rfl⟩
  · have hfn : snapshotFn version rows (armed x d).aux.state = (some version, some rows) :=
      if_neg hsame
    unfold runSnapshot
    rw [hfn, if_neg hsame]
    exact ⟨⟨h.deps, h.handle, h.config, h.terminal, rfl, hwave, h.handshake, h.persist, rfl,
      rfl, rfl, h.locks, hmarks, h.pending⟩, rfl, rfl, rfl⟩

theorem Quiet.deactivated (h : Quiet pullId b x) :
    Quiet pullId false x.deactivated ∧ x.deactivated.aux.state = none ∧
      x.deactivated.value.cache = none ∧ x.deactivated.aux.activated = false := by
  have hmarks : (x.dep.wiped x.deps.length).dirty = [false] := by
    simp [DepState.wiped, h.marks, h.deps]
  have hvalue : x.deactivated.value = { x.value with
      cache := none
      hasData := false
      status := .sentinel } := if_pos (.inl (by rw [h.handle]; rfl))
  have hstate : x.deactivated.aux.state = none := by
    have hif : x.deactivated.aux.state =
      if x.aux.statePersist = true then x.aux.state else none := rfl
    rw [hif, if_neg (by rw [h.persist]; exact Bool.false_ne_true)]
  have hwave : x.deactivated.wave = { x.wave with emittedDirtyThisWave := false } := rfl
  have hhandshake : x.deactivated.restoredHandshake = x.restoredHandshake.map fun _ => false :=
    rfl
  refine ⟨⟨h.deps, h.handle, h.config, ?_, ?_, ?_, ?_, h.persist, rfl, rfl, rfl, rfl, hmarks, rfl⟩,
    hstate, by rw [hvalue], rfl⟩
  · rw [hvalue]
    exact h.terminal
  · rw [hvalue]
    rfl
  · rw [hwave, h.wave]
  · rw [hhandshake, h.handshake]
    rfl

end Quiet

/-! ### The nodes follow the requests -/

namespace SnapshotWorld

variable {read : B.Content → R} {pullId : LockId} {w w' : SnapshotWorld B R}

/-- The world after a message of the delta node. `data` says whether the delta node has
    data then, and `cache` is what the snapshot node holds. -/
structure Sent (pullId : LockId) (w w' : SnapshotWorld B R) (data : Bool)
    (cache : Option (Pulled B R)) : Prop where
  content : w'.content = w.content
  version : w'.version = w.version
  subscribers : w'.subscribers = w.subscribers
  quiet : Quiet pullId false w'.snapshot
  read : SameRead { w.snapshot with value := { w.snapshot.value with cache := cache } } w'.snapshot
  hasData : w'.delta.value.hasData = data
  calm : w'.delta.wave.emittedDirtyThisWave = false
  status : w'.delta.value.status ≠ .dirty

theorem tell_of_active (h : w.snapshot.aux.activated = true) (inFlight : Bool)
    (m : Message (Pulled B R)) :
    tell read w inFlight m = { w with
      snapshot := applyPulled w.version (read w.content)
        (w.snapshot.receive w.deliveries inFlight 0 m) } :=
  if_pos h

theorem tell_of_inactive (h : w.snapshot.aux.activated = false) (inFlight : Bool)
    (m : Message (Pulled B R)) : tell read w inFlight m = w :=
  if_neg (by rw [h]; exact Bool.false_ne_true)

/-- The wave of the delta node is over. -/
def settled (w : SnapshotWorld B R) : SnapshotWorld B R :=
  { w with delta := { w.delta with wave := { w.delta.wave with
    emittedDirtyThisWave := false
    emittedTier3ThisWave := false } } }

/-- The delta node has taken a message in, in a delivery of its own. -/
def collected (w : SnapshotWorld B R) (m : Message (Pulled B R)) : SnapshotWorld B R :=
  { w with
    delta := (w.delta.collectDown m).1
    deliveries := max 1 ((w.deliveries + 1) % 2 ^ 64) }

theorem downDelta_data_eq (w : SnapshotWorld B R) (v : Pulled B R) :
    downDelta read w (.data v) =
      settled (tell read (collected (lead read w (.data v)) (.data v)) true (.data v)) := rfl

theorem downDelta_data (read : B.Content → R) (h : Quiet pullId false w.snapshot)
    (hcalm : w.delta.wave.emittedDirtyThisWave = false) (v : Pulled B R) :
    Sent pullId w (downDelta read w (.data v)) true w.snapshot.value.cache := by
  set w₁ : SnapshotWorld B R := { w with delta := announced w.delta }
  have hlead : lead read w (.data v) = tell read w₁ true .dirty :=
    if_pos ⟨rfl, by rw [hcalm]; exact Bool.false_ne_true⟩
  rw [downDelta_data_eq, hlead]
  cases hactive : w.snapshot.aux.activated with
  | false =>
    have hactive₁ : w₁.snapshot.aux.activated = false := hactive
    have hactive₂ : (collected w₁ (.data v)).snapshot.aux.activated = false := hactive
    rw [tell_of_inactive hactive₁, tell_of_inactive hactive₂]
    exact ⟨rfl, rfl, rfl, h, ⟨rfl, rfl, rfl⟩, rfl, rfl, nofun⟩
  | true =>
    have hactive₁ : w₁.snapshot.aux.activated = true := hactive
    obtain ⟨hquiet, hsame⟩ := h.dirtied w.version (read w.content) w.deliveries true
    rw [tell_of_active hactive₁]
    rw [tell_of_active (show (collected { w₁ with
      snapshot := applyPulled w.version (read w.content)
        (w.snapshot.receive w.deliveries true 0 .dirty) } (.data v)).snapshot.aux.activated = true
          from hsame.activated.trans hactive)]
    obtain ⟨hquiet', hsame'⟩ := hquiet.noted w.version (read w.content)
      (max 1 ((w.deliveries + 1) % 2 ^ 64)) true v
    exact ⟨rfl, rfl, rfl, hquiet', hsame.trans hsame', rfl, rfl, nofun⟩

/-- An INVALIDATE goes out if the delta node has data, and clears the cache of a snapshot
    node that listens. -/
theorem downDelta_invalidate (read : B.Content → R) (h : Quiet pullId false w.snapshot)
    (hstatus : w.delta.value.status ≠ .dirty) :
    Sent pullId w (downDelta read w .invalidate) false
      (if w.delta.value.hasData = true ∧ w.snapshot.aux.activated = true then none
        else w.snapshot.value.cache) := by
  have hlead : lead read w .invalidate = w := if_neg fun hne => Bool.false_ne_true hne.1
  by_cases hdata : w.delta.value.hasData = true
  · have hcollect : w.delta.collectDown .invalidate =
        (w.delta.invalidated, .invalidate w.delta.aux.onInvalidate) := if_pos hdata
    have heq : downDelta read w .invalidate =
        settled (tell read (collected w .invalidate) true .invalidate) := by
      unfold downDelta collected
      rw [hlead]
      dsimp only
      rw [hcollect]
      rfl
    have hdelta : (collected w .invalidate).delta = w.delta.invalidated :=
      congrArg Prod.fst hcollect
    rw [heq]
    cases hactive : w.snapshot.aux.activated with
    | false =>
      have hactive₁ : (collected w .invalidate).snapshot.aux.activated = false := hactive
      rw [tell_of_inactive hactive₁, if_neg (fun hne => Bool.false_ne_true hne.2)]
      refine ⟨rfl, rfl, rfl, h, ⟨rfl, rfl, rfl⟩, ?_, rfl, ?_⟩
      · exact congrArg (fun x => x.value.hasData) hdelta
      · have hreset : (settled (collected w .invalidate)).delta.value.status = .sentinel :=
          congrArg (fun x => x.value.status) hdelta
        rw [hreset]
        exact nofun
    | true =>
      have hactive₁ : (collected w .invalidate).snapshot.aux.activated = true := hactive
      obtain ⟨hquiet, hsame⟩ := h.cleared w.version (read w.content)
        (max 1 ((w.deliveries + 1) % 2 ^ 64)) true
      rw [tell_of_active hactive₁, if_pos ⟨hdata, rfl⟩]
      refine ⟨rfl, rfl, rfl, hquiet, hsame, ?_, rfl, ?_⟩
      · exact congrArg (fun x => x.value.hasData) hdelta
      · have hreset : (collected w .invalidate).delta.value.status = .sentinel :=
          congrArg (fun x => x.value.status) hdelta
        exact fun hdirty => nomatch hreset.symm.trans hdirty
  · have hcollect : w.delta.collectDown .invalidate = (w.delta, .nothing) := if_neg hdata
    have heq : downDelta read w .invalidate = settled (collected w .invalidate) := by
      unfold downDelta collected
      rw [hlead]
      dsimp only
      rw [hcollect]
      rfl
    have hdelta : (collected w .invalidate).delta = w.delta := congrArg Prod.fst hcollect
    rw [heq, if_neg (fun hne => hdata hne.1)]
    refine ⟨rfl, rfl, rfl, h, ⟨rfl, rfl, rfl⟩, ?_, rfl, ?_⟩
    · exact (congrArg (fun x => x.value.hasData) hdelta).trans
        (Bool.eq_false_of_not_eq_true hdata)
    · exact fun hdirty => hstatus ((congrArg (fun x => x.value.status) hdelta).symm.trans hdirty)

end SnapshotWorld

open SnapshotWorld

variable {read : B.Content → R} {pullId : LockId} {w : SnapshotWorld B R} {h : Requests B}

/-- What the snapshot node holds after the requests. -/
def Requests.cache (read : B.Content → R) (h : Requests B) : Option (Pulled B R) :=
  h.lastRead.bind fun s => if s.cleared then none else some (.rows (read s.content))

/-- The nodes are what the requests have made of them. -/
structure Matches (read : B.Content → R) (pullId : LockId) (w : SnapshotWorld B R)
    (h : Requests B) : Prop where
  content : w.content = h.content
  version : w.version = h.made % 2 ^ 64
  quiet : Quiet pullId false w.snapshot
  delta : w.delta.value.hasData = h.delta
  calm : w.delta.wave.emittedDirtyThisWave = false
  status : w.delta.value.status ≠ .dirty
  subscribers : w.subscribers = h.subscribers
  activated : w.snapshot.aux.activated = true ↔ 0 < h.subscribers
  state : w.snapshot.aux.state = h.lastRead.map fun s => s.made % 2 ^ 64
  cache : w.snapshot.value.cache = h.cache read
  made : ∀ s, h.lastRead = some s → s.made ≤ h.made

theorem Matches.new (content : B.Content) (pullId : LockId) :
    Matches read pullId (new content pullId) { content } where
  content := rfl
  version := rfl
  quiet := ⟨rfl, rfl, rfl, rfl, rfl, rfl, rfl, rfl, rfl, rfl, rfl, rfl, rfl, rfl⟩
  delta := rfl
  calm := rfl
  status := nofun
  subscribers := rfl
  activated := by
    refine ⟨fun hactive => ?_, fun hlt => absurd hlt (Nat.lt_irrefl 0)⟩
    cases hactive
  state := rfl
  cache := rfl
  made := nofun

theorem Matches.bump (hm : Matches read pullId w h) (v : B.Change × B.Content) :
    Matches read pullId (bump read w v)
      { h with content := v.2, made := h.made + 1, delta := true } := by
  have hsent := downDelta_data read
    (w := { w with content := v.2, version := (w.version + 1) % 2 ^ 64 }) hm.quiet hm.calm
    (.change v.1)
  refine ⟨hsent.content, hsent.version.trans ?_, hsent.quiet, hsent.hasData, hsent.calm,
    hsent.status, hsent.subscribers.trans hm.subscribers, ?_, ?_, ?_, ?_⟩
  · change (w.version + 1) % 2 ^ 64 = (h.made + 1) % 2 ^ 64
    rw [hm.version]
    omega
  · rw [SnapshotWorld.bump, hsent.read.activated]
    exact hm.activated
  · rw [SnapshotWorld.bump, hsent.read.state]
    exact hm.state
  · rw [SnapshotWorld.bump, hsent.read.cache]
    exact hm.cache
  · exact fun s hs => Nat.le_succ_of_le (hm.made s hs)

theorem Matches.bumps (hm : Matches read pullId w h) (versions : List (B.Change × B.Content)) :
    Matches read pullId (versions.foldl (SnapshotWorld.bump read) w)
      { h with
        content := Backend.final h.content versions
        made := h.made + versions.length
        delta := h.delta || !versions.isEmpty } := by
  induction versions generalizing w h with
  | nil =>
    simp only [List.foldl_nil, List.length_nil, List.isEmpty_nil, Bool.not_true, Bool.or_false]
    exact hm
  | cons v versions ih =>
    have hrest := ih (hm.bump v)
    simp only [Bool.true_or] at hrest
    simp only [List.foldl_cons, List.length_cons, List.isEmpty_cons, Bool.not_false, Bool.or_true,
      Backend.final_cons]
    have hmade : h.made + (versions.length + 1) = h.made + 1 + versions.length := by omega
    rw [hmade]
    exact hrest

theorem Matches.call (hm : Matches read pullId w h) (op : B.Op) :
    Matches read pullId (call read w op) (h.step pullId (.call op : SnapshotAct B R)) := by
  unfold SnapshotWorld.call
  rw [hm.content]
  exact hm.bumps _

theorem Matches.invalidate (hm : Matches read pullId w h) :
    Matches read pullId (downDelta read w .invalidate) h.invalidate := by
  have hsent := downDelta_invalidate read hm.quiet hm.status
  have hreaches : (w.delta.value.hasData = true ∧ w.snapshot.aux.activated = true) ↔
      (h.delta = true ∧ 0 < h.subscribers) := by
    rw [hm.delta, hm.activated]
  refine ⟨hsent.content.trans hm.content, hsent.version.trans hm.version, hsent.quiet,
    hsent.hasData, hsent.calm, hsent.status, hsent.subscribers.trans hm.subscribers, ?_, ?_, ?_,
    ?_⟩
  · rw [hsent.read.activated]
    exact hm.activated
  · rw [hsent.read.state]
    refine hm.state.trans ?_
    unfold Requests.invalidate
    dsimp only
    split_ifs
    · rw [Option.map_map]
      rfl
    · rfl
  · rw [hsent.read.cache]
    dsimp only
    unfold Requests.cache Requests.invalidate
    dsimp only
    by_cases hgone : h.delta = true ∧ 0 < h.subscribers
    · rw [if_pos (hreaches.mpr hgone), if_pos hgone]
      cases h.lastRead <;> rfl
    · rw [if_neg (fun hne => hgone (hreaches.mp hne)), if_neg hgone]
      exact hm.cache
  · intro s hs
    unfold Requests.invalidate at hs ⊢
    dsimp only at hs ⊢
    split_ifs at hs
    · obtain ⟨t, ht, rfl⟩ := Option.map_eq_some_iff.mp hs
      exact hm.made t ht
    · exact hm.made s hs

theorem Matches.reads_iff (hm : Matches read pullId w h) :
    w.snapshot.aux.state = some w.version ↔ ¬ h.Reads := by
  rw [hm.state, hm.version]
  unfold Requests.Reads
  cases hlast : h.lastRead with
  | none => simp
  | some s =>
    have hle := hm.made s hlast
    have hmod : s.made % 2 ^ 64 = h.made % 2 ^ 64 ↔ (h.made - s.made) % 2 ^ 64 = 0 := by omega
    simp only [Option.map_some, Option.some.injEq, forall_eq', ne_eq, not_not]
    exact hmod

theorem Matches.pulled (hm : Matches read pullId w h) {d : PullDemand (Pulled B R)}
    (hd : d.pullId = pullId) :
    Matches read pullId (pull read w d) (h.step pullId (.pull d)) ∧
      (pull read w d).snapshot.value.cache =
        if h.Reads then some (.rows (read h.content)) else h.cache read := by
  have hid : w.snapshot.config.pullId = some d.pullId := by
    rw [hm.quiet.config, hd]
  have hpull : pull read w d =
      { w with snapshot := onDemand w.version (read w.content) w.snapshot d } := if_pos hid
  obtain ⟨hquiet, hstate, hcache, hactivated⟩ := hm.quiet.pulled w.version (read w.content) d
  rw [hpull, Requests.step]
  by_cases hreads : h.Reads
  · have hold : ¬ w.snapshot.aux.state = some w.version := fun hsame => hm.reads_iff.mp hsame hreads
    rw [if_neg hold] at hcache
    rw [if_pos ⟨hd, hreads⟩, if_pos hreads, ← hm.content]
    refine ⟨⟨rfl, hm.version, hquiet, hm.delta, hm.calm, hm.status, hm.subscribers, ?_, ?_, ?_, ?_⟩,
      hcache⟩
    · exact (congrArg (· = true) hactivated).to_iff.trans hm.activated
    · exact hstate.trans (congrArg some hm.version)
    · exact hcache
    · intro s hs
      obtain rfl := Option.some.inj hs
      exact Nat.le_refl _
  · have hold : w.snapshot.aux.state = some w.version := hm.reads_iff.mpr hreads
    rw [if_pos hold] at hcache
    rw [if_neg (fun hboth => hreads hboth.2), if_neg hreads]
    refine ⟨⟨hm.content, hm.version, hquiet, hm.delta, hm.calm, hm.status, hm.subscribers, ?_, ?_,
      hcache.trans hm.cache, hm.made⟩, hcache.trans hm.cache⟩
    · exact (congrArg (· = true) hactivated).to_iff.trans hm.activated
    · exact (hstate.trans hold.symm).trans hm.state

theorem Matches.pull (hm : Matches read pullId w h) (d : PullDemand (Pulled B R)) :
    Matches read pullId (pull read w d) (h.step pullId (.pull d)) := by
  by_cases hd : d.pullId = pullId
  · exact (hm.pulled hd).1
  · have hother : ¬ w.snapshot.config.pullId = some d.pullId := by
      rw [hm.quiet.config]
      exact fun hid => hd (Option.some.inj hid).symm
    rw [SnapshotWorld.pull, if_neg hother, Requests.step, if_neg (fun hboth => hd hboth.1)]
    exact hm

theorem Matches.subscribe (hm : Matches read pullId w h) :
    Matches read pullId (subscribe read w)
      (h.step pullId (.subscribe : SnapshotAct B R)) := by
  have hlater : 0 < h.subscribers + 1 := Nat.succ_pos _
  -- The snapshot node after it has been greeted.
  have hgreeted : ∀ x : Node (Pulled B R) Nat, Quiet pullId false x →
      SameRead { w.snapshot with aux := { w.snapshot.aux with activated := true } } x →
      Matches read pullId { w with snapshot := x, subscribers := w.subscribers + 1 }
        { h with subscribers := h.subscribers + 1 } := by
    intro x hquiet hsame
    exact ⟨hm.content, hm.version, hquiet, hm.delta, hm.calm, hm.status,
      congrArg (· + 1) hm.subscribers, iff_of_true hsame.activated hlater,
      hsame.state.trans hm.state, hsame.cache.trans hm.cache, hm.made⟩
  have hquiet : Quiet pullId false
      { w.snapshot with aux := { w.snapshot.aux with activated := true } } :=
    ⟨hm.quiet.deps, hm.quiet.handle, hm.quiet.config, hm.quiet.terminal, hm.quiet.hasData,
      hm.quiet.wave, hm.quiet.handshake, hm.quiet.persist, hm.quiet.owed, hm.quiet.active,
      hm.quiet.serving, hm.quiet.locks, hm.quiet.marks, hm.quiet.pending⟩
  unfold SnapshotWorld.subscribe
  dsimp only
  by_cases hactive : w.snapshot.aux.activated = true
  · rw [if_pos hactive]
    exact ⟨hm.content, hm.version, hm.quiet, hm.delta, hm.calm, hm.status,
      congrArg (· + 1) hm.subscribers, iff_of_true hactive hlater, hm.state, hm.cache, hm.made⟩
  · rw [if_neg hactive]
    split
    · rename_i v _ _
      rw [tell_of_active rfl]
      obtain ⟨hnoted, hsame⟩ := hquiet.noted w.version (read w.content) w.deliveries false v
      exact hgreeted _ hnoted hsame
    · rw [if_neg hm.status]
      exact hgreeted _ hquiet ⟨rfl, rfl, rfl⟩

theorem Matches.unsubscribe (hm : Matches read pullId w h) :
    Matches read pullId (unsubscribe w) (h.step pullId (.unsubscribe : SnapshotAct B R)) := by
  have hcount := hm.subscribers
  unfold SnapshotWorld.unsubscribe Requests.step
  dsimp only
  split
  · rename_i hnone
    have hzero : h.subscribers = 0 := hcount.symm.trans hnone
    have hsame : h.subscribers - 1 = h.subscribers := by omega
    rw [if_neg (by omega), hsame]
    exact hm
  · rename_i hone
    have hlast : h.subscribers = 1 := hcount.symm.trans hone
    obtain ⟨hquiet, hstate, hcache, hinactive⟩ := hm.quiet.deactivated
    rw [if_pos hlast, hlast]
    exact ⟨hm.content, hm.version, hquiet, hm.delta, hm.calm, hm.status, rfl,
      iff_of_false (by rw [hinactive]; exact Bool.false_ne_true) (Nat.lt_irrefl 0), hstate, hcache,
      nofun⟩
  · rename_i n hmany
    have hleft : h.subscribers = n + 2 := hcount.symm.trans hmany
    have hstays : w.snapshot.aux.activated = true := hm.activated.mpr (by omega)
    rw [if_neg (by omega)]
    exact ⟨hm.content, hm.version, hm.quiet, hm.delta, hm.calm, hm.status,
      by dsimp only; omega, iff_of_true hstays (by dsimp only; omega), hm.state, hm.cache, hm.made⟩

theorem Matches.step (hm : Matches read pullId w h) (act : SnapshotAct B R) :
    Matches read pullId (w.step read act) (h.step pullId act) := by
  cases act with
  | call op => exact hm.call op
  | pull d => exact hm.pull d
  | upInvalidate =>
    -- The delta node is the only dep.
    have hforward : upInvalidate read w = downDelta read w .invalidate := by
      rw [upInvalidate, hm.quiet.deps]
      rfl
    rw [SnapshotWorld.step, hforward]
    exact hm.invalidate
  | downInvalidate => exact hm.invalidate
  | subscribe => exact hm.subscribe
  | unsubscribe => exact hm.unsubscribe

theorem Matches.run (hm : Matches read pullId w h) (acts : List (SnapshotAct B R)) :
    Matches read pullId (w.run read acts) (h.run pullId acts) := by
  induction acts generalizing w h with
  | nil => exact hm
  | cons act acts ih => exact ih (hm.step act)

theorem Matches.current_iff (hm : Matches read pullId w h) {d : PullDemand (Pulled B R)}
    (hd : d.pullId = pullId) :
    (w.pull read d).snapshot.value.cache = some (.rows (read (w.pull read d).content)) ↔
      h.Served read := by
  have hcontent : (w.pull read d).content = h.content := by
    unfold SnapshotWorld.pull
    split_ifs <;> exact hm.content
  rw [(hm.pulled hd).2, hcontent]
  by_cases hreads : h.Reads
  · rw [if_pos hreads]
    exact iff_of_true rfl fun s hs => .inl (hreads s hs)
  · rw [if_neg hreads]
    simp only [Requests.Reads, not_forall, not_not] at hreads
    obtain ⟨s, hlast, hsame⟩ := hreads
    have hcache : h.cache read = if s.cleared then none else some (.rows (read s.content)) := by
      rw [Requests.cache, hlast]
      rfl
    rw [hcache]
    constructor
    · intro hcurrent t ht
      obtain rfl := Option.some.inj (hlast.symm.trans ht)
      cases hcleared : s.cleared with
      | true =>
        rw [hcleared] at hcurrent
        cases hcurrent
      | false =>
        rw [hcleared] at hcurrent
        exact .inr ⟨rfl, Pulled.rows.inj (Option.some.inj hcurrent)⟩
    · intro hserved
      rcases hserved s hlast with hnew | ⟨hkept, hrows⟩
      · exact absurd hsame hnew
      · rw [hkept, ← hrows]
        rfl

/-- After the requests before it, every PULL of an active snapshot node is served. -/
def AllServed (read : B.Content → R) (content : B.Content) (pullId : LockId)
    (acts : List (SnapshotAct B R)) : Prop :=
  ∀ before d after, acts = before ++ .pull d :: after → d.pullId = pullId →
    0 < (Requests.run pullId { content } before).subscribers →
      (Requests.run pullId { content } before).Served read

theorem snapshots_current_iff (read : B.Content → R) (content : B.Content) (pullId : LockId)
    (acts : List (SnapshotAct B R)) :
    (new content pullId).Current read acts ↔ AllServed read content pullId acts := by
  have hmatches : ∀ before, Matches read pullId ((new content pullId).run read before)
      (Requests.run pullId { content } before) :=
    fun before => (Matches.new content pullId).run before
  have hlast : ∀ before d, (new content pullId).run read (before ++ [.pull d]) =
      pull read ((new content pullId).run read before) d := by
    intro before d
    rw [SnapshotWorld.run, List.foldl_append]
    rfl
  constructor
  · intro hcurrent before d after hacts hd hsome
    have hm := hmatches before
    have hnow := hcurrent before d after hacts (by rw [hm.quiet.config, hd])
      (hm.activated.mpr hsome)
    rw [hlast] at hnow
    exact (hm.current_iff hd).mp hnow
  · intro hserved before d after hacts hid hactive
    have hm := hmatches before
    rw [hm.quiet.config] at hid
    have hd : d.pullId = pullId := (Option.some.inj hid).symm
    rw [hlast]
    exact (hm.current_iff hd).mpr (hserved before d after hacts hd (hm.activated.mp hactive))

-- Nothing is made between the two demands, and the cache was cleared in between.
theorem cleared_snapshot_stays_empty :
    ¬ (new [] ⟨"p"⟩ : SnapshotWorld (listBackend Nat none) (List Nat)).Current id
      [.subscribe, .call (.append 1), .pull ⟨⟨"p"⟩, none⟩, .upInvalidate,
        .pull ⟨⟨"p"⟩, none⟩] := by
  intro hcurrent
  have hnow := hcurrent [.subscribe, .call (.append 1), .pull ⟨⟨"p"⟩, none⟩, .upInvalidate]
    ⟨⟨"p"⟩, none⟩ [] rfl rfl rfl
  cases hnow

end GraphRefly.Collections
