import GraphRefly.Wave.Batch

/-!
# Pause Locks

PAUSE and RESUME in the default mode. A paused node takes dep messages in but
does not run; it remembers in one flag that it skipped a wave and stays owed.
Releasing its last lock fires the remembered run, unless a dep is still owed,
in which case the run follows when that dep emits. So a network without locks
has caught up with its sources, whatever was paused on the way.

A RESUME that names a lock the node does not hold travels upstream to the nodes
that do.

## Main definitions

* `NetOp`: A write, a PAUSE or a RESUME.
* `Performs`: A sequence of calls, each run until it returns.
* `Node.unlocked`: A slot without what pausing changes.
* `Caught`: What PAUSE and RESUME change of a network at rest.

## Theorems

* `exec_release`: A lock is released.
* `exec_resume`: RESUME travels upstream.
* `pause_transparent`: Pausing is transparent.
-/

namespace GraphRefly

open List

variable {V S : Type}

/-- A write, a PAUSE or a RESUME. -/
inductive NetOp (V : Type)
  | set (s : NodeId) (v : V)
  | pause (n : NodeId) (l : LockId)
  | resume (n : NodeId) (l : LockId)

namespace NetOp

/-- The call the operation makes. -/
def userOp : NetOp V → UserOp V S
  | set s v => .down s [.data v]
  | pause n l => .up n [.pause l] none
  | resume n l => .up n [.resume l] none

def isSet : NetOp V → Bool
  | set _ _ => true
  | _ => false

/-- What the operation writes. -/
def sets : NetOp V → List (NodeId × V)
  | set s v => [(s, v)]
  | _ => []

/-- Writes go to sources, locks to live nodes. -/
def Valid (c : Config V S) : NetOp V → Prop
  | set s _ => (c.nodes s).live = true ∧ (c.nodes s).deps = []
  | pause n _ => (c.nodes n).live = true
  | resume n _ => (c.nodes n).live = true

theorem Valid.of_net {c c' : Config V S} {op : NetOp V} (h : op.Valid c)
    (hnet : Config.SameNet c c') : op.Valid c' := by
  cases op with
  | set s v => exact ⟨(hnet.live s).trans h.1, (hnet.deps s).trans h.2⟩
  | pause n l => exact (hnet.live n).trans h
  | resume n l => exact (hnet.live n).trans h

end NetOp

theorem lastSet_append (sets sets' : List (NodeId × V)) (s : NodeId) :
    lastSet (sets ++ sets') s = (lastSet sets' s).or (lastSet sets s) := by
  unfold lastSet
  rw [reverse_append, lookup_append]

/-- A slot without what pausing changes. -/
def Node.unlocked (x : Node V S) : Node V S :=
  { x with aux := { x.aux with pauseLockset := [], pausedDepWaveOccurred := false } }

namespace Config

variable {env : Env V S} {compute : FnId → List (Option V) → Except String V}
  {rank : NodeId → Nat} {c c' c'' : Config V S} {n : NodeId} {l : LockId}

/-- The same slots but for the locks. -/
structure SameUnlocked (c c' : Config V S) : Prop where
  slot : ∀ n, (c'.nodes n).unlocked = (c.nodes n).unlocked
  size : c'.size = c.size
  boxes : c'.boxes = c.boxes

namespace SameUnlocked

theorem live (h : SameUnlocked c c') (n : NodeId) : (c'.nodes n).live = (c.nodes n).live :=
  (congrArg Node.live (h.slot n) :)

theorem deps (h : SameUnlocked c c') (n : NodeId) : (c'.nodes n).deps = (c.nodes n).deps :=
  (congrArg Node.deps (h.slot n) :)

theorem handle (h : SameUnlocked c c') (n : NodeId) : (c'.nodes n).handle = (c.nodes n).handle :=
  (congrArg Node.handle (h.slot n) :)

theorem dep (h : SameUnlocked c c') (n : NodeId) : (c'.nodes n).dep = (c.nodes n).dep :=
  (congrArg Node.dep (h.slot n) :)

theorem value (h : SameUnlocked c c') (n : NodeId) : (c'.nodes n).value = (c.nodes n).value :=
  (congrArg Node.value (h.slot n) :)

theorem wave (h : SameUnlocked c c') (n : NodeId) : (c'.nodes n).wave = (c.nodes n).wave :=
  (congrArg Node.wave (h.slot n) :)

theorem owed (h : SameUnlocked c c') (n : NodeId) : c'.owed n = c.owed n := by
  unfold Config.owed
  rw [h.wave]

theorem cache (h : SameUnlocked c c') (n : NodeId) : c'.cache n = c.cache n := by
  unfold Config.cache
  rw [h.value]

theorem depAt (h : SameUnlocked c c') (m : NodeId) (i : Nat) (d : NodeId) :
    c'.DepAt m i d ↔ c.DepAt m i d := by
  unfold DepAt
  rw [h.live, h.deps]

theorem edges (h : SameUnlocked c c') (d : NodeId) : c'.edges d = c.edges d := by
  have hsubs : (c'.nodes d).aux.subscribers = (c.nodes d).aux.subscribers :=
    (congrArg (·.aux.subscribers) (h.slot d) :)
  unfold Config.edges edgesOf
  rw [hsubs, h.boxes]

theorem net (h : SameUnlocked c c') : SameNet c c' :=
  ⟨h.live, h.deps, h.handle⟩

theorem tame (h : SameUnlocked c c') (n : NodeId) (ht : (c.nodes n).Tame) : (c'.nodes n).Tame := by
  have hx := h.slot n
  have hcalled : (c'.nodes n).hasCalledFnOnce = (c.nodes n).hasCalledFnOnce :=
    (congrArg Node.hasCalledFnOnce hx :)
  have hrest : (c'.nodes n).restoredHandshake = (c.nodes n).restoredHandshake :=
    (congrArg Node.restoredHandshake hx :)
  refine ⟨(congrArg Node.config hx :).trans ht.config, ?_, ?_, ?_, ?_, ?_, ?_,
    (congrArg (·.aux.pauseBuffer) hx :).trans ht.buffer,
    (congrArg (·.aux.pullDirtyOwed) hx :).trans ht.pullDirty⟩
  · rw [h.deps, h.handle]
    exact ht.source
  · rw [h.deps, h.handle]
    exact ht.derived
  · rw [h.deps, hcalled]
    exact ht.called
  · rw [h.value]
    exact ht.running
  · rw [hrest]
    exact ht.unrestored
  · rw [h.wave]
    exact ht.steady

theorem wired (h : SameUnlocked c c') (hw : c.Wired rank) : c'.Wired rank := by
  refine ⟨?_, ?_, ?_, ?_, ?_, ?_⟩
  · intro n hn
    rw [h.live] at hn
    rw [h.size]
    exact hw.bounded n hn
  · intro n hn
    rw [h.live] at hn
    exact h.tame n (hw.tame n hn)
  · intro m i d hd
    rw [h.live]
    exact hw.depsLive m i d ((h.depAt m i d).mp hd)
  · intro m i d hd
    exact hw.descends m i d ((h.depAt m i d).mp hd)
  · intro d hd m i
    rw [h.live] at hd
    rw [h.edges, h.depAt]
    exact hw.edge d hd m i
  · intro d hd
    rw [h.live] at hd
    rw [h.edges]
    exact hw.edgesNodup d hd

/-- The ledger reads the locks only where a skipped wave is remembered. -/
theorem ledger (h : SameUnlocked c c') (hc : c.Ledger compute [] [])
    (hflag : ∀ n, (c.nodes n).live = true → (c'.nodes n).aux.pausedDepWaveOccurred = true →
      (c.nodes n).aux.pausedDepWaveOccurred = true ∧ (c'.nodes n).isPaused = true) :
    c'.Ledger compute [] [] := by
  refine ⟨?_, ?_, ?_, ?_, ?_, ?_, ?_⟩
  · intro m hm
    rw [h.live] at hm
    rw [h.dep, h.deps]
    exact hc.sound m hm
  · intro m i d hd
    rw [h.depAt] at hd
    rw [h.dep, h.owed]
    exact hc.told m i d hd
  · intro m i d hd
    rw [h.depAt] at hd
    rw [h.dep, h.owed]
    exact hc.heard m i d hd
  · intro m i d hd hlate
    rw [h.depAt] at hd
    rw [h.dep, h.cache]
    exact hc.latest m i d hd hlate
  · intro m hm hne ho
    rw [h.live] at hm
    rw [h.deps] at hne
    rw [h.owed] at ho
    rcases hc.coherent m hm hne ho with ⟨f, v, hf, hv, hcache⟩
    refine ⟨f, v, by rw [h.handle, hf], ?_, by rw [h.cache, hcache]⟩
    rw [h.deps, map_congr_left (fun d _ => h.cache d)]
    exact hv
  · intro m hm ho
    rw [h.live] at hm
    rw [h.owed] at ho
    rw [h.wave]
    exact hc.idle m hm ho
  · intro m hm hf
    rw [h.live] at hm
    have hboth := hflag m hm hf
    have hold := hc.flagged m hm hboth.1
    rw [h.deps, h.owed]
    exact ⟨hold.1, hboth.2, hold.2.2⟩

theorem ready (h : SameUnlocked c c') (n : NodeId) : c'.Ready n ↔ c.Ready n := by
  unfold Ready
  rw [h.live, h.deps, h.owed, h.dep]

end SameUnlocked

variable {y : Node V S}

/-- Replacing one slot by one that differs in its locks. -/
theorem SameUnlocked.setNode
    (hy : y.unlocked = (c.nodes n).unlocked) : SameUnlocked c (c.setNode n y) := by
  refine ⟨?_, rfl, rfl⟩
  intro m
  by_cases hm : m = n
  · rw [hm, setNode_self, hy]
  · rw [setNode_of_ne c y hm]

/-- What PAUSE and RESUME change of a network at rest: not its sources, and a
    fn that runs runs without locks. -/
structure Caught (compute : FnId → List (Option V) → Except String V) (rank : NodeId → Nat)
    (c c' : Config V S) : Prop where
  resting : c'.Resting compute rank
  net : SameNet c c'
  wave : c'.wave.isSome = c.wave.isSome
  batch : c'.batch = c.batch
  boundary : c'.boundary = c.boundary
  sources : ∀ n, (c.nodes n).live = true → (c.nodes n).deps = [] →
    c'.cache n = c.cache n ∧ c'.owed n = c.owed n
  log : ∃ es, c'.log = es ++ c.log ∧ ∀ n ctx ls, .ran n ctx ls ∈ es → ls = []

theorem Caught.refl (h : c.Resting compute rank) : Caught compute rank c c :=
  ⟨h, ⟨fun _ => rfl, fun _ => rfl, fun _ => rfl⟩, rfl, rfl, rfl, fun _ _ _ => ⟨rfl, rfl⟩,
    ⟨[], rfl, fun _ _ _ hmem => absurd hmem not_mem_nil⟩⟩

theorem Caught.trans (h : Caught compute rank c c') (h' : Caught compute rank c' c'') :
    Caught compute rank c c'' := by
  refine ⟨h'.resting, h.net.trans h'.net, h'.wave.trans h.wave, h'.batch.trans h.batch,
    h'.boundary.trans h.boundary, ?_, ?_⟩
  · intro n hl hd
    have h₁ := h.sources n hl hd
    have h₂ := h'.sources n (by rw [h.net.live]; exact hl) (by rw [h.net.deps]; exact hd)
    exact ⟨h₂.1.trans h₁.1, h₂.2.trans h₁.2⟩
  · rcases h.log with ⟨es, hes, hran⟩
    rcases h'.log with ⟨es', hes', hran'⟩
    refine ⟨es' ++ es, by rw [hes', hes, append_assoc], ?_⟩
    intro n ctx ls hmem
    rcases mem_append.mp hmem with hmem | hmem
    · exact hran' n ctx ls hmem
    · exact hran n ctx ls hmem

/-- Changing the locks of a node that is not ready, or stays paused. -/
theorem Resting.setLocks (h : c.Resting compute rank) (hy : y.unlocked = (c.nodes n).unlocked)
    (hflag : y.aux.pausedDepWaveOccurred = true →
      (c.nodes n).aux.pausedDepWaveOccurred = true ∧ y.isPaused = true)
    (hheld : c.Ready n → y.isPaused = true ∧ y.aux.pausedDepWaveOccurred = true) :
    Caught compute rank c (c.setNode n y) := by
  have hs : SameUnlocked c (c.setNode n y) := .setNode hy
  refine ⟨⟨h.running, hs.wired h.wired, ?_, ?_, ?_, h.deferred, h.depth⟩, hs.net, rfl, rfl, rfl,
    fun m _ _ => ⟨hs.cache m, hs.owed m⟩, ⟨[], rfl, fun _ _ _ hmem => absurd hmem not_mem_nil⟩⟩
  · refine hs.ledger h.ledger ?_
    intro m hl hf
    by_cases hm : m = n
    · rw [hm, setNode_self] at hf ⊢
      exact hflag hf
    · rw [setNode_of_ne c y hm] at hf ⊢
      exact ⟨hf, (h.ledger.flagged m hl hf).2.1⟩
  · intro m hl
    rw [hs.live] at hl
    rw [hs.wave]
    exact h.calm m hl
  · intro m hr
    have hr' := (hs.ready m).mp hr
    unfold Held
    by_cases hm : m = n
    · rw [hm, setNode_self]
      rw [hm] at hr'
      exact hheld hr'
    · rw [setNode_of_ne c y hm]
      exact h.held m hr'

/-- A drain leaves the flags of a calm network calm. -/
theorem Advance.calm (h : Advance none c c')
    (hcalm : (c.nodes n).wave.emittedTier3ThisWave = false ∧
      (c.nodes n).wave.insideRunWave = false) : (c'.nodes n).wave.emittedTier3ThisWave = false ∧
      (c'.nodes n).wave.insideRunWave = false := by
  cases ho : c.owed n with
  | false =>
    rw [(h.kept n ho).2]
    exact hcalm
  | true =>
    cases ho' : c'.owed n with
    | true =>
      rw [(h.waits n ho').2]
      exact hcalm
    | false =>
      rw [h.cleared rfl n ho ho']
      exact hcalm

/-- A remembered run that can be made now. -/
theorem exec_fire (henv : env.Computes compute) (hok : ∀ f xs e, compute f xs ≠ .error e)
    (hw : Working compute rank [n] c)
    (hcalm : ∀ m, (c.nodes m).live = true → (c.nodes m).wave.emittedTier3ThisWave = false ∧
      (c.nodes m).wave.insideRunWave = false)
    (hawake : (c.nodes n).isPaused = false) :
    ∃ c', Exec env [.runWave n] c c' ∧ Caught compute rank c c' := by
  have hready := hw.queue.ready n mem_cons_self
  rcases (hw.wired.tame n hready.1).derived hready.2.1 with ⟨f, hf⟩
  rcases hres : compute f ((c.nodes n).deps.map c.cache) with e | v
  · exact absurd hres (hok f _ e)
  rcases exec_run_emits henv hw hawake hf hres (fun N _ => exec_drain henv rank N) with
    ⟨q, c', hout, hex⟩
  have hq : q = none := by
    cases hq : q with
    | none => rfl
    | some p =>
      rcases (hout.failed p hq).2.2.1 with ⟨f, e, _, he, _⟩
      exact absurd he (hok f _ e)
  subst hq
  have hdone := hout.done rfl
  have hg := hout.advance.graph
  refine ⟨c', hex, ⟨⟨hdone.1, hg.wired hw.wired, hout.ledger, ?_, ?_, hdone.2.1,
    hout.advance.depth.trans hw.depth⟩, hg.net, hg.wave, hg.batch, hg.boundary, ?_, ?_⟩⟩
  · intro m hl
    rw [hg.live] at hl
    exact hout.advance.calm (hcalm m hl)
  · intro m hr
    rcases hdone.2.2.waiting m hr with hm | hm | hm
    · exact absurd hm not_mem_nil
    · rw [hdone.2.1] at hm
      exact absurd hm not_mem_nil
    · exact hm
  · intro m hl hdeps
    have hsame : c.owed m = false → c'.cache m = c.cache m ∧ c'.owed m = c.owed m := by
      intro ho
      have hkept := hout.advance.kept m ho
      unfold cache owed
      rw [hkept.1, hkept.2]
      exact ⟨rfl, rfl⟩
    cases ho : c.owed m with
    | false =>
      rw [← ho]
      exact hsame ho
    | true =>
      cases ho' : c'.owed m with
      | true =>
        refine ⟨?_, rfl⟩
        unfold cache
        rw [(hout.advance.waits m ho').1]
      | false => exact absurd hdeps (hout.advance.derived m ho ho').2
  · rcases hout.advance.log with ⟨es, hes, _, hran, _⟩
    exact ⟨es, hes, fun m ctx ls hmem => (hran m ctx ls hmem).2⟩

/-- The last lock of a node is gone: a remembered run is made, if it can be. -/
theorem exec_resumeFire (henv : env.Computes compute) (hok : ∀ f xs e, compute f xs ≠ .error e)
    (h : c.Resting compute rank) (hn : (c.nodes n).live = true)
    (hy : y.unlocked = (c.nodes n).unlocked) (hawake : y.aux.pauseLockset = [])
    (hsame : y.aux.pausedDepWaveOccurred = (c.nodes n).aux.pausedDepWaveOccurred) :
    ∃ c', Exec env [.resumeFire n] (c.setNode n y) c' ∧ Caught compute rank c c' := by
  set z : Node V S := { y with aux := { y.aux with pausedDepWaveOccurred := false } } with hz
  have hzy : z.unlocked = (c.nodes n).unlocked := hy
  have hzawake : z.isPaused = false := by
    rw [hz, Node.isPaused]
    simp [hawake]
  have hs : SameUnlocked c (c.setNode n z) := .setNode hzy
  have hself : (c.setNode n z).nodes n = z := setNode_self c n z
  have hset : ∀ rest, ((c.setNode n y).popTo rest).setNode n z = (c.setNode n z).popTo rest := by
    intro rest
    unfold setNode popTo
    simp only [Function.update_idem]
  have hy' : ∀ rest, ((c.setNode n y).popTo rest).nodes n = y := fun rest => setNode_self c n y
  cases hf : (c.nodes n).aux.pausedDepWaveOccurred with
  | false =>
    -- Nothing was skipped, so the node cannot be waiting to run.
    refine ⟨c.setNode n z, ?_, h.setLocks hzy (fun hflag => by (cases hflag)) ?_⟩
    · refine Exec.enter (c.setNode n z) [] h.running ?_ Exec.nil
      intro rest
      have hyf : y.aux.pausedDepWaveOccurred = false := hsame.trans hf
      simp only [enter, resumeFire, hy', hyf, Bool.false_eq_true, ↓reduceIte]
      exact hset rest
    · intro hr
      have hheld := (h.held n hr).2
      rw [hf] at hheld
      cases hheld
  | true =>
    have hflagged := h.ledger.flagged n hn hf
    have hyf : y.aux.pausedDepWaveOccurred = true := hsame.trans hf
    have henter : ∀ c', Exec env [.tryRun n] (c.setNode n z) c' →
        Exec env [.resumeFire n] (c.setNode n y) c' := by
      intro c' hex
      refine Exec.enter (c.setNode n z) [.tryRun n] h.running ?_ hex
      intro rest
      simp only [enter, resumeFire, hy', hyf, ↓reduceIte]
      exact (congrArg (fun b : Config V S => b.push [.tryRun n]) (hset rest) :)
    have hsound := h.ledger.sound n hn
    by_cases hpend : (c.nodes n).dep.pending = 0
    · -- Every dep has settled: the remembered run is made.
      have hready : c.Ready n :=
        ⟨hn, hflagged.1, hflagged.2.2, hsound.pending_eq_zero.mp hpend⟩
      have hready' : (c.setNode n z).Ready n := (hs.ready n).mpr hready
      have hledger : (c.setNode n z).Ledger compute [] [] := by
        refine hs.ledger h.ledger ?_
        intro m hl hfm
        by_cases hm : m = n
        · rw [hm, hself] at hfm
          cases hfm
        · rw [setNode_of_ne c z hm] at hfm ⊢
          exact ⟨hfm, (h.ledger.flagged m hl hfm).2.1⟩
      have hqueue : (c.setNode n z).Queue [n] := by
        refine ⟨?_, ?_, ?_, ?_⟩
        · intro m hr
          by_cases hm : m = n
          · rw [hm]
            exact Or.inl mem_cons_self
          · refine Or.inr (Or.inr ?_)
            unfold Held
            rw [setNode_of_ne c z hm]
            exact h.held m ((hs.ready m).mp hr)
        · intro m hm
          rw [mem_singleton.mp hm]
          exact hready'
        · intro a ha
          rw [show (c.setNode n z).deferred = [] from h.deferred] at ha
          exact absurd ha not_mem_nil
        · rw [show (c.setNode n z).deferred = [] from h.deferred]
          exact nodup_singleton n
      have hwork : Working compute rank [n] (c.setNode n z) :=
        ⟨h.running, hs.wired h.wired, hledger, hqueue, h.depth⟩
      rcases exec_fire henv hok hwork
        (fun m hl => by rw [hs.wave]; exact h.calm m (by rw [← hs.live]; exact hl))
        (by rw [hself]; exact hzawake) with ⟨c', hex, hcaught⟩
      refine ⟨c', henter c' (Exec.enter (c.setNode n z) [.runWave n] h.running ?_ hex), ?_⟩
      · intro rest
        have hself' : ((c.setNode n z).popTo rest).nodes n = z := hself
        have hp : z.dep.pending = 0 := by
          rw [← hself, hs.dep]
          exact hpend
        have htame : z.Tame := by
          rw [← hself]
          exact hs.tame n (h.wired.tame n hn)
        have hdeps : z.deps ≠ [] := by
          rw [← hself, hs.deps]
          exact hflagged.1
        rcases htame.derived hdeps with ⟨f, hf'⟩
        have hgate : z.gateOpen = true := by
          unfold Node.gateOpen
          rw [htame.called hdeps]
          rfl
        simp only [enter, tryRun, hself', hp, gt_iff_lt, lt_irrefl, ↓reduceIte, hf',
          Option.isNone_some, Bool.false_eq_true, hgate]
        rfl
      · have hfirst : SameNet c (c.setNode n z) := hs.net
        refine ⟨hcaught.resting, hfirst.trans hcaught.net, hcaught.wave, hcaught.batch,
          hcaught.boundary, ?_, hcaught.log⟩
        intro m hl hd
        have hsrc := hcaught.sources m (by rw [hs.live]; exact hl) (by rw [hs.deps]; exact hd)
        exact ⟨hsrc.1.trans (hs.cache m), hsrc.2.trans (hs.owed m)⟩
    · -- A dep is still owed: the run will follow its emission.
      refine ⟨c.setNode n z, henter _ (Exec.enter (c.setNode n z) [] h.running ?_ Exec.nil),
        h.setLocks hzy (fun hflag => by (cases hflag)) ?_⟩
      · intro rest
        have hself' : ((c.setNode n z).popTo rest).nodes n = z := hself
        have hp : 0 < z.dep.pending := by
          rw [← hself, hs.dep]
          have hnonneg := hsound.pending_nonneg
          omega
        simp only [enter, tryRun, hself', gt_iff_lt, hp, ↓reduceIte]
        rfl
      · intro hr
        exact absurd (hsound.pending_eq_zero.mpr hr.2.2.2) hpend

/-- A lock is released. -/
theorem exec_release (henv : env.Computes compute) (hok : ∀ f xs e, compute f xs ≠ .error e)
    (h : c.Resting compute rank) (hn : (c.nodes n).live = true) (hb : c.batch = none)
    (hl : l ∈ (c.nodes n).aux.pauseLockset) :
    ∃ c', Exec env [.pauseRelease n l] c c' ∧ Caught compute rank c c' := by
  have htame := h.wired.tame n hn
  set left := (c.nodes n).aux.pauseLockset.filter (· ≠ l) with hleft
  set y : Node V S := { c.nodes n with
    aux := { (c.nodes n).aux with pauseLockset := left } } with hy
  have hyu : y.unlocked = (c.nodes n).unlocked := rfl
  have htame' : ((c.setNode n y).nodes n).Tame :=
    (SameUnlocked.setNode hyu).tame n htame
  by_cases hempty : left = []
  · -- The last lock: the node resumes.
    rcases exec_resumeFire henv hok h hn hyu hempty rfl with ⟨c', hex, hcaught⟩
    have hlive' : (c'.nodes n).live = true := (hcaught.net.live n).trans hn
    refine ⟨c', ?_, hcaught⟩
    refine Exec.enter (c.setNode n y) [.onResume n, .fireOwedDemandIfReady n] h.running ?_ ?_
    · intro rest
      have hl' : l ∈ ((c.popTo rest).nodes n).aux.pauseLockset := hl
      have hleft' : (((c.popTo rest).nodes n).aux.pauseLockset.filter (· ≠ l)).isEmpty = true := by
        rw [List.isEmpty_iff]
        exact hempty
      have hpull : ((c.popTo rest).nodes n).config.pullId.isNone = true := by
        rw [show ((c.popTo rest).nodes n).config = {} from htame.config]
        rfl
      have hroot : ∀ b : Config V S, b.batch = none → b.registerBoundaryRoot = b := by
        intro b hbb
        unfold registerBoundaryRoot
        rw [hbb]
      simp only [enter, pauseRelease, hl', ↓reduceIte, hleft', hpull]
      rw [hroot ((c.popTo rest).setNode n _) hb]
      rfl
    · refine Exec.cons ?_ (exec_fireOwedDemand hcaught.resting.running
        (hcaught.resting.wired.tame n hlive'))
      refine Exec.enter (c.setNode n y) [.resumeFire n] h.running ?_ hex
      intro rest
      have hself : ((c.setNode n y).popTo rest).nodes n = y := setNode_self c n y
      have hterm : y.value.terminal = false := htame.running
      have hbuf : y.aux.pauseBuffer = [] := htame.buffer
      have hsame : ({ y with aux := { y.aux with pauseBuffer := [] } } : Node V S) = y := by
        rw [← hbuf]
      simp only [enter, onResume, hself, hterm, Bool.false_eq_true, ↓reduceIte, hsame, hbuf,
        map_nil, nil_append]
      have hidem : ((c.setNode n y).popTo rest).setNode n y = (c.setNode n y).popTo rest := by
        unfold setNode popTo
        simp only [Function.update_idem]
      rw [hidem]
      rfl
  · -- Another lock keeps the node paused.
    have hpaused : y.isPaused = true := by
      rw [hy, Node.isPaused]
      simpa using hempty
    refine ⟨c.setNode n y, ?_, h.setLocks hyu (fun hf => ⟨hf, hpaused⟩)
      (fun hr => ⟨hpaused, (h.held n hr).2⟩)⟩
    refine Exec.enter (c.setNode n y) [.fireOwedDemandIfReady n] h.running ?_
      (exec_fireOwedDemand h.running htame')
    intro rest
    have hl' : l ∈ ((c.popTo rest).nodes n).aux.pauseLockset := hl
    have hleft' : (((c.popTo rest).nodes n).aux.pauseLockset.filter (· ≠ l)).isEmpty = false := by
      rw [isEmpty_eq_false_iff]
      exact hempty
    simp only [enter, pauseRelease, hl', ↓reduceIte, hleft', Bool.false_eq_true]
    rfl

/-- RESUME at a node: it releases its lock or passes the message on to its
    deps. -/
theorem exec_resume (henv : env.Computes compute) (hok : ∀ f xs e, compute f xs ≠ .error e)
    (l : LockId) : ∀ (r : Nat) (n : NodeId) (c : Config V S), rank n = r →
      c.Resting compute rank → (c.nodes n).live = true → c.batch = none →
      ∃ c', Exec env [.upMsg n (.resume l) none] c c' ∧ Caught compute rank c c' := by
  intro r
  induction r using Nat.strong_induction_on with
  | _ r ih =>
    intro n c hr h hn hb
    by_cases hl : l ∈ (c.nodes n).aux.pauseLockset
    · rcases exec_release henv hok h hn hb hl with ⟨c', hex, hcaught⟩
      refine ⟨c', Exec.enter c [.pauseRelease n l] h.running ?_ hex, hcaught⟩
      intro rest
      have hn' : ((c.popTo rest).nodes n).live = true := hn
      have hl' : l ∈ ((c.popTo rest).nodes n).aux.pauseLockset := hl
      simp only [enter, upMsg, hn', ↓reduceIte, hl']
      rfl
    · -- The deps have smaller rank; they are visited one after another.
      have hall : ∀ (ds : List NodeId) (c : Config V S), c.Resting compute rank →
          c.batch = none → (∀ d ∈ ds, rank d < r ∧ (c.nodes d).live = true) →
          ∃ c', Exec env (ds.map fun d => .upMsg d (.resume l) none) c c' ∧
            Caught compute rank c c' := by
        intro ds
        induction ds with
        | nil =>
          intro c h _ _
          exact ⟨c, Exec.nil, .refl h⟩
        | cons d ds ihds =>
          intro c h hb hds
          have hd := hds d mem_cons_self
          rcases ih (rank d) hd.1 d c rfl h hd.2 hb with ⟨c₁, hex, hcaught⟩
          have hds' : ∀ d' ∈ ds, rank d' < r ∧ (c₁.nodes d').live = true := by
            intro d' hd'
            have hold := hds d' (mem_cons_of_mem _ hd')
            exact ⟨hold.1, (hcaught.net.live d').trans hold.2⟩
          rcases ihds c₁ hcaught.resting (hcaught.batch.trans hb) hds' with
            ⟨c', hex', hcaught'⟩
          exact ⟨c', Exec.cons hex hex', hcaught.trans hcaught'⟩
      have hdeps : ∀ d ∈ (c.nodes n).deps, rank d < r ∧ (c.nodes d).live = true := by
        intro d hd
        rcases mem_iff_getElem?.mp hd with ⟨i, hi⟩
        rw [← hr]
        exact ⟨h.wired.descends n i d ⟨hn, hi⟩, h.wired.depsLive n i d ⟨hn, hi⟩⟩
      rcases hall (c.nodes n).deps c h hb hdeps with ⟨c', hex, hcaught⟩
      refine ⟨c', Exec.enter c ((c.nodes n).deps.map fun d => .upMsg d (.resume l) none) h.running
        ?_ (by rw [append_nil]; exact hex), hcaught⟩
      intro rest
      have hn' : ((c.popTo rest).nodes n).live = true := hn
      have hl' : l ∉ ((c.popTo rest).nodes n).aux.pauseLockset := hl
      simp only [enter, upMsg, hn', ↓reduceIte, hl']
      rfl

/-- PAUSE at a node: it acquires the lock. -/
theorem exec_pause (h : c.Resting compute rank) (hn : (c.nodes n).live = true) (l : LockId) :
    ∃ c', Exec env [.upMsg n (.pause l) none] c c' ∧ Caught compute rank c c' := by
  by_cases hl : l ∈ (c.nodes n).aux.pauseLockset
  · refine ⟨c, Exec.enter c [] h.running ?_ Exec.nil, .refl h⟩
    intro rest
    have hn' : ((c.popTo rest).nodes n).live = true := hn
    have hl' : l ∈ ((c.popTo rest).nodes n).aux.pauseLockset := hl
    simp only [enter, upMsg, hn', ↓reduceIte, pauseAcquire, hl']
    rfl
  · set y : Node V S := { c.nodes n with aux := { (c.nodes n).aux with
      pauseLockset := (c.nodes n).aux.pauseLockset ++ [l] } } with hy
    have hpaused : y.isPaused = true := by
      rw [hy, Node.isPaused]
      simp
    refine ⟨c.setNode n y, Exec.enter (c.setNode n y) [] h.running ?_ Exec.nil,
      h.setLocks rfl (fun hf => ⟨hf, hpaused⟩) (fun hr => ⟨hpaused, (h.held n hr).2⟩)⟩
    intro rest
    have hn' : ((c.popTo rest).nodes n).live = true := hn
    have hl' : l ∉ ((c.popTo rest).nodes n).aux.pauseLockset := hl
    have hacquire : (c.popTo rest).upMsg n (.pause l) none = (c.popTo rest).pauseAcquire n l :=
      if_pos hn'
    exact hacquire.trans (if_neg hl')

/-! ### Sequences of operations -/

/-- A sequence of calls, each run until it returns. -/
inductive Performs (env : Env V S) (cb : Callback V) :
    List (NetOp V) → Config V S → Config V S → Prop
  | nil (c : Config V S) : Performs env cb [] c c
  | cons {op : NetOp V} {ops : List (NetOp V)} {c c₁ c' : Config V S}
      (hcall : Returns env c.stack (c.perform cb op.userOp) c₁) (hok : c₁.mode = .running)
      (hrest : Performs env cb ops c₁ c') : Performs env cb (op :: ops) c c'

/-- What operations change of an idle network: their writes reach the sources,
    and a fn that runs runs without locks. -/
structure Stepped (compute : FnId → List (Option V) → Except String V) (rank : NodeId → Nat)
    (sets : List (NodeId × V)) (c c' : Config V S) : Prop where
  idle : c'.Idle compute rank
  net : SameNet c c'
  sources : ∀ n, (c.nodes n).live = true → (c.nodes n).deps = [] →
    c'.cache n = (lastSet sets n).or (c.cache n)
  log : ∃ es, c'.log = es ++ c.log ∧ ∀ n ctx ls, .ran n ctx ls ∈ es → ls = []

theorem Stepped.trans {sets sets' : List (NodeId × V)} (h : Stepped compute rank sets c c')
    (h' : Stepped compute rank sets' c' c'') : Stepped compute rank (sets ++ sets') c c'' := by
  refine ⟨h'.idle, h.net.trans h'.net, ?_, ?_⟩
  · intro n hl hd
    rw [h'.sources n (by rw [h.net.live]; exact hl) (by rw [h.net.deps]; exact hd),
      h.sources n hl hd, lastSet_append, Option.or_assoc]
  · rcases h.log with ⟨es, hes, hran⟩
    rcases h'.log with ⟨es', hes', hran'⟩
    refine ⟨es' ++ es, by rw [hes', hes, append_assoc], ?_⟩
    intro n ctx ls hmem
    rcases mem_append.mp hmem with hmem | hmem
    · exact hran' n ctx ls hmem
    · exact hran n ctx ls hmem

/-- The call of `up` with one control message, outside any wave. -/
theorem up_returns (h : c.Idle compute rank) (hn : (c.nodes n).live = true) {m : Message V}
    (hm : m.isUpAllowed = true) (cb : Callback V)
    (hmsg : ∀ c₀ : Config V S, c₀.Resting compute rank → (c₀.nodes n).live = true →
      c₀.batch = none → ∃ c', Exec env [.upMsg n m none] c₀ c' ∧ Caught compute rank c₀ c') :
    ∃ c', Returns env c.stack (c.perform cb (.up n [m] none)) c' ∧
      Stepped compute rank [] c c' := by
  set c₀ : Config V S := { c with wave := some {} } with hc₀
  set c₁ : Config V S := { c₀ with routes := [] :: c.routes } with hc₁
  have hrest₁ : c₁.Resting compute rank := h.resting.of_nodes rfl rfl rfl rfl rfl rfl
  rcases hmsg c₁ hrest₁ hn h.batch with ⟨c₂, hex, hcaught⟩
  set c₃ : Config V S := { c₂ with routes := c₂.routes.tail } with hc₃
  have hrest₃ : c₃.Resting compute rank := hcaught.resting.of_nodes rfl rfl rfl rfl rfl rfl
  have hexit : Exec env [.waveExit n] c₃ { c₃ with wave := none } :=
    exec_waveExit hrest₃.running (hcaught.batch.trans h.batch)
      (hcaught.boundary.trans h.boundary)
  have hcall : c.perform cb (.up n [m] none) =
      c₀.popTo ([.up n [m] none, .waveExit n] ++ c.stack) := by
    have hlive : c.isLive n = true := by
      unfold isLive
      rw [hn, Bool.and_true, decide_eq_true_eq]
      exact h.resting.wired.bounded n hn
    unfold perform performLive performOn withWaveOwner waveInFlight
    simp only [hlive, ↓reduceIte, h.wave, Option.isSome_none, Bool.false_eq_true]
    rfl
  have hup : Exec env [.up n [m] none] c₀ c₃ := by
    refine Exec.enter c₁ [.upMsg n m none, .upRouteEnd] h.resting.running ?_ ?_
    · intro rest
      simp only [enter, up, all_cons, hm, all_nil, Bool.and_self, ↓reduceIte]
      rfl
    · exact Exec.cons hex (Exec.enter c₃ [] hcaught.resting.running (fun _ => rfl) Exec.nil)
  refine ⟨({ c₃ with wave := none } : Config V S).popTo c.stack, ?_, ?_⟩
  · rw [hcall]
    exact Exec.cons hup hexit c.stack
  · refine ⟨⟨hrest₃.of_nodes rfl rfl rfl rfl rfl rfl, rfl, hcaught.batch.trans h.batch,
      hcaught.boundary.trans h.boundary, ?_⟩, ⟨hcaught.net.live, hcaught.net.deps,
      hcaught.net.handle⟩, ?_, hcaught.log⟩
    · intro s hl hd
      have hl' : (c.nodes s).live = true := (hcaught.net.live s).symm.trans hl
      have hd' : (c.nodes s).deps = [] := (hcaught.net.deps s).symm.trans hd
      exact (hcaught.sources s hl' hd').2.trans (h.sources s hl' hd')
    · intro s hl hd
      exact (hcaught.sources s hl hd).1

/-- The call of `set`, with locks held or not. -/
theorem set_stepped (henv : env.Computes compute) (hok : ∀ f xs e, compute f xs ≠ .error e)
    (h : c.Idle compute rank) {s : NodeId} (hs : (c.nodes s).live = true)
    (hsrc : (c.nodes s).deps = []) (v : V) (cb : Callback V) :
    ∃ c', Returns env c.stack (c.perform cb (.down s [.data v])) c' ∧
      Stepped compute rank [(s, v)] c c' ∧
      ∀ n, (c'.nodes n).aux.pauseLockset = (c.nodes n).aux.pauseLockset := by
  rcases set_returns henv hok h hs hsrc v cb with ⟨c₁, c₂, hret, _, hann, _, hemit, hrest₂⟩
  have hg : SameGraph { c with wave := some {} } c₂ := hann.graph.trans hemit.graph
  -- A source other than the written one is not owed and keeps its value.
  have hother : ∀ n, (c.nodes n).live = true → (c.nodes n).deps = [] → n ≠ s →
      c₁.owed n = false := by
    intro n hl hd hne
    by_contra hcon
    rw [Bool.not_eq_false] at hcon
    rcases hann.fresh n hcon with ho | hdown
    · have ho' : c.owed n = true := ho
      rw [h.sources n hl hd] at ho'
      cases ho'
    · exact hne (Downstream.eq_of_source (c := c) hdown hd)
  refine ⟨_, hret, ⟨⟨hrest₂.of_nodes rfl rfl rfl rfl rfl rfl, rfl, hg.batch.trans h.batch,
    hg.boundary.trans h.boundary, ?_⟩, ⟨hg.live, hg.deps, hg.handle⟩, ?_, ?_⟩, hg.pauseLockset⟩
  · intro n hl hd
    by_cases hne : n = s
    · rw [hne]
      exact hemit.done
    · by_contra hcon
      rw [Bool.not_eq_false] at hcon
      have ho := hemit.owed n hcon
      rw [hother n ((hg.live n).symm.trans hl) ((hg.deps n).symm.trans hd) hne] at ho
      cases ho
  · intro n hl hd
    by_cases hne : n = s
    · rw [hne]
      have hlast : lastSet [(s, v)] s = some v := by simp [lastSet]
      rw [hlast]
      exact hemit.holds
    · have hlast : lastSet [(s, v)] n = none := by
        unfold lastSet
        simp [hne]
      rw [hlast]
      have hkept := (hemit.kept n hne (hother n hl hd hne)).1
      have hcache : c₂.cache n = c₁.cache n := by
        unfold cache
        rw [hkept]
      exact hcache.trans (hann.cache n)
  · rcases hann.log with ⟨es₁, hes₁, htold⟩
    rcases hemit.log with ⟨es₂, hes₂, _, hran, _⟩
    refine ⟨es₂ ++ es₁, ?_, ?_⟩
    · rw [append_assoc, ← hes₁]
      exact hes₂
    · intro n ctx ls hmem
      rcases mem_append.mp hmem with hmem | hmem
      · exact (hran n ctx ls hmem).2
      · cases htold _ hmem

theorem op_stepped (henv : env.Computes compute) (hok : ∀ f xs e, compute f xs ≠ .error e)
    (h : c.Idle compute rank) {op : NetOp V} (hop : op.Valid c) (cb : Callback V) :
    ∃ c', Returns env c.stack (c.perform cb op.userOp) c' ∧
      Stepped compute rank op.sets c c' ∧ (op.isSet = true →
        ∀ n, (c'.nodes n).aux.pauseLockset = (c.nodes n).aux.pauseLockset) := by
  cases op with
  | set s v =>
    rcases set_stepped henv hok h hop.1 hop.2 v cb with ⟨c', hret, hstep, hlocks⟩
    exact ⟨c', hret, hstep, fun _ => hlocks⟩
  | pause n l =>
    rcases up_returns (m := .pause l) h hop rfl cb
      (fun c₀ hrest hn _ => exec_pause hrest hn l) with ⟨c', hret, hstep⟩
    exact ⟨c', hret, hstep, fun hset => by (cases hset)⟩
  | resume n l =>
    rcases up_returns (m := .resume l) h hop rfl cb
      (fun c₀ hrest hn hb => exec_resume henv hok l (rank n) n c₀ rfl hrest hn hb) with
      ⟨c', hret, hstep⟩
    exact ⟨c', hret, hstep, fun hset => by (cases hset)⟩

/-- A sequence of operations. -/
theorem ops_stepped (henv : env.Computes compute) (hok : ∀ f xs e, compute f xs ≠ .error e)
    (cb : Callback V) : ∀ (ops : List (NetOp V)) (c : Config V S), c.Idle compute rank →
      (∀ op ∈ ops, op.Valid c) →
      ∃ c', Performs env cb ops c c' ∧ Stepped compute rank (ops.flatMap NetOp.sets) c c' ∧
        ((∀ op ∈ ops, op.isSet = true) →
          ∀ n, (c'.nodes n).aux.pauseLockset = (c.nodes n).aux.pauseLockset) := by
  intro ops
  induction ops with
  | nil =>
    intro c h _
    exact ⟨c, .nil c, ⟨h, ⟨fun _ => rfl, fun _ => rfl, fun _ => rfl⟩, fun _ _ _ => rfl,
      ⟨[], rfl, fun _ _ _ hmem => absurd hmem not_mem_nil⟩⟩, fun _ _ => rfl⟩
  | cons op ops ih =>
    intro c h hops
    rcases op_stepped henv hok h (hops op mem_cons_self) cb with
      ⟨c₁, hret, hstep, hlocks⟩
    have hops' : ∀ op' ∈ ops, op'.Valid c₁ := by
      intro op' hop'
      exact (hops op' (mem_cons_of_mem _ hop')).of_net hstep.net
    rcases ih c₁ hstep.idle hops' with ⟨c', hperf, hrest, hlocks'⟩
    refine ⟨c', .cons hret hstep.idle.resting.running hperf, ?_, ?_⟩
    · rw [flatMap_cons]
      exact hstep.trans hrest
    · intro hsets n
      rw [hlocks' (fun op' hop' => hsets op' (mem_cons_of_mem _ hop')) n]
      exact hlocks (hsets op mem_cons_self) n

/-- Leaving out PAUSE and RESUME leaves the writes. -/
theorem sets_filter (ops : List (NetOp V)) :
    (ops.filter NetOp.isSet).flatMap NetOp.sets = ops.flatMap NetOp.sets := by
  induction ops with
  | nil => rfl
  | cons op ops ih =>
    cases op with
    | set s v =>
      rw [filter_cons_of_pos rfl, flatMap_cons, flatMap_cons, ih]
    | pause n l =>
      rw [filter_cons_of_neg (by simp [NetOp.isSet]), flatMap_cons, ih]
      rfl
    | resume n l =>
      rw [filter_cons_of_neg (by simp [NetOp.isSet]), flatMap_cons, ih]
      rfl

/-- An idle network without locks has caught up with its sources. -/
theorem Idle.fresh (h : c.Idle compute rank)
    (hlocks : ∀ n, (c.nodes n).live = true → (c.nodes n).aux.pauseLockset = []) :
    ∀ n, (c.nodes n).live = true → (c.nodes n).deps ≠ [] → c.Fresh compute n := by
  intro n hl hd
  refine h.resting.ledger.coherent n hl hd (h.resting.settled ?_ h.sources n hl)
  intro m hm
  unfold Node.isPaused
  rw [hlocks m hm]
  rfl

/-- Pausing is transparent: no fn runs while its node holds a lock, and once
    every lock is released the caches are those of the writes alone. -/
theorem pause_transparent {compute : FnId → List (Option V) → V}
    (henv : env.Computes (total compute)) (h : c.Idle (total compute) rank)
    (hawake : ∀ n, (c.nodes n).live = true → (c.nodes n).aux.pauseLockset = [])
    (ops : List (NetOp V)) (hops : ∀ op ∈ ops, op.Valid c) (cb : Callback V) :
    ∃ c', Performs env cb ops c c' ∧
      (∃ es, c'.log = es ++ c.log ∧ ∀ n ctx locks, .ran n ctx locks ∈ es → locks = []) ∧
      ((∀ n, (c'.nodes n).live = true → (c'.nodes n).aux.pauseLockset = []) →
        ∃ c'', Performs env cb (ops.filter NetOp.isSet) c c'' ∧
          ∀ n, (c.nodes n).live = true → c'.cache n = c''.cache n) := by
  have hok : ∀ f xs e, total compute f xs ≠ .error e := fun f xs e he => by cases he
  rcases ops_stepped henv hok cb ops c h hops with ⟨c', hperf, hstep, _⟩
  refine ⟨c', hperf, hstep.log, ?_⟩
  intro hreleased
  have hfilter : ∀ op ∈ ops.filter NetOp.isSet, op.Valid c :=
    fun op hop => hops op (mem_filter.mp hop).1
  rcases ops_stepped henv hok cb (ops.filter NetOp.isSet) c h hfilter with
    ⟨c'', hperf', hstep', hlocks'⟩
  refine ⟨c'', hperf', ?_⟩
  have hlocks : ∀ n, (c''.nodes n).live = true → (c''.nodes n).aux.pauseLockset = [] := by
    intro n hn
    rw [hlocks' (fun op hop => (mem_filter.mp hop).2)]
    exact hawake n (by rw [← hstep'.net.live]; exact hn)
  have hnet : SameNet c'' c' := by
    refine ⟨fun n => ?_, fun n => ?_, fun n => ?_⟩
    · rw [hstep.net.live, hstep'.net.live]
    · rw [hstep.net.deps, hstep'.net.deps]
    · rw [hstep.net.handle, hstep'.net.handle]
  intro n hn
  refine caches_unique hstep'.idle.resting.wired hnet (hstep'.idle.fresh hlocks)
    (hstep.idle.fresh hreleased) ?_ n (by rw [hstep'.net.live]; exact hn)
  intro s hl hd
  rw [hstep'.net.live] at hl
  rw [hstep'.net.deps] at hd
  rw [hstep.sources s hl hd, hstep'.sources s hl hd, sets_filter]

/-- Node 1 of the diamond is paused over a write, and released by a RESUME that
    reaches it from the join. -/
def pausedWrite : List (NetOp Nat) :=
  [.pause 1 ⟨"a"⟩, .set 0 7, .resume 3 ⟨"a"⟩]

theorem pause_transparent_diamond :
    ∃ c', Performs diamond .main pausedWrite diamondIdle c' ∧
      ∃ es, c'.log = es ++ diamondIdle.log ∧
        ∀ n ctx locks, .ran n ctx locks ∈ es → locks = [] := by
  have hlive : ∀ n < 4, (diamondIdle.nodes n).live = true := by decide +kernel
  have hsrc : (diamondIdle.nodes 0).deps = [] := by decide +kernel
  have hawake : ∀ n, (diamondIdle.nodes n).live = true →
      (diamondIdle.nodes n).aux.pauseLockset = [] :=
    fun n hn => Node.pauseLockset_of_awake (diamondIdle_awake n hn)
  have hops : ∀ op ∈ pausedWrite, op.Valid diamondIdle := by
    intro op hop
    simp only [pausedWrite, mem_cons, not_mem_nil, or_false] at hop
    rcases hop with rfl | rfl | rfl
    · exact hlive 1 (by decide)
    · exact ⟨hlive 0 (by decide), hsrc⟩
    · exact hlive 3 (by decide)
  rcases pause_transparent (Env.computing_computes _ _) diamondIdle_idle hawake pausedWrite hops
    .main with ⟨c', hperf, hlog, _⟩
  exact ⟨c', hperf, hlog⟩

end Config

end GraphRefly
