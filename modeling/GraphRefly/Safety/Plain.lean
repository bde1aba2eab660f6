import GraphRefly.Core.Machine

/-!
# Footprints

What a step leaves alone. A footprint fixes a view of the node slots that does
not change, the frames that may be put on the stack and the events that may be
recorded; queue and arena size do not change either. Two footprints serve the
rest of the development:

* a plain step leaves the dep lists alone and puts no stage of a rewire or of
  the boundary drain on the stack;
* a silent step moreover leaves values and subscribers alone, delivers nothing
  and puts nothing on the stack that would, without asking first whether the
  node has terminated.

This module says once which functions are silent and which are only plain. The
results about the queue, the dep graph and the terminal messages then only look
at the few that are not.

## Main definitions

* `Config.Footprint`: What a step leaves alone.
* `Config.Silent`, `Config.Plain`, `Config.Inert`: The footprints.
* `Frame.entersSilent`, `Frame.entersPlain`, `Frame.unwindsPlain`: The frames
  whose step is silent or plain.

## Theorems

* `mem_frames`: The frames of a receive action.
* `enter_silent`, `enter_plain`, `unwind_silent`: The silent and plain steps.
* `enter_inert`, `unwind_inert`, `perform_inert`: The silent steps that keep the kernels.
* `perform_cases`, `unwind_cases`: What the others do, and what a payload does.
-/

namespace GraphRefly

open List

variable {V S : Type}

/-- A queue event. -/
def Event.isQueue : Event V → Bool
  | .enqueued _ _ => true
  | .applied _ _ => true
  | _ => false

/-- An event a plain step may record. -/
def Event.isPlain (e : Event V) : Bool :=
  !e.isQueue

/-- An event a silent step may record. -/
def Event.isSilent (e : Event V) : Bool :=
  !e.isQueue && !e.isDelivery

/-- Neither a turn of the boundary drain, nor a stage of a rewire, nor a dep
    subscription. -/
def Frame.isPlain : Frame V → Bool
  | .drainLoop _ _ => false
  | .subscribeDep _ _ _ => false
  | .depSubscribed _ _ _ _ _ => false
  | .externalRewire _ _ => false
  | .rewireInner _ _ _ _ => false
  | .rewireApply _ _ _ => false
  | .rewireRemove _ _ _ _ _ _ => false
  | .rewireAssign _ _ _ _ _ => false
  | .rewireFinish _ _ _ => false
  | .depMutationGuard _ => false
  | _ => true

/-- A plain frame that starts no delivery of its own: it asks `down` first. -/
def Frame.isSilent : Frame V → Bool
  | .emit _ _ _ => false
  | .emitToSubs _ _ => false
  | .emitDirtyOnce _ => false
  | .markDirty _ => false
  | .deliveryScope _ _ => false
  | .downLoop _ _ => false
  | .invalidate _ => false
  | .settleRewire _ => false
  | f => f.isPlain

/-- The frames of an activation. -/
def Frame.attaches : Frame V → Bool
  | .subscribeDep _ _ _ => true
  | .activateRun _ => true
  | _ => false

section

variable (x : Node V S)

/-- The edges of a slot. -/
def Node.edges : List NodeId × Bool :=
  (x.deps, x.live)

/-- What the outside sees of a slot: its edges, its value, its subscribers. -/
def Node.face : (List NodeId × Bool) × NodeValueState V × List SubscriberEntry × Nat :=
  (x.edges, x.value, x.aux.subscribers, x.aux.nextSubId)

/-- The part of a slot that holds its value, its bookkeeping and its
    subscriptions to its deps. -/
def Node.kernel : Node V S :=
  { live := x.live
    deps := x.deps
    value := x.value
    wave := { inDepMutation := x.wave.inDepMutation }
    dep := x.dep
    unsubs := x.unsubs
    idxBoxes := x.idxBoxes
    restoredHandshake := x.restoredHandshake
    aux := { activated := x.aux.activated } }

/-- The outside of a slot and its kernel. -/
def Node.guise :
    ((List NodeId × Bool) × NodeValueState V × List SubscriberEntry × Nat) × Node V S :=
  (x.face, x.kernel)

/-- What no dep message changes: the edges, the subscribers, the terminal
    flag. -/
def Node.ports : (List NodeId × Bool) × List SubscriberEntry × Nat × Bool :=
  (x.edges, x.aux.subscribers, x.aux.nextSubId, x.value.terminal)

end

/-- What a step leaves alone: queue, arena size and a view of every slot. It
    only puts admitted frames on the stack and records admitted events. -/
structure Config.Footprint {τ : Type} (view : Node V S → τ) (frames : Frame V → Bool)
    (events : Event V → Bool) (c c' : Config V S) : Prop where
  boundary : c'.boundary = c.boundary
  nextSeq : c'.nextSeq = c.nextSeq
  size : c'.size = c.size
  boxes : c'.boxes = c.boxes
  nextBox : c'.nextBox = c.nextBox
  nodes : ∀ n, view (c'.nodes n) = view (c.nodes n)
  log : ∃ es, c'.log = es ++ c.log ∧ ∀ e ∈ es, events e = true
  stack : ∃ fs, c'.stack = fs ++ c.stack ∧ ∀ f ∈ fs, frames f = true

/-- The footprint of a plain step. -/
abbrev Config.Plain (c c' : Config V S) : Prop :=
  Config.Footprint Node.edges Frame.isPlain Event.isPlain c c'

/-- The footprint of a silent step. -/
abbrev Config.Silent (c c' : Config V S) : Prop :=
  Config.Footprint Node.face Frame.isSilent Event.isSilent c c'

/-- The footprint of a silent step that leaves the kernels alone. -/
abbrev Config.Inert (c c' : Config V S) : Prop :=
  Config.Footprint Node.guise Frame.isSilent Event.isSilent c c'

/-! ### Single nodes -/

namespace Node

variable (x : Node V S)

theorem decideMaybeRun_guise : x.decideMaybeRun.1.guise = x.guise := by
  unfold decideMaybeRun
  split_ifs <;> rfl

theorem setMaybeRunAction_ports (b : Bool) (a : ReceiveAction V) :
    (x.setMaybeRunAction b a).1.ports = x.ports := by
  unfold setMaybeRunAction
  split_ifs
  · rfl
  · exact congrArg (fun f => (f.1, f.2.2.1, f.2.2.2, f.2.1.terminal))
      (congrArg Prod.fst x.decideMaybeRun_guise)

theorem noteSkippedWave_ports : x.noteSkippedWave.ports = x.ports := by
  unfold noteSkippedWave
  split_ifs <;> rfl

theorem settleReceived_ports (b : Bool) : (x.settleReceived b).1.ports = x.ports := by
  unfold settleReceived
  dsimp only
  split_ifs
  · exact (x.noteSkippedWave.setMaybeRunAction_ports b _).trans x.noteSkippedWave_ports
  · exact x.noteSkippedWave_ports

theorem receiveDirty_ports (i : Nat) : (x.receiveDirty i).1.ports = x.ports := by
  unfold receiveDirty
  dsimp only
  split_ifs <;> rfl

theorem receiveData_ports (d : Nat) (b : Bool) (i : Nat) (v : V) :
    (x.receiveData d b i v).1.ports = x.ports := by
  unfold receiveData
  dsimp only
  split_ifs
  · rfl
  · exact settleReceived_ports { x with dep := _ } b

theorem receiveTerminal_ports (b : Bool) (i : Nat) (t : DepTerminal) :
    (x.receiveTerminal b i t).1.ports = x.ports := by
  unfold receiveTerminal
  dsimp only
  split
  · rfl
  · split_ifs
    · exact setMaybeRunAction_ports { x with dep := _ } b _
    · rfl
    · rfl

/-- Receiving a dep message leaves the ports alone. -/
theorem receive_ports (d : Nat) (b : Bool) (i : Nat) (m : Message V) :
    (x.receive d b i m).1.ports = x.ports := by
  unfold receive
  split_ifs
  · cases m <;> rfl
  · cases m with
    | dirty => exact x.receiveDirty_ports i
    | data v => exact x.receiveData_ports d b i v
    | resolved => exact settleReceived_ports { x with dep := _ } b
    | complete => exact x.receiveTerminal_ports b i .complete
    | error e => exact x.receiveTerminal_ports b i (.error e)
    | _ => rfl

theorem collectDown_edges (m : Message V) : (x.collectDown m).1.edges = x.edges := by
  unfold collectDown
  cases m with
  | dirty | invalidate | complete | error _ => dsimp only; split_ifs <;> rfl
  | _ => rfl

end Node

/-- The frames of a receive action. -/
theorem mem_frames (a : ReceiveAction V) (n : NodeId) (f : Frame V) :
    f ∈ a.frames n →
      f = .emitToSubs n .teardown ∨ f = .emitToSubs n .dirty ∨ f = .down n [.invalidate] ∨
      f = .invalidate n ∨ f = .clearUndirty n a.hadNodeDataBeforeInvalidate ∨
      f = .deferRun n ∨ f = .passthroughEmit n ∨ f = .runWave n ∨
      (∃ msgs, a.downMsgs = some msgs ∧ f = .down n msgs) ∨
      f = .settleAfterAbsorbedTerminal n ∨ f = .fireOwedDemandIfReady n := by
  intro h
  simp only [ReceiveAction.frames, mem_append] at h
  rcases h with (((((((h | h) | h) | h) | h) | h) | h) | h) | h
  all_goals split at h
  all_goals first
    | (rw [mem_singleton] at h; try split at h) <;> grind
    | exact absurd h not_mem_nil


/-! ### How footprints compose -/

namespace Config.Footprint

variable {τ : Type} {view : Node V S → τ} {frames : Frame V → Bool} {events : Event V → Bool}

variable {c c' : Config V S}

theorem of_eq (hb : c'.boundary = c.boundary) (hq : c'.nextSeq = c.nextSeq)
    (hs : c'.size = c.size) (hbx : c'.boxes = c.boxes) (hx : c'.nextBox = c.nextBox)
    (hn : c'.nodes = c.nodes) (hl : c'.log = c.log) (hst : c'.stack = c.stack) :
    Footprint view frames events c c' where
  boundary := hb
  nextSeq := hq
  size := hs
  boxes := hbx
  nextBox := hx
  nodes := fun n => by rw [hn]
  log := ⟨[], hl, fun _ he => absurd he not_mem_nil⟩
  stack := ⟨[], hst, fun _ hf => absurd hf not_mem_nil⟩

theorem refl (c : Config V S) : Footprint view frames events c c :=
  of_eq rfl rfl rfl rfl rfl rfl rfl rfl

theorem trans {c'' : Config V S} (h : Footprint view frames events c c')
    (h' : Footprint view frames events c' c'') : Footprint view frames events c c'' where
  boundary := h'.boundary.trans h.boundary
  nextSeq := h'.nextSeq.trans h.nextSeq
  size := h'.size.trans h.size
  boxes := h'.boxes.trans h.boxes
  nextBox := h'.nextBox.trans h.nextBox
  nodes := fun n => (h'.nodes n).trans (h.nodes n)
  log := by
    rcases h.log with ⟨es, hes, he⟩
    rcases h'.log with ⟨es', hes', he'⟩
    refine ⟨es' ++ es, by rw [hes', hes, append_assoc], ?_⟩
    intro e hmem
    rcases mem_append.mp hmem with hm | hm
    · exact he' e hm
    · exact he e hm
  stack := by
    rcases h.stack with ⟨fs, hfs, hf⟩
    rcases h'.stack with ⟨fs', hfs', hf'⟩
    refine ⟨fs' ++ fs, by rw [hfs', hfs, append_assoc], ?_⟩
    intro f hmem
    rcases mem_append.mp hmem with hm | hm
    · exact hf' f hm
    · exact hf f hm

variable {fs : List (Frame V)}

theorem push (h : Footprint view frames events c c')
    (hfs : ∀ f ∈ fs, frames f = true) : Footprint view frames events c (c'.push fs) :=
  ⟨h.boundary, h.nextSeq, h.size, h.boxes, h.nextBox, h.nodes, h.log, by
    rcases h.stack with ⟨gs, hgs, hg⟩
    refine ⟨fs ++ gs, by rw [Config.push, hgs, append_assoc], ?_⟩
    intro f hmem
    rcases mem_append.mp hmem with hm | hm
    · exact hfs f hm
    · exact hg f hm⟩

variable {n : NodeId} {x : Node V S}

theorem setNode (h : Footprint view frames events c c') (hx : view x = view (c'.nodes n)) :
    Footprint view frames events c (c'.setNode n x) := by
  refine ⟨h.boundary, h.nextSeq, h.size, h.boxes, h.nextBox, ?_, h.log, h.stack⟩
  intro m
  by_cases hm : m = n
  · subst hm
    simp only [Config.setNode, Function.update_self, hx, h.nodes]
  · simp only [Config.setNode, Function.update_of_ne hm, h.nodes]

theorem setNode_push (c : Config V S)
    (hx : view x = view (c.nodes n)) (hfs : ∀ f ∈ fs, frames f = true) :
    Footprint view frames events c ((c.setNode n x).push fs) :=
  ((refl c).setNode hx).push hfs

theorem record (h : Footprint view frames events c c') {e : Event V}
    (he : events e = true) : Footprint view frames events c (c'.record e) :=
  ⟨h.boundary, h.nextSeq, h.size, h.boxes, h.nextBox, h.nodes, by
    rcases h.log with ⟨es, hes, hall⟩
    refine ⟨e :: es, by rw [Config.record, hes, cons_append], ?_⟩
    intro e' hmem
    rcases mem_cons.mp hmem with rfl | hm
    · exact he
    · exact hall e' hm, h.stack⟩

/-- A coarser view, more frames, more events. -/
theorem mono {τ' : Type} {view' : Node V S → τ'} {frames' : Frame V → Bool}
    {events' : Event V → Bool} (h : Footprint view frames events c c')
    (g : τ → τ') (hv : ∀ x, view' x = g (view x)) (hf : ∀ f, frames f = true → frames' f = true)
    (he : ∀ e, events e = true → events' e = true) : Footprint view' frames' events' c c' where
  boundary := h.boundary
  nextSeq := h.nextSeq
  size := h.size
  boxes := h.boxes
  nextBox := h.nextBox
  nodes := fun n => by rw [hv, hv, h.nodes]
  log := by
    rcases h.log with ⟨es, hes, hall⟩
    exact ⟨es, hes, fun e hm => he e (hall e hm)⟩
  stack := by
    rcases h.stack with ⟨fs, hfs, hall⟩
    exact ⟨fs, hfs, fun f hm => hf f (hall f hm)⟩

theorem throw (h : Footprint view frames events c c') (p : Payload) :
    Footprint view frames events c (c'.throw p) :=
  h.trans (of_eq rfl rfl rfl rfl rfl rfl rfl rfl)

theorem panic (h : Footprint view frames events c c') (msg : String) :
    Footprint view frames events c (c'.panic msg) :=
  h.throw _

end Config.Footprint

theorem Frame.isPlain_of_isSilent (f : Frame V) (h : f.isSilent = true) : f.isPlain = true := by
  cases f <;> first | rfl | exact h

namespace Config

variable {c c' : Config V S}

theorem Inert.silent (h : Inert c c') : Silent c c' :=
  Footprint.mono h Prod.fst (fun _ => rfl) (fun _ => id) fun _ => id

theorem Inert.kernel (h : Inert c c') (n : NodeId) :
    (c'.nodes n).kernel = (c.nodes n).kernel :=
  congrArg Prod.snd (h.nodes n)

/-- A silent step is plain. -/
theorem Silent.plain (h : Silent c c') : Plain c c' := by
  refine Footprint.mono h Prod.fst (fun _ => rfl) Frame.isPlain_of_isSilent ?_
  intro e he
  rw [Event.isSilent, Bool.and_eq_true] at he
  exact he.1

theorem Inert.plain (h : Inert c c') : Plain c c' :=
  h.silent.plain

theorem Plain.deps (h : Plain c c') (n : NodeId) : (c'.nodes n).deps = (c.nodes n).deps :=
  congrArg Prod.fst (h.nodes n)

theorem Plain.live (h : Plain c c') (n : NodeId) : (c'.nodes n).live = (c.nodes n).live :=
  congrArg Prod.snd (h.nodes n)

end Config

/-! ### Inert functions -/

namespace Config.Inert

variable (c : Config V S)

theorem waveRegister (n : NodeId) : Inert c (c.waveRegister n) := by
  unfold Config.waveRegister
  split
  · split_ifs
    · exact Footprint.refl c
    · exact Footprint.of_eq rfl rfl rfl rfl rfl rfl rfl rfl
  · exact Footprint.refl c

theorem waveSetBlamed (n : NodeId) : Inert c (c.waveSetBlamed n) := by
  unfold Config.waveSetBlamed
  split
  · exact Footprint.of_eq rfl rfl rfl rfl rfl rfl rfl rfl
  · exact Footprint.refl c

theorem deferAction (a : DeferredDeliveryAction) : Inert c (c.deferAction a) := by
  unfold Config.deferAction
  split_ifs
  · exact Footprint.refl c
  · exact Footprint.of_eq rfl rfl rfl rfl rfl rfl rfl rfl

theorem registerBoundaryRoot : Inert c c.registerBoundaryRoot := by
  unfold Config.registerBoundaryRoot
  split
  · exact Footprint.of_eq rfl rfl rfl rfl rfl rfl rfl rfl
  · exact Footprint.refl c

/-! ### Waves and delivery -/

theorem withWaveOwner (n : NodeId) (body : List (Frame V))
    (h : ∀ f ∈ body, f.isSilent = true) : Inert c (c.withWaveOwner n body) := by
  have hw : Inert c { c with wave := some {} } := Footprint.of_eq rfl rfl rfl rfl rfl rfl rfl rfl
  unfold Config.withWaveOwner
  split_ifs
  · exact (Footprint.refl c).push h
  · refine hw.push ?_
    intro f hf
    rcases mem_append.mp hf with hf | hf
    · exact h f hf
    · rw [mem_singleton.mp hf]
      rfl

theorem deferToBatch (n : NodeId) (wave : Wave V) : Inert c (c.deferToBatch n wave) := by
  unfold Config.deferToBatch
  split
  · exact Footprint.of_eq rfl rfl rfl rfl rfl rfl rfl rfl
  · exact Footprint.refl c

theorem deliveryGuard (prevId : Nat) : Inert c (c.deliveryGuard prevId) := by
  have h : Inert c (c.leaveDelivery prevId) := Footprint.of_eq rfl rfl rfl rfl rfl rfl rfl rfl
  unfold Config.deliveryGuard
  split_ifs
  · exact h.push (all_eq_true.mp rfl)
  · exact h

theorem downEnd (n : NodeId) (inside : Bool) : Inert c (c.downEnd n inside) := by
  unfold Config.downEnd
  split_ifs
  · exact Footprint.refl c
  · exact (Footprint.refl c).setNode rfl

/-! ### Deferred runs -/

theorem drainDeferredRuns : Inert c c.drainDeferredRuns := by
  have h : Inert c { c with deferred := [] } := Footprint.of_eq rfl rfl rfl rfl rfl rfl rfl rfl
  unfold Config.drainDeferredRuns
  split_ifs
  · exact Footprint.refl c
  · exact h.push (all_eq_true.mp rfl)

theorem applyDeferred (actions : List DeferredDeliveryAction) :
    Inert c (c.applyDeferred actions) := by
  cases actions with
  | nil => exact Footprint.refl c
  | cons a rest =>
    unfold Config.applyDeferred
    dsimp only
    split_ifs
    · split <;> exact (Footprint.refl c).push (all_eq_true.mp rfl)
    · exact (Footprint.refl c).push (all_eq_true.mp rfl)

section

variable (n : NodeId)

theorem maybeRun : Inert c (c.maybeRun n) := by
  have h : Inert c (c.setNode n (c.nodes n).decideMaybeRun.1) :=
    Footprint.setNode (Footprint.refl c) (c.nodes n).decideMaybeRun_guise
  unfold Config.maybeRun
  split_ifs
  · exact deferAction c _
  · dsimp only
    split
    · exact h
    · exact h.push (all_eq_true.mp rfl)
    · exact h.push (all_eq_true.mp rfl)

theorem tryRun : Inert c (c.tryRun n) := by
  unfold Config.tryRun
  dsimp only
  split_ifs
  · exact Footprint.refl c
  · exact (Footprint.refl c).push (all_eq_true.mp rfl)
  · exact (Footprint.refl c).push (all_eq_true.mp rfl)
  · exact Footprint.refl c

theorem waveGuard : Inert c (c.waveGuard n) := by
  unfold Config.waveGuard
  dsimp only
  split_ifs
  · exact Footprint.setNode (Footprint.refl c) rfl
  · exact Footprint.refl c

theorem runUndirty (isAsync : Bool) : Inert c (c.runUndirty n isAsync) := by
  unfold Config.runUndirty
  dsimp only
  split_ifs <;> exact (Footprint.refl c).push (all_eq_true.mp rfl)

theorem settleAfterAbsorbedTerminal :
    Inert c (c.settleAfterAbsorbedTerminal n) := by
  unfold Config.settleAfterAbsorbedTerminal
  dsimp only
  split_ifs
  · exact deferAction c _
  · exact (Footprint.refl c).push (all_eq_true.mp rfl)
  · exact (Footprint.refl c).push (all_eq_true.mp rfl)
  · exact Footprint.refl c

theorem settleOwed : Inert c (c.settleOwed n) := by
  unfold Config.settleOwed
  split_ifs
  · exact (Footprint.refl c).push (all_eq_true.mp rfl)
  · exact Footprint.refl c

theorem clearUndirty (hadData : Bool) : Inert c (c.clearUndirty n hadData) := by
  unfold Config.clearUndirty
  split_ifs
  · exact Footprint.setNode (Footprint.refl c) rfl
  · exact (Footprint.refl c).push (all_eq_true.mp rfl)

end

/-! ### Upstream control, pause and pull -/

section

variable (n : NodeId)

theorem up (msgs : Wave V) (towardDep : Option Nat) :
    Inert c (c.up n msgs towardDep) := by
  have h : Inert c { c with routes := [] :: c.routes } :=
    Footprint.of_eq rfl rfl rfl rfl rfl rfl rfl rfl
  unfold Config.up
  split_ifs
  · exact h.push (forall_mem_append.mpr
      ⟨forall_mem_map.mpr fun _ _ => rfl, all_eq_true.mp rfl⟩)
  · exact (Footprint.refl c).panic _

theorem forwardUp (m : Message V) (towardDep : Option Nat) :
    Inert c (c.forwardUp n m towardDep) := by
  unfold Config.forwardUp
  dsimp only
  split
  · split
    · exact (Footprint.refl c).push (all_eq_true.mp rfl)
    · exact Footprint.refl c
  · exact (Footprint.refl c).push (forall_mem_map.mpr fun _ _ => rfl)

theorem pauseAcquire (lock : LockId) : Inert c (c.pauseAcquire n lock) := by
  unfold Config.pauseAcquire
  dsimp only
  split_ifs
  · exact Footprint.refl c
  · exact Footprint.setNode (Footprint.refl c) rfl

theorem onDemand (d : PullDemand V) : Inert c (c.onDemand n d) := by
  unfold Config.onDemand
  dsimp only
  split_ifs
  · exact Footprint.refl c
  · refine Footprint.push (Footprint.record (Footprint.setNode (Footprint.refl c) ?_) rfl)
      (all_eq_true.mp rfl)
    exact rfl

theorem pullAtHolder (d : PullDemand V) : Inert c (c.pullAtHolder n d) := by
  unfold Config.pullAtHolder
  split
  · exact Footprint.refl c
  · split_ifs
    · exact Footprint.refl c
    · refine Footprint.trans ?_ (onDemand _ n d)
      exact Footprint.of_eq rfl rfl rfl rfl rfl rfl rfl rfl

theorem upMsg (m : Message V) (towardDep : Option Nat) :
    Inert c (c.upMsg n m towardDep) := by
  have hfwd := forwardUp c n m towardDep
  unfold Config.upMsg
  dsimp only
  split
  · cases m with
    | pause lock => exact pauseAcquire c n lock
    | resume lock =>
      dsimp only
      split_ifs
      · exact (Footprint.refl c).push (all_eq_true.mp rfl)
      · exact hfwd
    | pull d =>
      dsimp only
      split_ifs
      · exact pullAtHolder c n d
      · exact hfwd
    | invalidate =>
      dsimp only
      split_ifs
      · exact (Footprint.refl c).push (all_eq_true.mp rfl)
      · exact hfwd
    | _ =>
      dsimp only
      split_ifs
      · exact Footprint.refl c
      · exact hfwd
  · exact Footprint.refl c

theorem pauseRelease (lock : LockId) : Inert c (c.pauseRelease n lock) := by
  unfold Config.pauseRelease
  dsimp only
  split_ifs
  · refine Footprint.push (Footprint.trans ?_ (registerBoundaryRoot _))
      (all_eq_true.mp rfl)
    exact Footprint.setNode (Footprint.refl c) rfl
  · refine Footprint.push (Footprint.trans ?_ (registerBoundaryRoot _))
      (all_eq_true.mp rfl)
    exact Footprint.setNode (Footprint.refl c) rfl
  · exact Footprint.setNode_push c rfl (all_eq_true.mp rfl)
  · exact Footprint.refl c

theorem onResume : Inert c (c.onResume n) := by
  unfold Config.onResume
  dsimp only
  split_ifs
  · exact Footprint.setNode (Footprint.refl c) rfl
  · exact Footprint.setNode_push c rfl (forall_mem_append.mpr
      ⟨forall_mem_map.mpr fun _ _ => rfl, all_eq_true.mp rfl⟩)

theorem resumeFire : Inert c (c.resumeFire n) := by
  unfold Config.resumeFire
  dsimp only
  split_ifs
  · exact Footprint.setNode_push c rfl (all_eq_true.mp rfl)
  · exact Footprint.setNode (Footprint.refl c) rfl

theorem fireOwedDemandIfReady : Inert c (c.fireOwedDemandIfReady n) := by
  unfold Config.fireOwedDemandIfReady
  dsimp only
  split_ifs
  · exact Footprint.refl c
  · split
    · exact Footprint.refl c
    · refine Footprint.push (Footprint.record (Footprint.setNode (Footprint.refl c) ?_) rfl)
        (all_eq_true.mp rfl)
      exact rfl

theorem pullDelivery : Inert c (c.pullDelivery n) := by
  unfold Config.pullDelivery
  dsimp only
  split_ifs
  · exact Footprint.setNode (Footprint.refl c) rfl
  · exact Footprint.refl c

theorem firePullDemand : Inert c (c.firePullDemand n) := by
  unfold Config.firePullDemand
  dsimp only
  split
  · exact Footprint.setNode_push c rfl (forall_mem_map.mpr fun _ _ => rfl)
  · split_ifs
    · exact Footprint.setNode (Footprint.refl c) rfl
    · exact Footprint.setNode_push c rfl (all_eq_true.mp rfl)
    · exact Footprint.setNode_push c rfl (all_eq_true.mp rfl)
    · exact Footprint.setNode (Footprint.refl c) rfl

end

/-! ### Attaching and detaching -/

theorem activateRun (n : NodeId) : Inert c (c.activateRun n) := by
  unfold Config.activateRun
  dsimp only
  split_ifs
  · exact (Footprint.refl c).push (all_eq_true.mp rfl)
  · exact Footprint.refl c

theorem notifyTopology (n : NodeId) (oldDeps newDeps : List NodeId) :
    Inert c (c.notifyTopology n oldDeps newDeps) := by
  unfold Config.notifyTopology
  split
  · exact (Footprint.refl c).push (all_eq_true.mp rfl)
  · exact Footprint.refl c

/-! ### Batches and wave ends -/

theorem openBatch (b : Nat) : Inert c (c.openBatch b) := by
  have h : Inert c { c with batch := some { id := c.nextBatch }, nextBatch := c.nextBatch + 1 } :=
    Footprint.of_eq rfl rfl rfl rfl rfl rfl rfl rfl
  unfold Config.openBatch
  split_ifs
  · exact (Footprint.refl c).push (all_eq_true.mp rfl)
  · exact h.push (all_eq_true.mp rfl)

theorem rollback : Inert c c.rollback := by
  unfold Config.rollback
  split
  · exact Footprint.of_eq rfl rfl rfl rfl rfl rfl rfl rfl
  · exact Footprint.refl c

theorem batchFinish (payload : Option Payload) : Inert c (c.batchFinish payload) := by
  unfold Config.batchFinish
  split
  · exact Footprint.refl c
  · dsimp only
    split_ifs
    · refine Footprint.push ?_ (all_eq_true.mp rfl)
      exact Footprint.of_eq rfl rfl rfl rfl rfl rfl rfl rfl
    · refine Footprint.push ?_ (all_eq_true.mp rfl)
      exact Footprint.of_eq rfl rfl rfl rfl rfl rfl rfl rfl

theorem commitTargets (targets : List (NodeId × Wave V)) :
    Inert c (c.commitTargets targets) := by
  cases targets with
  | nil => exact Footprint.refl c
  | cons t rest =>
    unfold Config.commitTargets
    dsimp only
    split_ifs
    · exact Footprint.setNode_push c rfl (all_eq_true.mp rfl)
    · exact (Footprint.refl c).push (all_eq_true.mp rfl)

theorem commitDone (roots : Bool) : Inert c (c.commitDone roots) := by
  unfold Config.commitDone
  dsimp only
  split_ifs
  · refine Footprint.push ?_ (all_eq_true.mp rfl)
    exact Footprint.of_eq rfl rfl rfl rfl rfl rfl rfl rfl
  · exact Footprint.of_eq rfl rfl rfl rfl rfl rfl rfl rfl

theorem rollbackTargets (targets : List NodeId) : Inert c (c.rollbackTargets targets) := by
  cases targets with
  | nil => exact Footprint.refl c
  | cons t rest =>
    unfold Config.rollbackTargets
    dsimp only
    split_ifs
    · exact Footprint.setNode_push c rfl (all_eq_true.mp rfl)
    · exact (Footprint.refl c).push (all_eq_true.mp rfl)

theorem waveTail : Inert c c.waveTail := by
  unfold Config.waveTail
  split_ifs
  · exact Footprint.refl c
  · exact (Footprint.refl c).push (all_eq_true.mp rfl)

theorem recovered : Inert c c.recovered := by
  unfold Config.recovered
  refine Footprint.trans ?_ (waveTail _)
  exact Footprint.of_eq rfl rfl rfl rfl rfl rfl rfl rfl

end Config.Inert

/-! ### Functions that are only silent -/

namespace Config.Silent

variable (c : Config V S)

section

variable (n : NodeId)

theorem passthroughEmit : Silent c (c.passthroughEmit n) := by
  unfold Config.passthroughEmit
  dsimp only
  split
  · exact Footprint.setNode_push c rfl (all_eq_true.mp rfl)
  · exact Footprint.setNode (Footprint.refl c) rfl

theorem runWave : Silent c (c.runWave n) := by
  unfold Config.runWave
  dsimp only
  split_ifs
  · exact (Inert.waveRegister c n).silent.panic _
  · split
    · exact (Inert.waveRegister c n).silent.panic _
    · refine Footprint.push (Footprint.record (Footprint.trans ?_ (Inert.waveSetBlamed _ n).silent) rfl)
        (all_eq_true.mp rfl)
      exact (Inert.waveRegister c n).silent.setNode rfl

theorem runRoll (undirty : Bool) : Silent c (c.runRoll n undirty) :=
  Footprint.setNode (Footprint.refl c) rfl

-- An activation is silent but for the frames it pushes.
theorem activateIfNeeded_footprint :
    Footprint Node.face Frame.attaches Event.isSilent c (c.activateIfNeeded n) := by
  unfold Config.activateIfNeeded
  dsimp only
  split_ifs
  · exact Footprint.refl c
  · refine Footprint.setNode_push c rfl ?_
    intro f hf
    rcases mem_append.mp hf with hf | hf
    · rcases mem_mapIdx.mp hf with ⟨i, _, rfl⟩
      rfl
    · rw [mem_singleton.mp hf]
      rfl

theorem depSubscribed (idx : Nat) (dep : NodeId) (id : Nat) (box : BoxId) :
    Silent c (c.depSubscribed n idx dep id box) := by
  unfold Config.depSubscribed
  dsimp only
  split_ifs
  · exact Footprint.setNode (Footprint.refl c) rfl
  · exact (Footprint.refl c).panic _

theorem unsubFrames (x : Node V S) : ∀ f ∈ Config.unsubFrames x, f.isSilent = true := by
  intro f hf
  rcases mem_filterMap.mp hf with ⟨u, _, hu⟩
  cases u with
  | none => exact absurd hu (by simp)
  | some u =>
    rw [Option.map_some, Option.some.injEq] at hu
    rw [← hu]
    rfl

theorem hookFrames (hooks : List HookId) :
    ∀ f ∈ (Config.hookFrames hooks : List (Frame V)), f.isSilent = true := by
  intro f hf
  rcases mem_map.mp hf with ⟨h, _, rfl⟩
  rfl

theorem depMutationGuard : Silent c (c.depMutationGuard n) := by
  unfold Config.depMutationGuard
  dsimp only
  split_ifs
  · exact Footprint.setNode (Footprint.refl c) rfl
  · exact Footprint.refl c

end

theorem resetTouched (touched : List NodeId) : Silent c (c.resetTouched touched) := by
  have h : Silent c c := Footprint.refl c
  refine ⟨rfl, rfl, rfl, rfl, rfl, ?_, h.log, h.stack⟩
  intro n
  simp only [Config.resetTouched]
  split_ifs <;> rfl

/-- A wave owner that catches an ordinary failure. -/
theorem waveCaught (owner : NodeId) (msg : String) :
    Silent c (c.waveCaught owner (.ordinary msg)) := by
  unfold Config.waveCaught
  dsimp only
  refine Footprint.push (Footprint.trans (resetTouched c c.touchedNodes) ?_)
    (all_eq_true.mp rfl)
  exact Footprint.of_eq rfl rfl rfl rfl rfl rfl rfl rfl

end Config.Silent

/-! ### Functions that are only plain -/

namespace Config.Plain

variable (c : Config V S)

theorem frames (a : ReceiveAction V) (n : NodeId) : ∀ f ∈ a.frames n, f.isPlain = true := by
  intro f hf
  rcases mem_frames a n f hf with h | h | h | h | h | h | h | h | ⟨_, _, h⟩ | h | h <;>
    (rw [h]; rfl)

section

variable (n : NodeId)

theorem receiveFromDep (i : Nat) (m : Message V) :
    Plain c (c.receiveFromDep n i m) := by
  unfold Config.receiveFromDep
  dsimp only
  split_ifs
  · exact (Inert.waveRegister c n).plain.panic _
  · exact ((Inert.waveRegister c n).plain.setNode (congrArg Prod.fst
      (Node.receive_ports _ _ _ _ _))).push (frames _ n)
  · exact Footprint.refl c

theorem deliver (entry : SubscriberEntry) (m : Message V) :
    Plain c (c.deliver n entry m) := by
  have hrec : Plain c (c.record (.delivered n entry.id entry.sink m)) :=
    (Footprint.refl c).record rfl
  unfold Config.deliver
  dsimp only
  split
  · exact hrec.push (all_eq_true.mp rfl)
  · split
    · exact hrec.trans (receiveFromDep _ _ _ _)
    · exact hrec

theorem emit (m : Message V) (subs : List SubscriberEntry) :
    Plain c (c.emit n m subs) := by
  cases subs with
  | nil => exact Footprint.refl c
  | cons entry rest =>
    have h : Plain c (c.push [.emit n m rest]) :=
      (Footprint.refl c).push (all_eq_true.mp rfl)
    exact h.trans (deliver _ n entry m)

theorem emitDirtyOnce : Plain c (c.emitDirtyOnce n) := by
  unfold Config.emitDirtyOnce
  dsimp only
  split_ifs
  · exact Footprint.refl c
  · exact Footprint.setNode_push c rfl (all_eq_true.mp rfl)

theorem markDirty : Plain c (c.markDirty n) := by
  unfold Config.markDirty
  dsimp only
  split_ifs
  · exact (Footprint.refl c).setNode rfl
  · exact Footprint.setNode_push c rfl (all_eq_true.mp rfl)

theorem downEmit (inside : Bool) (sorted : Wave V) :
    Plain c (c.downEmit n inside sorted) := by
  unfold Config.downEmit
  dsimp only
  split_ifs
  · exact (Footprint.refl c).panic _
  · exact (Footprint.refl c).push (all_eq_true.mp rfl)
  · exact (Footprint.refl c).push (all_eq_true.mp rfl)

theorem downUnbatched (inside : Bool) (sorted : Wave V) :
    Plain c (c.downUnbatched n inside sorted) := by
  unfold Config.downUnbatched
  dsimp only
  split_ifs
  · exact Footprint.refl c
  · exact (Footprint.refl c).setNode rfl
  · exact downEmit c n inside _
  · refine Footprint.trans ?_ (downEmit _ n inside _)
    exact Footprint.setNode (Footprint.refl c) rfl
  · exact downEmit c n inside sorted

theorem down (msgs : Wave V) : Plain c (c.down n msgs) := by
  unfold Config.down
  dsimp only
  split_ifs
  · exact Footprint.refl c
  · exact ((Inert.waveRegister c n).plain.trans ((Inert.deferToBatch _ n _).plain)).push
      (all_eq_true.mp rfl)
  · exact (Inert.waveRegister c n).plain
  · exact (Inert.waveRegister c n).plain.trans (downUnbatched _ n _ _)
  · exact (Inert.waveRegister c n).plain.trans (downUnbatched _ n _ _)

theorem deliveryScope (msgs : Wave V) : Plain c (c.deliveryScope n msgs) :=
  (Footprint.of_eq rfl rfl rfl rfl rfl rfl rfl rfl : Plain c { c with
    currentDeliveryId := c.nextDeliveryId
    nextDeliveryId := max 1 ((c.nextDeliveryId + 1) % 2 ^ 64)
    depth := c.depth + 1 }).push (all_eq_true.mp rfl)

theorem downLoop (msgs : Wave V) : Plain c (c.downLoop n msgs) := by
  cases msgs with
  | nil => exact Footprint.refl c
  | cons m rest =>
    have h : Plain c (c.setNode n ((c.nodes n).collectDown m).1) :=
      (Footprint.refl c).setNode ((c.nodes n).collectDown_edges m)
    unfold Config.downLoop
    dsimp only
    split
    · exact h.push (all_eq_true.mp rfl)
    · exact h.push (all_eq_true.mp rfl)
    · exact h.push (forall_mem_append.mpr
        ⟨forall_mem_map.mpr fun _ _ => rfl, all_eq_true.mp rfl⟩)

theorem invalidate : Plain c (c.invalidate n) := by
  unfold Config.invalidate
  dsimp only
  split_ifs
  · exact Footprint.setNode_push c rfl (forall_mem_append.mpr
      ⟨forall_mem_map.mpr fun _ _ => rfl, all_eq_true.mp rfl⟩)
  · exact Footprint.refl c

theorem handshake (x : Node V S) (n : NodeId) (entry : SubscriberEntry) :
    ∀ f ∈ Config.handshake x n entry, f.isPlain = true := by
  unfold Config.handshake
  split_ifs
  · simp
  · split <;> exact all_eq_true.mp rfl
  · split <;> exact all_eq_true.mp rfl

theorem subscribe (sink : Sink) : Plain c (c.subscribe n sink) := by
  unfold Config.subscribe
  dsimp only
  split_ifs
  · refine Footprint.setNode_push c rfl ?_
    intro f hf
    rcases mem_append.mp hf with hf | hf
    · rcases mem_append.mp hf with hf | hf
      · rw [mem_singleton.mp hf]
        rfl
      · exact handshake _ n _ f hf
    · rw [mem_singleton.mp hf]
      rfl
  · exact (Footprint.refl c).panic _

theorem unsubscribe (id : Nat) : Plain c (c.unsubscribe n id) := by
  unfold Config.unsubscribe
  dsimp only
  split_ifs
  · exact Footprint.setNode_push c rfl (all_eq_true.mp rfl)
  · exact Footprint.setNode (Footprint.refl c) rfl
  · exact Footprint.refl c

theorem deactivate : Plain c (c.deactivate n) := by
  unfold Config.deactivate
  refine Footprint.push (Footprint.record (Footprint.setNode (Footprint.refl c) ?_) rfl) ?_
  · exact rfl
  · intro f hf
    rcases mem_append.mp hf with hf | hf
    · exact f.isPlain_of_isSilent (Silent.unsubFrames _ f hf)
    · exact f.isPlain_of_isSilent (Silent.hookFrames _ f hf)

theorem rewireFinish (newDeps : List NodeId) (removedDirty : Bool) :
    Plain c (c.rewireFinish n newDeps removedDirty) := by
  unfold Config.rewireFinish
  dsimp only
  split_ifs
  · exact Footprint.refl c
  · exact Footprint.setNode_push c rfl (all_eq_true.mp rfl)
  · exact Footprint.setNode_push c rfl (all_eq_true.mp rfl)
  · exact Footprint.setNode (Footprint.refl c) rfl
  · exact Footprint.setNode (Footprint.refl c) rfl
  · exact Footprint.setNode (Footprint.refl c) rfl

theorem settleRewire : Plain c (c.settleRewire n) := by
  unfold Config.settleRewire
  dsimp only
  split_ifs
  · exact Footprint.setNode (Footprint.refl c) rfl
  · exact Footprint.refl c
  · exact (Footprint.refl c).push (all_eq_true.mp rfl)
  · exact (Footprint.refl c).push (all_eq_true.mp rfl)
  · exact Footprint.refl c

end

end Config.Plain

/-- Frames whose entry is plain. -/
def Frame.entersPlain : Frame V → Bool
  | .user _ _ => false
  | .drainBoundary => false
  | .drainLoop _ _ => false
  | .taskCatch _ => false
  | .rollbackDone _ _ => false
  | .activateIfNeeded _ => false
  | .depSubscribed _ _ _ _ _ => true
  | .rewireFinish _ _ _ => true
  | .depMutationGuard _ => true
  | f => f.isPlain

/-- Frames whose entry is silent. -/
def Frame.entersSilent : Frame V → Bool
  | .down _ _ => false
  | .subscribe _ _ => false
  | .unsubscribe _ _ => false
  | .deactivate _ => false
  | .rewireFinish _ _ _ => false
  | .depMutationGuard _ => true
  | .depSubscribed _ _ _ _ _ => true
  | f => f.isSilent && f.entersPlain

/-- Frames whose entry is inert. -/
def Frame.entersInert : Frame V → Bool
  | .passthroughEmit _ => false
  | .runWave _ => false
  | .runRoll _ _ => false
  | .depSubscribed _ _ _ _ _ => false
  | .depMutationGuard _ => false
  | f => f.entersSilent

/-- Frames an ordinary failure passes plainly. -/
def Frame.unwindsPlain : Frame V → Bool
  | .taskCatch _ => false
  | .commitDone _ => false
  | .rollbackDone _ _ => false
  | _ => true

/-- Frames that every payload passes inertly. -/
def Frame.unwindsInert : Frame V → Bool
  | .waveExit _ => false
  | .depMutationGuard _ => false
  | f => f.unwindsPlain

namespace Config

section

variable (env : Env V S) (c : Config V S)

/-- Entering a frame is inert but for the listed exceptions. -/
theorem enter_inert (f : Frame V) (h : f.entersInert = true) : Inert c (c.enter env f) := by
  have hone : ∀ g : Frame V, g.isSilent = true → ∀ f ∈ [g], f.isSilent = true := by
    intro g hg f hf
    rwa [mem_singleton.mp hf]
  cases f with
  | user _ _ | drainBoundary | drainLoop _ _ | taskCatch _ | rollbackDone _ _ => cases h
  | externalRewire _ _ | rewireInner _ _ _ _ | rewireApply _ _ _ => cases h
  | rewireRemove _ _ _ _ _ _ | rewireAssign _ _ _ _ _ => cases h
  | activateIfNeeded _ | subscribeDep _ _ _ => cases h
  | emit _ _ _ | emitToSubs _ _ | emitDirtyOnce _ | markDirty _ | down _ _ => cases h
  | deliveryScope _ _ | downLoop _ _ | invalidate _ | subscribe _ _ => cases h
  | unsubscribe _ _ | deactivate _ | rewireFinish _ _ _ | settleRewire _ => cases h
  | passthroughEmit _ | runWave _ | runRoll _ _ | depSubscribed _ _ _ _ _ => cases h
  | depMutationGuard _ => cases h
  | waveExit n =>
    refine Footprint.trans ?_ (Inert.waveTail _)
    exact Footprint.of_eq rfl rfl rfl rfl rfl rfl rfl rfl
  | recoveryCatch n => exact Inert.recovered c
  | ownedDown n msgs => exact Inert.withWaveOwner c n _ (hone _ rfl)
  | deliveryGuard prevId => exact Inert.deliveryGuard c prevId
  | downEnd n inside => exact Inert.downEnd c n inside
  | batchDirtyOwed n => exact (Footprint.refl c).setNode rfl
  | drainDeferredRuns => exact Inert.drainDeferredRuns c
  | applyDeferred actions => exact Inert.applyDeferred c actions
  | clearUndirty n hadData => exact Inert.clearUndirty c n hadData
  | deferRun n => exact Inert.deferAction c _
  | maybeRun n => exact Inert.maybeRun c n
  | tryRun n => exact Inert.tryRun c n
  | waveGuard n => exact Inert.waveGuard c n
  | runUndirty n isAsync => exact Inert.runUndirty c n isAsync
  | settleAfterAbsorbedTerminal n => exact Inert.settleAfterAbsorbedTerminal c n
  | settleOwed n => exact Inert.settleOwed c n
  | up n msgs towardDep => exact Inert.up c n msgs towardDep
  | ownedUp n msgs towardDep => exact Inert.withWaveOwner c n _ (hone _ rfl)
  | upMsg n m towardDep => exact Inert.upMsg c n m towardDep
  | upRouteEnd => exact Footprint.of_eq rfl rfl rfl rfl rfl rfl rfl rfl
  | pauseRelease n lock => exact Inert.pauseRelease c n lock
  | onResume n => exact Inert.onResume c n
  | resumeFire n => exact Inert.resumeFire c n
  | fireOwedDemandIfReady n => exact Inert.fireOwedDemandIfReady c n
  | pullDelivery n => exact Inert.pullDelivery c n
  | firePullDemand n => exact Inert.firePullDemand c n
  | activateRun n => exact Inert.activateRun c n
  | subscribeCatch _ _ => exact Footprint.refl c
  | swallow => exact Footprint.refl c
  | resumeUnwind p => exact (Footprint.refl c).throw p
  | notifyTopology n oldDeps newDeps => exact Inert.notifyTopology c n oldDeps newDeps
  | rewireNextCatch _ => exact Footprint.refl c
  | batchFinish => exact Inert.batchFinish c none
  | commitTargets targets => exact Inert.commitTargets c targets
  | commitDone roots => exact Inert.commitDone c roots
  | rollbackTargets targets => exact Inert.rollbackTargets c targets

/-- Entering a frame is silent but for the listed exceptions. -/
theorem enter_silent (f : Frame V) (h : f.entersSilent = true) : Silent c (c.enter env f) := by
  cases hinert : f.entersInert with
  | true => exact (enter_inert env c f hinert).silent
  | false =>
    cases f with
    | passthroughEmit n => exact Silent.passthroughEmit c n
    | runWave n => exact Silent.runWave c n
    | runRoll n undirty => exact Silent.runRoll c n undirty
    | depSubscribed n idx dep id box => exact Silent.depSubscribed c n idx dep id box
    | depMutationGuard n => exact Silent.depMutationGuard c n
    | _ => cases hinert.symm.trans h

/-- Entering a frame is plain but for the listed exceptions. -/
theorem enter_plain (f : Frame V) (h : f.entersPlain = true) :
    Plain c (c.enter env f) := by
  cases hs : f.entersSilent with
  | true => exact (enter_silent env c f hs).plain
  | false =>
    cases f with
    | emit n m subs => exact Plain.emit c n m subs
    | emitToSubs n m => exact (Footprint.refl c).push (all_eq_true.mp rfl)
    | emitDirtyOnce n => exact Plain.emitDirtyOnce c n
    | markDirty n => exact Plain.markDirty c n
    | down n msgs => exact Plain.down c n msgs
    | deliveryScope n msgs => exact Plain.deliveryScope c n msgs
    | downLoop n msgs => exact Plain.downLoop c n msgs
    | invalidate n => exact Plain.invalidate c n
    | subscribe n sink => exact Plain.subscribe c n sink
    | unsubscribe n id => exact Plain.unsubscribe c n id
    | deactivate n => exact Plain.deactivate c n
    | rewireFinish n newDeps dirty => exact Plain.rewireFinish c n newDeps dirty
    | settleRewire n => exact Plain.settleRewire c n
    | user _ _ | drainBoundary | drainLoop _ _ | taskCatch _ | rollbackDone _ _ => cases h
    | externalRewire _ _ | rewireInner _ _ _ _ | rewireApply _ _ _ => cases h
    | rewireRemove _ _ _ _ _ _ | rewireAssign _ _ _ _ _ => cases h
    | activateIfNeeded _ | subscribeDep _ _ _ => cases h
    | _ => cases hs

/-- A payload passes a frame inertly but for the listed exceptions. -/
theorem unwind_inert (p : Payload) (f : Frame V)
    (h : f.unwindsInert = true) : Inert c (c.unwind env p f) := by
  have hrun : Inert c { c with mode := .running } :=
    Footprint.of_eq rfl rfl rfl rfl rfl rfl rfl rfl
  cases f with
  | taskCatch _ | commitDone _ | rollbackDone _ _ | waveExit _ | depMutationGuard _ => cases h
  | user cb i =>
    simp only [unwind]
    split_ifs
    · exact hrun.push (all_eq_true.mp rfl)
    · exact Footprint.refl c
  | recoveryCatch n => exact Inert.recovered c
  | deliveryGuard prevId => exact Footprint.of_eq rfl rfl rfl rfl rfl rfl rfl rfl
  | waveGuard n => exact Inert.waveGuard c n
  | pullDelivery n => exact Inert.pullDelivery c n
  | upRouteEnd => exact Footprint.of_eq rfl rfl rfl rfl rfl rfl rfl rfl
  | depSubscribed n idx dep id box =>
    simp only [unwind]
    split_ifs
    · exact hrun.push (all_eq_true.mp rfl)
    · exact Footprint.refl c
  | subscribeCatch n id =>
    cases p with
    | ordinary msg => exact Footprint.refl c
    | hostAbort => exact hrun.push (all_eq_true.mp rfl)
  | swallow => exact hrun
  | rewireNextCatch n =>
    cases p with
    | ordinary msg => exact hrun.push (all_eq_true.mp rfl)
    | hostAbort => exact Footprint.refl c
  | batchFinish => exact hrun.trans (Inert.batchFinish _ (some p))
  | _ => exact Footprint.refl c

/-- A panic passes a frame silently but for the listed exceptions; a host abort
    also clears the queue at a wave owner. -/
theorem unwind_silent (p : Payload) (f : Frame V)
    (h : f.unwindsPlain = true) (hp : p ≠ .hostAbort ∨ ∀ n, f ≠ .waveExit n) :
    Silent c (c.unwind env p f) := by
  cases hinert : f.unwindsInert with
  | true => exact (unwind_inert env c p f hinert).silent
  | false =>
    cases f with
    | waveExit n =>
      cases p with
      | ordinary msg => exact Silent.waveCaught c n msg
      | hostAbort => exact absurd rfl (hp.resolve_right (fun h => h n rfl))
    | depMutationGuard n => exact Silent.depMutationGuard c n
    | _ => cases hinert.symm.trans h

end

end Config

/-! ### User operations -/

/-- Operations that neither allocate, drop nor rewire a node nor queue a
    request. -/
def UserOp.isSilent : UserOp V S → Bool
  | .newNode _ => false
  | .drop _ => false
  | .rewire _ _ => false
  | .requestDownNext _ _ => false
  | .ctxRewireNext _ => false
  | .ctxUpNext _ _ => false
  | _ => true

namespace Config

theorem performOn_inert (c : Config V S) (n : NodeId) (o : UserOp V S)
    (h : o.isSilent = true) : Inert c (c.performOn n o) := by
  have hone : ∀ g : Frame V, g.isSilent = true → ∀ f ∈ [g], f.isSilent = true := by
    intro g hg f hf
    rwa [mem_singleton.mp hf]
  cases o with
  | rewire _ _ | requestDownNext _ _ => cases h
  | down m msgs => exact Inert.withWaveOwner c n _ (hone _ rfl)
  | up m msgs towardDep => exact Inert.withWaveOwner c n _ (hone _ rfl)
  | subscribe m s =>
    simp only [performOn]
    split_ifs
    · exact (Footprint.refl c).panic _
    · exact ((Footprint.refl c).push (hone _ rfl)).trans
        (Inert.withWaveOwner _ n _ (hone _ rfl))
  | unsubscribe m id => exact (Footprint.refl c).push (hone _ rfl)
  | setTopologyObserver m h => exact (Footprint.refl c).setNode rfl
  | _ => exact Footprint.refl c

theorem performCtx_inert (c : Config V S) (n : NodeId) (o : UserOp V S)
    (h : o.isSilent = true) : Inert c (c.performCtx n o) := by
  cases o with
  | ctxRewireNext _ | ctxUpNext _ _ => cases h
  | ctxDown msgs => exact (Footprint.refl c).push (all_eq_true.mp rfl)
  | ctxUp msgs towardDep =>
    exact (Footprint.refl c).push (all_eq_true.mp rfl)
  | ctxStateSet s => exact (Footprint.refl c).setNode rfl
  | ctxStatePersist on => exact (Footprint.refl c).setNode rfl
  | ctxOnDeactivation h => exact (Footprint.refl c).setNode rfl
  | ctxOnInvalidate h => exact (Footprint.refl c).setNode rfl
  | _ => exact Footprint.refl c

/-- Most user operations are inert when they are performed; what they start
    happens later. -/
theorem perform_inert (c : Config V S) (cb : Callback V) (o : UserOp V S)
    (h : o.isSilent = true) : Inert c (c.perform cb o) := by
  have hlive : ∀ n, Inert c (c.performLive n o) := by
    intro n
    unfold performLive
    split_ifs
    · exact performOn_inert c n o h
    · exact Footprint.refl c
  cases o with
  | newNode _ | drop _ | rewire _ _ | requestDownNext _ _ => cases h
  | batch b => exact Inert.openBatch c b
  | rollback => exact Inert.rollback c
  | down n msgs => exact hlive n
  | up n msgs towardDep => exact hlive n
  | subscribe n s => exact hlive n
  | unsubscribe n id => exact hlive n
  | setTopologyObserver n h => exact hlive n
  | _ =>
    cases cb with
    | fn f ctx => exact performCtx_inert c ctx.node _ h
    | _ => exact Footprint.refl c

/-- What an operation of user code does. -/
inductive Performed (c c' : Config V S) (o : UserOp V S) : Prop
  | inert (h : Inert c c')
  | created (spec : NodeSpec V) (ho : o = .newNode spec) (h : c' = c.newNode spec)
  | dropped (n : NodeId) (ho : o = .drop n) (h : c' = c.dropNode n (c.stack.any (·.holds n)))
  | rewired (n : NodeId) (req : RewireRequest) (hn : c.isLive n = true)
      (hreq : req.handles.all c.isLive = true) (h : c' = c.push [.externalRewire n req])
  | deferred (n : NodeId) (kind : TaskKind V) (hkind : kind.handles.all c.isLive = true)
      (h : c' = c.deferBoundary n kind c.activeToken)

theorem perform_cases (c : Config V S) (cb : Callback V) (o : UserOp V S) :
    Performed c (c.perform cb o) o := by
  have hself : Performed c c o := .inert (Footprint.refl c)
  cases hs : o.isSilent with
  | true => exact .inert (perform_inert c cb o hs)
  | false =>
    cases o with
    | newNode spec => exact .created spec rfl rfl
    | drop n => exact .dropped n rfl rfl
    | rewire n req =>
      simp only [perform, performLive, performOn]
      split_ifs with hn hreq
      · exact .rewired n req hn hreq rfl
      · exact hself
      · exact hself
    | requestDownNext n msgs =>
      simp only [perform, performLive, performOn]
      split_ifs
      · exact .deferred n (.down msgs) rfl rfl
      · exact hself
    | ctxRewireNext req =>
      cases cb with
      | fn f ctx =>
        simp only [perform, performCtx]
        split_ifs with hreq
        · exact .deferred ctx.node (.rewire req) hreq rfl
        · exact hself
      | _ => exact hself
    | ctxUpNext msgs towardDep =>
      cases cb with
      | fn f ctx => exact .deferred ctx.node (.up msgs towardDep) rfl rfl
      | _ => exact hself
    | _ => cases hs

/-- The frames that apply a task. -/
inductive TaskFrame (c : Config V S) (t : BoundaryTask V) : Frame V → Prop
  | inner (req : RewireRequest) (allow : Bool)
      (h : t.kind = .rewire req ∨ t.kind = .externalRewire req) :
      TaskFrame c t
        (.rewireInner t.target (req.projectDeps (c.nodes t.target).deps) req.newFn allow)
  | catches : TaskFrame c t (.rewireNextCatch t.target)
  | up (msgs : Wave V) (towardDep : Option NodeId) : TaskFrame c t (.ownedUp t.target msgs towardDep)
  | down (msgs : Wave V) : TaskFrame c t (.ownedDown t.target msgs)

theorem taskFrames_forms {t : BoundaryTask V} {f : Frame V} (hf : f ∈ c.taskFrames t) :
    TaskFrame c t f := by
  have hpair {req : RewireRequest} (hk : t.kind = .rewire req)
      (h : f ∈ [.rewireInner t.target (req.projectDeps (c.nodes t.target).deps) req.newFn true,
        .rewireNextCatch t.target]) : TaskFrame c t f := by
    rcases mem_cons.mp h with rfl | h
    · exact .inner req true (.inl hk)
    · rw [mem_singleton.mp h]
      exact .catches
  unfold taskFrames at hf
  cases hk : t.kind with
  | rewire req =>
    rw [hk] at hf
    cases req with
    | remove dep fn =>
      dsimp only at hf
      split_ifs at hf
      · exact hpair hk hf
      · exact absurd hf not_mem_nil
    | _ => exact hpair hk hf
  | externalRewire req =>
    rw [hk] at hf
    rw [mem_singleton.mp hf]
    exact .inner req false (.inr hk)
  | up msgs towardDep =>
    rw [hk] at hf
    rw [mem_singleton.mp hf]
    exact .up msgs towardDep
  | down msgs =>
    rw [hk] at hf
    rw [mem_singleton.mp hf]
    exact .down msgs

/-- What a payload does to the frame it passes. -/
theorem unwind_cases (env : Env V S) (c : Config V S) (p : Payload) (f : Frame V) :
    Silent c (c.unwind env p f) ∨ (p = .hostAbort ∧ ∃ n, f = .waveExit n) ∨
      (∃ escaped, f = .taskCatch escaped) ∨
      ∃ roots, c.unwind env p f = c.closeUncommitted roots := by
  cases hu : f.unwindsPlain with
  | true =>
    by_cases hp : p ≠ .hostAbort ∨ ∀ n, f ≠ .waveExit n
    · exact Or.inl (unwind_silent env c p f hu hp)
    · push Not at hp
      exact Or.inr (Or.inl hp)
  | false =>
    cases f with
    | taskCatch escaped => exact Or.inr (Or.inr (Or.inl ⟨escaped, rfl⟩))
    | commitDone roots => exact Or.inr (Or.inr (Or.inr ⟨roots, rfl⟩))
    | rollbackDone roots payload => exact Or.inr (Or.inr (Or.inr ⟨roots, rfl⟩))
    | _ => cases hu

end Config

end GraphRefly
