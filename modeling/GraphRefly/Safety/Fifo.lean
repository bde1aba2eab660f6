import GraphRefly.Lib.KeyedQueue
import GraphRefly.Safety.Plain

/-!
# The Order of the Committed Boundary

Deferred requests wait in one queue and are applied by a drain that pops the
head, applies it, and puts it back instead when its target is paused. A drain
that puts nothing but paused entries back has turned the queue once around and
changed no order. A drain that applies or drops an entry while others stand put
back at the end of the queue starts counting anew with the queue turned part
of the way, and an entry that was put back now stands behind a later one of
its own target.

The requests of one target are therefore applied in the order they were made
as long as no drain takes an entry off the queue while an earlier entry of a
target that still waits ahead stands put back.

## Main definitions

* `Config.enqueuedFor`, `Config.appliedTo`: The requests of a target, in order.
* `Config.KeepsOrder`: The condition on the state before a step.
* `Config.QueueStep`: What a step outside the drain does to the queue.
* `Config.FifoInv`: The queue is in order, up to the turn of a running drain.

## Theorems

* `step_fifoInv`: A step that meets the condition preserves the invariant.
* `boundary_fifo`: Runs that meet the condition apply requests in order.
* `boundary_reorders`: A run that does not.
* `requests_applied_once`: No run applies a request twice.
-/

namespace GraphRefly

open List

variable {V S : Type}

/-- The request an event puts in the queue. -/
def Event.enqueuedAt : Event V → Option (Nat × NodeId)
  | .enqueued s t => some (s, t)
  | _ => none

/-- The request an event applies. -/
def Event.appliedAt : Event V → Option (Nat × NodeId)
  | .applied s t => some (s, t)
  | _ => none

/-- A turn of the boundary drain. -/
def Frame.isDrainLoop : Frame V → Bool
  | .drainLoop _ _ => true
  | _ => false

namespace Config

section

variable (c : Config V S)

/-- Everything enqueued so far, newest first. -/
def arrivals : List (Nat × NodeId) :=
  c.log.filterMap Event.enqueuedAt

/-- Everything applied so far, newest first. -/
def applications : List (Nat × NodeId) :=
  c.log.filterMap Event.appliedAt

/-- The requests enqueued for a target, oldest first. -/
def enqueuedFor (t : NodeId) : List Nat :=
  KeyedQueue.serials c.arrivals t

/-- The requests applied to a target, oldest first. -/
def appliedTo (t : NodeId) : List Nat :=
  KeyedQueue.serials c.applications t

/-- The task can be applied or must wait: it is committed and its target is
    alive. -/
def Due (t : BoundaryTask V) : Prop :=
  c.tokenSet t.token = true ∧ (c.nodes t.target).live = true

/-- No task of the first list shares its target with one of the second. -/
def TargetsApart (ahead back : List (BoundaryTask V)) : Prop :=
  ∀ a ∈ ahead, ∀ b ∈ back, a.target ≠ b.target

/-- When the drain applies or drops the head of the queue, the `blocked` tasks
    put back at its end share no target with those ahead of them, nor with an
    applied head. -/
def DrainKeepsOrder (blocked : Nat) : Prop :=
  match c.boundary with
  | [] => True
  | t :: ts =>
    let ahead := ts.take (ts.length - blocked)
    let back := ts.drop (ts.length - blocked)
    if !c.tokenSet t.token || !(c.nodes t.target).live then TargetsApart ahead back
    else if t.kind.waitsForResume && (c.nodes t.target).isPaused then True
    else TargetsApart (t :: ahead) back

/-- The condition on the state before a step: a turn of the drain keeps the
    order, and a host abort finds no due task to clear. -/
def KeepsOrder : Prop :=
  match c.mode, c.stack with
  | .running, .drainLoop blocked _ :: _ => c.DrainKeepsOrder blocked
  | .unwinding .hostAbort, .waveExit _ :: _ => ∀ t ∈ c.boundary, ¬ c.Due t
  | .unwinding .hostAbort, .taskCatch _ :: _ => ∀ t ∈ c.boundary, ¬ c.Due t
  | _, _ => True

end

instance (ahead back : List (BoundaryTask V)) : Decidable (TargetsApart ahead back) :=
  inferInstanceAs (Decidable (∀ a ∈ ahead, ∀ b ∈ back, a.target ≠ b.target))

instance (c : Config V S) (t : BoundaryTask V) : Decidable (c.Due t) :=
  inferInstanceAs (Decidable (_ ∧ _))

instance (c : Config V S) (blocked : Nat) : Decidable (c.DrainKeepsOrder blocked) := by
  unfold DrainKeepsOrder
  split
  · infer_instance
  · dsimp only
    infer_instance

/-- The condition as a check. -/
def checksOrder (c : Config V S) : Bool :=
  match c.mode, c.stack with
  | .running, .drainLoop blocked _ :: _ => decide (c.DrainKeepsOrder blocked)
  | .unwinding .hostAbort, .waveExit _ :: _ => decide (∀ t ∈ c.boundary, ¬ c.Due t)
  | .unwinding .hostAbort, .taskCatch _ :: _ => decide (∀ t ∈ c.boundary, ¬ c.Due t)
  | _, _ => true

theorem checksOrder_iff (c : Config V S) : c.checksOrder = true ↔ c.KeepsOrder := by
  unfold checksOrder KeepsOrder
  split
  · exact decide_eq_true_iff
  · exact decide_eq_true_iff
  · exact decide_eq_true_iff
  · exact iff_of_true rfl trivial

instance (c : Config V S) : Decidable c.KeepsOrder :=
  decidable_of_iff (c.checksOrder = true) c.checksOrder_iff

/-! ### Steps outside the drain -/

/-- What a step outside the drain does to the queue: it drops tasks that are
    not due, or appends one request. -/
structure QueueStep (c c' : Config V S) : Prop where
  applied : c'.applications = c.applications
  stack : ∃ fs, c'.stack = fs ++ c.stack ∧ ∀ f ∈ fs, f.isDrainLoop = false
  kept : ∀ t ∈ c.boundary, c.Due t → t ∈ c'.boundary
  queue : (c'.boundary.Sublist c.boundary ∧ c'.nextSeq = c.nextSeq ∧ c'.arrivals = c.arrivals) ∨
    ∃ t, t.seq = c.nextSeq ∧ c'.boundary = c.boundary ++ [t] ∧ c'.nextSeq = c.nextSeq + 1 ∧
      c'.arrivals = (c.nextSeq, t.target) :: c.arrivals

theorem isDrainLoop_of_isPlain (f : Frame V) (h : f.isPlain = true) : f.isDrainLoop = false := by
  cases f <;> first | rfl | cases h

variable {c c' : Config V S}

variable {frames : Frame V → Bool}

theorem arrivals_of_plain
    (h : Footprint Node.edges frames Event.isPlain c c') : c'.arrivals = c.arrivals := by
  rcases h.log with ⟨es, hes, he⟩
  have hnil : es.filterMap Event.enqueuedAt = [] := by
    rw [filterMap_eq_nil_iff]
    intro e hm
    have := he e hm
    cases e <;> first | rfl | cases this
  rw [arrivals, hes, filterMap_append, hnil, nil_append, arrivals]

theorem applications_of_plain
    (h : Footprint Node.edges frames Event.isPlain c c') : c'.applications = c.applications := by
  rcases h.log with ⟨es, hes, he⟩
  have hnil : es.filterMap Event.appliedAt = [] := by
    rw [filterMap_eq_nil_iff]
    intro e hm
    have := he e hm
    cases e <;> first | rfl | cases this
  rw [applications, hes, filterMap_append, hnil, nil_append, applications]

namespace QueueStep

variable {c c' : Config V S}

theorem of_footprint (h : Footprint Node.edges frames Event.isPlain c c')
    (hframes : ∀ f, frames f = true → f.isDrainLoop = false) : QueueStep c c' where
  applied := applications_of_plain h
  stack := by
    rcases h.stack with ⟨fs, hfs, hf⟩
    exact ⟨fs, hfs, fun f hm => hframes f (hf f hm)⟩
  kept := fun t ht _ => by rwa [h.boundary]
  queue := Or.inl ⟨by rw [h.boundary], h.nextSeq, arrivals_of_plain h⟩

theorem of_plain (h : Plain c c') : QueueStep c c' :=
  of_footprint h isDrainLoop_of_isPlain

theorem activateIfNeeded (c : Config V S) (n : NodeId) : QueueStep c (c.activateIfNeeded n) := by
  have hplain : ∀ e : Event V, e.isSilent = true → e.isPlain = true := by
    intro e he
    rw [Event.isSilent, Bool.and_eq_true] at he
    exact he.1
  refine of_footprint ((Silent.activateIfNeeded_footprint c n).mono Prod.fst (fun _ => rfl)
    (fun _ hf => hf) hplain) ?_
  intro f hf
  cases f <;> first | rfl | cases hf

theorem of_same (hb : c'.boundary = c.boundary)
    (hq : c'.nextSeq = c.nextSeq) (hl : c'.log = c.log) (fs : List (Frame V))
    (hst : c'.stack = fs ++ c.stack) (hf : ∀ f ∈ fs, f.isDrainLoop = false) :
    QueueStep c c' where
  applied := by rw [applications, hl, applications]
  stack := ⟨fs, hst, hf⟩
  kept := fun t ht _ => by rwa [hb]
  queue := Or.inl ⟨by rw [hb], hq, by rw [arrivals, hl, arrivals]⟩

theorem of_filter (hb : c'.boundary.Sublist c.boundary)
    (hkept : ∀ t ∈ c.boundary, c.Due t → t ∈ c'.boundary) (hq : c'.nextSeq = c.nextSeq)
    (hl : c'.log = c.log) (hst : c'.stack = c.stack) : QueueStep c c' where
  applied := by rw [applications, hl, applications]
  stack := ⟨[], hst, fun _ hf => absurd hf not_mem_nil⟩
  kept := hkept
  queue := Or.inl ⟨hb, hq, by rw [arrivals, hl, arrivals]⟩

theorem deferBoundary (c : Config V S) (target : NodeId) (kind : TaskKind V)
    (token : Option Nat) : QueueStep c (c.deferBoundary target kind token) := by
  have h := (Inert.registerBoundaryRoot c).plain
  refine ⟨?_, ⟨[], ?_, fun _ hf => absurd hf not_mem_nil⟩, ?_, Or.inr ?_⟩
  · have happ := applications_of_plain h
    unfold applications at happ ⊢
    simp only [Config.deferBoundary, filterMap_cons, Event.appliedAt, happ]
  · unfold Config.deferBoundary Config.registerBoundaryRoot
    cases c.batch <;> rfl
  · intro t ht _
    simp only [Config.deferBoundary, h.boundary, mem_append, ht, true_or]
  · refine ⟨⟨c.nextSeq, target, kind, token⟩, rfl, ?_, ?_, ?_⟩
    · simp only [Config.deferBoundary, h.boundary, h.nextSeq]
    · simp only [Config.deferBoundary, h.nextSeq]
    · have harr := arrivals_of_plain h
      unfold arrivals at harr ⊢
      simp only [Config.deferBoundary, filterMap_cons, Event.enqueuedAt, h.nextSeq, harr]

theorem closeUncommitted (c : Config V S) (roots : Bool) :
    QueueStep c (c.closeUncommitted roots) := by
  unfold Config.closeUncommitted
  dsimp only
  split_ifs
  · refine of_filter ?_ ?_ rfl rfl rfl
    · exact filter_sublist
    · intro t ht hdue
      exact mem_filter.mpr ⟨ht, hdue.1⟩
  · exact of_plain (Footprint.of_eq rfl rfl rfl rfl rfl rfl rfl rfl)

theorem throw (h : QueueStep c c') (p : Payload) :
    QueueStep c (c'.throw p) :=
  ⟨h.applied, h.stack, h.kept, h.queue⟩

theorem rollbackDone (c : Config V S) (roots : Bool) (payload : Option Payload) :
    QueueStep c (c.rollbackDone roots payload) := by
  have h := closeUncommitted c roots
  unfold Config.rollbackDone
  cases payload with
  | none => exact h
  | some p => exact h.throw p

/-! ### Rewires -/

section

variable (c : Config V S) (n : NodeId)

theorem externalRewire (req : RewireRequest) :
    QueueStep c (c.externalRewire n req) := by
  unfold Config.externalRewire
  split
  · exact deferBoundary c _ _ _
  · exact of_same rfl rfl rfl _ rfl (by simp [Frame.isDrainLoop])

theorem rewireInner (newDeps : List NodeId) (f : FnId)
    (allow : Bool) : QueueStep c (c.rewireInner n newDeps f allow) := by
  unfold Config.rewireInner
  dsimp only
  split
  · exact deferBoundary c _ _ _
  · split
    · exact of_plain ((Footprint.refl c).panic _)
    · unfold withWaveOwner
      split_ifs
      · exact of_same rfl rfl rfl _ rfl (by simp [Frame.isDrainLoop])
      · exact of_same rfl rfl rfl _ rfl (by simp [Frame.isDrainLoop])

theorem rewireApply (newDeps : List NodeId) (f : FnId) :
    QueueStep c (c.rewireApply n newDeps f) := by
  unfold Config.rewireApply
  dsimp only
  split_ifs
  · exact of_plain ((Footprint.refl c).setNode rfl)
  · exact of_same rfl rfl rfl _ rfl (by simp [Frame.isDrainLoop])

theorem rewireRemove (oldDeps newDeps : List NodeId)
    (activated : Bool) (removed : List Nat) (dirty : Bool) :
    QueueStep c (c.rewireRemove n oldDeps newDeps activated removed dirty) := by
  cases removed with
  | nil => exact of_same rfl rfl rfl _ rfl (by simp [Frame.isDrainLoop])
  | cons i rest =>
    refine of_same rfl rfl rfl _ rfl ?_
    intro f hf
    rcases mem_append.mp hf with hf | hf
    · split at hf
      · rw [mem_singleton.mp hf]
        rfl
      · exact absurd hf not_mem_nil
    · rw [mem_singleton.mp hf]
      rfl

theorem rewireAssign (oldDeps newDeps : List NodeId)
    (activated dirty : Bool) : QueueStep c (c.rewireAssign n oldDeps newDeps activated dirty) := by
  refine of_same rfl rfl rfl _ rfl ?_
  intro f hf
  rcases mem_append.mp hf with hf | hf
  · split at hf
    · rcases mem_map.mp hf with ⟨p, _, rfl⟩
      rfl
    · exact absurd hf not_mem_nil
  · rcases mem_cons.mp hf with rfl | hf
    · rfl
    · rw [mem_singleton.mp hf]
      rfl

end

/-! ### User operations -/

theorem newNode (c : Config V S) (spec : NodeSpec V) : QueueStep c (c.newNode spec) := by
  unfold Config.newNode
  split_ifs
  · exact of_plain ((Footprint.refl c).panic _)
  · exact of_same rfl rfl rfl [] rfl (by simp)
  · exact of_plain (Footprint.refl c)

theorem dropNode (c : Config V S) (n : NodeId) (onStack : Bool) :
    QueueStep c (c.dropNode n onStack) := by
  unfold Config.dropNode
  dsimp only
  split_ifs
  · refine of_same rfl rfl rfl _ rfl ?_
    intro f hf
    refine isDrainLoop_of_isPlain f ?_
    rcases mem_append.mp hf with hf | hf
    · exact f.isPlain_of_isSilent (Silent.unsubFrames _ f hf)
    · exact f.isPlain_of_isSilent (Silent.hookFrames _ f hf)
  · exact of_plain (Footprint.refl c)

theorem perform (c : Config V S) (cb : Callback V) (o : UserOp V S) :
    QueueStep c (c.perform cb o) := by
  cases perform_cases c cb o with
  | inert h => exact of_plain h.plain
  | created spec _ h => rw [h]; exact newNode c spec
  | dropped n _ h => rw [h]; exact dropNode c n _
  | rewired n req _ _ h => rw [h]; exact of_same rfl rfl rfl _ rfl (by simp [Frame.isDrainLoop])
  | deferred n kind _ h => rw [h]; exact deferBoundary c n kind _

theorem trans_push {f : Frame V} (h : QueueStep (c.push [f]) c')
    (hf : f.isDrainLoop = false) : QueueStep c c' where
  applied := h.applied
  stack := by
    rcases h.stack with ⟨fs, hfs, hall⟩
    refine ⟨fs ++ [f], by rw [hfs, push, append_assoc], ?_⟩
    intro g hg
    rcases mem_append.mp hg with hg | hg
    · exact hall g hg
    · rwa [mem_singleton.mp hg]
  kept := h.kept
  queue := h.queue

theorem stepUser (env : Env V S) (c : Config V S) (cb : Callback V) (i : Nat) :
    QueueStep c (c.stepUser env cb i) := by
  unfold Config.stepUser
  split
  · exact of_plain (Footprint.refl c)
  · exact of_plain ((Footprint.refl c).throw _)
  · exact trans_push (perform _ cb _) rfl

end QueueStep

/-! ### The invariant -/

section

variable (c : Config V S)

/-- The tasks listed are in order, with everything enqueued and applied. -/
def QueueOrderly (queue : List (BoundaryTask V)) : Prop :=
  KeyedQueue.Orderly (·.target) (·.seq) c.nextSeq queue c.arrivals c.applications

/-- No drain is at work and the queue is in order. -/
def Calm : Prop :=
  (∀ f ∈ c.stack, f.isDrainLoop = false) ∧ c.QueueOrderly c.boundary

/-- A drain has put `blocked` tasks back to the end of the queue. Turned back
    by as much, the queue is in order. -/
def Turning (blocked : Nat) : Prop :=
  c.mode = .running ∧ (∀ f ∈ c.stack.tail, f.isDrainLoop = false) ∧
    ∃ ahead back, c.boundary = ahead ++ back ∧ back.length = blocked ∧
      (ahead = [] → back = []) ∧ c.QueueOrderly (back ++ ahead)

/-- The queue is in order, up to the turn of a running drain. -/
def FifoInv : Prop :=
  c.Calm ∨ ∃ blocked escaped rest, c.stack = .drainLoop blocked escaped :: rest ∧
    c.Turning blocked

end

theorem calm_of_queueStep (h : QueueStep c c') (hc : c.Calm) : c'.Calm := by
  rcases hc with ⟨hstack, hord⟩
  constructor
  · rcases h.stack with ⟨fs, hfs, hall⟩
    rw [hfs]
    intro f hf
    rcases mem_append.mp hf with hf | hf
    · exact hall f hf
    · exact hstack f hf
  · unfold QueueOrderly at hord ⊢
    rw [h.applied]
    rcases h.queue with ⟨hsub, hseq, harr⟩ | ⟨t, ht, hb, hseq, harr⟩
    · rw [hseq, harr]
      exact hord.sublist hsub
    · rw [hb, hseq, harr]
      exact hord.arrive ht

theorem turning_zero (escaped : Option Payload) (hm : c.mode = .running)
    (hc : c.Calm) : (c.push [.drainLoop 0 escaped]).FifoInv := by
  refine Or.inr ⟨0, escaped, c.stack, rfl, hm, hc.1, c.boundary, [], ?_, rfl, ?_, hc.2⟩
  · exact (append_nil c.boundary).symm
  · exact fun _ => rfl

/-- What a step keeps of the queue: every due task, unless it is applied. -/
def KeepsDue (c c' : Config V S) : Prop :=
  ∀ t ∈ c.boundary, c.Due t → t ∈ c'.boundary ∨ c'.log = .applied t.seq t.target :: c.log

theorem taskFrames_not_drainLoop (c : Config V S) (t : BoundaryTask V) :
    ∀ f ∈ c.taskFrames t, f.isDrainLoop = false := by
  intro f hf
  cases taskFrames_forms hf <;> rfl

theorem drainFinish_calm (escaped : Option Payload) (hc : c.Calm) :
    (c.drainFinish escaped).Calm := by
  unfold drainFinish
  cases escaped with
  | none => exact hc
  | some p => exact hc

theorem drainFinish_boundary (c : Config V S) (escaped : Option Payload) :
    (c.drainFinish escaped).boundary = c.boundary := by
  unfold drainFinish
  cases escaped <;> rfl

theorem drainLoop_keepsDue (c : Config V S) (blocked : Nat) (escaped : Option Payload) :
    KeepsDue c (c.drainLoop blocked escaped) := by
  intro t' ht' hdue
  unfold drainLoop
  split
  · left
    rwa [drainFinish_boundary]
  · rename_i t ts hb
    rw [hb] at ht'
    have hback : t' ∈ ts ++ [t] := (perm_append_singleton t ts).symm.subset ht'
    dsimp only
    split_ifs with hdrop
    · rcases mem_cons.mp ht' with rfl | ht'
      · rw [hdue.1, hdue.2] at hdrop
        exact absurd hdrop (by decide)
      · exact Or.inl ht'
    · left
      rwa [drainFinish_boundary]
    · exact Or.inl hback
    · rcases mem_cons.mp ht' with rfl | ht'
      · exact Or.inr rfl
      · exact Or.inl ht'

/-- One turn of the drain. The tasks put back are the earliest of the queue, so
    the queue turned back by as many is the order to keep: putting one more
    back does not change it, and taking the head off restarts the count with
    the two parts swapped. -/
theorem drainLoop_fifoInv {ahead back : List (BoundaryTask V)}
    (escaped : Option Payload) (hm : c.mode = .running)
    (hst : ∀ f ∈ c.stack, f.isDrainLoop = false) (hb : c.boundary = ahead ++ back)
    (hnil : ahead = [] → back = []) (hord : c.QueueOrderly (back ++ ahead))
    (hguard : c.DrainKeepsOrder back.length) : (c.drainLoop back.length escaped).FifoInv := by
  cases ahead with
  | nil =>
    rw [hnil rfl, append_nil] at hb
    have hcalm : c.Calm := ⟨hst, by rw [hb]; rwa [hnil rfl] at hord⟩
    have heq : c.drainLoop back.length escaped = c.drainFinish escaped := by
      simp only [drainLoop, hb]
    rw [heq]
    exact Or.inl (drainFinish_calm escaped hcalm)
  | cons t ahead =>
    have hts : c.boundary = t :: (ahead ++ back) := hb
    have hlen : (ahead ++ back).length - back.length = ahead.length := by
      rw [length_append, Nat.add_sub_cancel]
    simp only [DrainKeepsOrder, hts, hlen, take_left, drop_left] at hguard
    unfold drainLoop
    simp only [hts]
    split_ifs at hguard ⊢ with hdrop hwait hexit
    · -- The head is not due: it is dropped.
      have hsub : (back ++ ahead).Sublist (back ++ t :: ahead) :=
        List.Sublist.append (List.Sublist.refl back) (sublist_cons_self t ahead)
      have hswap : c.QueueOrderly (ahead ++ back) := by
        refine (hord.sublist hsub).reorder ?_ ?_
        · intro a ha
          rw [mem_append] at ha ⊢
          exact ha.symm
        · refine KeyedQueue.inOrder_swap (hord.sublist hsub).inOrder ?_
          intro b hb' a ha hkey
          exact hguard a ha b hb' hkey.symm
      exact turning_zero escaped hm ⟨hst, hswap⟩
    · -- The last task of the queue is put back: the turn is complete.
      have hahead : ahead = [] := by
        rw [← length_eq_zero_iff]
        simp only [length_append, length_singleton] at hexit
        omega
      subst hahead
      have hcalm : Calm { c with boundary := [] ++ back ++ [t] } := ⟨hst, hord⟩
      exact Or.inl (drainFinish_calm escaped hcalm)
    · -- One more task is put back.
      refine Or.inr ⟨back.length + 1, escaped, c.stack, rfl, hm, hst, ahead, back ++ [t],
        ?_, ?_, ?_, ?_⟩
      · exact append_assoc ahead back [t]
      · rw [length_append, length_singleton]
      · intro hahead
        simp only [hahead, nil_append, length_append, length_singleton] at hexit
        omega
      · change c.QueueOrderly (back ++ [t] ++ ahead)
        rwa [append_assoc, singleton_append]
    · -- The head is applied.
      have hswap : c.QueueOrderly (t :: ahead ++ back) := by
        refine hord.reorder ?_ ?_
        · intro a ha
          rw [mem_append] at ha ⊢
          exact ha.symm
        · refine KeyedQueue.inOrder_swap hord.inOrder ?_
          intro b hb' a ha hkey
          exact hguard a ha b hb' hkey.symm
      refine Or.inl ⟨?_, hswap.serve⟩
      intro f hf
      rcases mem_append.mp hf with hf | hf
      · rcases mem_append.mp hf with hf | hf
        · exact taskFrames_not_drainLoop _ t f hf
        · rw [mem_singleton.mp hf]
          rfl
      · exact hst f hf

theorem queueStep_fifoInv (h : QueueStep c c') (hc : c.Calm) :
    c'.FifoInv ∧ KeepsDue c c' :=
  ⟨Or.inl (calm_of_queueStep h hc), fun t ht hdue => Or.inl (h.kept t ht hdue)⟩

/-- A frame that starts no turn of the drain leaves the drain alone. -/
theorem enter_queue (env : Env V S) (f : Frame V) (hf : f.isDrainLoop = false) :
    QueueStep c (c.enter env f) ∨ f = .drainBoundary ∨ ∃ escaped, f = .taskCatch escaped := by
  cases hp : f.entersPlain with
  | true => exact Or.inl (.of_plain (enter_plain env c f hp))
  | false =>
    cases f with
    | drainLoop blocked escaped => cases hf
    | drainBoundary => exact Or.inr (Or.inl rfl)
    | taskCatch escaped => exact Or.inr (Or.inr ⟨escaped, rfl⟩)
    | user cb i => exact Or.inl (.stepUser env c cb i)
    | rollbackDone roots payload => exact Or.inl (.rollbackDone c roots payload)
    | externalRewire n req => exact Or.inl (.externalRewire c n req)
    | rewireInner n deps fn allow => exact Or.inl (.rewireInner c n deps fn allow)
    | rewireApply n deps fn => exact Or.inl (.rewireApply c n deps fn)
    | rewireRemove n old new act rem dirty =>
      exact Or.inl (.rewireRemove c n old new act rem dirty)
    | rewireAssign n old new act dirty => exact Or.inl (.rewireAssign c n old new act dirty)
    | activateIfNeeded n => exact Or.inl (.activateIfNeeded c n)
    | subscribeDep n i d =>
      exact Or.inl (.of_same rfl rfl rfl [_, _] rfl (by simp [Frame.isDrainLoop]))
    | _ => cases hp

theorem enter_fifoInv (env : Env V S) (f : Frame V)
    (hf : f.isDrainLoop = false) (hm : c.mode = .running) (hc : c.Calm) :
    (c.enter env f).FifoInv ∧ KeepsDue c (c.enter env f) := by
  have hkeep : ∀ c' : Config V S, c'.boundary = c.boundary → KeepsDue c c' := by
    intro c' hb t ht _
    rw [hb]
    exact Or.inl ht
  rcases enter_queue (c := c) env f hf with hq | rfl | ⟨escaped, rfl⟩
  · exact queueStep_fifoInv hq hc
  · simp only [enter, drainBoundary]
    split_ifs
    · exact ⟨Or.inl hc, hkeep c rfl⟩
    · exact ⟨turning_zero none hm hc, hkeep _ rfl⟩
  · exact ⟨turning_zero escaped hm hc, hkeep _ rfl⟩

theorem clear_fifoInv (hc : c.Calm) (hdue : ∀ t ∈ c.boundary, ¬ c.Due t)
    (hb : c'.boundary = []) (hq : c'.nextSeq = c.nextSeq) (hl : c'.log = c.log)
    (hst : c'.stack = c.stack) : c'.FifoInv ∧ KeepsDue c c' := by
  refine queueStep_fifoInv (.of_filter ?_ ?_ hq hl hst) hc
  · rw [hb]
    exact nil_sublist _
  · intro t ht h
    exact absurd h (hdue t ht)

theorem unwind_fifoInv (env : Env V S) (p : Payload) (f : Frame V) (hc : c.Calm)
    (hdue : p = .hostAbort → ((∃ n, f = .waveExit n) ∨ ∃ e, f = .taskCatch e) →
      ∀ t ∈ c.boundary, ¬ c.Due t) :
    (c.unwind env p f).FifoInv ∧ KeepsDue c (c.unwind env p f) := by
  rcases unwind_cases env c p f with h | ⟨rfl, n, rfl⟩ | ⟨escaped, rfl⟩ | ⟨roots, h⟩
  · exact queueStep_fifoInv (.of_plain h.plain) hc
  · exact clear_fifoInv hc (hdue rfl (Or.inl ⟨n, rfl⟩)) rfl rfl rfl rfl
  · cases p with
    | hostAbort => exact clear_fifoInv hc (hdue rfl (Or.inr ⟨_, rfl⟩)) rfl rfl rfl rfl
    | ordinary msg =>
      refine ⟨turning_zero (c := { c with mode := .running }) _ rfl hc, ?_⟩
      exact fun t ht _ => Or.inl ht
  · rw [h]
    exact queueStep_fifoInv (.closeUncommitted c roots) hc

/-- A step that meets the condition preserves the invariant and loses no due
    task. -/
theorem step_fifoInv (hstep : Step c c') (hguard : c.KeepsOrder)
    (hinv : c.FifoInv) : c'.FifoInv ∧ KeepsDue c c' := by
  rcases hstep with ⟨env, hstep⟩
  rcases step_cases hstep with ⟨f, rest, hs, hcase⟩
  rcases hinv with hcalm | ⟨blocked, escaped, rest', hst, hm, hrest, ahead, back, hb,
    hlen, hnil, hord⟩
  · have hf : f.isDrainLoop = false := hcalm.1 f (by rw [hs]; exact mem_cons_self)
    have hpop : (c.popTo rest).Calm := by
      refine ⟨?_, hcalm.2⟩
      intro g hg
      exact hcalm.1 g (by rw [hs]; exact mem_cons_of_mem f hg)
    rcases hcase with ⟨hmode, rfl⟩ | ⟨p, hmode, rfl⟩
    · exact enter_fifoInv env f hf hmode hpop
    · refine unwind_fifoInv env p f hpop ?_
      intro hp hframe
      subst hp
      rcases hframe with ⟨n, rfl⟩ | ⟨e, rfl⟩ <;>
        (unfold KeepsOrder at hguard; rw [hmode, hs] at hguard; exact hguard)
  · rw [hst, List.cons.injEq] at hs
    rcases hs with ⟨rfl, rfl⟩
    rcases hcase with ⟨_, rfl⟩ | ⟨p, hmode, _⟩
    · subst hlen
      have hg : c.DrainKeepsOrder back.length := by
        unfold KeepsOrder at hguard
        rwa [hm, hst] at hguard
      rw [hst] at hrest
      have hpop := drainLoop_fifoInv (c := c.popTo rest') escaped hm hrest hb hnil hord hg
      exact ⟨hpop, drainLoop_keepsDue (c.popTo rest') _ escaped⟩
    · rw [hm] at hmode
      cases hmode

theorem initial_fifoInv : (initial : Config V S).FifoInv := by
  refine Or.inl ⟨?_, KeyedQueue.Orderly.empty⟩
  intro f hf
  rw [mem_singleton.mp hf]
  rfl

/-- In a run that meets the condition, the requests of each target are applied
    in the order they were enqueued, none of them twice, and no step loses one
    that is committed and whose target is alive. -/
theorem boundary_fifo (c : Config V S) (hrun : GuardedReach KeepsOrder initial c) :
    (∀ t, (c.appliedTo t).Sublist (c.enqueuedFor t) ∧ (c.enqueuedFor t).Nodup) ∧
      (c.KeepsOrder → ∀ c', Step c c' → KeepsDue c c') := by
  have hinv : c.FifoInv := by
    refine hrun.invariant ?_ initial_fifoInv
    intro a b hstep hguard ha
    exact (step_fifoInv hstep hguard ha).1
  refine ⟨?_, fun hguard c' hstep => (step_fifoInv hstep hguard hinv).2⟩
  intro t
  rcases hinv with hcalm | ⟨_, _, _, _, _, _, _, _, _, _, _, hord⟩
  · exact hcalm.2.served_sublist t
  · exact hord.served_sublist t

/-- A node whose fn queues two requests, pauses itself, and is resumed later. -/
def pausedRequests : Env Nat Unit := Env.scripted fun cb => match cb with
  | .main => [.newNode { initial := some 1 },
      .newNode { deps := [0], handle := some (0, .sync) },
      .subscribe 1 0, .up 1 [.resume ⟨"lock"⟩] none]
  | .fn _ _ => [.ctxUpNext [.invalidate] none, .ctxUpNext [.invalidate] none,
      .ctxUp [.pause ⟨"lock"⟩] none]
  | _ => []

theorem boundary_fifo_pausedRequests :
    (initial.run pausedRequests 120).appliedTo 1 = [0, 1] ∧
      ((initial.run pausedRequests 120).appliedTo 1).Sublist
        ((initial.run pausedRequests 120).enqueuedFor 1) := by
  have hrun : GuardedReach KeepsOrder initial (initial.run pausedRequests 120) :=
    guardedReach_run pausedRequests 120 initial (by decide +kernel)
  exact ⟨by decide +kernel, ((boundary_fifo _ hrun).1 1).1⟩

/-- The fn of node 1 queues a request, emits, queues another and pauses
    itself; the emission runs node 2, whose request lands between the two. -/
def interleavedRequests : Env Nat Unit := Env.scripted fun cb => match cb with
  | .main => [.newNode { initial := some 1 },
      .newNode { deps := [0], handle := some (0, .sync) },
      .newNode { deps := [1], handle := some (1, .sync) },
      .subscribe 2 0, .up 1 [.resume ⟨"lock"⟩] none]
  | .fn 0 _ => [.ctxUpNext [.invalidate] none, .ctxDown [.data 5],
      .ctxUpNext [.invalidate] none, .ctxUp [.pause ⟨"lock"⟩] none]
  | .fn _ _ => [.ctxUpNext [.invalidate] none]
  | _ => []

-- The drain puts request 0 back, applies request 1, and so leaves request 2
-- ahead of request 0 of the same target; once resumed they are applied so.
theorem boundary_reorders :
    (initial.run interleavedRequests 300).enqueuedFor 1 = [0, 2] ∧
      (initial.run interleavedRequests 300).appliedTo 1 = [2, 0] ∧
      ¬ ((initial.run interleavedRequests 300).appliedTo 1).Sublist
        ((initial.run interleavedRequests 300).enqueuedFor 1) := by
  decide +kernel

/-! ### Every run -/

/-- The requests that wait, as the log names them. -/
def waiting (c : Config V S) : List (Nat × NodeId) :=
  c.boundary.map fun t => (t.seq, t.target)

/-- Requests are numbered as they arrive, and one that waits or was applied has
    arrived and does so once. -/
structure Accounted (c : Config V S) : Prop where
  numbered : c.arrivals.map Prod.fst = (range c.nextSeq).reverse
  once : (c.applications ++ c.waiting).Subperm c.arrivals

theorem Accounted.of_boundary (h : c.Accounted) (hl : c'.log = c.log)
    (hq : c'.nextSeq = c.nextSeq) (hb : c'.boundary.Subperm c.boundary) : c'.Accounted := by
  refine ⟨by rw [arrivals, hl, hq]; exact h.numbered, ?_⟩
  have hw : c'.waiting.Subperm c.waiting := by
    rcases hb with ⟨l, hperm, hsub⟩
    exact ⟨_, hperm.map _, hsub.map _⟩
  rw [applications, arrivals, hl]
  exact ((subperm_append_left _).mpr hw).trans h.once

theorem accounted_of_queueStep (hstep : QueueStep c c') (h : c.Accounted) :
    c'.Accounted ∧ KeepsDue c c' := by
  refine ⟨?_, fun t ht hdue => Or.inl (hstep.kept t ht hdue)⟩
  rcases hstep.queue with ⟨hsub, hseq, harr⟩ | ⟨t, ht, hb, hseq, harr⟩
  · refine ⟨by rw [harr, hseq]; exact h.numbered, ?_⟩
    rw [hstep.applied, harr]
    exact ((subperm_append_left _).mpr (hsub.map _).subperm).trans h.once
  · constructor
    · rw [harr, hseq, range_succ, reverse_append, map_cons, h.numbered]
      rfl
    · have hw : c'.waiting = c.waiting ++ [(c.nextSeq, t.target)] := by
        rw [waiting, hb, map_append, ← ht]
        rfl
      rw [hstep.applied, harr, hw, ← append_assoc]
      exact (perm_append_singleton _ _).subperm_right.mpr ((subperm_cons _).mpr h.once)

theorem Accounted.drainFinish (escaped : Option Payload) (h : c.Accounted) :
    (c.drainFinish escaped).Accounted := by
  unfold Config.drainFinish
  cases escaped <;> exact h.of_boundary rfl rfl (Subperm.refl _)

/-- One turn of the drain drops its head, puts it back, or applies it. -/
theorem Accounted.drainLoop (blocked : Nat) (escaped : Option Payload) (h : c.Accounted) :
    (c.drainLoop blocked escaped).Accounted := by
  unfold Config.drainLoop
  split
  · exact h.drainFinish escaped
  · rename_i t ts hb
    have hput : Accounted { c with boundary := ts ++ [t] } :=
      h.of_boundary rfl rfl (by rw [hb]; exact (perm_append_singleton t ts).subperm)
    dsimp only
    split_ifs
    · exact h.of_boundary rfl rfl (by rw [hb]; exact (sublist_cons_self t ts).subperm)
    · exact hput.drainFinish escaped
    · exact hput.of_boundary rfl rfl (Subperm.refl _)
    · refine ⟨h.numbered, ?_⟩
      have honce := h.once
      rw [waiting, hb, map_cons] at honce
      exact perm_middle.subperm_right.mp honce

/-- A step keeps the account, and loses a due task only where a host abort
    leaves a wave or a task. -/
theorem step_accounted (hstep : Step c c') (h : c.Accounted) :
    c'.Accounted ∧ (c.mode ≠ .unwinding .hostAbort → KeepsDue c c') := by
  rcases hstep with ⟨env, hstep⟩
  rcases step_cases hstep with ⟨f, rest, _, hcase⟩
  have hpop : (c.popTo rest).Accounted := h.of_boundary rfl rfl (Subperm.refl _)
  have hany : ∀ {d : Config V S}, d.Accounted ∧ KeepsDue c d →
      d.Accounted ∧ (c.mode ≠ .unwinding .hostAbort → KeepsDue c d) :=
    fun hd => ⟨hd.1, fun _ => hd.2⟩
  have hqueue : ∀ {d : Config V S}, QueueStep (c.popTo rest) d → d.Accounted ∧ KeepsDue c d :=
    fun hq => accounted_of_queueStep (c := c.popTo rest) hq hpop
  have hsame : ∀ d : Config V S, d.log = c.log → d.nextSeq = c.nextSeq →
      d.boundary = c.boundary → d.Accounted ∧ KeepsDue c d := by
    intro d hl hq hb
    exact ⟨h.of_boundary hl hq (by rw [hb]), fun t ht _ => Or.inl (by rwa [hb])⟩
  rcases hcase with ⟨_, rfl⟩ | ⟨p, hmode, rfl⟩
  · refine hany ?_
    cases hf : f.isDrainLoop with
    | true =>
      cases f with
      | drainLoop blocked escaped =>
        exact ⟨hpop.drainLoop blocked escaped, drainLoop_keepsDue (c.popTo rest) _ _⟩
      | _ => cases hf
    | false =>
      rcases enter_queue (c := c.popTo rest) env f hf with hq | rfl | ⟨escaped, rfl⟩
      · exact hqueue hq
      · simp only [enter, drainBoundary]
        split_ifs <;> exact hsame _ rfl rfl rfl
      · exact hsame _ rfl rfl rfl
  · rcases unwind_cases env (c.popTo rest) p f with hs | ⟨rfl, n, rfl⟩ | ⟨escaped, rfl⟩ |
      ⟨roots, heq⟩
    · exact hany (hqueue (.of_plain hs.plain))
    · exact ⟨h.of_boundary rfl rfl nil_subperm, fun hne => absurd hmode hne⟩
    · cases p with
      | hostAbort => exact ⟨h.of_boundary rfl rfl nil_subperm, fun hne => absurd hmode hne⟩
      | ordinary msg => exact hany (hsame _ rfl rfl rfl)
    · rw [heq]
      exact hany (hqueue (.closeUncommitted (c.popTo rest) roots))

/-- In every run, requests are numbered in the order they arrive; those applied
    and those that wait have arrived, and none is applied twice or waits after
    it was applied; and only a host abort loses one that is committed and whose
    target is alive. -/
theorem requests_applied_once (c : Config V S)
    (hrun : GuardedReach (fun _ => True) initial c) :
    c.arrivals.map Prod.fst = (range c.nextSeq).reverse ∧
      (c.applications ++ c.waiting).Nodup ∧ (c.applications ++ c.waiting) ⊆ c.arrivals ∧
      (c.mode ≠ .unwinding .hostAbort → ∀ c', Step c c' → KeepsDue c c') := by
  have h : c.Accounted := by
    refine hrun.invariant ?_ ⟨rfl, Subperm.refl _⟩
    intro a b hstep _ ha
    exact (step_accounted hstep ha).1
  have hnodup : c.arrivals.Nodup := by
    refine Nodup.of_map Prod.fst ?_
    rw [h.numbered, nodup_reverse]
    exact nodup_range
  rcases h.once with ⟨l, hperm, hsub⟩
  refine ⟨h.numbered, hperm.nodup (hnodup.sublist hsub), h.once.subset, ?_⟩
  exact fun hm c' hstep => (step_accounted hstep h).2 hm

theorem requests_applied_once_pausedRequests :
    ((initial.run pausedRequests 120).applications ++
      (initial.run pausedRequests 120).waiting).Nodup :=
  (requests_applied_once _ (guardedReach_run pausedRequests 120 initial fun _ _ => trivial)).2.1

end Config

end GraphRefly
