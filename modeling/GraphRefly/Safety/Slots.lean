import GraphRefly.Safety.Plain

/-!
# What a Step Does to a Slot

The kernel of a slot is the part that the invariants about values, dep
bookkeeping and subscriptions read. Most steps leave every kernel alone. This
module says once which steps do not, and what each of them does to the one slot
it works on; the invariants look only at those.

## Main definitions

* `Node.kernel`: The part of a slot the invariants read.
* `Config.Still`: Every kernel stays, and so do the index boxes.
* `Config.Entering`: The step enters a frame.
* `Config.SlotStep`: What one step can do to one slot.

## Theorems

* `step_slot`: Every step does one of these things to every slot.
-/

namespace GraphRefly

variable {V S : Type}

namespace Node

variable {x y : Node V S}

theorem live_of_kernel (h : y.kernel = x.kernel) : y.live = x.live :=
  (congrArg Node.live h :)

theorem deps_of_kernel (h : y.kernel = x.kernel) : y.deps = x.deps :=
  (congrArg Node.deps h :)

theorem value_of_kernel (h : y.kernel = x.kernel) : y.value = x.value :=
  (congrArg Node.value h :)

theorem dep_of_kernel (h : y.kernel = x.kernel) : y.dep = x.dep :=
  (congrArg Node.dep h :)

theorem unsubs_of_kernel (h : y.kernel = x.kernel) : y.unsubs = x.unsubs :=
  (congrArg Node.unsubs h :)

theorem idxBoxes_of_kernel (h : y.kernel = x.kernel) : y.idxBoxes = x.idxBoxes :=
  (congrArg Node.idxBoxes h :)

theorem restoredHandshake_of_kernel (h : y.kernel = x.kernel) :
    y.restoredHandshake = x.restoredHandshake :=
  (congrArg Node.restoredHandshake h :)

theorem activated_of_kernel (h : y.kernel = x.kernel) : y.aux.activated = x.aux.activated :=
  (congrArg (·.aux.activated) h :)

theorem inDepMutation_of_kernel (h : y.kernel = x.kernel) :
    y.wave.inDepMutation = x.wave.inDepMutation :=
  (congrArg (·.wave.inDepMutation) h :)

end Node

namespace Config

/-- Every kernel stays, and so do the index boxes. -/
structure Still (c c' : Config V S) : Prop where
  kernel : ∀ n, (c'.nodes n).kernel = (c.nodes n).kernel
  boxes : c'.boxes = c.boxes

namespace Still

variable {c c' c'' : Config V S}

theorem of_nodes (hn : c'.nodes = c.nodes) (hb : c'.boxes = c.boxes) : Still c c' :=
  ⟨fun n => by rw [hn], hb⟩

theorem refl (c : Config V S) : Still c c :=
  of_nodes rfl rfl

theorem trans (h : Still c c') (h' : Still c' c'') : Still c c'' :=
  ⟨fun n => (h'.kernel n).trans (h.kernel n), h'.boxes.trans h.boxes⟩

/-- One slot changes outside its kernel. -/
theorem of_slot {n : NodeId} {x : Node V S} (hn : c'.nodes = Function.update c.nodes n x)
    (hx : x.kernel = (c.nodes n).kernel) (hb : c'.boxes = c.boxes) : Still c c' := by
  refine ⟨?_, hb⟩
  intro m
  rw [hn]
  by_cases hm : m = n
  · subst hm
    rw [Function.update_self, hx]
  · rw [Function.update_of_ne hm]

theorem of_inert (h : Inert c c') : Still c c' :=
  ⟨h.kernel, h.boxes⟩

theorem push (h : Still c c') (fs : List (Frame V)) : Still c (c'.push fs) :=
  ⟨h.kernel, h.boxes⟩

variable (c)

section

variable (n : NodeId)

theorem deferBoundary (kind : TaskKind V) (token : Option Nat) :
    Still c (c.deferBoundary n kind token) :=
  (of_inert (Inert.registerBoundaryRoot c)).trans (of_nodes rfl rfl)

theorem withWaveOwner (body : List (Frame V)) : Still c (c.withWaveOwner n body) := by
  unfold Config.withWaveOwner
  split_ifs <;> exact of_nodes rfl rfl

theorem downEmit (inside : Bool) (wave : Wave V) :
    Still c (c.downEmit n inside wave) := by
  unfold Config.downEmit
  dsimp only
  split_ifs <;> exact of_nodes rfl rfl

theorem downUnbatched (inside : Bool) (wave : Wave V) :
    Still c (c.downUnbatched n inside wave) := by
  unfold Config.downUnbatched
  dsimp only
  split_ifs
  · exact refl c
  · exact of_slot rfl rfl rfl
  · exact downEmit c n inside _
  · refine trans ?_ (downEmit _ n inside _)
    exact of_slot rfl rfl rfl
  · exact downEmit c n inside _

theorem down (msgs : Wave V) : Still c (c.down n msgs) := by
  have hreg := of_inert (Inert.waveRegister c n)
  unfold Config.down
  dsimp only
  split_ifs
  · exact refl c
  · exact hreg.trans ((of_inert (Inert.deferToBatch _ n _)).push _)
  · exact hreg
  · exact hreg.trans (downUnbatched _ n _ _)
  · exact hreg.trans (downUnbatched _ n _ _)

theorem subscribe (sink : Sink) : Still c (c.subscribe n sink) := by
  unfold Config.subscribe
  dsimp only
  split_ifs
  · exact of_slot rfl rfl rfl
  · exact of_nodes rfl rfl

theorem unsubscribe (id : Nat) : Still c (c.unsubscribe n id) := by
  unfold Config.unsubscribe
  dsimp only
  split_ifs
  · exact of_slot rfl rfl rfl
  · exact of_slot rfl rfl rfl
  · exact refl c

theorem settleRewire : Still c (c.settleRewire n) := by
  unfold Config.settleRewire
  dsimp only
  split_ifs
  · exact of_slot rfl rfl rfl
  all_goals exact of_nodes rfl rfl

theorem externalRewire (req : RewireRequest) : Still c (c.externalRewire n req) := by
  unfold Config.externalRewire
  split
  · exact deferBoundary c _ _ _
  · exact of_nodes rfl rfl

theorem rewireInner (newDeps : List NodeId) (f : FnId) (allow : Bool) :
    Still c (c.rewireInner n newDeps f allow) := by
  unfold Config.rewireInner
  dsimp only
  split
  · exact deferBoundary c _ _ _
  · split
    · exact of_nodes rfl rfl
    · exact withWaveOwner c n _

end

theorem drainFinish (escaped : Option Payload) : Still c (c.drainFinish escaped) := by
  unfold Config.drainFinish
  cases escaped <;> exact of_nodes rfl rfl

theorem drainBoundary : Still c c.drainBoundary := by
  unfold Config.drainBoundary
  split_ifs <;> exact of_nodes rfl rfl

theorem drainLoop (blocked : Nat) (escaped : Option Payload) :
    Still c (c.drainLoop blocked escaped) := by
  unfold Config.drainLoop
  split
  · exact drainFinish c escaped
  · dsimp only
    split_ifs
    · exact of_nodes rfl rfl
    · refine trans ?_ (drainFinish _ escaped)
      exact of_nodes rfl rfl
    · exact of_nodes rfl rfl
    · exact of_nodes rfl rfl

theorem closeUncommitted (roots : Bool) : Still c (c.closeUncommitted roots) := by
  unfold Config.closeUncommitted
  dsimp only
  split_ifs <;> exact of_nodes rfl rfl

theorem rollbackDone (roots : Bool) (payload : Option Payload) :
    Still c (c.rollbackDone roots payload) := by
  unfold Config.rollbackDone
  cases payload with
  | none => exact closeUncommitted c roots
  | some p => exact (closeUncommitted c roots).trans (of_nodes rfl rfl)

end Still

/-! ### The steps that are not idle -/

/-- The next step enters the frame. -/
def Entering (c : Config V S) (f : Frame V) : Prop :=
  c.mode = .running ∧ ∃ rest, c.stack = f :: rest

/-- What one step, which leaves an arena of the given size, can do to the slot
    of `n`. -/
inductive SlotStep (c : Config V S) (n : NodeId) (y : Node V S) (size : Nat) : Prop
  | idle (h : y.kernel = (c.nodes n).kernel)
  | received (src : NodeId) (e : SubscriberEntry) (rest : List SubscriberEntry) (box : BoxId)
      (d : Nat) (b : Bool) (i : Nat) (m : Message V)
      (hf : c.Entering (.emit src m (e :: rest))) (hsink : e.sink = .dep n box)
      (hbox : c.boxes box = some i)
      (hi : (c.nodes n).readsDep m = true → (c.nodes n).hasDepIndex i = true)
      (h : y = ((c.nodes n).receive d b i m).1)
  | relayed (hf : c.Entering (.passthroughEmit n)) (v : Option V)
      (h : y = { c.nodes n with dep := ({ (c.nodes n).dep with
        prev := if v.isSome then (c.nodes n).dep.prev.set 0 v else (c.nodes n).dep.prev
        batch := (c.nodes n).dep.batch.set 0 none } : DepState V).clearWaveProjection 0 })
  | started (hf : c.Entering (.runWave n)) (h : y = (c.nodes n).runStarted)
  | rolled (keep : Bool) (h : y = (c.nodes n).runRolled keep)
  | reset (h : y = (c.nodes n).resetWaveFlags)
  | dirtied (hf : c.Entering (.emitDirtyOnce n) ∨ c.Entering (.markDirty n))
      (h : y.kernel = ({ c.nodes n with
        value := { (c.nodes n).value with status := .dirty } } : Node V S).kernel)
  | told (m : Message V) (rest : Wave V) (hf : c.Entering (.downLoop n (m :: rest)))
      (h : y = ((c.nodes n).collectDown m).1)
  | invalidated (hf : c.Entering (.invalidate n)) (h : y = (c.nodes n).invalidated)
  | deactivated (hf : c.Entering (.deactivate n)) (h : y = (c.nodes n).deactivated)
  | activated (hf : c.Entering (.activateIfNeeded n)) (hx : (c.nodes n).aux.activated = false)
      (h : y = { c.nodes n with
        aux := { (c.nodes n).aux with activated := true }
        unsubs := List.replicate (c.nodes n).deps.length none
        idxBoxes := List.replicate (c.nodes n).deps.length none })
  | linked (i : Nat) (d : NodeId) (id : Nat) (box : BoxId)
      (hf : c.Entering (.depSubscribed n i d id box))
      (hi : i < (c.nodes n).unsubs.length ∧ i < (c.nodes n).idxBoxes.length ∧
        i < (c.nodes n).restoredHandshake.length)
      (h : y = { c.nodes n with
        unsubs := (c.nodes n).unsubs.set i (some (d, id))
        idxBoxes := (c.nodes n).idxBoxes.set i (some box)
        restoredHandshake := (c.nodes n).restoredHandshake.set i false })
  | created (spec : NodeSpec V) (hn : n = c.size) (hsize : size = c.size + 1)
      (h : y = freshNode spec)
  | dropped (hfree : ∀ f ∈ c.stack.tail, f.holds n = false)
      (h : y.kernel = ({ c.nodes n with live := false, unsubs := [] } : Node V S).kernel)
  | swapped (newDeps : List NodeId) (f : FnId) (hf : c.Entering (.rewireApply n newDeps f))
      (h : y.kernel = ({ c.nodes n with
        wave := { (c.nodes n).wave with
          inDepMutation := !decide ((c.nodes n).deps = newDeps) } } : Node V S).kernel)
  | removed (oldDeps newDeps : List NodeId) (activated dirty : Bool) (i : Nat)
      (rest : List Nat)
      (hf : c.Entering (.rewireRemove n oldDeps newDeps activated (i :: rest) dirty))
      (h : y = { c.nodes n with
        dep := if (c.nodes n).dep.dirty.getD i false then
          { (c.nodes n).dep with pending := (c.nodes n).dep.pending - 1 } else (c.nodes n).dep
        unsubs := (c.nodes n).unsubs.set i none })
  | assigned (oldDeps newDeps : List NodeId) (activated dirty : Bool)
      (hf : c.Entering (.rewireAssign n oldDeps newDeps activated dirty))
      (h : y = { c.nodes n with
        deps := newDeps
        dep := (c.nodes n).dep.rewired (newToOld oldDeps newDeps)
        unsubs := (newToOld oldDeps newDeps).map fun o =>
          o.elim none fun i => (c.nodes n).unsubs.getD i none
        idxBoxes := (newToOld oldDeps newDeps).map fun o =>
          o.elim none fun i => (c.nodes n).idxBoxes.getD i none
        restoredHandshake := List.replicate newDeps.length false })
  | finished (newDeps : List NodeId) (dirty : Bool)
      (hf : c.Entering (.rewireFinish n newDeps dirty))
      (hx : (c.nodes n).value.terminal = false) (status : Status)
      (hs : status = (c.nodes n).value.status ∨
        status = if (c.nodes n).value.hasData then .settled else .sentinel)
      (h : y.kernel = ({ c.nodes n with
        wave := { (c.nodes n).wave with inDepMutation := false }
        value := { (c.nodes n).value with status := status } } : Node V S).kernel)
  | guarded (rest : List (Frame V)) (hf : c.stack = .depMutationGuard n :: rest)
      (h : y.kernel = ({ c.nodes n with
        wave := { (c.nodes n).wave with inDepMutation := false } } : Node V S).kernel)

variable {c : Config V S} {m : NodeId} {s : Nat}

variable {c' : Config V S}

/-- One slot changes; every other one is idle. -/
theorem SlotStep.of_update {y : Node V S}
    (hn : c'.nodes = Function.update c.nodes m y) (hy : SlotStep c m y s) (n : NodeId) :
    SlotStep c n (c'.nodes n) s := by
  rw [hn]
  by_cases h : n = m
  · subst h
    rw [Function.update_self]
    exact hy
  · rw [Function.update_of_ne h]
    exact .idle rfl

variable {c₀ : Config V S}

variable {msg : Message V}

theorem receiveFromDep_slot (hc : c₀.nodes = c.nodes) {src : NodeId}
    {e : SubscriberEntry} {rest : List SubscriberEntry} {box : BoxId} {i : Nat}
    (hf : c.Entering (.emit src msg (e :: rest))) (hsink : e.sink = .dep m box)
    (hbox : c.boxes box = some i) (n : NodeId) :
    SlotStep c n ((c₀.receiveFromDep m i msg).nodes n) s := by
  have hreg : (c₀.waveRegister m).nodes = c.nodes := by
    unfold waveRegister
    split
    · split_ifs <;> exact hc
    · exact hc
  unfold receiveFromDep
  dsimp only
  split_ifs with hl hi
  · exact .idle (by rw [panic, throw, hreg])
  · refine SlotStep.of_update (m := m) ?_ (.received src e rest box
      (c₀.waveRegister m).currentDeliveryId (c₀.waveRegister m).deliveryInFlight i msg
      hf hsink hbox ?_ rfl) n
    · simp only [push, setNode, hreg]
    · intro hr
      rw [hreg, hr, Bool.true_and, Bool.not_eq_true, Bool.not_eq_false'] at hi
      exact hi
  · exact .idle (by rw [hc])

theorem emit_slot (hc : c₀.nodes = c.nodes) (hb : c₀.boxes = c.boxes) {subs : List SubscriberEntry}
    (hf : c.Entering (.emit m msg subs)) (n : NodeId) :
    SlotStep c n ((c₀.emit m msg subs).nodes n) s := by
  cases subs with
  | nil => exact .idle (by rw [emit, hc])
  | cons e rest =>
    have hboxes : (((c₀.push [.emit m msg rest]).record
        (.delivered m e.id e.sink msg)).boxes) = c.boxes := hb
    simp only [emit, deliver]
    split
    · exact .idle (by rw [push, record, push, hc])
    · rename_i hsink
      split
      · rename_i hbox
        rw [hboxes] at hbox
        refine receiveFromDep_slot ?_ hf hsink hbox n
        exact hc
      · exact .idle (by rw [record, push, hc])

/-- User code performs one operation. -/
theorem perform_slot (hc : c₀.nodes = c.nodes) (hsize : c₀.size = c.size)
    (hstack : ∀ g ∈ c.stack.tail, g ∈ c₀.stack) (cb : Callback V) (o : UserOp V S) (n : NodeId) :
    SlotStep c n ((c₀.perform cb o).nodes n) (c₀.perform cb o).size := by
  have hidle : ∀ (c' : Config V S) {s : Nat}, Still c₀ c' → SlotStep c n (c'.nodes n) s := by
    intro c' s h
    exact .idle (by rw [h.kernel, hc])
  cases perform_cases c₀ cb o with
  | inert h => exact hidle _ (.of_inert h)
  | created spec _ h =>
    rw [h]
    simp only [newNode]
    split_ifs
    · exact .idle (by rw [panic, throw, hc])
    · refine SlotStep.of_update (m := c.size) ?_ (.created spec rfl (by rw [hsize]) rfl) n
      simp only [setNode, hc, hsize]
    · exact .idle (by rw [hc])
  | dropped m _ h =>
    rw [h]
    simp only [dropNode]
    split_ifs with hfree
    · let released : Node V S := { c.nodes m with
        live := false
        unsubs := []
        aux := { (c.nodes m).aux with onDeactivation := [] } }
      have hheld : ∀ f ∈ c.stack.tail, f.holds m = false := by
        intro f hf
        by_contra hholds
        rw [Bool.not_eq_false] at hholds
        have hany : c₀.stack.any (·.holds m) = true :=
          List.any_eq_true.mpr ⟨f, hstack f hf, hholds⟩
        rw [hany, unreferenced, Bool.not_true, Bool.and_false, Bool.and_false] at hfree
        cases hfree
      have hdrop : ∀ s, SlotStep c m released s := fun s => .dropped hheld rfl
      refine SlotStep.of_update ?_ (hdrop _) n
      simp only [push, setNode, hc, released]
    · exact .idle (by rw [hc])
  | rewired m req _ _ h =>
    rw [h]
    exact hidle _ (.of_nodes rfl rfl)
  | deferred m kind _ h =>
    rw [h]
    exact hidle _ (.deferBoundary c₀ m kind _)

variable {f : Frame V} {rest : List (Frame V)}

/-- Entering a frame does one of the listed things to every slot. -/
theorem enter_slot (env : Env V S)
    (hs : c.stack = f :: rest) (hmode : c.mode = .running) (n : NodeId) :
    SlotStep c n (((c.popTo rest).enter env f).nodes n) ((c.popTo rest).enter env f).size := by
  have hidle : ∀ (c' : Config V S) {s : Nat}, Still (c.popTo rest) c' →
      SlotStep c n (c'.nodes n) s := fun c' s h => .idle (h.kernel n)
  have henter : c.Entering f := ⟨hmode, rest, hs⟩
  have hself : ∀ {s : Nat}, SlotStep c n (c.nodes n) s := .idle rfl
  cases hinert : f.entersInert with
  | true => exact hidle _ (.of_inert (enter_inert env _ f hinert))
  | false =>
    cases f with
    | user cb i =>
      simp only [enter, stepUser]
      split
      · exact hself
      · exact hself
      · refine perform_slot (by rfl) (by rfl) ?_ cb _ n
        rw [hs]
        exact fun g hg => List.mem_cons_of_mem _ hg
    | emit m msg subs =>
      have hnodes : (c.popTo rest).nodes = c.nodes := rfl
      exact emit_slot hnodes rfl henter n
    | emitToSubs m msg => exact hself
    | emitDirtyOnce m =>
      simp only [enter, emitDirtyOnce]
      split_ifs
      · exact hself
      · refine SlotStep.of_update rfl ?_ n
        exact .dirtied (Or.inl henter) rfl
    | markDirty m =>
      simp only [enter, markDirty]
      split_ifs
      · refine SlotStep.of_update rfl ?_ n
        exact .dirtied (Or.inr henter) rfl
      · refine SlotStep.of_update rfl ?_ n
        exact .dirtied (Or.inr henter) rfl
    | down m msgs => exact hidle _ (Still.down _ m msgs)
    | deliveryScope m msgs => exact hself
    | downLoop m msgs =>
      cases msgs with
      | nil => exact hself
      | cons msg msgs =>
        simp only [enter, downLoop]
        split
        all_goals exact SlotStep.of_update rfl (.told msg msgs henter rfl) n
    | passthroughEmit m =>
      simp only [enter, passthroughEmit]
      split
      all_goals exact SlotStep.of_update rfl (.relayed henter _ rfl) n
    | runWave m =>
      have hreg : ((c.popTo rest).waveRegister m).nodes = c.nodes := by
        unfold waveRegister
        split
        · split_ifs <;> rfl
        · rfl
      simp only [enter, runWave]
      split_ifs
      · exact .idle (by rw [panic, throw, hreg])
      · split
        · exact .idle (by rw [panic, throw, hreg])
        · refine SlotStep.of_update (m := m) ?_ (.started henter rfl) n
          simp only [push, record, waveSetBlamed]
          split <;> simp only [setNode, hreg]
    | runRoll m undirty => exact SlotStep.of_update rfl (.rolled _ rfl) n
    | invalidate m =>
      simp only [enter, invalidate]
      split_ifs
      · exact SlotStep.of_update rfl (.invalidated henter rfl) n
      · exact hself
    | subscribe m sink => exact hidle _ (Still.subscribe _ m sink)
    | activateIfNeeded m =>
      simp only [enter, activateIfNeeded]
      split_ifs with hact
      · exact hself
      · exact SlotStep.of_update rfl
          (.activated henter (Bool.not_eq_true _ ▸ hact) rfl) n
    | subscribeDep m idx dep => exact hself
    | depSubscribed m idx dep id box =>
      simp only [enter, depSubscribed]
      split_ifs with hi
      · exact SlotStep.of_update rfl (.linked idx dep id box henter hi rfl) n
      · exact hself
    | unsubscribe m id => exact hidle _ (Still.unsubscribe _ m id)
    | deactivate m => exact SlotStep.of_update rfl (.deactivated henter rfl) n
    | externalRewire m req => exact hidle _ (Still.externalRewire _ m req)
    | rewireInner m deps fn allow => exact hidle _ (Still.rewireInner _ m deps fn allow)
    | rewireApply m deps fn =>
      simp only [enter, rewireApply]
      split_ifs with hsame
      · have hsame' : (c.nodes m).deps = deps := hsame
        refine SlotStep.of_update rfl ?_ n
        refine .swapped deps fn henter ?_
        rw [decide_eq_true hsame']
        rfl
      · have hsame' : ¬ (c.nodes m).deps = deps := hsame
        refine SlotStep.of_update rfl ?_ n
        refine .swapped deps fn henter ?_
        rw [decide_eq_false hsame']
        rfl
    | rewireRemove m old new act removed dirty =>
      cases removed with
      | nil => exact hself
      | cons i removed =>
        exact SlotStep.of_update rfl (.removed old new act dirty i removed henter rfl) n
    | rewireAssign m old new act dirty =>
      exact SlotStep.of_update rfl (.assigned old new act dirty henter rfl) n
    | rewireFinish m deps dirty =>
      simp only [enter, rewireFinish]
      by_cases hterm : ((c.popTo rest).nodes m).value.terminal = true
      · rw [if_pos hterm]
        exact hself
      · rw [if_neg hterm]
        have hterm' : (c.nodes m).value.terminal = false := Bool.not_eq_true _ ▸ hterm
        have hkeep : (c.nodes m).value.status = (c.nodes m).value.status ∨
            (c.nodes m).value.status =
              if (c.nodes m).value.hasData then .settled else .sentinel := Or.inl rfl
        split_ifs with hpending hsettle hemitted hdata
        · refine SlotStep.of_update rfl ?_ n
          exact .finished deps dirty henter hterm' _ hkeep rfl
        · refine SlotStep.of_update rfl ?_ n
          exact .finished deps dirty henter hterm' _ hkeep rfl
        · refine SlotStep.of_update rfl ?_ n
          exact .finished deps dirty henter hterm' .settled (Or.inr (if_pos hdata).symm) rfl
        · refine SlotStep.of_update rfl ?_ n
          exact .finished deps dirty henter hterm' .sentinel (Or.inr (if_neg hdata).symm) rfl
        · refine SlotStep.of_update rfl ?_ n
          exact .finished deps dirty henter hterm' _ hkeep rfl
    | depMutationGuard m =>
      simp only [enter, depMutationGuard]
      split_ifs
      · refine SlotStep.of_update rfl ?_ n
        exact .guarded rest hs rfl
      · exact hself
    | settleRewire m => exact hidle _ (Still.settleRewire _ m)
    | drainBoundary => exact hidle _ (Still.drainBoundary _)
    | drainLoop blocked escaped => exact hidle _ (Still.drainLoop _ blocked escaped)
    | taskCatch escaped => exact hself
    | rollbackDone roots payload => exact hidle _ (Still.rollbackDone _ roots payload)
    | _ => cases hinert

/-- A panic that passes a frame does one of the listed things to every slot. -/
theorem unwind_slot (env : Env V S) (hs : c.stack = f :: rest) (p : Payload) (n : NodeId) :
    SlotStep c n (((c.popTo rest).unwind env p f).nodes n)
      ((c.popTo rest).unwind env p f).size := by
  have hidle : ∀ (c' : Config V S) {s : Nat}, Still (c.popTo rest) c' →
      SlotStep c n (c'.nodes n) s := fun c' s h => .idle (h.kernel n)
  have hself : ∀ {s : Nat}, SlotStep c n (c.nodes n) s := .idle rfl
  cases hinert : f.unwindsInert with
  | true => exact hidle _ (.of_inert (unwind_inert env _ p f hinert))
  | false =>
    cases f with
    | waveExit m =>
      -- The nodes the wave touched are reset, whatever the payload is.
      have hreset : ∀ {s : Nat}, SlotStep c n (((c.popTo rest).resetTouched
          (c.popTo rest).touchedNodes).nodes n) s := by
        intro s
        simp only [resetTouched]
        split_ifs
        · exact .reset rfl
        · exact hself
      cases p with
      | hostAbort => exact hreset
      | ordinary msg => exact hreset
    | depMutationGuard m =>
      simp only [unwind, depMutationGuard]
      split_ifs
      · refine SlotStep.of_update rfl ?_ n
        exact .guarded rest hs rfl
      · exact hself
    | taskCatch escaped =>
      cases p with
      | hostAbort => exact hself
      | ordinary msg => exact hself
    | commitDone roots => exact hidle _ (Still.closeUncommitted _ roots)
    | rollbackDone roots payload => exact hidle _ (Still.closeUncommitted _ roots)
    | _ => cases hinert

/-- Every step does one of the listed things to every slot. -/
theorem step_slot (hstep : Step c c') (n : NodeId) :
    SlotStep c n (c'.nodes n) c'.size := by
  rcases hstep with ⟨env, hstep⟩
  rcases step_cases hstep with ⟨f, rest, hs, ⟨hmode, rfl⟩ | ⟨p, hmode, rfl⟩⟩
  · exact enter_slot env hs hmode n
  · exact unwind_slot env hs p n

end Config

end GraphRefly
