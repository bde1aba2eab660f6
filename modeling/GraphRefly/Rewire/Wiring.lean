import GraphRefly.Rewire.Bookkeeping

/-!
# The Wiring of Deps

The callback a node leaves at a dep reads its index from a box. The box is made
when the subscription starts and handed to the node when the subscription is
there; from then on it moves with the dep through every rewire.

Every box belongs to one slot of one node, or to one subscription that is not
there yet. So a rewire that moves the boxes of a node reroutes no other callback.

## Main definitions

* `Frame.isLink`, `Frame.boxOf`: The two halves of a dep subscription.
* `Config.Unlinked`: What starts and ends no dep subscription.
* `Config.WireStep`: What one step does to boxes and dep subscriptions.
* `Config.BoxesOwned`: Every box has one owner.

## Theorems

* `step_wire`: Every step does one of the listed things.
* `step_boxesOwned`: Every step preserves the invariant.
-/

namespace GraphRefly

open List

variable {V S : Type}

/-- A half of a dep subscription. -/
def Frame.isLink : Frame V → Bool
  | .subscribeDep _ _ _ => true
  | .depSubscribed _ _ _ _ _ => true
  | _ => false

/-- The box a subscription that is not there yet will hand to its node. -/
def Frame.boxOf : Frame V → Option BoxId
  | .depSubscribed _ _ _ _ box => some box
  | _ => none

theorem Frame.isLink_of_isPlain {f : Frame V} (h : f.isPlain = true) : f.isLink = false := by
  cases f <;> first | rfl | cases h

theorem Frame.boxOf_of_isLink {f : Frame V} (h : f.isLink = false) : f.boxOf = none := by
  cases f <;> first | rfl | cases h

namespace Config

/-! ### What one step does -/

/-- No dep subscription starts or ends, and the boxes stay. -/
structure Unlinked (c c' : Config V S) : Prop where
  stack : ∃ fs, c'.stack = fs ++ c.stack ∧ ∀ g ∈ fs, g.isLink = false
  boxes : c'.boxes = c.boxes
  nextBox : c'.nextBox = c.nextBox

namespace Unlinked

variable {c c' : Config V S}

theorem of_frames (fs : List (Frame V)) (hs : c'.stack = fs ++ c.stack)
    (hf : ∀ g ∈ fs, g.isLink = false) (hb : c'.boxes = c.boxes) (hx : c'.nextBox = c.nextBox) :
    Unlinked c c' :=
  ⟨⟨fs, hs, hf⟩, hb, hx⟩

theorem of_same (hs : c'.stack = c.stack) (hb : c'.boxes = c.boxes)
    (hx : c'.nextBox = c.nextBox) : Unlinked c c' :=
  of_frames [] hs (fun _ hg => absurd hg not_mem_nil) hb hx

theorem of_plain (h : Plain c c') : Unlinked c c' := by
  rcases h.stack with ⟨fs, hs, hf⟩
  exact of_frames fs hs (fun g hg => Frame.isLink_of_isPlain (hf g hg)) h.boxes h.nextBox

theorem of_silent (h : Silent c c') : Unlinked c c' :=
  of_plain h.plain

theorem trans {c'' : Config V S} (h : Unlinked c c') (h' : Unlinked c' c'') : Unlinked c c'' := by
  rcases h.stack with ⟨fs, hs, hf⟩
  rcases h'.stack with ⟨gs, hs', hg⟩
  refine of_frames (gs ++ fs) (by rw [hs', hs, append_assoc]) ?_
    (h'.boxes.trans h.boxes) (h'.nextBox.trans h.nextBox)
  intro g hmem
  rcases mem_append.mp hmem with hmem | hmem
  · exact hg g hmem
  · exact hf g hmem

variable (c)

theorem deferBoundary (n : NodeId) (kind : TaskKind V) (token : Option Nat) :
    Unlinked c (c.deferBoundary n kind token) :=
  (of_silent (Inert.registerBoundaryRoot c).silent).trans (of_same rfl rfl rfl)

theorem drainFinish (escaped : Option Payload) : Unlinked c (c.drainFinish escaped) := by
  unfold Config.drainFinish
  cases escaped with
  | none => exact of_same rfl rfl rfl
  | some p => exact of_same rfl rfl rfl

theorem closeUncommitted (roots : Bool) : Unlinked c (c.closeUncommitted roots) := by
  unfold Config.closeUncommitted
  dsimp only
  split_ifs
  · exact of_same rfl rfl rfl
  · exact of_same rfl rfl rfl

theorem newNode (spec : NodeSpec V) : Unlinked c (c.newNode spec) := by
  unfold Config.newNode
  split_ifs
  · exact of_same rfl rfl rfl
  · exact of_same rfl rfl rfl
  · exact of_same rfl rfl rfl

theorem dropNode (n : NodeId) (onStack : Bool) : Unlinked c (c.dropNode n onStack) := by
  unfold Config.dropNode
  dsimp only
  split_ifs
  · refine of_frames _ rfl ?_ rfl rfl
    intro g hg
    refine Frame.isLink_of_isPlain (Frame.isPlain_of_isSilent g ?_)
    rcases mem_append.mp hg with hg | hg
    · exact Silent.unsubFrames _ g hg
    · exact Silent.hookFrames _ g hg
  · exact of_same rfl rfl rfl

-- No operation of user code subscribes to a dep.
theorem perform (cb : Callback V) (o : UserOp V S) : Unlinked c (c.perform cb o) := by
  cases perform_cases c cb o with
  | inert h => exact of_silent h.silent
  | created spec _ h => rw [h]; exact newNode c spec
  | dropped n _ h => rw [h]; exact dropNode c n _
  | rewired n req _ _ h =>
    rw [h]
    exact of_frames [.externalRewire n req] rfl (by simp [Frame.isLink]) rfl rfl
  | deferred n kind _ h => rw [h]; exact deferBoundary c n kind _

theorem stepUser (env : Env V S) (cb : Callback V) (i : Nat) :
    Unlinked c (c.stepUser env cb i) := by
  unfold Config.stepUser
  split
  · exact of_same rfl rfl rfl
  · exact of_same rfl rfl rfl
  · rename_i o _
    have hpush : Unlinked c (c.push [.user cb (i + 1)]) := by
      refine of_frames [.user cb (i + 1)] rfl ?_ rfl rfl
      intro g hg
      rw [mem_singleton.mp hg]
      rfl
    exact hpush.trans (perform _ cb o)

theorem drainLoop (blocked : Nat) (escaped : Option Payload) :
    Unlinked c (c.drainLoop blocked escaped) := by
  have hloop : ∀ (c' : Config V S) (k : Nat), Unlinked c c' →
      Unlinked c (c'.push [.drainLoop k escaped]) := by
    intro c' k h
    refine h.trans (of_frames [.drainLoop k escaped] rfl ?_ rfl rfl)
    intro g hg
    rw [mem_singleton.mp hg]
    rfl
  unfold Config.drainLoop
  split
  · exact drainFinish c escaped
  · rename_i t ts _
    have hpop : Unlinked c { c with boundary := ts } := of_same rfl rfl rfl
    have hback : Unlinked c { c with boundary := ts ++ [t] } := of_same rfl rfl rfl
    dsimp only
    split_ifs
    · exact hloop _ 0 hpop
    · exact hback.trans (drainFinish _ escaped)
    · exact hloop _ _ hback
    · refine of_frames (c.taskFrames t ++ [.taskCatch escaped]) rfl ?_ rfl rfl
      intro g hg
      rcases mem_append.mp hg with hg | hg
      · cases taskFrames_forms hg <;> rfl
      · rw [mem_singleton.mp hg]
        rfl

theorem externalRewire (n : NodeId) (req : RewireRequest) :
    Unlinked c (c.externalRewire n req) := by
  unfold Config.externalRewire
  split
  · exact deferBoundary c _ _ _
  · refine of_frames [.rewireInner n _ _ false] rfl ?_ rfl rfl
    intro g hg
    rw [mem_singleton.mp hg]
    rfl

theorem rewireInner (n : NodeId) (newDeps : List NodeId) (f : FnId) (allow : Bool) :
    Unlinked c (c.rewireInner n newDeps f allow) := by
  unfold Config.rewireInner
  dsimp only
  split
  · exact deferBoundary c _ _ _
  · split
    · exact of_same rfl rfl rfl
    · unfold Config.withWaveOwner
      split_ifs
      · refine of_frames [_] rfl ?_ rfl rfl
        intro g hg
        rw [mem_singleton.mp hg]
        rfl
      · refine of_frames [_, .waveExit n] rfl ?_ rfl rfl
        intro g hg
        simp only [mem_cons, not_mem_nil, or_false] at hg
        rcases hg with rfl | rfl <;> rfl

theorem rewireApply (n : NodeId) (newDeps : List NodeId) (f : FnId) :
    Unlinked c (c.rewireApply n newDeps f) := by
  unfold Config.rewireApply
  dsimp only
  split_ifs
  · exact of_same rfl rfl rfl
  · refine of_frames [_, .depMutationGuard n] rfl ?_ rfl rfl
    intro g hg
    simp only [mem_cons, not_mem_nil, or_false] at hg
    rcases hg with rfl | rfl <;> rfl

end Unlinked

/-- What one step does to the boxes and to the frames of dep subscriptions. -/
inductive WireStep (c c' : Config V S) : Prop
  | aside (f : Frame V) (rest : List (Frame V)) (hs : c.stack = f :: rest)
      (hf : c.mode = .running → ∀ n j d, f ≠ .subscribeDep n j d)
      (h : Unlinked (c.popTo rest) c')
  | attached (n : NodeId) (rest : List (Frame V)) (hs : c.stack = .activateIfNeeded n :: rest)
      (hidle : (c.nodes n).aux.activated = false)
      (hs' : c'.stack = ((c.nodes n).deps.mapIdx (fun i d => .subscribeDep n i d) ++
        [.activateRun n]) ++ rest)
      (hb : c'.boxes = c.boxes) (hx : c'.nextBox = c.nextBox)
  | opened (n : NodeId) (j : Nat) (d : NodeId) (rest : List (Frame V))
      (hs : c.stack = .subscribeDep n j d :: rest) (hn : c'.nodes = c.nodes)
      (hs' : c'.stack = .subscribe d (.dep n c.nextBox) ::
        .depSubscribed n j d (c.nodes d).aux.nextSubId c.nextBox :: rest)
      (hb : c'.boxes = Function.update c.boxes c.nextBox (some j))
      (hx : c'.nextBox = c.nextBox + 1)
  | removed (n : NodeId) (oldDeps newDeps : List NodeId) (activated dirty : Bool) (i : Nat)
      (removed : List Nat) (rest fs : List (Frame V))
      (hs : c.stack = .rewireRemove n oldDeps newDeps activated (i :: removed) dirty :: rest)
      (hs' : c'.stack = fs ++ rest) (hf : ∀ g ∈ fs, g.isLink = false)
      (hb : c'.boxes = match (c.nodes n).idxBoxes.getD i none with
        | some b => Function.update c.boxes b none
        | none => c.boxes)
      (hx : c'.nextBox = c.nextBox)
  | assigned (n : NodeId) (oldDeps newDeps : List NodeId) (activated dirty : Bool)
      (rest : List (Frame V)) (hmode : c.mode = .running)
      (hs : c.stack = .rewireAssign n oldDeps newDeps activated dirty :: rest)
      (hs' : c'.stack = (if activated then
        (addedDeps oldDeps newDeps).map (fun p => .subscribeDep n p.1 p.2) else []) ++
          [.notifyTopology n oldDeps newDeps, .rewireFinish n newDeps dirty] ++ rest)
      (hb : c'.boxes = rerouteBoxes c.boxes (c.nodes n).idxBoxes
        ((newToOld oldDeps newDeps).mapIdx fun j o => (j, o)))
      (hx : c'.nextBox = c.nextBox)

variable {c : Config V S} {f : Frame V} {rest : List (Frame V)}

theorem enter_wire (env : Env V S) (hs : c.stack = f :: rest) (hmode : c.mode = .running) :
    WireStep c ((c.popTo rest).enter env f) := by
  cases hp : f.entersPlain with
  | true =>
    refine .aside f rest hs ?_ (.of_plain (enter_plain env _ f hp))
    intro _ n j d hf
    rw [hf] at hp
    cases hp
  | false =>
    have haside : (∀ n j d, f ≠ .subscribeDep n j d) →
        Unlinked (c.popTo rest) ((c.popTo rest).enter env f) →
        WireStep c ((c.popTo rest).enter env f) := fun hf h => .aside f rest hs (fun _ => hf) h
    cases f with
    | user cb i => exact haside (by simp) (.stepUser _ env cb i)
    | drainBoundary =>
      refine haside (by simp) ?_
      simp only [enter, drainBoundary]
      split_ifs
      · exact .of_same rfl rfl rfl
      · exact .of_frames [.drainLoop 0 none] rfl (by simp [Frame.isLink]) rfl rfl
    | drainLoop blocked escaped => exact haside (by simp) (.drainLoop _ blocked escaped)
    | taskCatch escaped =>
      exact haside (by simp)
        (.of_frames [.drainLoop 0 escaped] rfl (by simp [Frame.isLink]) rfl rfl)
    | rollbackDone roots payload =>
      refine haside (by simp) ((Unlinked.closeUncommitted _ roots).trans ?_)
      simp only [enter, rollbackDone]
      cases payload with
      | none => exact .of_same rfl rfl rfl
      | some p => exact .of_same rfl rfl rfl
    | externalRewire n req => exact haside (by simp) (.externalRewire _ n req)
    | rewireInner n deps fn allow => exact haside (by simp) (.rewireInner _ n deps fn allow)
    | rewireApply n deps fn => exact haside (by simp) (.rewireApply _ n deps fn)
    | rewireRemove n old new act removed dirty =>
      cases removed with
      | nil =>
        exact haside (by simp) (.of_frames [_] rfl (by simp [Frame.isLink]) rfl rfl)
      | cons i removed =>
        refine .removed n old new act dirty i removed rest _ hs rfl ?_ rfl rfl
        intro g hg
        rcases mem_append.mp hg with hg | hg
        · split at hg
          · rw [mem_singleton.mp hg]
            rfl
          · exact absurd hg not_mem_nil
        · rw [mem_singleton.mp hg]
          rfl
    | rewireAssign n old new act dirty =>
      exact .assigned n old new act dirty rest hmode hs rfl rfl rfl
    | activateIfNeeded n =>
      cases ha : (c.nodes n).aux.activated with
      | true =>
        refine haside (by simp) ?_
        simp only [enter, activateIfNeeded, popTo, ha, ↓reduceIte]
        exact .of_same rfl rfl rfl
      | false =>
        refine .attached n rest hs ha ?_ ?_ ?_ <;>
          simp only [enter, activateIfNeeded, popTo, ha, Bool.false_eq_true, ↓reduceIte,
            push, setNode]
    | subscribeDep n j d => exact .opened n j d rest hs rfl rfl rfl rfl
    | _ => cases hp

theorem unwind_wire (env : Env V S)
    (hs : c.stack = f :: rest) {p : Payload} (hmode : c.mode = .unwinding p) :
    WireStep c ((c.popTo rest).unwind env p f) := by
  refine .aside f rest hs ?_ ?_
  · intro hrun
    rw [hmode] at hrun
    cases hrun
  · rcases unwind_cases env (c.popTo rest) p f with h | ⟨rfl, n, rfl⟩ | ⟨escaped, rfl⟩ | ⟨roots, h⟩
    · exact .of_silent h
    · exact .of_same rfl rfl rfl
    · simp only [unwind]
      split
      · exact .of_same rfl rfl rfl
      · exact .of_frames [_] rfl (by simp [Frame.isLink]) rfl rfl
    · rw [h]
      exact .closeUncommitted _ roots

variable {c' : Config V S}

/-- Every step does one of the listed things to boxes and dep subscriptions. -/
theorem step_wire (hstep : Step c c') : WireStep c c' := by
  rcases hstep with ⟨env, hstep⟩
  rcases step_cases hstep with ⟨f, rest, hs, ⟨hmode, rfl⟩ | ⟨p, hmode, rfl⟩⟩
  · exact enter_wire env hs hmode
  · exact unwind_wire env hs hmode

/-! ### Who owns a box -/

/-- Position `i` of node `n` owns the box. -/
def Owns (c : Config V S) (n : NodeId) (i : Nat) (b : BoxId) : Prop :=
  (c.nodes n).idxBoxes[i]? = some (some b)

/-- The boxes of the subscriptions that are not there yet. -/
def handed (c : Config V S) : List BoxId :=
  c.stack.filterMap Frame.boxOf

/-- Every box has one owner. -/
structure BoxesOwned (c : Config V S) : Prop where
  made : ∀ n i b, c.Owns n i b → b < c.nextBox
  single : ∀ n i m j b, c.Owns n i b → c.Owns m j b → n = m ∧ i = j
  fresh : ∀ b ∈ c.handed, b < c.nextBox ∧ ∀ n i, ¬ c.Owns n i b
  apart : c.handed.Nodup

variable {n : NodeId}

/-- Boxes leave a slot, move inside it when its rewire assigns, or come from the
    subscription that is there now. -/
theorem SlotStep.idxBoxes {y : Node V S} {s : Nat} (h : SlotStep c n y s) :
    y.idxBoxes = (c.nodes n).idxBoxes ∨ (∀ (i : Nat) (b : BoxId), y.idxBoxes[i]? ≠ some (some b)) ∨
      (∃ i d id box, c.Entering (.depSubscribed n i d id box) ∧
        y.idxBoxes = (c.nodes n).idxBoxes.set i (some box)) ∨
      (∃ oldDeps newDeps activated dirty,
        c.Entering (.rewireAssign n oldDeps newDeps activated dirty) ∧
        y.idxBoxes = (newToOld oldDeps newDeps).map fun o =>
          o.elim none fun i => (c.nodes n).idxBoxes.getD i none) := by
  have hnone : ∀ (k i : Nat) (b : BoxId),
      (List.replicate k (none : Option BoxId))[i]? ≠ some (some b) := by
    intro k i b hb
    rw [List.getElem?_replicate] at hb
    split_ifs at hb
    cases hb
  cases h with
  | idle h => exact Or.inl (Node.idxBoxes_of_kernel h)
  | received _ _ _ _ d b i m _ _ _ _ h =>
    rw [h]
    exact Or.inl ((c.nodes n).receive_edges d b i m).2.2.1
  | relayed _ _ h => exact Or.inl (by rw [h])
  | started _ h => exact Or.inl (by rw [h]; rfl)
  | rolled keep h => exact Or.inl (by rw [h]; rfl)
  | reset h => exact Or.inl (by rw [h]; rfl)
  | dirtied _ h => exact Or.inl ((Node.idxBoxes_of_kernel h).trans rfl)
  | told m _ _ h =>
    rw [h]
    exact Or.inl ((Node.idxBoxes_of_kernel ((c.nodes n).collectDown_dep m)).trans rfl)
  | invalidated _ h => exact Or.inl (by rw [h]; rfl)
  | deactivated _ h =>
    refine Or.inr (Or.inl ?_)
    rw [h]
    exact hnone 0
  | activated _ _ h =>
    refine Or.inr (Or.inl ?_)
    rw [h]
    exact hnone _
  | linked i d id box hf _ h => exact Or.inr (Or.inr (Or.inl ⟨i, d, id, box, hf, by rw [h]⟩))
  | created spec _ _ h =>
    refine Or.inr (Or.inl ?_)
    rw [h]
    exact hnone _
  | dropped _ h => exact Or.inl ((Node.idxBoxes_of_kernel h).trans rfl)
  | swapped _ _ _ h => exact Or.inl ((Node.idxBoxes_of_kernel h).trans rfl)
  | removed _ _ _ _ _ _ _ h => exact Or.inl (by rw [h])
  | assigned old new act dirty hf h =>
    exact Or.inr (Or.inr (Or.inr ⟨old, new, act, dirty, hf, by rw [h]⟩))
  | finished _ _ _ _ _ _ h => exact Or.inl ((Node.idxBoxes_of_kernel h).trans rfl)
  | guarded _ _ h => exact Or.inl ((Node.idxBoxes_of_kernel h).trans rfl)

variable {b : BoxId}

theorem getElem?_of_getD {l : List (Option BoxId)} {i : Nat}
    (h : l.getD i none = some b) : l[i]? = some (some b) := by
  rw [getD_eq_getElem?_getD] at h
  cases hl : l[i]? with
  | none =>
    rw [hl] at h
    cases h
  | some o =>
    rw [hl] at h
    exact congrArg some h

variable {j : Nat}

/-- A box a node owns after a step is one it owned before, perhaps at another
    position, or the one that was handed to it. -/
theorem step_owns (hstep : Step c c') (h : c'.Owns n j b) :
    (∃ i, c.Owns n i b) ∨ ∃ d id, c.Entering (.depSubscribed n j d id b) := by
  unfold Owns at h ⊢
  rcases (step_slot hstep n).idxBoxes with heq | hnone | ⟨i, d, id, box, hf, heq⟩ |
    ⟨old, new, act, dirty, hf, heq⟩
  · rw [heq] at h
    exact Or.inl ⟨j, h⟩
  · exact absurd h (hnone j b)
  · rw [heq, List.getElem?_set] at h
    split_ifs at h with hij hi
    · rw [Option.some.injEq, Option.some.injEq] at h
      subst hij
      subst h
      exact Or.inr ⟨d, id, hf⟩
    · exact Or.inl ⟨j, h⟩
  · rw [heq, List.getElem?_map] at h
    rcases Option.map_eq_some_iff.mp h with ⟨o, _, ho⟩
    cases o with
    | none => cases ho
    | some i => exact Or.inl ⟨i, getElem?_of_getD ho⟩

/-- Two positions of one node share no box after a step if none did before. -/
theorem step_owns_single (hstep : Step c c') (hstaged : c.Staged)
    (h : c.BoxesOwned) {k : Nat} (hj : c'.Owns n j b) (hk : c'.Owns n k b) : j = k := by
  unfold Owns at hj hk
  rcases (step_slot hstep n).idxBoxes with heq | hnone | ⟨i, d, id, box, hf, heq⟩ |
    ⟨old, new, act, dirty, hf, heq⟩
  · rw [heq] at hj hk
    exact (h.single n j n k b hj hk).2
  · exact absurd hj (hnone j b)
  · -- The box that is handed over was owned by nobody.
    have hfresh : ∀ l, ¬ c.Owns n l box := by
      rcases hf with ⟨_, rest, hs⟩
      refine (h.fresh box ?_).2 n
      rw [handed, hs]
      exact mem_cons_self
    rw [heq, List.getElem?_set] at hj hk
    split_ifs at hj hk with hij hi hik hik
    · exact hij.symm.trans hik
    · cases hj
      exact absurd hk (hfresh k)
    · cases hk
      exact absurd hj (hfresh j)
    · exact (h.single n j n k b hj hk).2
  · -- No old position is kept twice.
    have hnew : new.Nodup := by
      rcases hf with ⟨_, rest, hs⟩
      have htop : (.rewireAssign n old new act dirty : Frame V).stage n =
          some (.assign old new act dirty) := by rw [Frame.stage, if_pos rfl]
      have hflag := (hstaged.stages n).flagged _ (by rw [stages_cons hs htop]; rfl) (by simp)
      exact hflag.2.2
    rw [heq, List.getElem?_map] at hj hk
    rcases Option.map_eq_some_iff.mp hj with ⟨o, hoj, ho⟩
    rcases Option.map_eq_some_iff.mp hk with ⟨o', hok, ho'⟩
    cases o with
    | none => cases ho
    | some i =>
      cases o' with
      | none => cases ho'
      | some i' =>
        have hii := (h.single n i n i' b (getElem?_of_getD ho) (getElem?_of_getD ho')).2
        subst hii
        exact keeps_injective hnew hoj hok

theorem mem_handed_of_below
    (hs : c.stack = f :: rest) (hb : b ∈ rest.filterMap Frame.boxOf) : b ∈ c.handed := by
  rw [handed, hs, filterMap_cons]
  split
  · exact hb
  · exact mem_cons_of_mem _ hb

/-- The boxes that wait to be handed over, after a step. -/
theorem WireStep.handed (h : WireStep c c') :
    ∃ f rest, c.stack = f :: rest ∧
      ((c'.handed = rest.filterMap Frame.boxOf ∧ c'.nextBox = c.nextBox) ∨
        (c'.handed = c.nextBox :: rest.filterMap Frame.boxOf ∧ c'.nextBox = c.nextBox + 1 ∧
          c'.nodes = c.nodes)) := by
  have hpush : ∀ (fs rest : List (Frame V)), (∀ g ∈ fs, g.boxOf = none) →
      (fs ++ rest).filterMap Frame.boxOf = rest.filterMap Frame.boxOf := by
    intro fs rest hf
    rw [filterMap_append, filterMap_eq_nil_iff.mpr hf, nil_append]
  cases h with
  | aside f rest hs hf h =>
    rcases h.stack with ⟨fs, hs', hlink⟩
    refine ⟨f, rest, hs, Or.inl ⟨?_, h.nextBox⟩⟩
    rw [Config.handed, hs']
    exact hpush fs rest fun g hg => Frame.boxOf_of_isLink (hlink g hg)
  | attached n rest hs hidle hs' hb hx =>
    refine ⟨_, rest, hs, Or.inl ⟨?_, hx⟩⟩
    rw [Config.handed, hs']
    refine hpush _ rest ?_
    intro g hg
    rcases mem_append.mp hg with hg | hg
    · rcases mem_mapIdx.mp hg with ⟨i, _, rfl⟩
      rfl
    · rw [mem_singleton.mp hg]
      rfl
  | opened n j d rest hs hn hs' hb hx =>
    refine ⟨_, rest, hs, Or.inr ⟨?_, hx, hn⟩⟩
    rw [Config.handed, hs']
    rfl
  | removed n old new act dirty i removed rest fs hs hs' hf hb hx =>
    refine ⟨_, rest, hs, Or.inl ⟨?_, hx⟩⟩
    rw [Config.handed, hs']
    exact hpush fs rest fun g hg => Frame.boxOf_of_isLink (hf g hg)
  | assigned n old new act dirty rest hmode hs hs' hb hx =>
    refine ⟨_, rest, hs, Or.inl ⟨?_, hx⟩⟩
    rw [Config.handed, hs']
    refine hpush _ rest ?_
    intro g hg
    rcases mem_append.mp hg with hg | hg
    · split at hg
      · rcases mem_map.mp hg with ⟨p, _, rfl⟩
        rfl
      · exact absurd hg not_mem_nil
    · simp only [mem_cons, not_mem_nil, or_false] at hg
      rcases hg with rfl | rfl <;> rfl

/-- Every step keeps one owner for every box. -/
theorem step_boxesOwned (hstep : Step c c') (hstaged : c.Staged)
    (h : c.BoxesOwned) : c'.BoxesOwned := by
  rcases (step_wire hstep).handed with ⟨f, rest, hs, hnext⟩
  have hbelow : ∀ b ∈ rest.filterMap Frame.boxOf, b ∈ c.handed :=
    fun b hb => mem_handed_of_below hs hb
  -- The box of a subscription below is not the one that is handed over now.
  have hother : ∀ b ∈ rest.filterMap Frame.boxOf, ∀ n j d id,
      ¬ c.Entering (.depSubscribed n j d id b) := by
    rintro b hb n j d id ⟨_, rest', hs'⟩
    rw [hs] at hs'
    cases hs'
    have hapart := h.apart
    rw [handed, hs] at hapart
    exact (nodup_cons.mp hapart).1 hb
  have hmade : ∀ n i b, c'.Owns n i b → b < c.nextBox := by
    intro n i b hown
    rcases step_owns hstep hown with ⟨i', hown⟩ | ⟨d, id, _, rest', hs'⟩
    · exact h.made n i' b hown
    · refine (h.fresh b ?_).1
      rw [handed, hs']
      exact mem_cons_self
  have hfresh : ∀ b ∈ rest.filterMap Frame.boxOf, ∀ n i, ¬ c'.Owns n i b := by
    intro b hb n i hown
    rcases step_owns hstep hown with ⟨i', hown⟩ | ⟨d, id, hf⟩
    · exact (h.fresh b (hbelow b hb)).2 n i' hown
    · exact hother b hb n i d id hf
  have hapart : (rest.filterMap Frame.boxOf).Nodup := by
    have := h.apart
    rw [handed, hs, filterMap_cons] at this
    split at this
    · exact this
    · exact (nodup_cons.mp this).2
  have hsingle : ∀ n i m j b, c'.Owns n i b → c'.Owns m j b → n = m ∧ i = j := by
    intro n i m j b hi hj
    have hnm : n = m := by
      rcases step_owns hstep hi with ⟨i', hi'⟩ | ⟨d, id, hf⟩
      · rcases step_owns hstep hj with ⟨j', hj'⟩ | ⟨d, id, _, rest', hs'⟩
        · exact (h.single n i' m j' b hi' hj').1
        · exact absurd hi' ((h.fresh b (by rw [handed, hs']; exact mem_cons_self)).2 n i')
      · rcases step_owns hstep hj with ⟨j', hj'⟩ | ⟨d', id', _, rest', hs'⟩
        · rcases hf with ⟨_, rest', hs'⟩
          exact absurd hj' ((h.fresh b (by rw [handed, hs']; exact mem_cons_self)).2 m j')
        · rcases hf with ⟨_, rest'', hs''⟩
          rw [hs'] at hs''
          cases hs''
          rfl
    subst hnm
    exact ⟨rfl, step_owns_single hstep hstaged h hi hj⟩
  rcases hnext with ⟨hh, hx⟩ | ⟨hh, hx, hn⟩
  · refine ⟨?_, hsingle, ?_, by rw [hh]; exact hapart⟩
    · rw [hx]
      exact hmade
    · rw [hh, hx]
      exact fun b hb => ⟨(h.fresh b (hbelow b hb)).1, hfresh b hb⟩
  · refine ⟨?_, hsingle, ?_, ?_⟩
    · intro n i b hown
      rw [hx]
      exact Nat.lt_succ_of_lt (hmade n i b hown)
    · rw [hh, hx]
      intro b hb
      rcases mem_cons.mp hb with rfl | hb
      · exact ⟨Nat.lt_succ_self _, fun n i hown => Nat.lt_irrefl _ (hmade n i _ hown)⟩
      · exact ⟨Nat.lt_succ_of_lt (h.fresh b (hbelow b hb)).1, hfresh b hb⟩
    · rw [hh, nodup_cons]
      exact ⟨fun hb => Nat.lt_irrefl _ (h.fresh _ (hbelow _ hb)).1, hapart⟩

theorem initial_boxesOwned : (initial : Config V S).BoxesOwned where
  made := by
    intro n i b h
    cases h
  single := by
    intro n i m j b h
    cases h
  fresh := by
    intro b hb
    cases hb
  apart := nodup_nil

/-! ### What a box holds -/

section Reroute

variable {idxBoxes : List (Option BoxId)} {boxes : BoxId → Option Nat} {j : Nat} {o : Option Nat}
  {l : List (Nat × Option Nat)} {b : BoxId}

theorem rerouteBoxes_cons_some (h : (o.bind fun i => idxBoxes.getD i none) = some b) :
    rerouteBoxes boxes idxBoxes ((j, o) :: l) =
      rerouteBoxes (Function.update boxes b (some j)) idxBoxes l := by
  rw [rerouteBoxes, h]

theorem rerouteBoxes_cons_none (h : (o.bind fun i => idxBoxes.getD i none) = none) :
    rerouteBoxes boxes idxBoxes ((j, o) :: l) = rerouteBoxes boxes idxBoxes l := by
  rw [rerouteBoxes, h]

end Reroute

/-- Rerouting leaves a box alone that is none of those it moves. -/
theorem rerouteBoxes_of_ne {idxBoxes : List (Option BoxId)} :
    ∀ {l : List (Nat × Option Nat)} {boxes : BoxId → Option Nat},
      (∀ p ∈ l, ∀ i, p.2 = some i → idxBoxes.getD i none ≠ some b) →
      rerouteBoxes boxes idxBoxes l b = boxes b := by
  intro l
  induction l with
  | nil =>
    intro boxes _
    rfl
  | cons p rest ih =>
    intro boxes h
    rcases p with ⟨j, o⟩
    have hrest : ∀ p ∈ rest, ∀ i, p.2 = some i → idxBoxes.getD i none ≠ some b :=
      fun p hp => h p (mem_cons_of_mem _ hp)
    cases hb : o.bind fun i => idxBoxes.getD i none with
    | none => rw [rerouteBoxes_cons_none hb, ih hrest]
    | some b' =>
      rcases Option.bind_eq_some_iff.mp hb with ⟨i, hi, hbi⟩
      have hne : b ≠ b' := by
        rintro rfl
        exact h (j, o) mem_cons_self i hi hbi
      rw [rerouteBoxes_cons_some hb, ih hrest, Function.update_of_ne hne]

/-- A box that only moves to `j` holds `j` in the end. -/
theorem rerouteBoxes_eq {idxBoxes : List (Option BoxId)} :
    ∀ {l : List (Nat × Option Nat)} {boxes : BoxId → Option Nat},
      (∀ p ∈ l, ∀ i, p.2 = some i → idxBoxes.getD i none = some b → p.1 = j) →
      (boxes b = some j ∨ ∃ i, (j, some i) ∈ l ∧ idxBoxes.getD i none = some b) →
      rerouteBoxes boxes idxBoxes l b = some j := by
  intro l
  induction l with
  | nil =>
    rintro boxes _ (h | ⟨i, hi, _⟩)
    · exact h
    · exact absurd hi not_mem_nil
  | cons p rest ih =>
    intro boxes honly h
    rcases p with ⟨k, o⟩
    have hrest : ∀ p ∈ rest, ∀ i, p.2 = some i → idxBoxes.getD i none = some b → p.1 = j :=
      fun p hp => honly p (mem_cons_of_mem _ hp)
    cases hb : o.bind fun i => idxBoxes.getD i none with
    | none =>
      rw [rerouteBoxes_cons_none hb]
      refine ih hrest (h.imp_right ?_)
      rintro ⟨i', hi', hbi'⟩
      rcases mem_cons.mp hi' with heq | hmem
      · cases heq
        rw [Option.bind_some, hbi'] at hb
        cases hb
      · exact ⟨i', hmem, hbi'⟩
    | some b' =>
      rcases Option.bind_eq_some_iff.mp hb with ⟨i, hi, hbi⟩
      rw [rerouteBoxes_cons_some hb]
      refine ih hrest ?_
      by_cases hbb : b = b'
      · -- This is the box; it now holds `j`.
        subst hbb
        have hkj := honly (k, o) mem_cons_self i hi hbi
        subst hkj
        exact Or.inl (Function.update_self _ _ _)
      · rcases h with h | ⟨i', hi', hbi'⟩
        · exact Or.inl (by rw [Function.update_of_ne hbb, h])
        · rcases mem_cons.mp hi' with heq | hmem
          · cases heq
            cases hi
            exact absurd (Option.some.inj (hbi'.symm.trans hbi)) hbb
          · exact Or.inr ⟨i', hmem, hbi'⟩

/-- The top frame drains the deps of `n` or assigns them. -/
def Draining (c : Config V S) (n : NodeId) : Prop :=
  ∃ f rest, c.stack = f :: rest ∧ f.isDraining = true ∧ f.rewiringNode = some n

/-- A step keeps what a box holds unless its owner drains or assigns. -/
theorem WireStep.box (h : WireStep c c') (hb : b < c.nextBox)
    (hother : ∀ n, c.Draining n → ∀ i, ¬ c.Owns n i b) : c'.boxes b = c.boxes b := by
  have hgetD : ∀ n i, c.Draining n → (c.nodes n).idxBoxes.getD i none ≠ some b :=
    fun n i hn hi => hother n hn i (getElem?_of_getD hi)
  cases h with
  | aside f rest hs hf h => rw [h.boxes, popTo]
  | attached n rest hs hidle hs' hboxes hx => rw [hboxes]
  | opened n j d rest hs hn hs' hboxes hx =>
    rw [hboxes, Function.update_of_ne (Nat.ne_of_lt hb)]
  | removed n old new act dirty i removed rest fs hs hs' hf hboxes hx =>
    rw [hboxes]
    split
    · rename_i b' hb'
      have hne : b ≠ b' := by
        rintro rfl
        exact hgetD n i ⟨_, _, hs, rfl, rfl⟩ hb'
      rw [Function.update_of_ne hne]
    · rfl
  | assigned n old new act dirty rest hmode hs hs' hboxes hx =>
    rw [hboxes]
    exact rerouteBoxes_of_ne fun p _ i _ => hgetD n i ⟨_, _, hs, rfl, rfl⟩

/-- The boxes are never used up. -/
theorem WireStep.nextBox_le (h : WireStep c c') :
    c.nextBox ≤ c'.nextBox := by
  rcases h.handed with ⟨f, rest, hs, ⟨_, hx⟩ | ⟨_, hx, _⟩⟩
  · rw [hx]
  · rw [hx]
    exact Nat.le_succ _

/-- A box that nobody owns or will own. -/
def Spare (c : Config V S) (b : BoxId) : Prop :=
  b < c.nextBox ∧ b ∉ c.handed ∧ ∀ n i, ¬ c.Owns n i b

/-- A spare box stays one, and what it holds stays. -/
theorem step_spare (hstep : Step c c') (h : c.Spare b) :
    c'.Spare b ∧ c'.boxes b = c.boxes b := by
  have hwire := step_wire hstep
  refine ⟨⟨Nat.lt_of_lt_of_le h.1 hwire.nextBox_le, ?_, ?_⟩,
    hwire.box h.1 fun n _ i => h.2.2 n i⟩
  · intro hb
    rcases hwire.handed with ⟨f, rest, hs, ⟨hh, _⟩ | ⟨hh, _, _⟩⟩
    · rw [hh] at hb
      exact h.2.1 (mem_handed_of_below hs hb)
    · rw [hh] at hb
      rcases mem_cons.mp hb with rfl | hb
      · exact Nat.lt_irrefl _ h.1
      · exact h.2.1 (mem_handed_of_below hs hb)
  · intro n i hown
    rcases step_owns hstep hown with ⟨i', hown⟩ | ⟨d, id, _, rest, hs⟩
    · exact h.2.2 n i' hown
    · refine h.2.1 ?_
      rw [handed, hs]
      exact mem_cons_self

end Config

end GraphRefly
