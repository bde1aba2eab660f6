import GraphRefly.Rewire.Wiring

/-!
# What a Rewire Keeps

A rewire drains the removed deps one by one, moves the records of the kept deps
to their new positions and subscribes to the added ones. User code runs in
between: the cleanup hooks of the removed deps, the fns of the added ones, the
topology observer.

The rewire asks only once whether the node is active. If nobody activates or
deactivates the node in between, every kept dep keeps its record, its
subscription and its box, every removed dep is released once, and every added
dep is subscribed once. Otherwise it goes wrong: the subscriptions of a node that
was deactivated are gone, and it subscribes to the added deps all the same.

## Main definitions

* `DepSlot`, `DepState.slot`: Everything the arrays hold of one dep.
* `RewireLog`: What a rewire has done so far.
* `Config.MutationStep`: A step between the start of a rewire and its end.
* `Config.Steady`: The step neither activates nor deactivates the node.
* `RewireKept`: What a rewire should leave.

## Theorems

* `rewire_keeps_deps`: What it leaves if the node stays as it is.
* `deactivated_in_rewire`: A hook that deactivates the node.
-/

namespace GraphRefly

open List

variable {V S : Type}

/-! ### The record of one dep -/

/-- Everything the arrays hold of one dep. -/
structure DepSlot (V : Type) where
  batch : Option (List V) := none
  batchWaves : List (List (WaveData V)) := []
  batchWaveId : Option Nat := none
  prev : Option V := none
  hasData : Bool := false
  dirty : Bool := false
  tier : Nat := 0
  terminal : Option DepTerminal := none
  terminalWave : Option DepTerminal := none

namespace DepState

/-- The record of the dep at position `i`. -/
def slot (d : DepState V) (i : Nat) : DepSlot V where
  batch := d.batch.getD i none
  batchWaves := d.batchWaves.getD i []
  batchWaveId := d.batchWaveId.getD i none
  prev := d.prev.getD i none
  hasData := d.hasData.getD i false
  dirty := d.dirty.getD i false
  tier := d.tier.getD i 0
  terminal := d.terminal.getD i none
  terminalWave := d.terminalWave.getD i none

variable {oldDeps newDeps : List NodeId} {j : Nat}

variable {i : Nat}

/-- A list that is rebuilt by positions, where the new position keeps an old one. -/
theorem getD_map_keeps {τ : Type} (h : Config.Keeps oldDeps newDeps j i) (f : Nat → τ) (e : τ) :
    ((Config.newToOld oldDeps newDeps).map fun o => o.elim e f).getD j e = f i := by
  rw [getD_eq_getElem?_getD, List.getElem?_map, h]
  rfl

theorem getD_map_fresh {τ : Type}
    (h : ∀ i, ¬ Config.Keeps oldDeps newDeps j i) (f : Nat → τ) (e : τ) :
    ((Config.newToOld oldDeps newDeps).map fun o => o.elim e f).getD j e = e := by
  rw [getD_eq_getElem?_getD, List.getElem?_map]
  cases hj : (Config.newToOld oldDeps newDeps)[j]? with
  | none => rfl
  | some o =>
    cases o with
    | none => rfl
    | some i => exact absurd hj (h i)

theorem slot_rewired_keeps (h : Config.Keeps oldDeps newDeps j i) (d : DepState V) :
    (d.rewired (Config.newToOld oldDeps newDeps)).slot j = d.slot i := by
  simp only [slot, rewired, getD_map_keeps h]

theorem slot_rewired_fresh (h : ∀ i, ¬ Config.Keeps oldDeps newDeps j i) (d : DepState V) :
    (d.rewired (Config.newToOld oldDeps newDeps)).slot j = {} := by
  simp only [slot, rewired, getD_map_fresh h]

end DepState

/-- What a rewire has done so far: the positions it drained, with the handle it
    released there and the dirty mark it found; by how much it lowered the
    counter; the arrays before and after the move; the subscriptions it made; and
    whether nobody else wrote the arrays before the move. -/
structure RewireLog (V : Type) where
  released : List (Nat × Option (NodeId × Nat) × Bool) := []
  dropped : Int := 0
  moved : Option (DepState V × DepState V) := none
  linked : List (Nat × NodeId × Nat × BoxId) := []
  quiet : Prop := True

namespace RewireLog

/-- Somebody else takes a step. -/
def aside (n : NodeId) (c c' : Config V S) (g : RewireLog V) : RewireLog V :=
  { g with quiet := g.quiet ∧ (g.moved = none → (c'.nodes n).dep = (c.nodes n).dep) }

/-- What a step from `c` to `c'` adds to the log of a rewire of `n`. -/
def next (n : NodeId) (c c' : Config V S) (g : RewireLog V) : RewireLog V :=
  match c.stack with
  | .rewireRemove m _ _ _ (i :: _) _ :: _ =>
    if m = n then { g with
      released := g.released ++
        [(i, (c.nodes n).unsubs.getD i none, (c.nodes n).dep.dirtyAt i)]
      dropped := g.dropped + ((c.nodes n).dep.pending - (c'.nodes n).dep.pending) }
    else g.aside n c c'
  | .rewireAssign m _ _ _ _ :: _ =>
    if m = n then { g with moved := some ((c.nodes n).dep, (c'.nodes n).dep) }
    else g.aside n c c'
  | .depSubscribed m j d id box :: _ =>
    if m = n then { g with linked := g.linked ++ [(j, d, id, box)] } else g.aside n c c'
  | _ => g.aside n c c'

end RewireLog

namespace Config

section

variable (n : NodeId) (c : Config V S)

/-- The step neither activates nor deactivates `n`. -/
def Steady : Prop :=
  match c.stack with
  | .deactivate m :: _ => m ≠ n
  | .activateIfNeeded m :: _ => m = n → (c.nodes n).aux.activated = true
  | _ => True

/-- The same as a check. -/
def isSteady : Bool :=
  match c.stack with
  | .deactivate m :: _ => decide (m ≠ n)
  | .activateIfNeeded m :: _ => decide (m = n → (c.nodes n).aux.activated = true)
  | _ => true

theorem isSteady_iff : c.isSteady n = true ↔ c.Steady n := by
  unfold isSteady Steady
  split
  · exact decide_eq_true_iff
  · exact decide_eq_true_iff
  · exact iff_of_true rfl trivial

end

instance (n : NodeId) (c : Config V S) : Decidable (c.Steady n) :=
  decidable_of_iff (c.isSteady n = true) (isSteady_iff n c)

section

variable (n : NodeId) (newDeps : List NodeId) (c : Config V S)

/-- A rewire of `n` to `newDeps` is about to start. -/
def AtStart : Prop :=
  match c.stack with
  | .rewireApply m deps _ :: _ => m = n ∧ deps = newDeps
  | _ => False

/-- The same as a check. -/
def isAtStart : Bool :=
  match c.stack with
  | .rewireApply m deps _ :: _ => decide (m = n ∧ deps = newDeps)
  | _ => false

theorem isAtStart_iff :
    c.isAtStart n newDeps = true ↔ c.AtStart n newDeps := by
  unfold isAtStart AtStart
  split
  · exact decide_eq_true_iff
  · exact iff_of_false Bool.false_ne_true not_false

end

instance (n : NodeId) (newDeps : List NodeId) (c : Config V S) : Decidable (c.AtStart n newDeps) :=
  decidable_of_iff (c.isAtStart n newDeps = true) (isAtStart_iff n newDeps c)

theorem AtStart.stack {n : NodeId} {newDeps : List NodeId} {c : Config V S}
    (h : c.AtStart n newDeps) : ∃ f rest, c.stack = .rewireApply n newDeps f :: rest := by
  unfold AtStart at h
  split at h
  · rename_i m deps f rest hs
    rw [hs, h.1, h.2]
    exact ⟨f, rest, rfl⟩
  · exact h.elim

section

variable (n : NodeId) (c : Config V S)

/-- The rewire of `n` has only its flags to clear. -/
def AtEnd : Prop :=
  match c.stack with
  | .rewireFinish m _ _ :: _ => m = n
  | _ => False

/-- The same as a check. -/
def isAtEnd : Bool :=
  match c.stack with
  | .rewireFinish m _ _ :: _ => decide (m = n)
  | _ => false

theorem isAtEnd_iff : c.isAtEnd n = true ↔ c.AtEnd n := by
  unfold isAtEnd AtEnd
  split
  · exact decide_eq_true_iff
  · exact iff_of_false Bool.false_ne_true not_false

end

instance (n : NodeId) (c : Config V S) : Decidable (c.AtEnd n) :=
  decidable_of_iff (c.isAtEnd n = true) (isAtEnd_iff n c)

/-- A step between the start of a rewire of `n` and its end, without a panic and
    under a condition, with the log it leaves. -/
def MutationStep (guard : Config V S → Prop) (n : NodeId) (a b : Config V S × RewireLog V) : Prop :=
  Step a.1 b.1 ∧ a.1.mode = .running ∧ b.1.mode = .running ∧
    ¬ a.1.AtEnd n ∧ guard a.1 ∧ b.2 = a.2.next n a.1 b.1

end Config

/-- What a rewire to `newDeps` of a node whose slot was `x` should leave, if the
    slot is `y` in the end and `g` is the log. -/
structure RewireKept (x y : Node V S) (boxes : BoxId → Option Nat) (newDeps : List NodeId)
    (g : RewireLog V) : Prop where
  deps : y.deps = newDeps
  handle : ∀ j i, Config.Keeps x.deps newDeps j i →
    y.unsubs.getD j none = x.unsubs.getD i none ∧ y.idxBoxes.getD j none = x.idxBoxes.getD i none
  routed : ∀ j i b, Config.Keeps x.deps newDeps j i → x.idxBoxes.getD i none = some b →
    boxes b = some j
  record : ∃ r r', g.moved = some (r, r') ∧ r'.pending = r.pending ∧
    (∀ j i, Config.Keeps x.deps newDeps j i → r'.slot j = r.slot i) ∧
    (∀ j, (∀ i, ¬ Config.Keeps x.deps newDeps j i) → r'.slot j = {}) ∧
    (g.quiet → (∀ i, r.slot i = x.dep.slot i) ∧
      r.pending = x.dep.pending - (Config.removedIdxs x.deps newDeps).countP x.dep.dirtyAt)
  released : g.released.map (fun e => (e.1, e.2.1)) =
    (Config.removedIdxs x.deps newDeps).map fun i => (i, x.unsubs.getD i none)
  drained : ∀ i ∈ Config.removedIdxs x.deps newDeps, ∀ b, x.idxBoxes.getD i none = some b →
    boxes b = none
  dropped : g.dropped = g.released.countP fun e => e.2.2
  added : g.linked.map (fun e => (e.1, e.2.1)) =
    if x.aux.activated then Config.addedDeps x.deps newDeps else []
  linked : ∀ e ∈ g.linked, y.unsubs.getD e.1 none = some (e.2.1, e.2.2.1) ∧
    y.idxBoxes.getD e.1 none = some e.2.2.2 ∧ boxes e.2.2.2 = some e.1

/-! ### A step above a stage -/

/-- A half of a dep subscription of one node. -/
inductive Link
  | start (j : Nat) (d : NodeId)
  | finish (j : Nat) (d : NodeId) (id : Nat) (box : BoxId)

/-- The position and the dep. -/
def Link.target : Link → Nat × NodeId
  | .start j d => (j, d)
  | .finish j d _ _ => (j, d)

/-- The half of a dep subscription of `n` that a frame stands for. -/
def Frame.link (n : NodeId) : Frame V → Option Link
  | .subscribeDep m j d => if m = n then some (.start j d) else none
  | .depSubscribed m j d id box => if m = n then some (.finish j d id box) else none
  | _ => none

variable {f : Frame V}

theorem Frame.link_of_isLink (h : f.isLink = false) (n : NodeId) :
    f.link n = none := by
  cases f <;> first | rfl | cases h

variable {n : NodeId}

/-- A dep subscription that is not there yet waits with its box. -/
theorem Frame.boxOf_of_finish {j : Nat} {d : NodeId} {id : Nat}
    {box : BoxId} (h : f.link n = some (.finish j d id box)) : f.boxOf = some box := by
  cases f with
  | depSubscribed m j' d' id' box' =>
    rw [Frame.link] at h
    split_ifs at h
    cases h
    rfl
  | subscribeDep m j' d' =>
    rw [Frame.link] at h
    split_ifs at h
    cases h
  | _ => cases h

variable {m : NodeId}

theorem Frame.link_subscribeDep_ne (h : m ≠ n) (j : Nat) (d : NodeId) :
    (.subscribeDep m j d : Frame V).link n = none :=
  if_neg h

theorem Frame.link_depSubscribed_ne (h : m ≠ n) (j : Nat) (d : NodeId) (id : Nat)
    (box : BoxId) : (.depSubscribed m j d id box : Frame V).link n = none :=
  if_neg h

/-- What a rewire moves or asks for, besides the records. -/
def Node.wiring (x : Node V S) :
    List (Option (NodeId × Nat)) × List (Option BoxId) × Bool × Bool :=
  (x.unsubs, x.idxBoxes, x.aux.activated, x.live)

theorem Node.wiring_of_kernel {x y : Node V S} (h : y.kernel = x.kernel) : y.wiring = x.wiring := by
  unfold wiring
  rw [unsubs_of_kernel h, idxBoxes_of_kernel h, activated_of_kernel h, live_of_kernel h]

namespace Config

/-- What holds in every state. -/
structure Orderly (c : Config V S) : Prop where
  staged : c.Staged
  owned : c.BoxesOwned
  fitted : ∀ n, (c.nodes n).Fitted

variable {c c' : Config V S}

theorem step_orderly (hstep : Step c c') (h : c.Orderly) : c'.Orderly where
  staged := step_staged hstep h.staged
  owned := step_boxesOwned hstep h.staged h.owned
  fitted := fun n => (step_slot hstep n).fitted (h.fitted n)

theorem reach_orderly (hrun : Relation.ReflTransGen Step initial c) :
    c.Orderly := by
  induction hrun with
  | refl => exact ⟨initial_staged, initial_boxesOwned, initial_books.fitted⟩
  | tail _ hlast ih => exact step_orderly hlast ih

/-- The top frame `f` stands somewhere above the stage `T` of a rewire of `n`. -/
structure AboveStage (c : Config V S) (n : NodeId) (f : Frame V) (fs : List (Frame V))
    (T : Frame V) (below : List (Frame V)) : Prop where
  stack : c.stack = f :: (fs ++ T :: below)
  mutating : ∃ st, T.stage n = some st ∧ st ≠ .guard
  holds : T.holds n = true

namespace AboveStage

variable {c c' : Config V S} {n : NodeId} {f T : Frame V} {fs below : List (Frame V)}

-- Two stages of one node are not under way at once, nor does one start.
theorem top (h : c.AboveStage n f fs T below) (hstaged : c.Staged) :
    f.stage n = none ∧ ∀ newDeps g, f ≠ .rewireApply n newDeps g := by
  rcases h.mutating with ⟨st, hst, hguard⟩
  have hmem : st ∈ (fs ++ T :: below).filterMap (Frame.stage n) :=
    mem_filterMap.mpr ⟨T, mem_append_right _ mem_cons_self, hst⟩
  have hnone : f.stage n = none := by
    cases hf : f.stage n with
    | none => rfl
    | some st' => exact absurd ((hstaged.stages n).guards_below h.stack hf st hmem) hguard
  refine ⟨hnone, ?_⟩
  rintro newDeps g rfl
  have hidle := (hstaged.checked n newDeps g (by rw [h.stack]; rfl)).1
  refine hguard ((hstaged.stages n).guards_of_idle hidle st ?_)
  rw [← stages_pop h.stack hnone]
  exact hmem

/-- The step does not drain or assign the deps of `n`. -/
theorem not_draining (h : c.AboveStage n f fs T below) (hstaged : c.Staged) : ¬ c.Draining n := by
  rintro ⟨g, rest, hs, hd, hg⟩
  have hnone := (h.top hstaged).1
  rw [h.stack] at hs
  cases hs
  cases f with
  | rewireRemove m _ _ _ _ _ | rewireAssign m _ _ _ _ =>
    cases hg
    rw [Frame.stage, if_pos rfl] at hnone
    cases hnone
  | _ => cases hd

/-- The wiring of `n` stays, unless a subscription is handed over. -/
theorem wiring (h : c.AboveStage n f fs T below) (hstaged : c.Staged) (hsteady : c.Steady n)
    (hn : n < c.size) {y : Node V S} {s : Nat} (hslot : SlotStep c n y s) :
    y.wiring = (c.nodes n).wiring ∨ ∃ j d id box, f = .depSubscribed n j d id box := by
  have htop := h.top hstaged
  have hentering : ∀ g : Frame V, c.Entering g → g = f := by
    rintro g ⟨_, rest, hs⟩
    rw [h.stack] at hs
    cases hs
    rfl
  have hstage : ∀ g : Frame V, c.Entering g → ∀ st, g.stage n ≠ some st := by
    intro g hg st hst
    rw [hentering g hg, htop.1] at hst
    cases hst
  cases hslot with
  | idle h => exact Or.inl (Node.wiring_of_kernel h)
  | received _ _ _ _ d b i m _ _ _ _ h =>
    refine Or.inl ?_
    have hports := (c.nodes n).receive_ports d b i m
    have hedges := (c.nodes n).receive_edges d b i m
    have hlive : ((c.nodes n).receive d b i m).1.live = (c.nodes n).live :=
      congrArg (·.1.2) hports
    rw [h, Node.wiring, hedges.2.1, hedges.2.2.1, hedges.2.2.2, hlive, Node.wiring]
  | relayed _ _ h => exact Or.inl (by rw [h]; rfl)
  | started _ h => exact Or.inl (by rw [h]; rfl)
  | rolled keep h => exact Or.inl (by rw [h]; rfl)
  | reset h => exact Or.inl (by rw [h]; rfl)
  | dirtied _ h => exact Or.inl ((Node.wiring_of_kernel h).trans rfl)
  | told m _ _ h =>
    rw [h]
    exact Or.inl ((Node.wiring_of_kernel ((c.nodes n).collectDown_dep m)).trans rfl)
  | invalidated _ h => exact Or.inl (by rw [h]; rfl)
  | deactivated hf _ =>
    rw [Steady, h.stack, ← hentering _ hf] at hsteady
    exact absurd rfl hsteady
  | activated hf hx _ =>
    rw [Steady, h.stack, ← hentering _ hf] at hsteady
    rw [hsteady rfl] at hx
    cases hx
  | linked j d id box hf _ _ => exact Or.inr ⟨j, d, id, box, (hentering _ hf).symm⟩
  | created spec hsize _ _ => exact absurd hsize (Nat.ne_of_lt hn)
  | dropped hfree _ =>
    have hheld := hfree T (by
      rw [h.stack]
      exact mem_append_right _ mem_cons_self)
    rw [h.holds] at hheld
    cases hheld
  | swapped newDeps g hf _ => exact absurd (hentering _ hf).symm (htop.2 newDeps g)
  | removed _ _ _ _ _ _ hf _ => exact absurd (if_pos rfl) (hstage _ hf _)
  | assigned _ _ _ _ hf _ => exact absurd (if_pos rfl) (hstage _ hf _)
  | finished _ _ hf _ _ _ _ => exact absurd (if_pos rfl) (hstage _ hf _)
  | guarded rest hs _ =>
    have htop' := htop.1
    rw [h.stack] at hs
    cases hs
    rw [Frame.stage, if_pos rfl] at htop'
    cases htop'

theorem box (h : c.AboveStage n f fs T below) (hc : c.Orderly) (hwire : WireStep c c') {i : Nat}
    {b : BoxId} (hb : c.Owns n i b) : c'.boxes b = c.boxes b := by
  refine hwire.box (hc.owned.made n i b hb) ?_
  intro m hm i' hb'
  rw [← (hc.owned.single n i m i' b hb hb').1] at hm
  exact h.not_draining hc.staged hm

/-- What the step does to the subscriptions of `n` under way. -/
theorem links (h : c.AboveStage n f fs T below) (hstaged : c.Staged) (hmode : c.mode = .running)
    (hsteady : c.Steady n) (hwire : WireStep c c') :
    ∃ gs, c'.stack = gs ++ (fs ++ T :: below) ∧
      ((f.link n = none ∧ gs.filterMap (Frame.link n) = []) ∨
        (∃ j d, f = .subscribeDep n j d ∧ c'.nodes = c.nodes ∧
          c'.boxes = Function.update c.boxes c.nextBox (some j) ∧
          gs = [.subscribe d (.dep n c.nextBox),
            .depSubscribed n j d (c.nodes d).aux.nextSubId c.nextBox]) ∨
        (∃ j d id box, f = .depSubscribed n j d id box ∧ gs.filterMap (Frame.link n) = [])) := by
  have hnone : ∀ gs : List (Frame V), (∀ g ∈ gs, g.link n = none) →
      gs.filterMap (Frame.link n) = [] := fun gs hgs => filterMap_eq_nil_iff.mpr hgs
  have hdrain := h.not_draining hstaged
  have hstack := h.stack
  cases hwire with
  | aside g rest hs hg h =>
    rcases h.stack with ⟨gs, hs', hgs⟩
    rw [hstack] at hs
    cases hs
    refine ⟨gs, hs', ?_⟩
    have hnil := hnone gs fun g hg => Frame.link_of_isLink (hgs g hg) n
    cases f with
    | subscribeDep m j d => exact absurd rfl (hg hmode m j d)
    | depSubscribed m j d id box =>
      by_cases hm : m = n
      · subst hm
        exact Or.inr (Or.inr ⟨j, d, id, box, rfl, hnil⟩)
      · exact Or.inl ⟨if_neg hm, hnil⟩
    | _ => exact Or.inl ⟨rfl, hnil⟩
  | attached m rest hs hidle hs' hb hx =>
    rw [hstack] at hs
    cases hs
    have hm : m ≠ n := by
      rintro rfl
      rw [Steady, hstack] at hsteady
      rw [hsteady rfl] at hidle
      cases hidle
    refine ⟨_, hs', Or.inl ⟨rfl, hnone _ ?_⟩⟩
    intro g hg
    rcases mem_append.mp hg with hg | hg
    · rcases mem_mapIdx.mp hg with ⟨i, _, rfl⟩
      exact Frame.link_subscribeDep_ne hm i _
    · rw [mem_singleton.mp hg]
      rfl
  | opened m j d rest hs hn hs' hb hx =>
    rw [hstack] at hs
    cases hs
    refine ⟨[_, _], hs', ?_⟩
    by_cases hm : m = n
    · subst hm
      exact Or.inr (Or.inl ⟨j, d, rfl, hn, hb, rfl⟩)
    · refine Or.inl ⟨if_neg hm, hnone _ ?_⟩
      intro g hg
      simp only [mem_cons, not_mem_nil, or_false] at hg
      rcases hg with rfl | rfl
      · rfl
      · exact Frame.link_depSubscribed_ne hm _ _ _ _
  | removed m old new act dirty i removed rest gs hs hs' hgs hb hx =>
    rw [hstack] at hs
    cases hs
    exact ⟨gs, hs', Or.inl ⟨rfl, hnone gs fun g hg => Frame.link_of_isLink (hgs g hg) n⟩⟩
  | assigned m old new act dirty rest hmode hs hs' hb hx =>
    rw [hstack] at hs
    cases hs
    have hm : m ≠ n := by
      rintro rfl
      exact hdrain ⟨_, _, hstack, rfl, rfl⟩
    refine ⟨_, hs', Or.inl ⟨rfl, hnone _ ?_⟩⟩
    intro g hg
    rcases mem_append.mp hg with hg | hg
    · split at hg
      · rcases mem_map.mp hg with ⟨p, _, rfl⟩
        exact Frame.link_subscribeDep_ne hm _ _
      · exact absurd hg not_mem_nil
    · simp only [mem_cons, not_mem_nil, or_false] at hg
      rcases hg with rfl | rfl <;> rfl

/-- The log of a rewire of `n` only notes that somebody else took a step. -/
theorem log (h : c.AboveStage n f fs T below) (hstaged : c.Staged) (hf : f.link n = none)
    (g : RewireLog V) : g.next n c c' = g.aside n c c' := by
  have hdrain := h.not_draining hstaged
  have hstack := h.stack
  unfold RewireLog.next
  split
  · rename_i m _ _ _ i _ _ _ hs
    refine if_neg ?_
    rintro rfl
    exact hdrain ⟨_, _, hs, rfl, rfl⟩
  · rename_i m _ _ _ _ _ hs
    refine if_neg ?_
    rintro rfl
    exact hdrain ⟨_, _, hs, rfl, rfl⟩
  · rename_i m j d id box _ hs
    refine if_neg ?_
    rintro rfl
    rw [hstack] at hs
    cases hs
    rw [Frame.link, if_pos rfl] at hf
    cases hf
  · rfl

end AboveStage

/-! ### The stages of one rewire -/

/-- The positions `done` are drained, and nothing else is done. -/
structure Drained (n : NodeId) (x : Node V S) (done : List Nat) (c : Config V S)
    (g : RewireLog V) : Prop where
  unsubs : ∀ i, (c.nodes n).unsubs.getD i none = if i ∈ done then none else x.unsubs.getD i none
  idxBoxes : (c.nodes n).idxBoxes = x.idxBoxes
  activated : (c.nodes n).aux.activated = x.aux.activated
  live : (c.nodes n).live = true
  boxes : ∀ i ∈ done, ∀ b, x.idxBoxes.getD i none = some b → c.boxes b = none
  released : g.released.map (fun e => (e.1, e.2.1)) = done.map fun i => (i, x.unsubs.getD i none)
  dropped : g.dropped = g.released.countP fun e => e.2.2
  moved : g.moved = none
  linked : g.linked = []
  quiet : g.quiet → (c.nodes n).dep =
    { x.dep with pending := x.dep.pending - done.countP x.dep.dirtyAt }

variable {n : NodeId}

variable {x : Node V S} {done : List Nat} {g : RewireLog V}

theorem Drained.aside (h : Drained n x done c g)
    (hwiring : (c'.nodes n).wiring = (c.nodes n).wiring)
    (hboxes : ∀ i b, c.Owns n i b → c'.boxes b = c.boxes b) : Drained n x done c'
      (g.aside n c c') := by
  rw [Node.wiring, Node.wiring, Prod.mk.injEq, Prod.mk.injEq, Prod.mk.injEq] at hwiring
  refine ⟨?_, hwiring.2.1.trans h.idxBoxes, hwiring.2.2.1.trans h.activated,
    hwiring.2.2.2.trans h.live, ?_, h.released, h.dropped, h.moved, h.linked, ?_⟩
  · rw [hwiring.1]
    exact h.unsubs
  · intro i hi b hb
    have hown : c.Owns n i b := by
      rw [Owns, h.idxBoxes]
      exact getElem?_of_getD hb
    rw [hboxes i b hown]
    exact h.boxes i hi b hb
  · intro hq
    rw [hq.2 h.moved]
    exact h.quiet hq.1

theorem Drained.drain (h : Drained n x done c g) {i : Nat} (hi : i ∉ done)
    (hn : c'.nodes = Function.update c.nodes n { c.nodes n with
      dep := if (c.nodes n).dep.dirty.getD i false then
        { (c.nodes n).dep with pending := (c.nodes n).dep.pending - 1 } else (c.nodes n).dep
      unsubs := (c.nodes n).unsubs.set i none })
    (hb : c'.boxes = match (c.nodes n).idxBoxes.getD i none with
      | some b => Function.update c.boxes b none
      | none => c.boxes) :
    Drained n x (done ++ [i]) c' { g with
      released := g.released ++ [(i, (c.nodes n).unsubs.getD i none, (c.nodes n).dep.dirtyAt i)]
      dropped := g.dropped + ((c.nodes n).dep.pending - (c'.nodes n).dep.pending) } := by
  have hself : c'.nodes n = { c.nodes n with
      dep := if (c.nodes n).dep.dirty.getD i false then
        { (c.nodes n).dep with pending := (c.nodes n).dep.pending - 1 } else (c.nodes n).dep
      unsubs := (c.nodes n).unsubs.set i none } := by
    rw [hn, Function.update_self]
  refine ⟨?_, ?_, ?_, ?_, ?_, ?_, ?_, h.moved, h.linked, ?_⟩
  · intro k
    rw [hself]
    simp only [mem_append, mem_singleton]
    by_cases hk : k = i
    · subst hk
      rw [if_pos (Or.inr rfl), getD_eq_getElem?_getD, List.getElem?_set, if_pos rfl]
      split_ifs <;> rfl
    · rw [getD_eq_getElem?_getD, List.getElem?_set_ne (Ne.symm hk),
        ← getD_eq_getElem?_getD, h.unsubs]
      simp only [hk, or_false]
  · rw [hself]
    exact h.idxBoxes
  · rw [hself]
    exact h.activated
  · rw [hself]
    exact h.live
  · intro k hk b hkb
    rw [hb]
    have hcase : ∀ b', (c.nodes n).idxBoxes.getD i none = some b' → b = b' ∨ c.boxes b = none := by
      intro b' hb'
      rcases mem_append.mp hk with hk | hk
      · exact Or.inr (h.boxes k hk b hkb)
      · rw [mem_singleton.mp hk, ← h.idxBoxes, hb', Option.some.injEq] at hkb
        exact Or.inl hkb.symm
    split
    · rename_i b' hb'
      by_cases hbb : b = b'
      · rw [hbb, Function.update_self]
      · rw [Function.update_of_ne hbb]
        exact (hcase b' hb').resolve_left hbb
    · rename_i hnone
      rcases mem_append.mp hk with hk | hk
      · exact h.boxes k hk b hkb
      · rw [mem_singleton.mp hk, ← h.idxBoxes, hnone] at hkb
        cases hkb
  · rw [map_append, map_append, h.released]
    simp only [map_cons, map_nil, h.unsubs, if_neg hi]
  · rw [hself, h.dropped, countP_append]
    cases hd : (c.nodes n).dep.dirty.getD i false with
    | true =>
      have hone : [(i, (c.nodes n).unsubs.getD i none, (c.nodes n).dep.dirtyAt i)].countP
          (fun e => e.2.2) = 1 := countP_cons_of_pos hd
      rw [hone]
      simp only [↓reduceIte]
      omega
    | false =>
      have hnil : [(i, (c.nodes n).unsubs.getD i none, (c.nodes n).dep.dirtyAt i)].countP
          (fun e => e.2.2) = 0 := by
        refine (countP_cons_of_neg ?_).trans countP_nil
        rw [DepState.dirtyAt, hd]
        simp
      rw [hnil]
      simp only [Bool.false_eq_true, ↓reduceIte]
      omega
  · intro hq
    have hdep := h.quiet hq
    rw [hself, countP_append]
    simp only [hdep]
    cases hd : x.dep.dirty.getD i false with
    | true =>
      have hone : [i].countP x.dep.dirtyAt = 1 := countP_cons_of_pos hd
      simp only [↓reduceIte, hone, DepState.mk.injEq, true_and, and_true]
      omega
    | false =>
      have hnil : [i].countP x.dep.dirtyAt = 0 := by
        refine (countP_cons_of_neg ?_).trans countP_nil
        rw [DepState.dirtyAt, hd]
        simp
      simp only [Bool.false_eq_true, ↓reduceIte, hnil, Nat.add_zero]

/-- The records have moved; the subscriptions `pre` are under way and the deps
    `todo` are still to come. -/
structure Moved (n : NodeId) (x : Node V S) (newDeps : List NodeId) (pre : List Link)
    (todo : List (Nat × NodeId)) (c : Config V S) (g : RewireLog V) : Prop where
  activated : (c.nodes n).aux.activated = x.aux.activated
  live : (c.nodes n).live = true
  handle : ∀ j i, Keeps x.deps newDeps j i →
    (c.nodes n).unsubs.getD j none = x.unsubs.getD i none ∧
      (c.nodes n).idxBoxes.getD j none = x.idxBoxes.getD i none
  routed : ∀ j i b, Keeps x.deps newDeps j i → x.idxBoxes.getD i none = some b →
    c.boxes b = some j
  drained : ∀ i ∈ removedIdxs x.deps newDeps, ∀ b, x.idxBoxes.getD i none = some b →
    c.boxes b = none ∧ c.Spare b
  record : ∃ r r', g.moved = some (r, r') ∧ r'.pending = r.pending ∧
    (∀ j i, Keeps x.deps newDeps j i → r'.slot j = r.slot i) ∧
    (∀ j, (∀ i, ¬ Keeps x.deps newDeps j i) → r'.slot j = {}) ∧
    (g.quiet → (∀ i, r.slot i = x.dep.slot i) ∧
      r.pending = x.dep.pending - (removedIdxs x.deps newDeps).countP x.dep.dirtyAt)
  released : g.released.map (fun e => (e.1, e.2.1)) =
    (removedIdxs x.deps newDeps).map fun i => (i, x.unsubs.getD i none)
  dropped : g.dropped = g.released.countP fun e => e.2.2
  added : (if x.aux.activated then addedDeps x.deps newDeps else []) =
    g.linked.map (fun e => (e.1, e.2.1)) ++ (pre.map Link.target ++ todo)
  opening : ∀ j d id box, .finish j d id box ∈ pre → c.boxes box = some j
  linked : ∀ e ∈ g.linked, (c.nodes n).unsubs.getD e.1 none = some (e.2.1, e.2.2.1) ∧
    (c.nodes n).idxBoxes.getD e.1 none = some e.2.2.2 ∧ c.boxes e.2.2.2 = some e.1

section Moved

variable {n : NodeId} {x : Node V S} {newDeps : List NodeId} {pre : List Link}
  {todo : List (Nat × NodeId)} {c c' : Config V S} {g : RewireLog V}

/-- The positions of the added deps keep nothing, and no two are the same. -/
theorem addedDeps_fresh {oldDeps : List NodeId} {p : Nat × NodeId}
    (hp : p ∈ addedDeps oldDeps newDeps) :
    p.1 < newDeps.length ∧ ∀ i, ¬ Keeps oldDeps newDeps p.1 i := by
  rcases mem_filter.mp hp with ⟨hmem, hfresh⟩
  rcases mem_mapIdx.mp hmem with ⟨j, hj, rfl⟩
  refine ⟨hj, ?_⟩
  intro i hkeeps
  rcases keeps_iff.mp hkeeps with ⟨d, hjd, hi, _⟩
  rw [List.getElem?_eq_getElem hj, Option.some.injEq] at hjd
  exact (of_decide_eq_true hfresh) (hjd ▸ mem_of_getElem? hi)

theorem nodup_addedDeps (oldDeps newDeps : List NodeId) :
    ((addedDeps oldDeps newDeps).map Prod.fst).Nodup := by
  have hrange : (newDeps.mapIdx fun j d => (j, d)).map Prod.fst = List.range newDeps.length := by
    refine ext_getElem (by simp) ?_
    intro i h h'
    simp
  refine List.Nodup.sublist ((filter_sublist).map Prod.fst) ?_
  rw [hrange]
  exact nodup_range

/-- A step of somebody else leaves what is done. -/
theorem Moved.aside (h : Moved n x newDeps pre todo c g) (hstep : Step c c')
    (hwiring : (c'.nodes n).wiring = (c.nodes n).wiring)
    (hboxes : ∀ i b, c.Owns n i b → c'.boxes b = c.boxes b)
    (hopening : ∀ j d id box, .finish j d id box ∈ pre → c'.boxes box = c.boxes box) :
    Moved n x newDeps pre todo c' (g.aside n c c') := by
  rw [Node.wiring, Node.wiring, Prod.mk.injEq, Prod.mk.injEq, Prod.mk.injEq] at hwiring
  refine ⟨hwiring.2.2.1.trans h.activated, hwiring.2.2.2.trans h.live, ?_, ?_, ?_, ?_, h.released,
    h.dropped, h.added, ?_, ?_⟩
  · rw [hwiring.1, hwiring.2.1]
    exact h.handle
  · intro j i b hk hb
    have hown : c.Owns n j b := getElem?_of_getD ((h.handle j i hk).2.trans hb)
    rw [hboxes j b hown]
    exact h.routed j i b hk hb
  · intro i hi b hb
    have hold := h.drained i hi b hb
    have hspare := step_spare hstep hold.2
    exact ⟨hspare.2.trans hold.1, hspare.1⟩
  · rcases h.record with ⟨r, r', hm, hp, hk, hf, hq⟩
    exact ⟨r, r', hm, hp, hk, hf, fun hquiet => hq hquiet.1⟩
  · intro j d id box hmem
    rw [hopening j d id box hmem]
    exact h.opening j d id box hmem
  · intro e he
    have hold := h.linked e he
    have hown : c.Owns n e.1 e.2.2.2 := getElem?_of_getD hold.2.1
    rw [hwiring.1, hwiring.2.1, hboxes _ _ hown]
    exact hold

variable {j : Nat} {d : NodeId}

/-- The next dep subscription starts, through a new box. -/
theorem Moved.start (h : Moved n x newDeps [] ((j, d) :: todo) c g)
    (hc : c.Orderly) (hstep : Step c c') (hn : c'.nodes = c.nodes)
    (hb : c'.boxes = Function.update c.boxes c.nextBox (some j)) (id : Nat) :
    Moved n x newDeps [.finish j d id c.nextBox] todo c' (g.aside n c c') := by
  have hold : ∀ i b, c.Owns n i b → c'.boxes b = c.boxes b := by
    intro i b hown
    rw [hb, Function.update_of_ne (Nat.ne_of_lt (hc.owned.made n i b hown))]
  have haside := h.aside hstep (by rw [hn]) hold (fun _ _ _ _ hmem => absurd hmem not_mem_nil)
  refine { haside with added := h.added, opening := ?_ }
  intro j' d' id' box hmem
  cases mem_singleton.mp hmem
  rw [hb, Function.update_self]

theorem Moved.finish {id : Nat} {box : BoxId}
    (h : Moved n x newDeps [.finish j d id box] todo c g) (hstep : Step c c')
    (hj : j < (c.nodes n).unsubs.length ∧ j < (c.nodes n).idxBoxes.length)
    (hn : c'.nodes n = { c.nodes n with
      unsubs := (c.nodes n).unsubs.set j (some (d, id))
      idxBoxes := (c.nodes n).idxBoxes.set j (some box)
      restoredHandshake := (c.nodes n).restoredHandshake.set j false })
    (hboxes : ∀ i b, c.Owns n i b → c'.boxes b = c.boxes b) (hbox : c'.boxes box = c.boxes box) :
    Moved n x newDeps [] todo c' { g with linked := g.linked ++ [(j, d, id, box)] } := by
  have hset : ∀ {τ : Type} (l : List (Option τ)) (v : Option τ) (k : Nat), k ≠ j →
      (l.set j v).getD k none = l.getD k none := by
    intro τ l v k hk
    rw [getD_eq_getElem?_getD, List.getElem?_set_ne (Ne.symm hk),
      ← getD_eq_getElem?_getD]
  have hself : ∀ {τ : Type} (l : List (Option τ)) (v : Option τ), j < l.length →
      (l.set j v).getD j none = v := by
    intro τ l v hlt
    rw [getD_eq_getElem?_getD, List.getElem?_set_self hlt]
    rfl
  have hmem : (j, d) ∈ addedDeps x.deps newDeps := by
    have hadded := h.added
    split_ifs at hadded
    · rw [hadded]
      exact mem_append_right _ mem_cons_self
    · simp at hadded
  have hfresh := addedDeps_fresh hmem
  have hkept : ∀ k i, Keeps x.deps newDeps k i → k ≠ j := by
    rintro k i hk rfl
    exact hfresh.2 i hk
  have hearlier : ∀ e ∈ g.linked, e.1 ≠ j := by
    intro e he heq
    have hadded := h.added
    have hnodup := nodup_addedDeps x.deps newDeps
    split_ifs at hadded
    · rw [hadded, map_append, map_append] at hnodup
      have hdisj := (nodup_append.mp hnodup).2.2
      refine hdisj e.1 ?_ j ?_ heq
      · exact mem_map.mpr ⟨(e.1, e.2.1), mem_map.mpr ⟨e, he, rfl⟩, rfl⟩
      · exact mem_append_left _ mem_cons_self
    · simp at hadded
  refine ⟨by rw [hn]; exact h.activated, by rw [hn]; exact h.live, ?_, ?_, ?_, h.record, h.released,
    h.dropped, ?_, ?_, ?_⟩
  · intro k i hk
    rw [hn]
    simp only [hset _ _ k (hkept k i hk)]
    exact h.handle k i hk
  · intro k i b hk hb
    have hown : c.Owns n k b := getElem?_of_getD ((h.handle k i hk).2.trans hb)
    rw [hboxes k b hown]
    exact h.routed k i b hk hb
  · intro i hi b hb
    have hold := h.drained i hi b hb
    have hspare := step_spare hstep hold.2
    exact ⟨hspare.2.trans hold.1, hspare.1⟩
  · rw [h.added, map_append, append_assoc]
    rfl
  · exact fun _ _ _ _ hmem => absurd hmem not_mem_nil
  · intro e he
    rw [hn]
    rcases mem_append.mp he with he | he
    · have hold := h.linked e he
      have hown : c.Owns n e.1 e.2.2.2 := getElem?_of_getD hold.2.1
      simp only [hset _ _ e.1 (hearlier e he), hboxes _ _ hown]
      exact hold
    · rw [mem_singleton.mp he]
      refine ⟨hself _ _ hj.1, hself _ _ hj.2, ?_⟩
      rw [hbox]
      exact h.opening j d id box mem_cons_self

theorem Drained.assign {activated : Bool} (h : Drained n x (removedIdxs x.deps newDeps) c g)
    (hc : c.Orderly) (hstep : Step c c') (hnew : newDeps.Nodup)
    (hactivated : x.aux.activated = activated)
    (hn : c'.nodes = Function.update c.nodes n { c.nodes n with
      deps := newDeps
      dep := (c.nodes n).dep.rewired (newToOld x.deps newDeps)
      unsubs := (newToOld x.deps newDeps).map fun o =>
        o.elim none fun i => (c.nodes n).unsubs.getD i none
      idxBoxes := (newToOld x.deps newDeps).map fun o =>
        o.elim none fun i => (c.nodes n).idxBoxes.getD i none
      restoredHandshake := List.replicate newDeps.length false })
    (hb : c'.boxes = rerouteBoxes c.boxes (c.nodes n).idxBoxes
      ((newToOld x.deps newDeps).mapIdx fun j o => (j, o))) :
    Moved n x newDeps [] (if activated then addedDeps x.deps newDeps else []) c'
      { g with moved := some ((c.nodes n).dep, (c'.nodes n).dep) } := by
  have hself := congrFun hn n
  rw [Function.update_self] at hself
  -- Where the box of an old position goes, the position itself goes.
  have hmem : ∀ p ∈ (newToOld x.deps newDeps).mapIdx (fun j o => (j, o)), ∀ i,
      p.2 = some i → Keeps x.deps newDeps p.1 i := by
    intro p hp i hi
    rcases mem_mapIdx.mp hp with ⟨k, hk, rfl⟩
    rw [Keeps, List.getElem?_eq_getElem hk]
    exact congrArg some hi
  have howns : ∀ i b, (c.nodes n).idxBoxes.getD i none = some b → c.Owns n i b :=
    fun i b hib => getElem?_of_getD hib
  have hsingle : ∀ i i' b, (c.nodes n).idxBoxes.getD i none = some b →
      (c.nodes n).idxBoxes.getD i' none = some b → i = i' :=
    fun i i' b hi hi' => (hc.owned.single n i n i' b (howns i b hi) (howns i' b hi')).2
  refine ⟨by rw [hself]; exact h.activated, by rw [hself]; exact h.live, ?_, ?_, ?_, ?_, h.released,
    h.dropped, ?_, ?_, ?_⟩
  · intro j i hk
    rw [hself]
    refine ⟨(DepState.getD_map_keeps hk _ none).trans ?_,
      (DepState.getD_map_keeps hk _ none).trans ?_⟩
    · have hnot : i ∉ removedIdxs x.deps newDeps := fun hi => (mem_removedIdxs_iff.mp hi).2 j hk
      rw [h.unsubs, if_neg hnot]
    · rw [h.idxBoxes]
  · intro j i b hk hib
    rw [← h.idxBoxes] at hib
    rw [hb]
    refine rerouteBoxes_eq ?_ (Or.inr ⟨i, ?_, hib⟩)
    · intro p hp i' hi' hib'
      have hii := hsingle i' i b hib' hib
      subst hii
      exact keeps_injective hnew (hmem p hp i' hi') hk
    · refine mem_mapIdx.mpr ⟨j, (List.getElem?_eq_some_iff.mp hk).1, ?_⟩
      rw [(List.getElem?_eq_some_iff.mp hk).2]
  · intro i hi b hib
    have hnone := h.boxes i hi b hib
    rw [← h.idxBoxes] at hib
    have hgone : ∀ k i', Keeps x.deps newDeps k i' → (c.nodes n).idxBoxes.getD i' none ≠
      some b := by
      intro k i' hk hib'
      rw [hsingle i' i b hib' hib] at hk
      exact (mem_removedIdxs_iff.mp hi).2 k hk
    have hown := howns i b hib
    refine ⟨?_, Nat.lt_of_lt_of_le (hc.owned.made n i b hown) (step_wire hstep).nextBox_le, ?_, ?_⟩
    · rw [hb, ← hnone]
      exact rerouteBoxes_of_ne fun p hp i' hi' => hgone p.1 i' (hmem p hp i' hi')
    · intro hhanded
      rcases (step_wire hstep).handed with ⟨f, rest, hs, ⟨hh, _⟩ | ⟨hh, _, _⟩⟩
      · rw [hh] at hhanded
        exact (hc.owned.fresh b (mem_handed_of_below hs hhanded)).2 n i hown
      · rw [hh] at hhanded
        rcases mem_cons.mp hhanded with rfl | hhanded
        · exact Nat.lt_irrefl _ (hc.owned.made n i _ hown)
        · exact (hc.owned.fresh b (mem_handed_of_below hs hhanded)).2 n i hown
    · intro m k hmk
      by_cases hm : m = n
      · subst hm
        rw [Owns, hself, List.getElem?_map] at hmk
        rcases Option.map_eq_some_iff.mp hmk with ⟨o, ho, hob⟩
        cases o with
        | none => cases hob
        | some i' => exact hgone k i' ho hob
      · rw [Owns, hn, Function.update_of_ne hm] at hmk
        exact hm (hc.owned.single m k n i b hmk hown).1
  · refine ⟨_, _, rfl, ?_, ?_, ?_, ?_⟩
    · rw [hself]
      rfl
    · intro j i hk
      rw [hself]
      exact DepState.slot_rewired_keeps hk _
    · intro j hj
      rw [hself]
      exact DepState.slot_rewired_fresh hj _
    · intro hq
      rw [h.quiet hq]
      exact ⟨fun _ => rfl, rfl⟩
  · rw [hactivated, h.linked]
    rfl
  · exact fun _ _ _ _ hmem => absurd hmem not_mem_nil
  · intro e he
    rw [h.linked] at he
    exact absurd he not_mem_nil

end Moved

/-- How far a rewire of `n` has come. The frames above its stage hold the dep
    subscriptions under way and to come. -/
inductive Phase (n : NodeId) (x : Node V S) (newDeps : List NodeId) (base : List (Frame V))
    (c : Config V S) (g : RewireLog V) : Prop
  | removing (done removed : List Nat) (dirty : Bool) (fs : List (Frame V))
      (hsplit : removedIdxs x.deps newDeps = done ++ removed)
      (hs : c.stack = fs ++ .rewireRemove n x.deps newDeps x.aux.activated removed dirty :: base)
      (hlinks : fs.filterMap (Frame.link n) = []) (h : Drained n x done c g)
  | assigning (dirty : Bool)
      (hs : c.stack = .rewireAssign n x.deps newDeps x.aux.activated dirty :: base)
      (h : Drained n x (removedIdxs x.deps newDeps) c g)
  | linking (dirty : Bool) (fs : List (Frame V)) (pre : List Link) (todo : List (Nat × NodeId))
      (hs : c.stack = fs ++ .rewireFinish n newDeps dirty :: base)
      (hlinks : fs.filterMap (Frame.link n) = pre ++ todo.map fun p => .start p.1 p.2)
      (hpre : pre = [] ∨ ∃ j d id box, pre = [.finish j d id box])
      (h : Moved n x newDeps pre todo c g)

section Phase

variable {n : NodeId} {x : Node V S} {newDeps : List NodeId} {base : List (Frame V)}
  {c c' : Config V S} {g : RewireLog V}

variable {f : Frame V} {fs : List (Frame V)}

variable {T : Frame V}

/-- What somebody else does while the stage `T` waits. -/
theorem AboveStage.keeps
    (h : c.AboveStage n f fs T base) (hc : c.Orderly) (hn : n < c.size) (hstep : Step c c')
    (hmode : c.mode = .running) (hsteady : c.Steady n) (hf : f.link n = none) :
    (∃ gs, c'.stack = gs ++ (fs ++ T :: base) ∧ gs.filterMap (Frame.link n) = []) ∧
      (c'.nodes n).wiring = (c.nodes n).wiring ∧
      (∀ i b, c.Owns n i b → c'.boxes b = c.boxes b) ∧ g.next n c c' = g.aside n c c' := by
  refine ⟨?_, ?_, fun i b hb => h.box hc (step_wire hstep) hb, h.log hc.staged hf g⟩
  · rcases h.links hc.staged hmode hsteady (step_wire hstep) with ⟨gs, hs, ⟨_, hnil⟩ |
      ⟨j, d, rfl, _⟩ | ⟨j, d, id, box, rfl, hnil⟩⟩
    · exact ⟨gs, hs, hnil⟩
    · rw [Frame.link, if_pos rfl] at hf
      cases hf
    · exact ⟨gs, hs, hnil⟩
  · rcases h.wiring hc.staged hsteady hn (step_slot hstep n) with hw | ⟨j, d, id, box, rfl⟩
    · exact hw
    · rw [Frame.link, if_pos rfl] at hf
      cases hf

theorem Drained.size (h : c.Orderly) (hlive : (c.nodes n).live = true) : n < c.size := by
  by_contra hge
  rw [h.staged.fresh n (Nat.le_of_not_lt hge)] at hlive
  cases hlive

variable {oldDeps : List NodeId} {activated dirty : Bool} {rest : List (Frame V)}

/-- With nothing left to drain, the move is next. -/
theorem StageStep.of_drained (h : StageStep c c') (hmode : c.mode = .running)
    (hs : c.stack = .rewireRemove n oldDeps newDeps activated [] dirty :: rest) :
    c'.stack = .rewireAssign n oldDeps newDeps activated dirty :: rest ∧ c'.nodes = c.nodes ∧
      c'.boxes = c.boxes := by
  cases h with
  | outside f rest' fs hs₁ hd _ _ =>
    rw [hs] at hs₁
    cases hs₁
    cases hd hmode
  | drained m old new act dirty' rest' _ hs₁ hn hb hs' =>
    rw [hs] at hs₁
    cases hs₁
    exact ⟨hs', hn, hb⟩
  | checked _ _ _ _ _ _ hs₁ | applied _ _ _ _ hs₁ | draining _ _ _ _ _ _ _ _ _ hs₁
  | assigned _ _ _ _ _ _ _ hs₁ =>
    rw [hs] at hs₁
    cases hs₁

variable {removed : List Nat}

/-- A removed dep is drained: its dirty mark is given up, its box emptied, its
    subscription released. -/
theorem StageStep.of_draining {i : Nat} (h : StageStep c c') (hmode : c.mode = .running)
    (hs : c.stack = .rewireRemove n oldDeps newDeps activated (i :: removed) dirty :: rest) :
    (∃ fs dirty', c'.stack = fs ++ .rewireRemove n oldDeps newDeps activated removed
      dirty' :: rest ∧
      ∀ f ∈ fs, f.isLink = false) ∧
    c'.nodes = Function.update c.nodes n { c.nodes n with
      dep := if (c.nodes n).dep.dirty.getD i false then
        { (c.nodes n).dep with pending := (c.nodes n).dep.pending - 1 } else (c.nodes n).dep
      unsubs := (c.nodes n).unsubs.set i none } ∧
    c'.boxes = match (c.nodes n).idxBoxes.getD i none with
      | some b => Function.update c.boxes b none
      | none => c.boxes := by
  cases h with
  | outside f rest' fs hs₁ hd _ _ =>
    rw [hs] at hs₁
    cases hs₁
    cases hd hmode
  | draining m old new act dirty' k removed' rest' fs hs₁ hn hb hfs hs' =>
    rw [hs] at hs₁
    cases hs₁
    refine ⟨⟨fs, _, hs', ?_⟩, hn, hb⟩
    rw [hfs]
    intro f hf
    split at hf
    · rw [mem_singleton.mp hf]
      rfl
    · exact absurd hf not_mem_nil
  | checked _ _ _ _ _ _ hs₁ | applied _ _ _ _ hs₁ | drained _ _ _ _ _ _ _ hs₁
  | assigned _ _ _ _ _ _ _ hs₁ =>
    rw [hs] at hs₁
    cases hs₁

theorem StageStep.of_assigned (h : StageStep c c') (hmode : c.mode = .running)
    (hs : c.stack = .rewireAssign n oldDeps newDeps activated dirty :: rest) :
    c'.stack = ((if activated then (addedDeps oldDeps newDeps).map
        (fun p => (.subscribeDep n p.1 p.2 : Frame V)) else []) ++
          [.notifyTopology n oldDeps newDeps]) ++ .rewireFinish n newDeps dirty :: rest ∧
    c'.nodes = Function.update c.nodes n { c.nodes n with
      deps := newDeps
      dep := (c.nodes n).dep.rewired (newToOld oldDeps newDeps)
      unsubs := (newToOld oldDeps newDeps).map fun o =>
        o.elim none fun i => (c.nodes n).unsubs.getD i none
      idxBoxes := (newToOld oldDeps newDeps).map fun o =>
        o.elim none fun i => (c.nodes n).idxBoxes.getD i none
      restoredHandshake := List.replicate newDeps.length false } ∧
    c'.boxes = rerouteBoxes c.boxes (c.nodes n).idxBoxes
      ((newToOld oldDeps newDeps).mapIdx fun j o => (j, o)) := by
  cases h with
  | outside f rest' fs hs₁ hd _ _ =>
    rw [hs] at hs₁
    cases hs₁
    cases hd hmode
  | assigned m old new act dirty' rest' fs hs₁ hn hb hfs hs' =>
    rw [hs] at hs₁
    cases hs₁
    rw [hfs] at hs'
    exact ⟨hs', hn, hb⟩
  | checked _ _ _ _ _ _ hs₁ | applied _ _ _ _ hs₁ | drained _ _ _ _ _ _ _ hs₁
  | draining _ _ _ _ _ _ _ _ _ hs₁ =>
    rw [hs] at hs₁
    cases hs₁

theorem filterMap_link_starts (n : NodeId) (todo : List (Nat × NodeId)) :
    (todo.map fun p => (.subscribeDep n p.1 p.2 : Frame V)).filterMap (Frame.link n) =
      todo.map fun p => .start p.1 p.2 := by
  rw [filterMap_map, ← filterMap_eq_map]
  refine filterMap_congr ?_
  intro p _
  exact if_pos rfl

variable {g' : RewireLog V}

/-- A step while the removed deps are being drained. -/
theorem Phase.step_removing (hsplit : removedIdxs x.deps newDeps = done ++ removed)
    (hs : c.stack = fs ++ .rewireRemove n x.deps newDeps x.aux.activated removed dirty :: base)
    (hlinks : fs.filterMap (Frame.link n) = []) (h : Drained n x done c g) (hc : c.Orderly)
    (hstep : MutationStep (Steady n) n (c, g) (c', g')) : Phase n x newDeps base c' g' := by
  rcases hstep with ⟨hstep, hmode, -, -, hsteady, hlog⟩
  dsimp only at hstep hmode hsteady hlog
  cases fs with
  | cons f fs =>
    have habove : c.AboveStage n f fs
        (.rewireRemove n x.deps newDeps x.aux.activated removed dirty) base :=
      ⟨hs, ⟨_, if_pos rfl, by simp⟩, by simp [Frame.holds, Frame.node?]⟩
    have hf : f.link n = none := by
      rw [filterMap_eq_nil_iff] at hlinks
      exact hlinks f mem_cons_self
    rcases habove.keeps (g := g) hc (Drained.size hc h.live) hstep hmode hsteady hf with
      ⟨⟨gs, hs', hgs⟩, hwiring, hboxes, hnext⟩
    refine .removing done removed dirty (gs ++ fs) hsplit ?_ ?_ ?_
    · rw [hs', append_assoc]
    · rw [filterMap_cons_none hf] at hlinks
      rw [filterMap_append, hgs, hlinks, nil_append]
    · rw [hlog, hnext]
      exact h.aside hwiring hboxes
  | nil =>
    rw [nil_append] at hs
    cases removed with
    | nil =>
      have hdone : removedIdxs x.deps newDeps = done := by rw [hsplit, append_nil]
      rcases (step_stage hstep).of_drained hmode hs with ⟨hs', hn, hb⟩
      have hnext : g.next n c c' = g.aside n c c' := by
        unfold RewireLog.next
        rw [hs]
      refine .assigning dirty hs' ?_
      rw [hlog, hnext, hdone]
      exact h.aside (by rw [hn]) (fun _ _ _ => by rw [hb])
    | cons i removed =>
      rcases (step_stage hstep).of_draining hmode hs with ⟨⟨gs, dirty', hs', hgs⟩, hn, hb⟩
      have hi : i ∉ done := by
        have hnodup := nodup_removedIdxs x.deps newDeps
        rw [hsplit] at hnodup
        exact fun hi => (nodup_append.mp hnodup).2.2 i hi i mem_cons_self rfl
      have hnext : g' = { g with
          released := g.released ++
            [(i, (c.nodes n).unsubs.getD i none, (c.nodes n).dep.dirtyAt i)]
          dropped := g.dropped + ((c.nodes n).dep.pending - (c'.nodes n).dep.pending) } := by
        rw [hlog, RewireLog.next, hs]
        exact if_pos rfl
      refine .removing (done ++ [i]) removed dirty' gs ?_ hs' ?_ ?_
      · rw [hsplit, append_assoc]
        rfl
      · exact filterMap_eq_nil_iff.mpr fun f hf => Frame.link_of_isLink (hgs f hf) n
      · rw [hnext]
        exact h.drain hi hn hb

theorem Phase.step_assigning
    (hs : c.stack = .rewireAssign n x.deps newDeps x.aux.activated dirty :: base)
    (h : Drained n x (removedIdxs x.deps newDeps) c g) (hc : c.Orderly)
    (hstep : MutationStep (Steady n) n (c, g) (c', g')) : Phase n x newDeps base c' g' := by
  rcases hstep with ⟨hstep, hmode, -, -, -, hlog⟩
  dsimp only at hstep hmode hlog
  have hnew : newDeps.Nodup := by
    have htop : (.rewireAssign n x.deps newDeps x.aux.activated dirty : Frame V).stage n =
        some (.assign x.deps newDeps x.aux.activated dirty) := by rw [Frame.stage, if_pos rfl]
    have hflag := (hc.staged.stages n).flagged _ (by rw [stages_cons hs htop]; rfl) (by simp)
    exact hflag.2.2
  rcases (step_stage hstep).of_assigned hmode hs with ⟨hs', hn, hb⟩
  have hnext : g' = { g with moved := some ((c.nodes n).dep, (c'.nodes n).dep) } := by
    rw [hlog, RewireLog.next, hs]
    exact if_pos rfl
  refine .linking dirty _ [] (if x.aux.activated then addedDeps x.deps newDeps else []) hs' ?_
    (Or.inl rfl) ?_
  · rw [filterMap_append, nil_append]
    have hnotify : ([.notifyTopology n x.deps newDeps] : List (Frame V)).filterMap
        (Frame.link n) = [] := rfl
    rw [hnotify, append_nil]
    split_ifs
    · exact filterMap_link_starts n _
    · rfl
  · rw [hnext]
    exact h.assign hc hstep hnew rfl hn hb

/-- The subscription is there: the slot of the dep holds it and the box. -/
theorem step_depSubscribed (hstep : Step c c') (hmode : c.mode = .running)
    (hmode' : c'.mode = .running) {j : Nat} {d : NodeId} {id : Nat} {box : BoxId}
    (hs : c.stack = .depSubscribed n j d id box :: rest) :
    (j < (c.nodes n).unsubs.length ∧ j < (c.nodes n).idxBoxes.length) ∧ c'.stack = rest ∧
      c'.boxes = c.boxes ∧ c'.nodes n = { c.nodes n with
        unsubs := (c.nodes n).unsubs.set j (some (d, id))
        idxBoxes := (c.nodes n).idxBoxes.set j (some box)
        restoredHandshake := (c.nodes n).restoredHandshake.set j false } := by
  rcases hstep with ⟨env, hstep⟩
  rcases step_cases hstep with ⟨f, rest', hs', ⟨_, rfl⟩ | ⟨p, hunwind, _⟩⟩
  · rw [hs] at hs'
    cases hs'
    by_cases hin : j < (c.nodes n).unsubs.length ∧ j < (c.nodes n).idxBoxes.length ∧
        j < (c.nodes n).restoredHandshake.length
    · have hnext : (c.popTo rest).enter env (.depSubscribed n j d id box) =
          (c.popTo rest).setNode n { c.nodes n with
            unsubs := (c.nodes n).unsubs.set j (some (d, id))
            idxBoxes := (c.nodes n).idxBoxes.set j (some box)
            restoredHandshake := (c.nodes n).restoredHandshake.set j false } := by
        simp only [enter, depSubscribed]
        exact if_pos hin
      rw [hnext]
      exact ⟨⟨hin.1, hin.2.1⟩, rfl, rfl, Function.update_self _ _ _⟩
    · have hpanic : ((c.popTo rest).enter env (.depSubscribed n j d id box)).mode =
          .unwinding (.ordinary "index out of bounds") := by
        simp only [enter, depSubscribed]
        rw [if_neg (by simpa [popTo] using hin)]
        rfl
      rw [hmode'] at hpanic
      cases hpanic
  · rw [hmode] at hunwind
    cases hunwind

/-- A box that waits for its subscription keeps what it holds. -/
theorem box_of_handed (hc : c.Orderly) (hstep : Step c c') {b : BoxId} (hb : b ∈ c.handed) :
    c'.boxes b = c.boxes b := by
  have hfresh := hc.owned.fresh b hb
  exact (step_wire hstep).box hfresh.1 fun m _ i => hfresh.2 m i

/-- A step while the added deps are being subscribed. -/
theorem Phase.step_linking {pre : List Link} {todo : List (Nat × NodeId)}
    (hs : c.stack = fs ++ .rewireFinish n newDeps dirty :: base)
    (hlinks : fs.filterMap (Frame.link n) = pre ++ todo.map fun p => .start p.1 p.2)
    (hpre : pre = [] ∨ ∃ j d id box, pre = [.finish j d id box])
    (h : Moved n x newDeps pre todo c g) (hc : c.Orderly)
    (hstep : MutationStep (Steady n) n (c, g) (c', g')) : Phase n x newDeps base c' g' := by
  rcases hstep with ⟨hstep, hmode, hmode', hopen, hsteady, hlog⟩
  dsimp only at hstep hmode hmode' hopen hsteady hlog
  cases fs with
  | nil =>
    refine absurd ?_ hopen
    rw [AtEnd, hs]
    rfl
  | cons f fs =>
    have habove : c.AboveStage n f fs (.rewireFinish n newDeps dirty) base :=
      ⟨hs, ⟨_, if_pos rfl, by simp⟩, by simp [Frame.holds, Frame.node?]⟩
    have hown : ∀ i b, c.Owns n i b → c'.boxes b = c.boxes b :=
      fun i b hb => habove.box hc (step_wire hstep) hb
    rcases habove.links hc.staged hmode hsteady (step_wire hstep) with ⟨gs, hs', ⟨hf, hgs⟩ |
      ⟨j, d, rfl, hn, hb, rfl⟩ | ⟨j, d, id, box, rfl, hgs⟩⟩
    · -- Somebody else: what is under way stays under way.
      rcases habove.keeps (g := g) hc (Drained.size hc h.live) hstep hmode hsteady hf with
        ⟨_, hwiring, _, hnext⟩
      have hwaits : ∀ j d id box, .finish j d id box ∈ pre → c'.boxes box = c.boxes box := by
        intro j d id box hmem
        refine box_of_handed hc hstep ?_
        have hmem' : Link.finish j d id box ∈ (f :: fs).filterMap (Frame.link n) := by
          rw [hlinks]
          exact mem_append_left _ hmem
        rcases mem_filterMap.mp hmem' with ⟨k, hk, hlink⟩
        refine mem_filterMap.mpr ⟨k, ?_, Frame.boxOf_of_finish hlink⟩
        rw [hs]
        exact mem_append_left _ hk
      refine .linking dirty (gs ++ fs) pre todo ?_ ?_ hpre ?_
      · rw [hs', append_assoc]
      · rw [filterMap_cons_none hf] at hlinks
        rw [filterMap_append, hgs, hlinks, nil_append]
      · rw [hlog, hnext]
        exact h.aside hstep hwiring hown hwaits
    · -- The next subscription starts.
      have hlink : (.subscribeDep n j d : Frame V).link n = some (.start j d) := if_pos rfl
      rw [filterMap_cons_some hlink] at hlinks
      rcases hpre with rfl | ⟨j', d', id', box', rfl⟩
      · cases todo with
        | nil => cases hlinks
        | cons p todo =>
          rcases p with ⟨j', d'⟩
          rw [nil_append, map_cons, List.cons.injEq, Link.start.injEq] at hlinks
          rcases hlinks with ⟨⟨rfl, rfl⟩, hrest⟩
          have hnext : g.next n c c' = g.aside n c c' := by
            unfold RewireLog.next
            rw [hs, cons_append]
          refine .linking dirty (_ :: _ :: fs)
            [.finish j d (c.nodes d).aux.nextSubId c.nextBox] todo hs' ?_
            (Or.inr ⟨_, _, _, _, rfl⟩) ?_
          · have hwait : (.depSubscribed n j d (c.nodes d).aux.nextSubId c.nextBox :
                Frame V).link n = some (.finish j d (c.nodes d).aux.nextSubId c.nextBox) :=
              if_pos rfl
            rw [filterMap_cons_none rfl, filterMap_cons_some hwait, hrest]
            rfl
          · rw [hlog, hnext]
            exact h.start hc hstep hn hb _
      · cases hlinks
    · -- The subscription is there.
      have hlink : (.depSubscribed n j d id box : Frame V).link n =
          some (.finish j d id box) := if_pos rfl
      rw [filterMap_cons_some hlink] at hlinks
      rcases hpre with rfl | ⟨j', d', id', box', rfl⟩
      · cases todo <;> cases hlinks
      · rw [cons_append, List.cons.injEq, Link.finish.injEq] at hlinks
        rcases hlinks with ⟨⟨rfl, rfl, rfl, rfl⟩, hrest⟩
        rcases step_depSubscribed hstep hmode hmode' hs with ⟨hj, hstack, hb, hn⟩
        have hnext : g' = { g with linked := g.linked ++ [(j, d, id, box)] } := by
          rw [hlog, RewireLog.next, hs]
          exact if_pos rfl
        refine .linking dirty fs [] todo hstack hrest (Or.inl rfl) ?_
        rw [hnext]
        exact h.finish hstep hj hn hown (congrFun hb box)

/-- Every step of a rewire of `n`, and of whatever runs in between. -/
theorem Phase.step (h : Phase n x newDeps base c g) (hc : c.Orderly)
    (hstep : MutationStep (Steady n) n (c, g) (c', g')) : Phase n x newDeps base c' g' := by
  cases h with
  | removing done removed dirty fs hsplit hs hlinks h =>
    exact Phase.step_removing hsplit hs hlinks h hc hstep
  | assigning dirty hs h => exact Phase.step_assigning hs h hc hstep
  | linking dirty fs pre todo hs hlinks hpre h =>
    exact Phase.step_linking hs hlinks hpre h hc hstep

variable {a : Config V S}

theorem Phase.start {f : FnId} (hs : a.stack = .rewireApply n newDeps f :: rest)
    (hlive : (a.nodes n).live = true) (hdeps : (a.nodes n).deps ≠ newDeps)
    (hstep : MutationStep (Steady n) n (a, {}) (c, g)) :
    Phase n (a.nodes n) newDeps (.depMutationGuard n :: rest) c g := by
  rcases hstep with ⟨⟨env, hstep⟩, hmode, -, -, -, hlog⟩
  dsimp only at hstep hmode hlog
  rcases step_cases hstep with ⟨k, rest', hs', ⟨_, rfl⟩ | ⟨p, hunwind, _⟩⟩
  · rw [hs] at hs'
    cases hs'
    have hnext : (a.popTo rest).enter env (.rewireApply n newDeps f) =
        ((a.popTo rest).setNode n { swapFnPreservingPool (a.nodes n) f with
          wave := { (swapFnPreservingPool (a.nodes n) f).wave with
            inDepMutation := true
            rewireRunPending := false } }).push
        [.rewireRemove n (a.nodes n).deps newDeps (a.nodes n).aux.activated
          (removedIdxs (a.nodes n).deps newDeps) false, .depMutationGuard n] := by
      simp only [enter, rewireApply]
      exact if_neg hdeps
    have hempty : g = { quiet := True ∧ ((none : Option (DepState V × DepState V)) = none →
        (((a.popTo rest).enter env (.rewireApply n newDeps f)).nodes n).dep =
          (a.nodes n).dep) } := by
      rw [hlog, RewireLog.next, hs]
      rfl
    have hself : ((a.popTo rest).enter env (.rewireApply n newDeps f)).nodes n =
        { swapFnPreservingPool (a.nodes n) f with
          wave := { (swapFnPreservingPool (a.nodes n) f).wave with
            inDepMutation := true
            rewireRunPending := false } } := by
      rw [hnext]
      exact Function.update_self _ _ _
    refine .removing [] (removedIdxs (a.nodes n).deps newDeps) false [] rfl ?_ rfl ?_
    · rw [hnext]
      rfl
    · refine ⟨?_, ?_, ?_, ?_, ?_, ?_, ?_, ?_, ?_, ?_⟩
      · intro i
        rw [hself, if_neg not_mem_nil]
        rfl
      · rw [hself]
        rfl
      · rw [hself]
        rfl
      · rw [hself]
        exact hlive
      · exact fun i hi => absurd hi not_mem_nil
      · rw [hempty]
        rfl
      · rw [hempty]
        rfl
      · rw [hempty]
      · rw [hempty]
      · intro _
        rw [hself, countP_nil]
        simp [swapFnPreservingPool]
  · rw [hmode] at hunwind
    cases hunwind

variable {b : Config V S}

theorem Phase.run {f : FnId} (ha : a.Orderly) (hs : a.stack = .rewireApply n newDeps f :: rest)
    (hlive : (a.nodes n).live = true) (hdeps : (a.nodes n).deps ≠ newDeps)
    (hrun : Relation.ReflTransGen (MutationStep (Steady n) n) (a, {}) (b, g)) :
    b.Orderly ∧ ((b, g) = (a, {}) ∨ Phase n (a.nodes n) newDeps
      (.depMutationGuard n :: rest) b g) := by
  -- The log is part of the state of the run.
  have hind : ∀ p, Relation.ReflTransGen (MutationStep (Steady n) n) (a, {}) p → p.1.Orderly ∧
      (p = (a, {}) ∨ Phase n (a.nodes n) newDeps (.depMutationGuard n :: rest) p.1 p.2) := by
    intro p hp
    induction hp with
    | refl => exact ⟨ha, Or.inl rfl⟩
    | tail _ hlast ih =>
      refine ⟨step_orderly hlast.1 ih.1, Or.inr ?_⟩
      rcases ih.2 with rfl | hphase
      · exact Phase.start hs hlive hdeps hlast
      · exact hphase.step ih.1 hlast
  exact hind (b, g) hrun

/-- Where the stack is back at the end of the rewire, everything is done. -/
theorem Phase.kept {deps : List NodeId} (h : Phase n x newDeps base b g) (hb : b.Orderly)
    (hs : b.stack = .rewireFinish n deps dirty :: rest) :
    RewireKept x (b.nodes n) b.boxes newDeps g := by
  have hstage : (.rewireFinish n deps dirty : Frame V).stage n = some (.finish deps dirty) :=
    if_pos rfl
  have hdeps : (b.nodes n).deps = deps := by
    have hflag := (hb.staged.stages n).flagged _ (by rw [stages_cons hs hstage]; rfl) (by simp)
    exact hflag.2
  -- Above another stage of the rewire there is no stage.
  have hnone : ∀ {fs : List (Frame V)} {T : Frame V}, b.stack = fs ++ T :: base →
      (∃ st, T.stage n = some st ∧ st ≠ .guard) → T.holds n = true → fs = [] := by
    intro fs T hs' hT hholds
    cases fs with
    | nil => rfl
    | cons k fs =>
      have habove : b.AboveStage n k fs T base := ⟨hs', hT, hholds⟩
      rw [hs, cons_append, List.cons.injEq] at hs'
      have htop := (habove.top hb.staged).1
      rw [← hs'.1, hstage] at htop
      cases htop
  cases h with
  | removing done removed dirty' fs hsplit hs' hlinks h =>
    have hfs := hnone hs' ⟨_, if_pos rfl, by simp⟩ (by simp [Frame.holds, Frame.node?])
    rw [hfs, hs] at hs'
    cases hs'
  | assigning dirty' hs' h =>
    rw [hs] at hs'
    cases hs'
  | linking dirty' fs pre todo hs' hlinks hpre h =>
    have hfs := hnone hs' ⟨_, if_pos rfl, by simp⟩ (by simp [Frame.holds, Frame.node?])
    rw [hfs, hs] at hs'
    cases hs'
    rw [hfs, filterMap_nil] at hlinks
    have hpre' : pre = [] := append_eq_nil_iff.mp hlinks.symm |>.1
    have htodo : todo = [] := map_eq_nil_iff.mp (append_eq_nil_iff.mp hlinks.symm).2
    have hadded := h.added
    rw [hpre', htodo, map_nil, append_nil, append_nil] at hadded
    exact ⟨hdeps, h.handle, h.routed, h.record, h.released,
      fun i hi b hib => (h.drained i hi b hib).1, h.dropped, hadded.symm, h.linked⟩

/-- A stage that is under way is the innermost one. -/
theorem AboveStage.head_stage {below : List (Frame V)}
    (h : c.AboveStage n f fs T below) (hstaged : c.Staged) :
    ∃ st, T.stage n = some st ∧ st ≠ .guard ∧ (c.stages n).head? = some st := by
  rcases h.mutating with ⟨st, hst, hguard⟩
  refine ⟨st, hst, hguard, ?_⟩
  have hsplit : c.stages n = (f :: fs).filterMap (Frame.stage n) ++
      st :: below.filterMap (Frame.stage n) := by
    rw [stages, h.stack, ← cons_append, filterMap_append, filterMap_cons_some hst]
  have htail := (hstaged.stages n).guards
  rw [hsplit] at htail ⊢
  cases hfs : (f :: fs).filterMap (Frame.stage n) with
  | nil => rfl
  | cons st' sts =>
    rw [hfs] at htail
    refine absurd (htail st ?_) hguard
    exact mem_append_right _ mem_cons_self

/-- The rewire itself does not panic: where an added dep is subscribed, the
    arrays have a place for it. -/
theorem Phase.calm {b' : Config V S}
    (h : Phase n x newDeps base b g) (hb : b.Orderly) (hmode : b.mode = .running)
    (hs : b.stack = f :: rest) (hown : f.stage n ≠ none ∨ f.link n ≠ none) (hstep : Step b b') :
    b'.mode = .running := by
  rcases hstep with ⟨env, hstep⟩
  rcases step_cases hstep with ⟨k, rest', hs', ⟨_, rfl⟩ | ⟨p, hunwind, _⟩⟩
  · rw [hs] at hs'
    cases hs'
    cases f with
    | rewireRemove m old new act removed dirty =>
      cases removed <;> exact hmode
    | rewireAssign m old new act dirty => exact hmode
    | rewireFinish m new dirty =>
      simp only [enter, rewireFinish]
      split_ifs <;> exact hmode
    | depMutationGuard m =>
      simp only [enter, depMutationGuard]
      split_ifs <;> exact hmode
    | subscribeDep m j d => exact hmode
    | depSubscribed m j d id box =>
      have hm : m = n := by
        rcases hown with hown | hown
        · exact absurd rfl hown
        · by_contra hm
          exact hown (if_neg hm)
      subst hm
      have hlink : (.depSubscribed m j d id box : Frame V).link m = some (.finish j d id box) :=
        if_pos rfl
      have hin : j < (b.nodes m).unsubs.length ∧ j < (b.nodes m).idxBoxes.length ∧
          j < (b.nodes m).restoredHandshake.length := by
        cases h with
        | removing done removed dirty fs hsplit hs' hlinks h =>
          cases fs with
          | nil =>
            rw [hs] at hs'
            cases hs'
          | cons k fs =>
            rw [hs, cons_append, List.cons.injEq] at hs'
            rw [← hs'.1, filterMap_cons_some hlink] at hlinks
            cases hlinks
        | assigning dirty hs' h =>
          rw [hs] at hs'
          cases hs'
        | linking dirty fs pre todo hs' hlinks hpre h =>
          cases fs with
          | nil =>
            rw [hs] at hs'
            cases hs'
          | cons k fs =>
            have habove : b.AboveStage m k fs (.rewireFinish m newDeps dirty) base :=
              ⟨hs', ⟨_, if_pos rfl, by simp⟩, by simp [Frame.holds, Frame.node?]⟩
            rcases habove.head_stage hb.staged with ⟨st, hst, hguard, hhead⟩
            rw [Frame.stage, if_pos rfl, Option.some.injEq] at hst
            have hdeps : (b.nodes m).deps = newDeps := by
              have hfits := ((hb.staged.stages m).flagged st hhead hguard).2
              rw [← hst] at hfits
              exact hfits
            rw [hs, cons_append, List.cons.injEq] at hs'
            rw [← hs'.1, filterMap_cons_some hlink] at hlinks
            have hpre' : pre = [.finish j d id box] := by
              rcases hpre with rfl | ⟨j', d', id', box', rfl⟩
              · cases todo <;> cases hlinks
              · rw [cons_append, List.cons.injEq] at hlinks
                rw [← hlinks.1]
            have hadded := h.added
            split_ifs at hadded with hact
            · have hmem : (j, d) ∈ addedDeps x.deps newDeps := by
                rw [hadded, hpre']
                exact mem_append_right _ mem_cons_self
              have hj := (addedDeps_fresh hmem).1
              have hfit := hb.fitted m
              have hunsubs := hfit.active h.live (h.activated.trans hact)
              rw [← hfit.boxes h.live, hunsubs, hfit.handshake, hdeps]
              exact ⟨hj, hj, hj⟩
            · rw [hpre'] at hadded
              simp at hadded
      simp only [enter, depSubscribed]
      rw [if_pos (by simpa [popTo] using hin)]
      exact hmode
    | _ =>
      rcases hown with hown | hown <;> exact absurd rfl hown
  · rw [hmode] at hunwind
    cases hunwind

/-- No dep is released or subscribed more often than it should be. -/
theorem Phase.bounded (h : Phase n x newDeps base b g) :
    g.released.length ≤ (removedIdxs x.deps newDeps).length ∧
      g.linked.length ≤ (addedDeps x.deps newDeps).length := by
  cases h with
  | removing done removed dirty fs hsplit hs' hlinks h =>
    have hlength := congrArg List.length h.released
    rw [length_map, length_map] at hlength
    rw [hlength, hsplit, h.linked, length_append]
    exact ⟨Nat.le_add_right _ _, Nat.zero_le _⟩
  | assigning dirty hs' h =>
    have hlength := congrArg List.length h.released
    rw [length_map, length_map] at hlength
    rw [hlength, h.linked]
    exact ⟨Nat.le_refl _, Nat.zero_le _⟩
  | linking dirty fs pre todo hs' hlinks hpre h =>
    have hlength := congrArg List.length h.released
    rw [length_map, length_map] at hlength
    have hadded := congrArg List.length h.added
    rw [length_append, length_map] at hadded
    refine ⟨hlength.le, ?_⟩
    split_ifs at hadded
    · omega
    · rw [length_nil] at hadded
      omega

end Phase

/-! ### The whole rewire -/

/-- A rewire to the deps the node has changes nothing but its fn and flags. -/
theorem step_rewireApply_same {f : FnId} {rest : List (Frame V)}
    (hstep : Step c c') (hmode : c.mode = .running)
    (hs : c.stack = .rewireApply n (c.nodes n).deps f :: rest) :
    c'.mode = .running ∧ c'.stack = rest ∧ c'.boxes = c.boxes ∧
      (c'.nodes n).deps = (c.nodes n).deps ∧ (c'.nodes n).unsubs = (c.nodes n).unsubs ∧
      (c'.nodes n).idxBoxes = (c.nodes n).idxBoxes ∧ (c'.nodes n).dep = (c.nodes n).dep := by
  rcases hstep with ⟨env, hstep⟩
  rcases step_cases hstep with ⟨k, rest', hs', ⟨_, rfl⟩ | ⟨p, hunwind, _⟩⟩
  · rw [hs] at hs'
    cases hs'
    have hnext : (c.popTo rest).enter env (.rewireApply n (c.nodes n).deps f) =
        (c.popTo rest).setNode n { swapFnPreservingPool (c.nodes n) f with
          wave := { (swapFnPreservingPool (c.nodes n) f).wave with
            inDepMutation := false
            rewireRunPending := false } } := by
      simp only [enter, rewireApply]
      exact if_pos rfl
    rw [hnext]
    simp only [setNode, Function.update_self]
    exact ⟨hmode, rfl, rfl, rfl, rfl, rfl, rfl⟩
  · rw [hmode] at hunwind
    cases hunwind

/-- A rewire of a node that nobody activates or deactivates in between leaves
    what it should, does not panic itself, and all its matchings agree. -/
theorem rewire_keeps_deps {a : Config V S} (hreach : Relation.ReflTransGen Step initial a)
    {n : NodeId} {newDeps : List NodeId} {f : FnId} {rest : List (Frame V)}
    (hs : a.stack = .rewireApply n newDeps f :: rest) (hlive : (a.nodes n).live = true) :
    ((a.nodes n).deps = newDeps → ∀ b, Step a b → b.mode = .running ∧ b.stack = rest ∧
      b.boxes = a.boxes ∧ (b.nodes n).deps = newDeps ∧
      (b.nodes n).unsubs = (a.nodes n).unsubs ∧ (b.nodes n).idxBoxes = (a.nodes n).idxBoxes ∧
      (b.nodes n).dep = (a.nodes n).dep) ∧
    ((a.nodes n).deps ≠ newDeps → ∀ b g,
      Relation.ReflTransGen (MutationStep (Steady n) n) (a, {}) (b, g) →
      (b.AtEnd n → RewireKept (a.nodes n) (b.nodes n) b.boxes newDeps g) ∧
      (∀ k below b', b.stack = k :: below → k.stage n ≠ none ∨ k.link n ≠ none → Step b b' →
        b'.mode = .running) ∧
      g.released.length ≤ (removedIdxs (a.nodes n).deps newDeps).length ∧
      g.linked.length ≤ (addedDeps (a.nodes n).deps newDeps).length) ∧
    (∀ oldDeps deps : List NodeId,
      matchSmall oldDeps (dedupCores deps) = matchHashed oldDeps (dedupCores deps) ∧
      (sameGraphNoOverlap oldDeps (dedupCores deps) = true →
        matchSmall oldDeps (dedupCores deps) = .start oldDeps (dedupCores deps)) ∧
      (rewireMatching oldDeps (dedupCores deps)).newToOld = newToOld oldDeps (dedupCores deps) ∧
      (rewireMatching oldDeps (dedupCores deps)).removed oldDeps =
        removedIdxs oldDeps (dedupCores deps) ∧
      (rewireMatching oldDeps (dedupCores deps)).added (dedupCores deps) =
        addedDeps oldDeps (dedupCores deps)) := by
  have ha := reach_orderly hreach
  have hmode : a.mode = .running := ha.staged.running _ (by rw [hs]; rfl) rfl
  refine ⟨?_, ?_, ?_⟩
  · rintro rfl b hstep
    exact step_rewireApply_same hstep hmode hs
  · intro hdeps b g hrun
    rcases Phase.run ha hs hlive hdeps hrun with ⟨hb, heq | hphase⟩
    · -- Before the first step the rewire has not begun.
      cases heq
      refine ⟨?_, ?_, Nat.zero_le _, Nat.zero_le _⟩
      · intro hend
        rw [AtEnd, hs] at hend
        exact hend.elim
      · intro k below b' hk hown
        rw [hs] at hk
        cases hk
        rcases hown with hown | hown <;> exact absurd rfl hown
    · refine ⟨?_, ?_, hphase.bounded⟩
      · intro hend
        unfold AtEnd at hend
        split at hend
        · rename_i m new dirty below hs'
          subst hend
          exact hphase.kept hb hs'
        · exact hend.elim
      · intro k below b' hk hown hstep
        refine hphase.calm hb ?_ hk hown hstep
        rcases Relation.ReflTransGen.cases_tail hrun with heq | ⟨p, _, hlast⟩
        · cases heq
          exact hmode
        · exact hlast.2.2.1
  · intro oldDeps deps
    exact matchings_agree (FirstSeen.nodup_firstSeen deps)

/-- A run that meets the conditions, with some log. -/
theorem mutationSteps {guard : Config V S → Prop} {a b : Config V S}
    (hrun : GuardedReach (fun c => c.mode = .running ∧ ¬ c.AtEnd n ∧ guard c) a b)
    (hmode : b.mode = .running) (g : RewireLog V) :
    ∃ g', Relation.ReflTransGen (MutationStep guard n) (a, g) (b, g') := by
  induction hrun with
  | refl => exact ⟨g, .refl⟩
  | @tail b c _ hlast ih =>
    rcases ih hlast.2.1 with ⟨g', hsteps⟩
    refine ⟨g'.next n b c, hsteps.tail ?_⟩
    exact ⟨hlast.1, hlast.2.1, hmode, hlast.2.2.1, hlast.2.2.2, rfl⟩

-- One dep is dirty and removed, one is kept, one is added.
def keptRewire : Env Nat Unit := Env.scripted fun cb => match cb with
  | .main => [.newNode { initial := some 1 }, .newNode { initial := some 2 },
      .newNode { initial := some 3 }, .newNode { deps := [0, 1], handle := some (0, .sync) },
      .subscribe 3 0, .down 0 [.dirty], .rewire 3 (.set [1, 2] 1)]
  | .fn _ _ => [.ctxDown [.data 5]]
  | _ => []

theorem rewire_keeps_deps_keptRewire :
    ∃ g, RewireKept ((initial.run keptRewire 69).nodes 3) ((initial.run keptRewire 86).nodes 3)
      (initial.run keptRewire 86).boxes [1, 2] g := by
  have hany : GuardedReach (fun _ => True) initial (initial.run keptRewire 69) :=
    guardedReach_run keptRewire 69 initial fun _ _ => trivial
  have hreach : Relation.ReflTransGen Step initial (initial.run keptRewire 69) :=
    Relation.ReflTransGen.mono (fun _ _ h => h.1) _ _ hany
  have hrun : GuardedReach (fun c => c.mode = .running ∧ ¬ c.AtEnd 3 ∧ c.Steady 3)
      (initial.run keptRewire 69) ((initial.run keptRewire 69).run keptRewire 17) :=
    guardedReach_run keptRewire 17 (initial.run keptRewire 69) (by decide +kernel)
  rcases mutationSteps hrun (by decide +kernel) {} with ⟨g, hsteps⟩
  have hstart : (initial.run keptRewire 69).AtStart 3 [1, 2] := by decide +kernel
  rcases hstart.stack with ⟨f, rest, hs⟩
  have hkeeps := (rewire_keeps_deps hreach hs (by decide +kernel)).2.1
    (by decide +kernel) _ g hsteps
  exact ⟨g, hkeeps.1 (by decide +kernel)⟩

/-- In every run an index box has one owner, and a node is in one rewire at most,
    marked while it is, with dep records that fit its deps. -/
theorem rewires_apart (c : Config V S) (hrun : GuardedReach (fun _ => True) initial c) :
    (∀ n i m j b, c.Owns n i b → c.Owns m j b → n = m ∧ i = j) ∧
      ∀ n, c.StagesOk n ∧ (c.nodes n).Fitted := by
  have h := reach_orderly (Relation.ReflTransGen.mono (fun _ _ h => h.1) _ _ hrun)
  exact ⟨h.owned.single, fun n => ⟨h.staged.stages n, h.fitted n⟩⟩

theorem rewires_apart_keptRewire : ((initial.run keptRewire 69).nodes 3).Fitted :=
  ((rewires_apart _ (guardedReach_run keptRewire 69 initial fun _ _ => trivial)).2 3).2

-- The cleanup hook of the removed dep drops the only subscription of the node.
def deactivatingHook : Env Nat Unit := Env.scripted fun cb => match cb with
  | .main => [.newNode { initial := some 1 }, .newNode { deps := [0], handle := some (0, .sync) },
      .newNode { initial := some 3 }, .newNode { deps := [1, 0], handle := some (1, .sync) },
      .subscribe 3 0, .rewire 3 (.set [0, 2] 2)]
  | .fn 0 _ => [.ctxOnDeactivation 0, .ctxDown [.data 5]]
  | .hook _ => [.unsubscribe 3 0]
  | _ => []

/-- Without the condition a kept dep can lose its subscription. -/
theorem deactivated_in_rewire :
    ¬ ∀ (a : Config Nat Unit) (n : NodeId) (newDeps : List NodeId),
      Relation.ReflTransGen Step initial a → a.AtStart n newDeps → (a.nodes n).live = true →
      (a.nodes n).deps ≠ newDeps → ∀ b g,
      Relation.ReflTransGen (MutationStep (fun _ => True) n) (a, {}) (b, g) → b.AtEnd n →
      RewireKept (a.nodes n) (b.nodes n) b.boxes newDeps g := by
  intro h
  have hany : GuardedReach (fun _ => True) initial (initial.run deactivatingHook 70) :=
    guardedReach_run deactivatingHook 70 initial fun _ _ => trivial
  have hreach : Relation.ReflTransGen Step initial (initial.run deactivatingHook 70) :=
    Relation.ReflTransGen.mono (fun _ _ h => h.1) _ _ hany
  have hrun : GuardedReach (fun c => c.mode = .running ∧ ¬ c.AtEnd 3 ∧ True)
      (initial.run deactivatingHook 70) ((initial.run deactivatingHook 70).run
        deactivatingHook 24) :=
    guardedReach_run deactivatingHook 24 (initial.run deactivatingHook 70) (by decide +kernel)
  rcases mutationSteps hrun (by decide +kernel) {} with ⟨g, hsteps⟩
  have hkept := h _ 3 [0, 2] hreach (by decide +kernel) (by decide +kernel) (by decide +kernel) _ g
    hsteps (by decide +kernel)
  have hkeeps : Keeps ((initial.run deactivatingHook 70).nodes 3).deps [0, 2] 0 1 := by
    unfold Keeps
    decide +kernel
  have hhandle := (hkept.handle 0 1 hkeeps).1
  revert hhandle
  decide +kernel

end Config

end GraphRefly
