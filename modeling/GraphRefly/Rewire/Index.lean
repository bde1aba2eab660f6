import GraphRefly.Safety.Plain
import GraphRefly.Lib.FirstSeen

/-!
# The Index of a New Dep

`Node::subscribe_dep` answers at once with the index the dep will have, also
when the rewire it asks for waits for the open batch to end. The answer replays
the waiting requests over the current deps. The application does more: it
drops repeats after every request. The two agree up to the repeats, so the
index is right exactly when no dep is repeated before the new one in the
replayed list.

Which rewires a run carries out is read off its steps: a rewire starts where a
request is taken from its caller or from the queue, and is over where the dep
list is assigned.

## Main definitions

* `Config.pendingRewires`, `Config.projectPendingExternalRewireDeps`: The
  waiting requests and the list they make.
* `Config.subscribeDepIndex`: The index `Node::subscribe_dep` returns.
* `Config.rewiring`: The rewires of a node under way on the stack.
* `Config.rewireStart`, `Config.rewireDone`: Where a rewire starts and ends.
* `Progress`, `Config.TrackedStep`: The rewires a run carries out.

## Theorems

* `firstSeen_foldl_projectDeps`: Replay and application agree up to repeats.
* `step_rewiring`: What one step does to the rewires under way.
* `tracked_deps`: The dep list a run leaves.
* `subscribe_dep_index`: When the index is right.
-/

namespace GraphRefly

open List FirstSeen

variable {V S : Type}

/-! ### Replaying requests -/

theorem dedupCores_eq (deps : List NodeId) : dedupCores deps = firstSeen deps := rfl

namespace RewireRequest

theorem firstSeen_projectDeps (req : RewireRequest) (deps : List NodeId) :
    firstSeen (req.projectDeps (firstSeen deps)) = firstSeen (req.projectDeps deps) := by
  cases req with
  | set new f => rfl
  | add d f =>
    have hadd : ∀ current, (add d f).projectDeps current = addNew current d := fun _ => rfl
    rw [hadd, hadd, firstSeen_addNew, firstSeen_addNew, firstSeen_idem]
  | remove d f =>
    simp only [projectDeps]
    rw [firstSeen_filter, firstSeen_filter, firstSeen_idem]

/-- The dep list a successful rewire leaves. -/
def applyDeps (deps : List NodeId) (req : RewireRequest) : List NodeId :=
  dedupCores (req.projectDeps deps)

/-- Dropping repeats after every request or only at the end is the same. -/
theorem firstSeen_foldl_projectDeps (reqs : List RewireRequest) (deps : List NodeId) :
    firstSeen (reqs.foldl applyDeps deps) =
      firstSeen (reqs.foldl (fun ds req => req.projectDeps ds) deps) := by
  induction reqs using List.reverseRecOn with
  | nil => rfl
  | append_singleton reqs req ih =>
    rw [foldl_append, foldl_append]
    simp only [foldl_cons, foldl_nil, applyDeps, dedupCores_eq]
    rw [firstSeen_idem, ← firstSeen_projectDeps, ih, firstSeen_projectDeps]

end RewireRequest

/-- The request a rewire task carries. -/
def TaskKind.request? : TaskKind V → Option RewireRequest
  | .rewire req => some req
  | .externalRewire req => some req
  | _ => none

/-- The list a rewire of `n` under way in this frame will assign. -/
def Frame.rewiring (n : NodeId) : Frame V → Option (List NodeId)
  | .rewireInner m newDeps _ _ => if m = n then some (dedupCores newDeps) else none
  | .rewireApply m newDeps _ => if m = n then some newDeps else none
  | .rewireRemove m _ newDeps _ _ _ => if m = n then some newDeps else none
  | .rewireAssign m _ newDeps _ _ => if m = n then some newDeps else none
  | _ => none

theorem Frame.rewiring_of_isPlain {f : Frame V} (h : f.isPlain = true) (n : NodeId) :
    f.rewiring n = none := by
  cases f <;> first | rfl | cases h

theorem filterMap_rewiring_of_isPlain {fs : List (Frame V)} (h : ∀ f ∈ fs, f.isPlain = true)
    (n : NodeId) : fs.filterMap (Frame.rewiring n) = [] := by
  rw [filterMap_eq_nil_iff]
  exact fun f hf => Frame.rewiring_of_isPlain (h f hf) n

namespace Config

/-! ### The answer of `subscribe_dep` -/

/-- The external rewires of `n` that wait in the queue. -/
def pendingRewires (c : Config V S) (n : NodeId) : List RewireRequest :=
  c.boundary.filterMap fun t => match t.kind with
    | .externalRewire req => if t.target = n then some req else none
    | _ => none

/-- The dep list the waiting external rewires make of the current one. -/
def projectPendingExternalRewireDeps (c : Config V S) (n : NodeId) : List NodeId :=
  (c.pendingRewires n).foldl (fun deps req => req.projectDeps deps) (c.nodes n).deps

/-- The index `Node::subscribe_dep` returns. -/
def subscribeDepIndex (c : Config V S) (n dep : NodeId) : Nat :=
  let next := c.projectPendingExternalRewireDeps n
  (if dep ∈ next then next else next ++ [dep]).idxOf dep

/-! ### The rewires a run carries out -/

/-- The rewires of `n` under way, the innermost first. -/
def rewiring (c : Config V S) (n : NodeId) : List (List NodeId) :=
  c.stack.filterMap (Frame.rewiring n)

/-- The request for `n` that the next step starts to carry out: one of a caller
    that no batch holds back, or one the drain takes from the queue. -/
def rewireStart (c : Config V S) (n : NodeId) : Option RewireRequest :=
  match c.mode, c.stack with
  | .running, .externalRewire m req :: _ =>
    if m = n ∧ c.committedAfterBatch n = none then some req else none
  | .running, .drainLoop _ _ :: _ =>
    match c.boundary with
    | t :: _ =>
      if t.target = n ∧ c.tokenSet t.token = true ∧ (c.nodes n).live = true ∧
          (t.kind.waitsForResume && (c.nodes n).isPaused) = false then
        t.kind.request?
      else none
    | [] => none
  | _, _ => none

/-- The next step ends a rewire of `n`: it assigns the dep list, or finds it
    unchanged. -/
def rewireDone (c : Config V S) (n : NodeId) : Bool :=
  match c.mode, c.stack with
  | .running, .rewireApply m newDeps _ :: _ => m == n && (c.nodes n).deps == newDeps
  | .running, .rewireAssign m _ _ _ _ :: _ => m == n
  | _, _ => false

end Config

/-- The rewires of one node along a run: the request under way and those
    carried out. -/
structure Progress where
  underWay : Option RewireRequest := none
  carried : List RewireRequest := []
  deriving DecidableEq

namespace Config

/-- Follow one step. There is no following a rewire that starts inside another
    one, or the end of one whose start was not seen. -/
def track (n : NodeId) (c : Config V S) (p : Progress) : Option Progress :=
  match c.rewireStart n with
  | some req =>
    if p.underWay = none ∧ c.rewiring n = [] then some { p with underWay := some req } else none
  | none =>
    if c.rewireDone n then
      p.underWay.map fun req => ⟨none, p.carried ++ [req]⟩
    else some p

/-- A step of a run whose rewires of `n` are followed. -/
def TrackedStep (n : NodeId) (a b : Config V S × Progress) : Prop :=
  Step a.1 b.1 ∧ a.1.track n a.2 = some b.2

/-! ### What one step does -/

/-- The dep list of `n` stays, and no rewire of `n` joins those under way. -/
structure Undisturbed (n : NodeId) (c c' : Config V S) : Prop where
  size : c.size ≤ c'.size
  deps : (c'.nodes n).deps = (c.nodes n).deps
  rewiring : (c'.rewiring n).Sublist (c.rewiring n)

namespace Undisturbed

variable {n : NodeId} {c c' : Config V S}

variable {F : List (Frame V)}

theorem of_push (hsize : c.size ≤ c'.size)
    (hdeps : (c'.nodes n).deps = (c.nodes n).deps) (hs : c'.stack = F ++ c.stack)
    (hF : F.filterMap (Frame.rewiring n) = []) : Undisturbed n c c' := by
  refine ⟨hsize, hdeps, ?_⟩
  rw [Config.rewiring, hs, filterMap_append, hF]
  exact List.Sublist.refl _

theorem of_plain (h : Plain c c') : Undisturbed n c c' := by
  rcases h.stack with ⟨fs, hs, hfs⟩
  exact of_push (Nat.le_of_eq h.size.symm) (h.deps n) hs (filterMap_rewiring_of_isPlain hfs n)

theorem of_silent (h : Silent c c') : Undisturbed n c c' :=
  of_plain h.plain

theorem refl (n : NodeId) (c : Config V S) : Undisturbed n c c :=
  of_plain (Footprint.refl c)

theorem trans {c'' : Config V S} (h : Undisturbed n c c') (h' : Undisturbed n c' c'') :
    Undisturbed n c c'' where
  size := Nat.le_trans h.size h'.size
  deps := h'.deps.trans h.deps
  rewiring := h'.rewiring.trans h.rewiring

variable {f : Frame V} {rest : List (Frame V)}

theorem of_pop (hs : c.stack = f :: rest)
    (h : Undisturbed n (c.popTo rest) c') : Undisturbed n c c' := by
  refine ⟨h.size, h.deps, h.rewiring.trans ?_⟩
  rw [Config.rewiring, Config.rewiring, hs]
  exact (sublist_cons_self f rest).filterMap _

theorem of_same (hsize : c'.size = c.size) (hn : c'.nodes = c.nodes) (hs : c'.stack = c.stack) :
    Undisturbed n c c' :=
  of_push (F := []) (Nat.le_of_eq hsize.symm) (by rw [hn]) hs rfl

theorem deferBoundary (target : NodeId) (kind : TaskKind V) (token : Option Nat) :
    Undisturbed n c (c.deferBoundary target kind token) :=
  (of_silent (Inert.registerBoundaryRoot c).silent).trans (of_same rfl rfl rfl)

theorem closeUncommitted (roots : Bool) : Undisturbed n c (c.closeUncommitted roots) := by
  unfold Config.closeUncommitted
  dsimp only
  split_ifs
  · exact of_same rfl rfl rfl
  · exact of_same rfl rfl rfl

theorem drainFinish (escaped : Option Payload) : Undisturbed n c (c.drainFinish escaped) := by
  unfold Config.drainFinish
  cases escaped with
  | none => exact of_same rfl rfl rfl
  | some p => exact of_same rfl rfl rfl

theorem of_stage (hs : c.stack = f :: rest)
    (hsize : c.size ≤ c'.size) (hdeps : (c'.nodes n).deps = (c.nodes n).deps)
    (hs' : c'.stack = F ++ rest)
    (hF : (F.filterMap (Frame.rewiring n)).Sublist ([f].filterMap (Frame.rewiring n))) :
    Undisturbed n c c' := by
  refine ⟨hsize, hdeps, ?_⟩
  rw [Config.rewiring, Config.rewiring, hs, hs', filterMap_append,
    ← singleton_append, filterMap_append]
  exact hF.append (List.Sublist.refl _)

end Undisturbed

variable {n : NodeId}

theorem perform_undisturbed (c : Config V S) (hn : n < c.size) (cb : Callback V)
    (o : UserOp V S) : Undisturbed n c (c.perform cb o) := by
  cases perform_cases c cb o with
  | inert h => exact .of_silent h.silent
  | created spec _ h =>
    rw [h]
    unfold newNode
    split_ifs
    · exact .of_plain ((Footprint.refl c).panic _)
    · refine .of_push (F := []) (Nat.le_succ _) ?_ rfl rfl
      simp only [setNode]
      rw [Function.update_of_ne (Nat.ne_of_lt hn)]
    · exact .refl n c
  | dropped m _ h =>
    rw [h]
    unfold dropNode
    dsimp only
    split_ifs
    · have hfs : ∀ f ∈ unsubFrames (c.nodes m) ++ hookFrames (c.nodes m).aux.onDeactivation,
          f.isPlain = true := by
        intro f hf
        refine Frame.isPlain_of_isSilent f ?_
        rcases mem_append.mp hf with hf | hf
        · exact Silent.unsubFrames _ f hf
        · exact Silent.hookFrames _ f hf
      refine .of_push (Nat.le_refl _) ?_ rfl (filterMap_rewiring_of_isPlain hfs n)
      by_cases hm : n = m
      · subst hm
        simp only [push, setNode, Function.update_self]
      · simp only [push, setNode, Function.update_of_ne hm]
    · exact .refl n c
  | rewired m req _ _ h =>
    rw [h]
    exact .of_push (F := [.externalRewire m req]) (Nat.le_refl _) rfl rfl rfl
  | deferred m kind _ h => rw [h]; exact .deferBoundary m kind _

theorem stepUser_undisturbed (env : Env V S) (c : Config V S) (hn : n < c.size)
    (cb : Callback V) (i : Nat) : Undisturbed n c (c.stepUser env cb i) := by
  unfold stepUser
  split
  · exact .refl n c
  · exact .of_plain ((Footprint.refl c).throw _)
  · have hpush : Undisturbed n c (c.push [.user cb (i + 1)]) :=
      .of_push (Nat.le_refl _) rfl rfl rfl
    exact hpush.trans (perform_undisturbed (c.push [.user cb (i + 1)]) hn cb _)

/-- What one step does to the rewires of `n`: it starts one, ends the innermost
    one, or leaves them alone. -/
inductive RewireStep (n : NodeId) (c c' : Config V S) : Prop
  | started (req : RewireRequest) (hstart : c.rewireStart n = some req)
      (hsize : c.size ≤ c'.size) (hdeps : (c'.nodes n).deps = (c.nodes n).deps)
      (hrewiring : (c'.rewiring n).Sublist (req.applyDeps (c.nodes n).deps :: c.rewiring n))
  | done (hstart : c.rewireStart n = none) (hdone : c.rewireDone n = true)
      (hsize : c.size ≤ c'.size)
      (hrewiring : c.rewiring n = (c'.nodes n).deps :: c'.rewiring n)
  | other (hstart : c.rewireStart n = none) (hdone : c.rewireDone n = false)
      (hkeep : Undisturbed n c c')

variable {c : Config V S} {m : NodeId} {rest : List (Frame V)}

theorem externalRewire_rewireStep {req : RewireRequest}
    (hs : c.stack = .externalRewire m req :: rest)
    (hmode : c.mode = .running) :
    RewireStep n c ((c.popTo rest).externalRewire m req) := by
  have hstart : c.rewireStart n =
      if m = n ∧ c.committedAfterBatch n = none then some req else none := by
    rw [rewireStart, hmode, hs]
  have hdone : c.rewireDone n = false := by
    rw [rewireDone, hmode, hs]
  unfold externalRewire
  split
  · rename_i b hb
    refine .other ?_ hdone (.of_pop hs (.deferBoundary _ _ _))
    rw [hstart, if_neg]
    rintro ⟨rfl, hnone⟩
    exact absurd (hb.symm.trans hnone) (Option.some_ne_none b)
  · rename_i hb
    by_cases hm : m = n
    · subst hm
      refine .started req (by rw [hstart, if_pos ⟨rfl, hb⟩]) (Nat.le_refl _) rfl ?_
      rw [rewiring, rewiring, hs]
      simp only [push, popTo, cons_append, nil_append, filterMap_cons,
        Frame.rewiring, ↓reduceIte]
      exact List.Sublist.refl _
    · refine .other (by rw [hstart, if_neg (fun h => hm h.1)]) hdone ?_
      refine .of_stage hs (Nat.le_refl _) rfl rfl ?_
      simp only [filterMap_cons, Frame.rewiring, hm, ↓reduceIte, filterMap_nil]
      exact List.Sublist.refl _

theorem taskFrames_rewiring (c : Config V S) (t : BoundaryTask V) (n : NodeId) :
    ((c.taskFrames t).filterMap (Frame.rewiring n)).Sublist
      (if t.target = n then
        (t.kind.request?.map fun req => req.applyDeps (c.nodes n).deps).toList
      else []) := by
  by_cases ht : t.target = n
  · rw [if_pos ht, taskFrames, ← ht]
    cases hk : t.kind with
    | rewire req =>
      cases req with
      | remove dep f =>
        dsimp only
        split_ifs
        · simp only [filterMap_cons, Frame.rewiring, ↓reduceIte, filterMap_nil]
          exact List.Sublist.refl _
        · exact nil_sublist _
      | _ =>
        simp only [filterMap_cons, Frame.rewiring, ↓reduceIte, filterMap_nil]
        exact List.Sublist.refl _
    | externalRewire req =>
      simp only [filterMap_cons, Frame.rewiring, ↓reduceIte, filterMap_nil]
      exact List.Sublist.refl _
    | _ => exact nil_sublist _
  · rw [if_neg ht, taskFrames]
    cases hk : t.kind with
    | rewire req =>
      cases req with
      | remove dep f =>
        dsimp only
        split_ifs
        · simp only [filterMap_cons, Frame.rewiring, ht, ↓reduceIte, filterMap_nil]
          exact List.Sublist.refl _
        · exact nil_sublist _
      | _ =>
        simp only [filterMap_cons, Frame.rewiring, ht, ↓reduceIte, filterMap_nil]
        exact List.Sublist.refl _
    | externalRewire req =>
      simp only [filterMap_cons, Frame.rewiring, ht, ↓reduceIte, filterMap_nil]
      exact List.Sublist.refl _
    | _ => exact nil_sublist _

theorem drainLoop_rewireStep {blocked : Nat} {escaped : Option Payload}
    (hs : c.stack = .drainLoop blocked escaped :: rest) (hmode : c.mode = .running) :
    RewireStep n c ((c.popTo rest).drainLoop blocked escaped) := by
  have hdone : c.rewireDone n = false := by
    rw [rewireDone, hmode, hs]
  have hstart : c.rewireStart n = match c.boundary with
      | t :: _ =>
        if t.target = n ∧ c.tokenSet t.token = true ∧ (c.nodes n).live = true ∧
            (t.kind.waitsForResume && (c.nodes n).isPaused) = false then
          t.kind.request?
        else none
      | [] => none := by
    rw [rewireStart, hmode, hs]
  have hb' : (c.popTo rest).boundary = c.boundary := rfl
  unfold drainLoop
  rw [hb']
  split
  · rename_i hb
    refine .other (by rw [hstart, hb]) hdone (.of_pop hs (.drainFinish _))
  · rename_i t ts hb
    rw [hb] at hstart
    dsimp only at hstart ⊢
    have hloop : ∀ (c' : Config V S) (k : Nat), c'.size = c.size → c'.nodes = c.nodes →
        c'.stack = rest → Undisturbed n c (c'.push [.drainLoop k escaped]) := by
      intro c' k hsz hn hst
      refine .of_stage (F := [.drainLoop k escaped]) hs (Nat.le_of_eq hsz.symm) ?_ ?_
        (List.Sublist.refl _)
      · rw [push, hn]
      · rw [push, hst]
    by_cases hdrop : (!(c.popTo rest).tokenSet t.token ||
        !((c.popTo rest).nodes t.target).live) = true
    · -- Not committed, or its target is gone.
      rw [if_pos hdrop]
      refine .other ?_ hdone (hloop _ 0 rfl rfl rfl)
      rw [hstart, if_neg]
      rintro ⟨rfl, htok, hlive, _⟩
      rw [Bool.or_eq_true, Bool.not_eq_true', Bool.not_eq_true'] at hdrop
      rcases hdrop with hd | hd
      · exact Bool.noConfusion (htok.symm.trans hd)
      · exact Bool.noConfusion (hlive.symm.trans hd)
    · rw [if_neg hdrop]
      by_cases hwait : (t.kind.waitsForResume && ((c.popTo rest).nodes t.target).isPaused) = true
      · -- Put back: it waits for a paused target.
        rw [if_pos hwait]
        have hnone : c.rewireStart n = none := by
          rw [hstart, if_neg]
          rintro ⟨rfl, _, _, hpaused⟩
          exact Bool.noConfusion (hwait.symm.trans hpaused)
        split_ifs
        · refine .other hnone hdone (.of_pop hs (.trans ?_ (.drainFinish escaped)))
          exact .of_same rfl rfl rfl
        · exact .other hnone hdone (hloop _ _ rfl rfl rfl)
      · rw [if_neg hwait]
        rw [Bool.or_eq_true, not_or, Bool.not_eq_true', Bool.not_eq_true', Bool.not_eq_false,
          Bool.not_eq_false] at hdrop
        have hframes := taskFrames_rewiring c t n
        by_cases ht : t.target = n
        · subst ht
          rw [if_pos rfl] at hframes
          rw [if_pos ⟨rfl, hdrop.1, hdrop.2, Bool.not_eq_true _ ▸ hwait⟩] at hstart
          cases hreq : t.kind.request? with
          | none =>
            rw [hreq] at hframes hstart
            refine .other hstart hdone (.of_stage (F := c.taskFrames t ++ [.taskCatch escaped]) hs
              (Nat.le_refl _) rfl rfl ?_)
            rw [filterMap_append]
            exact hframes.append (List.Sublist.refl _)
          | some req =>
            rw [hreq] at hframes hstart
            refine .started req hstart (Nat.le_refl _) rfl ?_
            rw [rewiring, rewiring, hs]
            change ((c.taskFrames t ++ [Frame.taskCatch escaped] ++ rest).filterMap _).Sublist _
            rw [filterMap_append, filterMap_append]
            exact (hframes.append (List.Sublist.refl _)).append (List.Sublist.refl _)
        · rw [if_neg ht] at hframes
          rw [if_neg (fun h => ht h.1)] at hstart
          refine .other hstart hdone (.of_stage (F := c.taskFrames t ++ [.taskCatch escaped]) hs
            (Nat.le_refl _) rfl rfl ?_)
          rw [filterMap_append]
          exact hframes.append (List.Sublist.refl _)

variable {newDeps : List NodeId}

variable {f : FnId}

theorem rewireInner_undisturbed (n : NodeId) {allow : Bool}
    (hs : c.stack = .rewireInner m newDeps f allow :: rest) :
    Undisturbed n c ((c.popTo rest).rewireInner m newDeps f allow) := by
  unfold rewireInner
  dsimp only
  split
  · exact .of_pop hs (.deferBoundary _ _ _)
  · split
    · exact .of_pop hs (.of_plain ((Footprint.refl _).panic _))
    · unfold withWaveOwner
      split_ifs
      · exact .of_stage (F := [.rewireApply m (dedupCores newDeps) f]) hs (Nat.le_refl _) rfl rfl
          (List.Sublist.refl _)
      · exact .of_stage (F := [.rewireApply m (dedupCores newDeps) f, .waveExit m]) hs
          (Nat.le_refl _) rfl rfl (List.Sublist.refl _)

theorem rewireApply_rewireStep (n : NodeId)
    (hs : c.stack = .rewireApply m newDeps f :: rest) (hmode : c.mode = .running) :
    RewireStep n c ((c.popTo rest).rewireApply m newDeps f) := by
  have hstart : c.rewireStart n = none := by
    rw [rewireStart, hmode, hs]
  have hdone : c.rewireDone n = (m == n && (c.nodes n).deps == newDeps) := by
    rw [rewireDone, hmode, hs]
  have hswap : ∀ x : Node V S, x.deps = (c.nodes m).deps →
      (((c.popTo rest).setNode m x).nodes n).deps = (c.nodes n).deps := by
    intro x hx
    by_cases hm : n = m
    · subst hm
      simp only [setNode, Function.update_self, hx]
    · simp only [setNode, popTo, Function.update_of_ne hm]
  unfold rewireApply
  dsimp only
  split_ifs with hsame
  · by_cases hm : m = n
    · subst hm
      refine .done hstart ?_ (Nat.le_refl _) ?_
      · rw [hdone, beq_self_eq_true, Bool.true_and, beq_iff_eq]
        exact hsame
      · rw [rewiring, rewiring, hs, filterMap_cons_some (b := newDeps)]
        · refine congrArg₂ List.cons (((hswap _ ?_).trans hsame).symm) rfl
          rfl
        · rw [Frame.rewiring, if_pos rfl]
    · refine .other hstart ?_ (.of_pop hs ?_)
      · rw [hdone, beq_false_of_ne hm, Bool.false_and]
      · exact .of_push (F := []) (Nat.le_refl _) (hswap _ rfl) rfl rfl
  · refine .other hstart ?_ ?_
    · rw [hdone, Bool.and_eq_false_iff]
      by_cases hm : m = n
      · subst hm
        exact Or.inr (beq_false_of_ne hsame)
      · exact Or.inl (beq_false_of_ne hm)
    · exact .of_stage (F := [_, .depMutationGuard m]) hs (Nat.le_refl _) (hswap _ rfl) rfl
        (List.Sublist.refl _)

variable {oldDeps : List NodeId} {activated dirty : Bool}

theorem rewireRemove_undisturbed (n : NodeId) {removed : List Nat}
    (hs : c.stack = .rewireRemove m oldDeps newDeps activated removed dirty :: rest) :
    Undisturbed n c ((c.popTo rest).rewireRemove m oldDeps newDeps activated removed dirty) := by
  cases removed with
  | nil =>
    exact .of_stage (F := [.rewireAssign m oldDeps newDeps activated dirty]) hs (Nat.le_refl _)
      rfl rfl (List.Sublist.refl _)
  | cons i removed =>
    refine .of_stage hs (Nat.le_refl _) ?_ rfl ?_
    · by_cases hm : n = m
      · subst hm
        simp only [rewireRemove, push, setNode, popTo, Function.update_self]
      · simp only [rewireRemove, push, setNode, popTo, Function.update_of_ne hm]
    · rw [filterMap_append]
      split
      · exact List.Sublist.refl _
      · exact List.Sublist.refl _

theorem rewireAssign_rewireStep (n : NodeId)
    (hs : c.stack = .rewireAssign m oldDeps newDeps activated dirty :: rest)
    (hmode : c.mode = .running) :
    RewireStep n c ((c.popTo rest).rewireAssign m oldDeps newDeps activated dirty) := by
  have hstart : c.rewireStart n = none := by
    rw [rewireStart, hmode, hs]
  have hdone : c.rewireDone n = (m == n) := by
    rw [rewireDone, hmode, hs]
  -- The added deps are subscribed by frames that carry no rewire.
  have hfs : List.filterMap (Frame.rewiring n)
      ((if activated then
        (addedDeps oldDeps newDeps).map (fun p => (.subscribeDep m p.1 p.2 : Frame V)) else []) ++
      [.notifyTopology m oldDeps newDeps, .rewireFinish m newDeps dirty]) = [] := by
    rw [filterMap_eq_nil_iff]
    intro f hf
    rcases mem_append.mp hf with hf | hf
    · split at hf
      · rcases mem_map.mp hf with ⟨p, _, rfl⟩
        rfl
      · exact absurd hf not_mem_nil
    · rcases mem_cons.mp hf with rfl | hf
      · rfl
      · rw [mem_singleton.mp hf]
        rfl
  by_cases hm : m = n
  · subst hm
    refine .done hstart (by rw [hdone, beq_self_eq_true]) (Nat.le_refl _) ?_
    have hdeps : (((c.popTo rest).rewireAssign m oldDeps newDeps activated dirty).nodes m).deps =
        newDeps := by
      simp only [rewireAssign, push, setNode, Function.update_self]
    rw [hdeps, rewiring, rewiring, hs, filterMap_cons_some (b := newDeps)]
    · simp only [rewireAssign, push]
      rw [filterMap_append, hfs]
      rfl
    · rw [Frame.rewiring, if_pos rfl]
  · refine .other hstart (by rw [hdone, beq_false_of_ne hm]) (.of_pop hs ?_)
    refine .of_push (Nat.le_refl _) ?_ rfl hfs
    simp only [rewireAssign, push, setNode, Function.update_of_ne (Ne.symm hm)]

theorem enter_rewireStep (env : Env V S) (hn : n < c.size)
    {f : Frame V} (hs : c.stack = f :: rest) (hmode : c.mode = .running) :
    RewireStep n c ((c.popTo rest).enter env f) := by
  have hother : f.isPlain = true ∨ f.entersPlain = true →
      Undisturbed n (c.popTo rest) ((c.popTo rest).enter env f) →
      RewireStep n c ((c.popTo rest).enter env f) := by
    intro hf hkeep
    refine .other ?_ ?_ (.of_pop hs hkeep)
    · rw [rewireStart, hmode, hs]
      cases f <;> first | rfl | (rcases hf with hf | hf <;> cases hf)
    · rw [rewireDone, hmode, hs]
      cases f <;> first | rfl | (rcases hf with hf | hf <;> cases hf)
  cases hp : f.entersPlain with
  | true => exact hother (Or.inr hp) (.of_plain (enter_plain env _ f hp))
  | false =>
    cases f with
    | user cb i => exact hother (Or.inl rfl) (stepUser_undisturbed env (c.popTo rest) hn cb i)
    | drainBoundary =>
      refine hother (Or.inl rfl) ?_
      simp only [enter, drainBoundary]
      split_ifs
      · exact .refl n _
      · exact .of_push (F := [.drainLoop 0 none]) (Nat.le_refl _) rfl rfl rfl
    | drainLoop blocked escaped => exact drainLoop_rewireStep hs hmode
    | taskCatch escaped =>
      exact hother (Or.inl rfl) (.of_push (F := [.drainLoop 0 escaped]) (Nat.le_refl _)
        rfl rfl rfl)
    | rollbackDone roots payload =>
      refine hother (Or.inl rfl) ?_
      simp only [enter, rollbackDone]
      cases payload with
      | none => exact .closeUncommitted roots
      | some p =>
        exact .trans (.closeUncommitted roots) (.of_plain ((Footprint.refl _).throw p))
    | externalRewire m req => exact externalRewire_rewireStep hs hmode
    | rewireInner m deps fn allow =>
      refine .other ?_ ?_ (rewireInner_undisturbed n hs)
      · rw [rewireStart, hmode, hs]
      · rw [rewireDone, hmode, hs]
    | rewireApply m deps fn => exact rewireApply_rewireStep n hs hmode
    | rewireRemove m old new act rem dirty =>
      refine .other ?_ ?_ (rewireRemove_undisturbed n hs)
      · rw [rewireStart, hmode, hs]
      · rw [rewireDone, hmode, hs]
    | rewireAssign m old new act dirty => exact rewireAssign_rewireStep n hs hmode
    | activateIfNeeded m =>
      have hfoot := Silent.activateIfNeeded_footprint (c.popTo rest) m
      rcases hfoot.stack with ⟨fs, hst, hfs⟩
      refine hother (Or.inl rfl) (.of_push (Nat.le_of_eq hfoot.size.symm)
        (congrArg (·.1.1) (hfoot.nodes n)) hst ?_)
      rw [filterMap_eq_nil_iff]
      intro g hg
      cases g <;> first | rfl | cases hfs _ hg
    | subscribeDep m i d =>
      refine .other ?_ ?_ (.of_pop hs (.of_push (F := [_, _]) (Nat.le_refl _) rfl rfl rfl))
      · rw [rewireStart, hmode, hs]
      · rw [rewireDone, hmode, hs]
    | _ => cases hp

theorem unwind_undisturbed (env : Env V S) (c : Config V S) (n : NodeId) (p : Payload)
    (f : Frame V) : Undisturbed n c (c.unwind env p f) := by
  rcases unwind_cases env c p f with h | ⟨rfl, m, rfl⟩ | ⟨escaped, rfl⟩ | ⟨roots, h⟩
  · exact .of_silent h
  · exact (Undisturbed.of_silent (Silent.resetTouched c c.touchedNodes)).trans
      (.of_same rfl rfl rfl)
  · cases p with
    | hostAbort => exact .of_same rfl rfl rfl
    | ordinary msg =>
      exact .of_push (F := [.drainLoop 0 (some (escaped.getD (.ordinary msg)))])
        (Nat.le_refl _) rfl rfl rfl
  · rw [h]
    exact .closeUncommitted roots

variable {c' : Config V S}

/-- Every step starts a rewire of `n`, ends the innermost one, or leaves them
    alone. -/
theorem step_rewiring (hstep : Step c c') (hn : n < c.size) :
    RewireStep n c c' := by
  rcases hstep with ⟨env, hstep⟩
  rcases step_cases hstep with ⟨f, rest, hs, ⟨hmode, rfl⟩ | ⟨p, hmode, rfl⟩⟩
  · exact enter_rewireStep env hn hs hmode
  · refine .other ?_ ?_ (.of_pop hs (unwind_undisturbed env _ n p f))
    · rw [rewireStart, hmode]
    · rw [rewireDone, hmode]

theorem step_size (hstep : Step c c') (hn : n < c.size) :
    n < c'.size := by
  refine Nat.lt_of_lt_of_le hn ?_
  cases step_rewiring hstep hn with
  | started _ _ hsize => exact hsize
  | done _ _ hsize => exact hsize
  | other _ _ hkeep => exact hkeep.size

/-! ### Runs -/

/-- The dep list of `n` is what the carried requests made of the first one, and
    the rewire under way will assign what its request makes of it. -/
structure Follows (n : NodeId) (deps : List NodeId) (c : Config V S) (p : Progress) : Prop where
  size : n < c.size
  deps : (c.nodes n).deps = p.carried.foldl RewireRequest.applyDeps deps
  underWay : ∀ req, p.underWay = some req →
    (c.rewiring n).Sublist [req.applyDeps (c.nodes n).deps]

theorem Follows.step {deps : List NodeId} {a b : Config V S × Progress}
    (hstep : TrackedStep n a b) (h : Follows n deps a.1 a.2) : Follows n deps b.1 b.2 := by
  rcases a with ⟨c, p⟩
  rcases b with ⟨c', q⟩
  rcases hstep with ⟨hstep, htrack⟩
  dsimp only at hstep htrack h ⊢
  unfold track at htrack
  cases step_rewiring hstep h.size with
  | started req hstart hsize hdeps hrewiring =>
    rw [hstart] at htrack
    dsimp only at htrack
    split_ifs at htrack with hidle
    cases htrack
    refine ⟨Nat.lt_of_lt_of_le h.size hsize, hdeps.trans h.deps, ?_⟩
    intro req' hreq
    cases hreq
    rw [hdeps]
    rwa [hidle.2] at hrewiring
  | done hstart hdone hsize hrewiring =>
    rw [hstart] at htrack
    dsimp only at htrack
    rw [if_pos hdone] at htrack
    cases hu : p.underWay with
    | none =>
      rw [hu] at htrack
      cases htrack
    | some req =>
      rw [hu] at htrack
      cases htrack
      have hone := h.underWay req hu
      rw [hrewiring] at hone
      have hassigned : (c'.nodes n).deps = req.applyDeps (c.nodes n).deps :=
        mem_singleton.mp (hone.subset mem_cons_self)
      refine ⟨Nat.lt_of_lt_of_le h.size hsize, ?_, fun _ hno => by cases hno⟩
      rw [hassigned, h.deps, foldl_append]
      rfl
  | other hstart hdone hkeep =>
    rw [hstart] at htrack
    dsimp only at htrack
    rw [if_neg (by rw [hdone]; exact Bool.false_ne_true)] at htrack
    cases htrack
    refine ⟨Nat.lt_of_lt_of_le h.size hkeep.size, hkeep.deps.trans h.deps, ?_⟩
    intro req hreq
    rw [hkeep.deps]
    exact hkeep.rewiring.trans (h.underWay req hreq)

/-- A run leaves the dep list that the requests it carried out make of the
    first one. -/
theorem tracked_deps {q : Progress} (hn : n < c.size)
    (hrun : Relation.ReflTransGen (TrackedStep n) (c, {}) (c', q)) :
    (c'.nodes n).deps = q.carried.foldl RewireRequest.applyDeps (c.nodes n).deps := by
  have hfollows : ∀ b : Config V S × Progress, Relation.ReflTransGen (TrackedStep n) (c, {}) b →
      Follows n (c.nodes n).deps b.1 b.2 := by
    intro b hb
    induction hb with
    | refl => exact ⟨hn, rfl, fun _ hno => by cases hno⟩
    | tail _ hlast ih => exact ih.step hlast
  exact (hfollows (c', q) hrun).deps

/-- The state after user code called `Node::subscribe_dep`. -/
def nodeSubscribeDep (c : Config V S) (n dep : NodeId) (f : FnId) : Config V S :=
  c.performLive n (.rewire n (.add dep f))

theorem nodeSubscribeDep_deps (c : Config V S) (n dep : NodeId) (f : FnId) :
    (c.nodeSubscribeDep n dep f).size = c.size ∧
      (c.nodeSubscribeDep n dep f).nodes = c.nodes := by
  simp only [nodeSubscribeDep, performLive, performOn]
  split_ifs <;> exact ⟨rfl, rfl⟩

/-- The index `subscribe_dep` returns is the index the dep gets when the waiting
    requests and this one have been carried out, exactly when the replayed list
    repeats no dep before the new one. -/
theorem subscribe_dep_index (c c' : Config V S) (n dep : NodeId) (f : FnId)
    (hn : c.isLive n = true)
    (hrun : Relation.ReflTransGen (TrackedStep n) (c.nodeSubscribeDep n dep f, {})
      (c', ⟨none, c.pendingRewires n ++ [.add dep f]⟩)) :
    (c'.nodes n).deps[c.subscribeDepIndex n dep]? = some dep ↔
      ((c.projectPendingExternalRewireDeps n).takeWhile (· ≠ dep)).Nodup := by
  rw [isLive, Bool.and_eq_true, decide_eq_true_eq] at hn
  have hcall := nodeSubscribeDep_deps c n dep f
  have hdeps := tracked_deps (by rw [hcall.1]; exact hn.1) hrun
  rw [hcall.2] at hdeps
  have hadd : ∀ deps, (RewireRequest.add dep f).projectDeps deps = addNew deps dep := fun _ => rfl
  -- The list that decides the answer, and what the application makes of it.
  have hassigned : (c'.nodes n).deps =
      firstSeen (addNew (c.projectPendingExternalRewireDeps n) dep) := by
    rw [hdeps, foldl_append, foldl_cons, foldl_nil, RewireRequest.applyDeps,
      dedupCores_eq, ← RewireRequest.firstSeen_projectDeps,
      RewireRequest.firstSeen_foldl_projectDeps, RewireRequest.firstSeen_projectDeps, hadd]
    rfl
  have hindex : c.subscribeDepIndex n dep =
      (addNew (c.projectPendingExternalRewireDeps n) dep).idxOf dep := rfl
  have hmem : dep ∈ addNew (c.projectPendingExternalRewireDeps n) dep := mem_addNew.mpr (Or.inr rfl)
  rw [hassigned, hindex, getElem?_idxOf_firstSeen hmem, takeWhile_addNew]

/-! ### Runs of given user code -/

/-- At most `k` steps, as long as they can be followed. -/
def trackedRun (env : Env V S) (n : NodeId) : Nat → Config V S × Progress → Config V S × Progress
  | 0, a => a
  | k + 1, a => match a.1.step env, a.1.track n a.2 with
    | some c', some p => trackedRun env n k (c', p)
    | _, _ => a

theorem tracked_trackedRun (env : Env V S) (n : NodeId) (k : Nat) (a : Config V S × Progress) :
    Relation.ReflTransGen (TrackedStep n) a (trackedRun env n k a) := by
  induction k generalizing a with
  | zero => exact Relation.ReflTransGen.refl
  | succ k ih =>
    rw [trackedRun]
    split
    · rename_i c' p hstep htrack
      exact Relation.ReflTransGen.head ⟨⟨env, hstep⟩, htrack⟩ (ih (c', p))
    · exact Relation.ReflTransGen.refl

/-- The state in which the user code on top of the stack performs its next
    operation. -/
def calling (c : Config V S) : Config V S :=
  match c.stack with
  | .user cb i :: rest => { c with stack := .user cb (i + 1) :: rest }
  | _ => c

/-- Three sources and a node over the first one. In a batch that holds data of
    the node, the second source is added and then the third. -/
def addTwo : Env Nat Unit := Env.scripted fun cb => match cb with
  | .main => [.newNode {}, .newNode {}, .newNode {},
      .newNode { deps := [0], handle := some (0, .sync) }, .batch 0]
  | .batchBody _ => [.down 3 [.data 7], .rewire 3 (.add 1 0), .rewire 3 (.add 2 0)]
  | _ => []

theorem subscribe_dep_index_addTwo :
    let c := (initial.run addTwo 13).calling
    c.pendingRewires 3 = [.add 1 0] ∧
      ((trackedRun addTwo 3 50 (c.nodeSubscribeDep 3 2 0, {})).1.nodes 3).deps[
        c.subscribeDepIndex 3 2]? = some 2 := by
  refine ⟨by decide +kernel, ?_⟩
  refine (subscribe_dep_index _ _ 3 2 0 (by decide +kernel) ?_).mpr (by decide +kernel)
  have hcarried : (trackedRun addTwo 3 50
      ((initial.run addTwo 13).calling.nodeSubscribeDep 3 2 0, {})).2 =
      ⟨none, (initial.run addTwo 13).calling.pendingRewires 3 ++ [.add 2 0]⟩ := by
    decide +kernel
  rw [← hcarried]
  exact tracked_trackedRun addTwo 3 50 _

/-- Two sources and a node that has the first one twice and then the second,
    which is subscribed once more. -/
def addRepeated : Env Nat Unit := Env.scripted fun cb => match cb with
  | .main => [.newNode {}, .newNode {},
      .newNode { deps := [0, 0, 1], handle := some (0, .sync) }, .rewire 2 (.add 1 0)]
  | _ => []

-- The call returns 2, the length of what stands before the dep, repeats
-- included; the node ends with the deps 0 and 1.
theorem repeated_dep_misplaced :
    ¬ ∀ (c c' : Config Nat Unit) (n dep : NodeId) (f : FnId), c.isLive n = true →
      Relation.ReflTransGen (TrackedStep n) (c.nodeSubscribeDep n dep f, {})
        (c', ⟨none, c.pendingRewires n ++ [.add dep f]⟩) →
      (c'.nodes n).deps[c.subscribeDepIndex n dep]? = some dep := by
  intro h
  have hcarried : (trackedRun addRepeated 2 20
      ((initial.run addRepeated 3).calling.nodeSubscribeDep 2 1 0, {})).2 =
      ⟨none, (initial.run addRepeated 3).calling.pendingRewires 2 ++ [.add 1 0]⟩ := by
    decide +kernel
  have hrun := tracked_trackedRun addRepeated 2 20
    ((initial.run addRepeated 3).calling.nodeSubscribeDep 2 1 0, {})
  have hat := h (initial.run addRepeated 3).calling
    (trackedRun addRepeated 2 20
      ((initial.run addRepeated 3).calling.nodeSubscribeDep 2 1 0, {})).1 2 1 0
    (by decide +kernel) (by rw [← hcarried]; exact hrun)
  exact absurd hat (by decide +kernel)

end Config

end GraphRefly
