import GraphRefly.Wave.Check
import GraphRefly.Lib.Dataflow

/-!
# The Plain Wave Law

`set` on a source of a pure network, outside any batch and any wave. Phase one
makes everything downstream of the source owed; the emission of the source
settles all of it again, because nothing is paused: among the nodes still owed
one of least rank could have run. So every node downstream of the source ran
exactly once, on the values its deps hold in the end.

## Theorems

* `exec_down`: A source announces and emits.
* `set_returns`: The call of `set`.
* `set_glitch_free`: The plain wave law.
-/

namespace GraphRefly

variable {V S : Type}

namespace Config

variable {env : Env V S} {compute : FnId → List (Option V) → Except String V}
  {rank : NodeId → Nat} {c c' : Config V S} {q : Option NodeId} {s : NodeId}

theorem down_outside (c : Config V S) (v : V) (ht : (c.nodes s).Tame)
    (hin : (c.nodes s).wave.insideRunWave = false) (hb : c.collectingBatch = false) :
    ∃ w, w.isSome = c.wave.isSome ∧ ∀ rest, (c.popTo rest).down s [.data v] =
      ({ c with wave := w } : Config V S).popTo
        ([.emitDirtyOnce s, .deliveryScope s [.data v], .downEnd s false] ++ rest) := by
  rcases waveRegister_eq c s with ⟨w, hw, hsome⟩
  refine ⟨w, hsome, ?_⟩
  intro rest
  have hsort : collapseInvalidate (sortByTier [Message.data v]) = [.data v] := rfl
  have hterm : ((c.popTo rest).nodes s).value.terminal = false := ht.running
  have hin' : ((c.popTo rest).nodes s).wave.insideRunWave = false := hin
  have hb' : (({ c with wave := w } : Config V S).popTo rest).collectingBatch = false := hb
  unfold down
  simp only [hterm, Bool.false_eq_true, ↓reduceIte, hin', Bool.not_false, Bool.true_and,
    waveRegister_popTo, hw, hsort, hb']
  unfold downUnbatched
  have hbuf : ((({ c with wave := w } : Config V S).popTo rest).nodes s).shouldBufferOnPause =
      false := ht.shouldBufferOnPause
  simp only [hbuf, Bool.false_eq_true, ↓reduceIte]
  unfold downEmit
  simp [Message.isData, Message.isResolved]
  rfl

/-- A source announces a change and emits it. -/
theorem exec_down (henv : env.Computes compute) (h : c.Resting compute rank)
    (hs : (c.nodes s).live = true) (hsrc : (c.nodes s).deps = [])
    (hb : c.collectingBatch = false) (v : V) :
    ∃ q c₁ c', Exec env [.down s [.data v]] c c' ∧ c₁.Resting compute rank ∧ Announced s c c₁ ∧
      c₁.owed s = true ∧ Emitted s v q c₁ c' ∧ c'.Ledger compute [] [] ∧
      (q = none → c'.Resting compute rank) ∧ ∀ p, q = some p → c'.FailedAt compute p := by
  rcases down_outside c v (h.wired.tame s hs) (h.calm s hs).2 hb with ⟨w, hsome, hdown⟩
  set c₀ : Config V S := { c with wave := w } with hc₀
  have hrest₀ : c₀.Resting compute rank := h.of_nodes rfl rfl rfl rfl rfl rfl
  rcases exec_announce henv hrest₀ hs hsrc with ⟨c₁, hex, hrest₁, hann, ho⟩
  have hg₀ : SameGraph c c₀ := ⟨rfl, fun _ => rfl, hsome⟩
  have hg : SameGraph c c₁ := hg₀.trans hann.graph
  have hann' : Announced s c c₁ :=
    ⟨hg, hann.cache, hann.aux, hann.tier3, hann.inside, hann.owed, hann.fresh, hann.rest,
      hann.deferred, hann.depth, hann.log⟩
  rcases exec_emission henv hrest₁ (by rw [hg.live]; exact hs) (by rw [hg.deps]; exact hsrc) ho v
    with ⟨q, c', hex', hemit, hledger, hrest', hfail⟩
  refine ⟨q, c₁, c', ?_, hrest₁, hann', ho, hemit, hledger, hrest', hfail⟩
  refine Exec.enter c₀ [.emitDirtyOnce s, .deliveryScope s [.data v], .downEnd s false] h.running
    hdown ?_
  exact Exec.cons hex hex'

theorem exec_waveExit (hm : c.mode = .running) (hbatch : c.batch = none)
    (hboundary : c.boundary = []) : Exec env [.waveExit s] c { c with wave := none } := by
  have hwave : ∀ rest, (({ c with wave := none } : Config V S).popTo rest).waveTail =
      ({ c with wave := none } : Config V S).popTo (.drainBoundary :: rest) := by
    intro rest
    unfold waveTail boundaryDrainsBlocked popTo
    simp [hbatch, push]
  refine Exec.enter ({ c with wave := none } : Config V S) [.drainBoundary] hm hwave ?_
  refine Exec.enter ({ c with wave := none } : Config V S) [] hm ?_ Exec.nil
  intro rest
  simp [enter, drainBoundary, popTo, hboundary]

theorem perform_set (hlt : s < c.size) (hwave : c.wave = none) (hs : (c.nodes s).live = true)
    (v : V) (cb : Callback V) :
    c.perform cb (.down s [.data v]) = ({ c with wave := some {} } : Config V S).popTo
      ([.down s [.data v], .waveExit s] ++ c.stack) := by
  have hlive : c.isLive s = true := by
    unfold isLive
    rw [hs, Bool.and_true, decide_eq_true_eq]
    exact hlt
  unfold perform performLive performOn withWaveOwner waveInFlight
  simp only [hlive, ↓reduceIte, hwave, Option.isSome_none, Bool.false_eq_true]
  rfl

/-- The call of `set`, when no fn fails. -/
theorem set_returns (henv : env.Computes compute) (hok : ∀ f xs e, compute f xs ≠ .error e)
    (h : c.Idle compute rank) (hs : (c.nodes s).live = true) (hsrc : (c.nodes s).deps = [])
    (v : V) (cb : Callback V) :
    ∃ c₁ c₂, Returns env c.stack (c.perform cb (.down s [.data v]))
        (({ c₂ with wave := none } : Config V S).popTo c.stack) ∧
      c₁.Resting compute rank ∧ Announced s { c with wave := some {} } c₁ ∧ c₁.owed s = true ∧
      Emitted s v none c₁ c₂ ∧ c₂.Resting compute rank := by
  set c₀ : Config V S := { c with wave := some {} } with hc₀
  have hrest₀ : c₀.Resting compute rank := h.resting.of_nodes rfl rfl rfl rfl rfl rfl
  have hcollect : c₀.collectingBatch = false := by
    unfold collectingBatch
    rw [show c₀.batch = none from h.batch]
  rcases exec_down henv hrest₀ hs hsrc hcollect v with
    ⟨q, c₁, c₂, hex, hrest₁, hann, ho, hemit, _, hrest₂, hfail⟩
  have hq : q = none := by
    cases hq : q with
    | none => rfl
    | some p =>
      rcases (hfail p hq).2.2.1 with ⟨f, e, _, he, _⟩
      exact absurd he (hok f _ e)
  subst hq
  have hg : SameGraph c₀ c₂ := hann.graph.trans hemit.graph
  have hexit : Exec env [.waveExit s] c₂ { c₂ with wave := none } :=
    exec_waveExit (hrest₂ rfl).running (hg.batch.trans h.batch) (hg.boundary.trans h.boundary)
  refine ⟨c₁, c₂, ?_, hrest₁, hann, ho, hemit, hrest₂ rfl⟩
  rw [perform_set (h.resting.wired.bounded s hs) h.wave hs]
  exact Exec.append hex hexit c.stack

theorem Resting.settled (h : c.Resting compute rank)
    (hawake : ∀ n, (c.nodes n).live = true → (c.nodes n).isPaused = false)
    (hsource : ∀ n, (c.nodes n).live = true → (c.nodes n).deps = [] → c.owed n = false) :
    ∀ n, (c.nodes n).live = true → c.owed n = false := by
  refine h.ledger.all_settled h.wired ?_ hsource
  intro m hr
  have hheld := (h.held m hr).1
  rw [hawake m hr.1] at hheld
  cases hheld

theorem Downstream.eq_of_source {n : NodeId} (h : c.Downstream s n) (hn : (c.nodes n).deps = []) :
    n = s := by
  cases h with
  | refl => rfl
  | tail _ hedge =>
    rcases hedge with ⟨i, hat⟩
    rw [DepAt, hn] at hat
    cases hat.2

/-- Fns that never fail. -/
def total (compute : FnId → List (Option V) → V) : FnId → List (Option V) → Except String V :=
  fun f xs => .ok (compute f xs)

/-- The same nodes with the same deps and fns. -/
structure SameNet (c c' : Config V S) : Prop where
  live : ∀ n, (c'.nodes n).live = (c.nodes n).live
  deps : ∀ n, (c'.nodes n).deps = (c.nodes n).deps
  handle : ∀ n, (c'.nodes n).handle = (c.nodes n).handle

theorem SameGraph.net (h : SameGraph c c') : SameNet c c' :=
  ⟨h.live, h.deps, h.handle⟩

theorem SameNet.trans {c'' : Config V S} (h : SameNet c c') (h' : SameNet c' c'') :
    SameNet c c'' :=
  ⟨fun n => (h'.live n).trans (h.live n), fun n => (h'.deps n).trans (h.deps n),
    fun n => (h'.handle n).trans (h.handle n)⟩

theorem caches_unique {compute : FnId → List (Option V) → V} (hw : c.Wired rank)
    (hnet : SameNet c c')
    (hc : ∀ n, (c.nodes n).live = true → (c.nodes n).deps ≠ [] → c.Fresh (total compute) n)
    (hc' : ∀ n, (c'.nodes n).live = true → (c'.nodes n).deps ≠ [] → c'.Fresh (total compute) n)
    (hsrc : ∀ n, (c.nodes n).live = true → (c.nodes n).deps = [] → c'.cache n = c.cache n) :
    ∀ n, (c.nodes n).live = true → c'.cache n = c.cache n := by
  set eqn : NodeId → List (Option V) → Option V := fun n xs =>
    (c.nodes n).handle.map fun h => compute h.1 xs with heqn
  set inner : Set NodeId := { n | (c.nodes n).live = true ∧ (c.nodes n).deps ≠ [] } with hinner
  have hsolves : Dataflow.Solves (fun n => (c.nodes n).deps) eqn inner c.cache := by
    intro n hn
    rcases hc n hn.1 hn.2 with ⟨f, v, hf, hv, hcache⟩
    cases hv
    rw [hcache, heqn]
    simp only [hf, Option.map_some]
  have hsolves' : Dataflow.Solves (fun n => (c.nodes n).deps) eqn inner c'.cache := by
    intro n hn
    rcases hc' n (by rw [hnet.live]; exact hn.1) (by rw [hnet.deps]; exact hn.2) with
      ⟨f, v, hf, hv, hcache⟩
    cases hv
    rw [hnet.handle] at hf
    rw [hcache, heqn]
    simp only [hf, Option.map_some, hnet.deps]
  have hat : ∀ n, n ∈ inner → ∀ d ∈ (c.nodes n).deps, ∃ i, c.DepAt n i d := by
    intro n hn d hd
    rcases List.mem_iff_getElem?.mp hd with ⟨i, hi⟩
    exact ⟨i, hn.1, hi⟩
  refine hsolves'.unique hsolves (A := { n | (c.nodes n).live = true }) (r := rank) ?_ ?_ ?_
  · intro n _ hn d hd
    rcases hat n hn d hd with ⟨i, hi⟩
    exact hw.depsLive n i d hi
  · intro n _ hn d hd
    rcases hat n hn d hd with ⟨i, hi⟩
    exact hw.descends n i d hi
  · intro n hl hn
    refine hsrc n hl ?_
    by_contra hne
    exact hn ⟨hl, hne⟩

/-- The plain wave law: `set` runs every derived node downstream of the source
    exactly once and no other, on the values the deps hold in the end, and
    leaves every derived node up to date. -/
theorem set_glitch_free {compute : FnId → List (Option V) → V}
    (henv : env.Computes (total compute)) (h : c.Idle (total compute) rank)
    (hawake : ∀ n, (c.nodes n).live = true → (c.nodes n).isPaused = false)
    (hs : (c.nodes s).live = true) (hsrc : (c.nodes s).deps = []) (v : V) (cb : Callback V) :
    ∃ c', Returns env c.stack (c.perform cb (.down s [.data v])) c' ∧ c'.mode = .running ∧
      c'.cache s = some v ∧
      (∃ es, c'.log = es ++ c.log ∧
        (∀ n, n ≠ s → c.Downstream s n → es.countP (Event.isRunOf n) = 1) ∧
        (∀ n, n = s ∨ ¬ c.Downstream s n → es.countP (Event.isRunOf n) = 0) ∧
        ∀ n ctx ls, .ran n ctx ls ∈ es →
          ctx.deps.map (·.latest) = (c'.nodes n).deps.map c'.cache) ∧
      (∀ n, (c'.nodes n).live = true → (c'.nodes n).deps ≠ [] → c'.Fresh (total compute) n) ∧
      c'.Idle (total compute) rank := by
  rcases set_returns henv (fun f xs e he => by cases he) h hs hsrc v cb with
    ⟨c₁, c₂, hret, hrest₁, hann, ho, hemit, hrest₂⟩
  have hg : SameGraph { c with wave := some {} } c₂ := hann.graph.trans hemit.graph
  have hbefore : ∀ n, c.owed n = true → (c.nodes n).live = false := by
    intro n hn
    by_contra hl
    rw [Bool.not_eq_false] at hl
    rw [h.resting.settled hawake h.sources n hl] at hn
    cases hn
  -- Phase one makes exactly the nodes downstream of the source owed.
  have hann_iff : ∀ n, (c.nodes n).live = true → (c₁.owed n = true ↔ c.Downstream s n) := by
    intro n hl
    constructor
    · intro hn
      rcases hann.fresh n hn with hn | hn
      · have hdead := hbefore n hn
        rw [hl] at hdead
        cases hdead
      · exact hn
    · intro hn
      exact hrest₁.ledger.owed_downstream ho (hann.graph.downstream.mpr hn)
  -- Nothing is paused, so nothing is owed in the end.
  have hafter : ∀ n, (c.nodes n).live = true → c₂.owed n = false := by
    intro n hl
    refine hrest₂.settled ?_ ?_ n (by rw [hg.live]; exact hl)
    · intro m hm
      rw [hg.live] at hm
      have hp := hawake m hm
      unfold Node.isPaused at hp ⊢
      rw [hg.pauseLockset]
      exact hp
    · intro m hm hd
      rw [hg.live] at hm
      rw [hg.deps] at hd
      by_cases hms : m = s
      · rw [hms]
        exact hemit.done
      · by_contra hcon
        rw [Bool.not_eq_false] at hcon
        exact hms (((hann_iff m hm).mp (hemit.owed m hcon)).eq_of_source hd)
  have hlive : ∀ n, n ≠ s → c.Downstream s n → (c.nodes n).live = true := by
    intro n hne hd
    cases hd with
    | refl => exact absurd rfl hne
    | tail _ hedge =>
      rcases hedge with ⟨i, hat⟩
      exact hat.1
  rcases hann.log with ⟨es₁, hes₁, htold⟩
  rcases hemit.log with ⟨es₂, hes₂, hcount, hreads, _⟩
  have hquiet : ∀ n, es₁.countP (Event.isRunOf n) = 0 := Event.countP_isRunOf_of_telling htold
  refine ⟨_, hret, hrest₂.running, hemit.holds, ⟨es₂ ++ es₁, ?_, ?_, ?_, ?_⟩, ?_,
    ⟨hrest₂.of_nodes rfl rfl rfl rfl rfl rfl, rfl, hg.batch.trans h.batch,
      hg.boundary.trans h.boundary, ?_⟩⟩
  · rw [List.append_assoc, ← hes₁]
    exact hes₂
  · intro n hne hd
    have hl := hlive n hne hd
    rw [List.countP_append, hquiet, hcount, if_pos ⟨hne, (hann_iff n hl).mpr hd, hafter n hl⟩]
    rfl
  · intro n hn
    have hnot : ¬ (n ≠ s ∧ c₁.owed n = true ∧ c₂.owed n = false) := by
      rintro ⟨hne, ho₁, ho₂⟩
      rcases hn with hn | hn
      · exact hne hn
      · rcases hann.fresh n ho₁ with hold | hd
        · -- What was owed before was no live node.
          have hdead := (hann.graph.live n).symm.trans (hemit.derived n hne ho₁ ho₂).1
          rw [show (c.nodes n).live = false from hbefore n hold] at hdead
          cases hdead
        · exact hn hd
    rw [List.countP_append, hquiet, hcount, if_neg hnot]
    rfl
  · intro n ctx ls hmem
    rcases List.mem_append.mp hmem with hmem | hmem
    · exact (hreads n ctx ls hmem).1.1
    · cases htold _ hmem
  · intro n hl hd
    refine hrest₂.ledger.coherent n hl hd (hafter n ?_)
    rw [← hg.live]
    exact hl
  · intro n hl _
    exact hafter n (by rw [← hg.live]; exact hl)

/-- A fn that adds its number to the values of its deps. -/
def sums : FnId → List (Option Nat) → Nat :=
  fun f xs => f + (xs.map (·.getD 0)).sum

/-- A diamond over source 0, subscribed at its join. -/
def diamond : Env Nat Unit := Env.computing (total sums) fun cb => match cb with
  | .main => [.newNode { initial := some 1 },
      .newNode { deps := [0], handle := some (1, .sync) },
      .newNode { deps := [0], handle := some (2, .sync) },
      .newNode { deps := [1, 2], handle := some (3, .sync) }, .subscribe 3 0]
  | _ => []

/-- The diamond once the subscription is made. -/
def diamondIdle : Config Nat Unit :=
  initial.run diamond 105

theorem diamondIdle_idle : diamondIdle.Idle (total sums) id :=
  idle_run diamond 105 (by decide +kernel) (by decide +kernel) (by decide +kernel)

theorem diamondIdle_awake (n : NodeId) (hn : (diamondIdle.nodes n).live = true) :
    (diamondIdle.nodes n).isPaused = false := by
  have hsize : diamondIdle.size = 4 := by decide +kernel
  have hlt := diamondIdle_idle.resting.wired.bounded n hn
  rw [hsize] at hlt
  have hall : ∀ n < 4, (diamondIdle.nodes n).isPaused = false := by decide +kernel
  exact hall n hlt

theorem diamondIdle_downstream : diamondIdle.Downstream 0 3 := by
  have hfirst : diamondIdle.DepAt 1 0 0 := ⟨by decide +kernel, by decide +kernel⟩
  have hjoin : diamondIdle.DepAt 3 0 1 := ⟨by decide +kernel, by decide +kernel⟩
  exact (Relation.ReflTransGen.single ⟨0, hfirst⟩).tail ⟨0, hjoin⟩

/-- The join of the diamond runs once. -/
theorem set_glitch_free_diamond :
    ∃ c', Returns diamond diamondIdle.stack (diamondIdle.perform .main (.down 0 [.data 7])) c' ∧
      c'.cache 0 = some 7 ∧
      ∃ es, c'.log = es ++ diamondIdle.log ∧ es.countP (Event.isRunOf 3) = 1 := by
  have hs : (diamondIdle.nodes 0).live = true := by decide +kernel
  have hsrc : (diamondIdle.nodes 0).deps = [] := by decide +kernel
  rcases set_glitch_free (Env.computing_computes _ _) diamondIdle_idle diamondIdle_awake hs hsrc 7
    .main with ⟨c', hret, _, hholds, ⟨es, hes, hruns, _⟩, _⟩
  exact ⟨c', hret, hholds, es, hes, hruns 3 (by decide) diamondIdle_downstream⟩

end Config

end GraphRefly
