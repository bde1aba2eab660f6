import GraphRefly.Wave.Plain

/-!
# Batches of Writes

A batch body that writes sources of a pure network. While the body runs, every
write announces its source and holds the value back; the announcements of the
writes overlap and nothing runs. The commit emits the held values one source
after another. A join over several written sources stays owed until the last
of them has emitted, so it runs once.

## Main definitions

* `Env.Plays`: The batch body is a list of writes.
* `lastSet`: The last value a list of writes leaves on a source.
* `Collecting`: The invariant of the body.
* `Committing`: The invariant of the commit.

## Theorems

* `exec_body`: The body.
* `exec_commit`: The commit.
* `batch_atomic`: The batch is one update, whatever the order of its writes.
-/

namespace GraphRefly

open List

variable {V S : Type}

/-- The batch body is a list of writes. -/
def Env.Plays (env : Env V S) (b : Nat) (sets : List (NodeId × V)) : Prop :=
  ∀ c i, env.act (.batchBody b) c i = match sets[i]? with
    | some e => .op (.down e.1 [.data e.2])
    | none => .ret

/-- The last value a list of writes leaves on a source. -/
def lastSet (sets : List (NodeId × V)) (s : NodeId) : Option V :=
  sets.reverse.lookup s

theorem lastSet_concat (sets : List (NodeId × V)) (s t : NodeId) (v : V) :
    lastSet (sets ++ [(s, v)]) t = if t = s then some v else lastSet sets t := by
  unfold lastSet
  rw [reverse_append, reverse_singleton, singleton_append, lookup_cons]
  by_cases h : t = s
  · simp [h]
  · rw [if_neg h, beq_eq_false_iff_ne.mpr h]

theorem mem_of_lastSet {sets : List (NodeId × V)} {s : NodeId} {v : V}
    (h : lastSet sets s = some v) : (s, v) ∈ sets := by
  unfold lastSet at h
  rw [List.lookup_eq_some_iff] at h
  rcases h with ⟨l₁, l₂, heq, _⟩
  rw [← mem_reverse, heq]
  exact mem_append_right _ mem_cons_self

/-- Hold a slice for a target, replacing an earlier one in place. -/
def hold (held : List (NodeId × Wave V)) (n : NodeId) (w : Wave V) : List (NodeId × Wave V) :=
  if held.any (·.1 == n) then held.map fun e => if e.1 = n then (n, w) else e
  else held ++ [(n, w)]

theorem mem_hold {held : List (NodeId × Wave V)} {n m : NodeId} {w w' : Wave V} :
    (m, w') ∈ hold held n w ↔ (m = n ∧ w' = w) ∨ (m ≠ n ∧ (m, w') ∈ held) := by
  unfold hold
  split_ifs with hany
  · rw [any_eq_true] at hany
    rcases hany with ⟨e, he, hen⟩
    rw [mem_map]
    constructor
    · rintro ⟨e', he', heq⟩
      split_ifs at heq with h
      · cases heq
        exact Or.inl ⟨rfl, rfl⟩
      · subst heq
        exact Or.inr ⟨h, he'⟩
    · rintro (⟨rfl, rfl⟩ | ⟨hne, hmem⟩)
      · exact ⟨e, he, by rw [if_pos (beq_iff_eq.mp hen)]⟩
      · exact ⟨(m, w'), hmem, by rw [if_neg hne]⟩
  · have hnot : ∀ w'', (n, w'') ∉ held := by
      intro w'' hmem
      exact hany (any_eq_true.mpr ⟨(n, w''), hmem, by simp⟩)
    rw [mem_append, mem_singleton, Prod.mk.injEq]
    constructor
    · rintro (hmem | h)
      · refine Or.inr ⟨?_, hmem⟩
        rintro rfl
        exact hnot w' hmem
      · exact Or.inl h
    · rintro (h | ⟨_, hmem⟩)
      · exact Or.inr h
      · exact Or.inl hmem

theorem hold_nodup {held : List (NodeId × Wave V)} (n : NodeId) (w : Wave V)
    (h : (held.map (·.1)).Nodup) : ((hold held n w).map (·.1)).Nodup := by
  unfold hold
  split_ifs with hany
  · have hkeys : (held.map fun e => if e.1 = n then (n, w) else e).map (·.1) = held.map (·.1) := by
      rw [map_map]
      refine map_congr_left ?_
      intro e _
      by_cases he : e.1 = n <;> simp [he]
    rw [hkeys]
    exact h
  · rw [map_append, nodup_append]
    refine ⟨h, nodup_singleton _, ?_⟩
    rintro a ha b hb rfl
    rw [map_singleton, mem_singleton] at hb
    rcases mem_map.mp ha with ⟨e, he, hea⟩
    exact hany (any_eq_true.mpr ⟨e, he, by simp [hea, hb]⟩)

namespace Config

variable {env : Env V S} {compute : FnId → List (Option V) → Except String V}
  {rank : NodeId → Nat} {c c' c₀ : Config V S} {s : NodeId} {done : List (NodeId × V)}

/-! ### The body -/

/-- The invariant of the body: the writes so far are held, and what is owed is
    what is downstream of a written source. -/
structure Collecting (compute : FnId → List (Option V) → Except String V) (rank : NodeId → Nat)
    (c₀ : Config V S) (done : List (NodeId × V)) (c : Config V S) : Prop where
  resting : c.Resting compute rank
  wave : c.wave = none
  boundary : c.boundary = []
  batch : ∃ b, c.batch = some b ∧ b.collecting = true ∧ b.rolledBack = false ∧
    (b.deferred.map (·.1)).Nodup ∧
    ∀ m w, (m, w) ∈ b.deferred ↔ ∃ v, lastSet done m = some v ∧ w = [.data v]
  shape : ∀ n, (c.nodes n).shape = (c₀.nodes n).shape
  cache : ∀ n, c.cache n = c₀.cache n
  owed : ∀ n, c.owed n = true ↔
    c₀.owed n = true ∨ ∃ m v, lastSet done m = some v ∧ c₀.Downstream m n
  log : ∃ es, c.log = es ++ c₀.log ∧ ∀ e ∈ es, e.Telling fun _ m => m = .dirty

/-- Replacing the flag the batch keeps on a slot changes nothing the network
    reads. -/
theorem Resting.setBatchDirtyOwed (h : c.Resting compute rank) (n : NodeId) (b : Bool) :
    (c.setBatchDirtyOwed n b).Resting compute rank := by
  set y : Node V S := { c.nodes n with wave := { (c.nodes n).wave with batchDirtyOwed :=
    b } } with hy
  have hg : SameGraph c (c.setNode n y) := .setNode rfl
  have hsame : ∀ m, ((c.setNode n y).nodes m).dep = (c.nodes m).dep ∧
      ((c.setNode n y).nodes m).value = (c.nodes m).value ∧
      ((c.setNode n y).nodes m).aux = (c.nodes m).aux ∧
      ((c.setNode n y).nodes m).wave.emittedDirtyThisWave = (c.nodes m).wave.emittedDirtyThisWave ∧
      ((c.setNode n y).nodes m).wave.emittedTier3ThisWave = (c.nodes m).wave.emittedTier3ThisWave ∧
      ((c.setNode n y).nodes m).wave.insideRunWave = (c.nodes m).wave.insideRunWave := by
    intro m
    by_cases hm : m = n
    · rw [hm, setNode_self]
      exact ⟨rfl, rfl, rfl, rfl, rfl, rfl⟩
    · rw [setNode_of_ne c y hm]
      exact ⟨rfl, rfl, rfl, rfl, rfl, rfl⟩
  have howed : ∀ m, (c.setNode n y).owed m = c.owed m := by
    intro m
    unfold owed
    rw [(hsame m).2.2.2.1, (hsame m).2.2.2.2.1]
  show (c.setNode n y).Resting compute rank
  refine ⟨h.running, hg.wired h.wired, ?_, ?_, ?_, h.deferred, h.depth⟩
  · refine h.ledger.congr hg ?_ ?_ ?_ howed ?_ ?_ ?_
    · intro m hm
      rw [hg.live] at hm
      rw [hg.deps, (hsame m).1]
      exact h.ledger.sound m hm
    · intro m i
      rw [(hsame m).1]
    · intro m i _
      rw [(hsame m).1]
    · intro m
      unfold Config.cache
      rw [(hsame m).2.1]
    · intro m _ hin
      rw [(hsame m).2.2.2.2.2]
      exact hin
    · intro m hf
      rw [(hsame m).2.2.1] at hf
      exact Or.inl hf
  · intro m hm
    rw [hg.live] at hm
    rw [(hsame m).2.2.2.2.1, (hsame m).2.2.2.2.2]
    exact h.calm m hm
  · intro m hr
    have hr' : c.Ready m := by
      refine ⟨by rw [← hg.live]; exact hr.1, by rw [← hg.deps]; exact hr.2.1,
        by rw [← howed]; exact hr.2.2.1, ?_⟩
      intro i
      rw [← (hsame m).1]
      exact hr.2.2.2 i
    have hheld := h.held m hr'
    unfold Held Node.isPaused at hheld ⊢
    rw [(hsame m).2.2.1]
    exact hheld

section

variable (c : Config V S) (n m : NodeId) (b : Bool)

theorem owed_setBatchDirtyOwed : (c.setBatchDirtyOwed n b).owed m = c.owed m := by
  unfold setBatchDirtyOwed owed
  dsimp only
  by_cases hm : m = n
  · rw [hm, setNode_self]
  · rw [setNode_of_ne c _ hm]

theorem cache_setBatchDirtyOwed : (c.setBatchDirtyOwed n b).cache m = c.cache m := by
  unfold setBatchDirtyOwed cache
  dsimp only
  by_cases hm : m = n
  · rw [hm, setNode_self]
  · rw [setNode_of_ne c _ hm]

theorem shape_setBatchDirtyOwed :
    ((c.setBatchDirtyOwed n b).nodes m).shape = (c.nodes m).shape := by
  unfold setBatchDirtyOwed
  dsimp only
  by_cases hm : m = n
  · rw [hm, setNode_self]
    rfl
  · rw [setNode_of_ne c _ hm]

end

/-- A write inside the body: the value is held, DIRTY goes out. -/
theorem down_collecting {b : ActiveBatch V} (v : V) (hlive : (c.nodes s).live = true)
    (ht : (c.nodes s).Tame) (hin : (c.nodes s).wave.insideRunWave = false)
    (hb : c.batch = some b) (hcol : b.collecting = true) :
    ∃ w, w.isSome = c.wave.isSome ∧ ∀ rest, (c.popTo rest).down s [.data v] =
      ({ c with
        wave := w
        batch := some { b with deferred := hold b.deferred s [.data v] } } : Config V S).popTo
        ([.emitDirtyOnce s, .batchDirtyOwed s] ++ rest) := by
  rcases waveRegister_eq c s with ⟨w, hw, hsome⟩
  refine ⟨w, hsome, ?_⟩
  intro rest
  have hsort : collapseInvalidate (sortByTier [Message.data v]) = [.data v] := rfl
  have hterm : ((c.popTo rest).nodes s).value.terminal = false := ht.running
  have hin' : ((c.popTo rest).nodes s).wave.insideRunWave = false := hin
  have hlive' : ((c.popTo rest).nodes s).live = true := hlive
  have hcol' : (({ c with wave := w } : Config V S).popTo rest).collectingBatch = true := by
    unfold collectingBatch popTo
    simp only [hb, hcol]
  have hheld : [Message.data v].filter (·.tier.isBatchDeferred) = [.data v] := rfl
  unfold down
  simp only [hterm, Bool.false_eq_true, ↓reduceIte, hin', Bool.not_false, waveRegister_popTo,
    hw, hsort, hcol', hheld, isEmpty_cons, hlive', Bool.and_self]
  unfold deferToBatch popTo
  simp only [hb]
  rfl

/-- The end of a wave inside a batch. -/
theorem exec_waveExit_batch (hm : c.mode = .running) (hb : c.batch.isSome = true) :
    Exec env [.waveExit s] c { c with wave := none } := by
  refine Exec.enter ({ c with wave := none } : Config V S) [] hm ?_ Exec.nil
  intro rest
  have hb' : (({ c with wave := none } : Config V S).popTo rest).boundaryDrainsBlocked = true := hb
  have htail : (({ c with wave := none } : Config V S).popTo rest).waveTail =
      ({ c with wave := none } : Config V S).popTo rest := by
    unfold waveTail
    rw [if_pos hb']
  exact htail

/-- Paths along dep edges only depend on the shapes. -/
theorem downstream_of_shape (h : ∀ n, (c'.nodes n).shape = (c.nodes n).shape) {n m : NodeId} :
    c'.Downstream n m ↔ c.Downstream n m := by
  have hsame : (fun a b => ∃ i, c'.DepAt b i a) = fun a b => ∃ i, c.DepAt b i a := by
    funext a b
    refine propext (exists_congr fun i => ?_)
    have hlive : (c'.nodes b).live = (c.nodes b).live := (congrArg Node.live (h b) :)
    have hdeps : (c'.nodes b).deps = (c.nodes b).deps := (congrArg Node.deps (h b) :)
    unfold DepAt
    rw [hlive, hdeps]
  unfold Downstream
  rw [hsame]

/-- One write of the body. -/
theorem exec_write (henv : env.Computes compute) (h : Collecting compute rank c₀ done c)
    (hs : (c.nodes s).live = true) (hsrc : (c.nodes s).deps = []) (v : V) :
    ∃ c', Exec env [.down s [.data v], .waveExit s] { c with wave := some {} } c' ∧
      Collecting compute rank c₀ (done ++ [(s, v)]) c' := by
  rcases h.batch with ⟨b, hb, hcol, hroll, hnodup, hheld⟩
  set c₁ : Config V S := { c with wave := some {} } with hc₁
  rcases down_collecting (c := c₁) v hs (h.resting.wired.tame s hs) (h.resting.calm s hs).2 hb hcol
    with ⟨w, hsome, hdown⟩
  set c₂ : Config V S := { c₁ with
    wave := w
    batch := some { b with deferred := hold b.deferred s [.data v] } } with hc₂
  have hrest₂ : c₂.Resting compute rank := h.resting.of_nodes rfl rfl rfl rfl rfl rfl
  rcases exec_announce henv hrest₂ hs hsrc with ⟨c₃, hex, hrest₃, hann, ho⟩
  set c₄ := c₃.setBatchDirtyOwed s true with hc₄
  have hrest₄ : c₄.Resting compute rank := hrest₃.setBatchDirtyOwed s true
  have hbatch : c₄.batch = some { b with deferred := hold b.deferred s [.data v] } :=
    hann.graph.batch
  have hdown' : ∀ n, c₂.Downstream s n ↔ c₀.Downstream s n := fun n => downstream_of_shape h.shape
  refine ⟨{ c₄ with wave := none }, ?_, ?_⟩
  · refine Exec.enter c₂ [.emitDirtyOnce s, .batchDirtyOwed s] h.resting.running hdown ?_
    refine Exec.cons hex (Exec.enter c₄ [] hrest₃.running (fun _ => rfl) ?_)
    exact exec_waveExit_batch hrest₄.running (by rw [hbatch]; rfl)
  · refine ⟨hrest₄.of_nodes rfl rfl rfl rfl rfl rfl, rfl, hann.graph.boundary.trans h.boundary,
      ⟨_, hbatch, hcol, hroll, hold_nodup s _ hnodup, ?_⟩, ?_, ?_, ?_, ?_⟩
    · intro m w'
      rw [mem_hold, hheld, lastSet_concat]
      by_cases hm : m = s
      · simp [hm]
      · simp [hm]
    · intro n
      exact (shape_setBatchDirtyOwed c₃ s n true).trans ((hann.graph.shape n).trans (h.shape n))
    · intro n
      exact (cache_setBatchDirtyOwed c₃ s n true).trans ((hann.cache n).trans (h.cache n))
    · intro n
      have howed : ({ c₄ with wave := none } : Config V S).owed n = c₃.owed n :=
        owed_setBatchDirtyOwed c₃ s n true
      rw [howed]
      have hold : c₂.owed n = true ↔ _ := h.owed n
      constructor
      · intro hn
        rcases hann.fresh n hn with hn | hn
        · rcases hold.mp hn with hn | ⟨m, u, hm, hd⟩
          · exact Or.inl hn
          · refine Or.inr ⟨m, ?_⟩
            by_cases hms : m = s
            · exact ⟨v, by rw [lastSet_concat, if_pos hms], hd⟩
            · exact ⟨u, by rw [lastSet_concat, if_neg hms, hm], hd⟩
        · exact Or.inr ⟨s, v, by rw [lastSet_concat, if_pos rfl], (hdown' n).mp hn⟩
      · rintro (hn | ⟨m, u, hm, hd⟩)
        · exact hann.owed n (hold.mpr (Or.inl hn))
        · by_cases hms : m = s
          · subst hms
            exact hrest₃.ledger.owed_downstream ho (hann.graph.downstream.mpr ((hdown' n).mpr hd))
          · rw [lastSet_concat, if_neg hms] at hm
            exact hann.owed n (hold.mpr (Or.inr ⟨m, u, hm, hd⟩))
    · rcases h.log with ⟨es, hes, he⟩
      rcases hann.log with ⟨es', hes', he'⟩
      refine ⟨es' ++ es, ?_, ?_⟩
      · have hlog : c₃.log = es' ++ c.log := hes'
        rw [append_assoc, ← hes]
        exact hlog
      · intro e hmem
        rcases mem_append.mp hmem with hmem | hmem
        · have ht := he' e hmem
          cases e with
          | delivered n sub sink m => exact ht.1
          | _ => exact ht
        · exact he e hmem

variable {sets : List (NodeId × V)}

/-- The body, from any of its writes on. -/
theorem exec_body (henv : env.Computes compute) {b : Nat} (hplays : env.Plays b sets)
    (hsrc : ∀ e ∈ sets, (c₀.nodes e.1).live = true ∧ (c₀.nodes e.1).deps = []) :
    ∀ (todo done : List (NodeId × V)) (c : Config V S), sets = done ++ todo →
      Collecting compute rank c₀ done c →
      ∃ c', Exec env [.user (.batchBody b) done.length] c c' ∧
        Collecting compute rank c₀ sets c' := by
  intro todo
  induction todo with
  | nil =>
    intro done c heq h
    rw [append_nil] at heq
    subst heq
    refine ⟨c, Exec.enter c [] h.resting.running ?_ Exec.nil, h⟩
    intro rest
    have hact : env.act (.batchBody b) (c.popTo rest) sets.length = .ret := by
      rw [hplays, List.getElem?_eq_none (le_refl _)]
    simp only [enter, stepUser, hact]
    rfl
  | cons e todo ih =>
    intro done c heq h
    have hmem : e ∈ sets := by
      rw [heq]
      exact mem_append_right _ mem_cons_self
    have hlive : (c.nodes e.1).live = true :=
      (congrArg Node.live (h.shape e.1) :).trans (hsrc e hmem).1
    have hdeps : (c.nodes e.1).deps = [] :=
      (congrArg Node.deps (h.shape e.1) :).trans (hsrc e hmem).2
    rcases exec_write henv h hlive hdeps e.2 with ⟨c₁, hex, h₁⟩
    have heq' : sets = (done ++ [(e.1, e.2)]) ++ todo := by
      rw [heq, append_assoc]
      rfl
    rcases ih _ c₁ heq' h₁ with ⟨c', hex', h'⟩
    rw [length_append, length_singleton] at hex'
    refine ⟨c', ?_, h'⟩
    refine Exec.enter ({ c with wave := some {} } : Config V S)
      [.down e.1 [.data e.2], .waveExit e.1, .user (.batchBody b) (done.length + 1)]
      h.resting.running ?_ (Exec.append hex hex' :)
    intro rest
    have hact : env.act (.batchBody b) (c.popTo rest) done.length =
        .op (.down e.1 [.data e.2]) := by
      rw [hplays, heq, List.getElem?_append_right (le_refl _), Nat.sub_self]
      rfl
    simp only [enter, stepUser, hact]
    exact perform_set (c := (c.popTo rest).push [.user (.batchBody b) (done.length + 1)])
      (h.resting.wired.bounded e.1 hlive) h.wave hlive e.2 (.batchBody b)

/-! ### The commit -/

/-- The invariant of the commit, relative to the end of the body: the targets
    in the list have still to emit, and every derived node that is no longer
    owed ran once, on values that are final. -/
structure Committing (compute : FnId → List (Option V) → Except String V) (rank : NodeId → Nat)
    (sets : List (NodeId × V)) (c₁ : Config V S) (todo : List (NodeId × Wave V)) (c : Config V S) :
    Prop where
  resting : c.Resting compute rank
  wave : c.wave = none
  boundary : c.boundary = []
  batch : ∃ b, c.batch = some b ∧ b.collecting = false
  shape : ∀ n, (c.nodes n).shape = (c₁.nodes n).shape
  nodup : (todo.map (·.1)).Nodup
  targets : ∀ e ∈ todo, (c.nodes e.1).live = true ∧ (c.nodes e.1).deps = [] ∧
    c.owed e.1 = true ∧ ∃ v, lastSet sets e.1 = some v ∧ e.2 = [.data v]
  sources : ∀ n, (c.nodes n).live = true → (c.nodes n).deps = [] → c.owed n = true →
    n ∈ todo.map (·.1)
  written : ∀ n v, lastSet sets n = some v → n ∉ todo.map (·.1) →
    c.cache n = some v ∧ c.owed n = false
  owed : ∀ n, c.owed n = true → c₁.owed n = true
  derived : ∀ n, (c₁.nodes n).deps ≠ [] → c₁.owed n = true → c.owed n = false →
    (c₁.nodes n).live = true
  kept : ∀ n, c₁.owed n = false → c.cache n = c₁.cache n
  log : ∃ es, c.log = es ++ c₁.log ∧
    (∀ n, es.countP (Event.isRunOf n) =
      if (c₁.nodes n).deps ≠ [] ∧ c₁.owed n = true ∧ c.owed n = false then 1 else 0) ∧
    ∀ n ctx ls, .ran n ctx ls ∈ es → c.Read n ctx

/-- One held value goes out. -/
theorem exec_target (henv : env.Computes compute) (hok : ∀ f xs e, compute f xs ≠ .error e)
    {c₁ : Config V S} {e : NodeId × Wave V}
    {todo : List (NodeId × Wave V)} (h : Committing compute rank sets c₁ (e :: todo) c) :
    ∃ c', Exec env [.ownedDown e.1 e.2] (c.setBatchDirtyOwed e.1 false) c' ∧
      Committing compute rank sets c₁ todo c' := by
  rcases h.targets e mem_cons_self with ⟨hlive, hsrc, ho, v, hlast, hslice⟩
  set s := e.1 with hs
  rcases h.batch with ⟨b, hb, hcol⟩
  set c₂ : Config V S := { c.setBatchDirtyOwed s false with wave := some {} } with hc₂
  have hrest₂ : c₂.Resting compute rank :=
    (h.resting.setBatchDirtyOwed s false).of_nodes rfl rfl rfl rfl rfl rfl
  have hshape₂ : ∀ n, (c₂.nodes n).shape = (c.nodes n).shape :=
    fun n => shape_setBatchDirtyOwed c s n false
  have howed₂ : ∀ n, c₂.owed n = c.owed n := fun n => owed_setBatchDirtyOwed c s n false
  have hcache₂ : ∀ n, c₂.cache n = c.cache n := fun n => cache_setBatchDirtyOwed c s n false
  have hlive₂ : (c₂.nodes s).live = true := (congrArg Node.live (hshape₂ s) :).trans hlive
  have hsrc₂ : (c₂.nodes s).deps = [] := (congrArg Node.deps (hshape₂ s) :).trans hsrc
  have hcol₂ : c₂.collectingBatch = false := by
    unfold collectingBatch
    rw [show c₂.batch = some b from hb]
    exact hcol
  rcases exec_down henv hrest₂ hlive₂ hsrc₂ hcol₂ v with
    ⟨q, c₃, c₄, hex, hrest₃, hann, ho₃, hemit, _, hrest₄, hfail⟩
  have hq : q = none := by
    cases hq : q with
    | none => rfl
    | some p =>
      rcases (hfail p hq).2.2.1 with ⟨f, x, _, hx, _⟩
      exact absurd hx (hok f _ x)
  subst hq
  have hg : SameGraph c₂ c₄ := hann.graph.trans hemit.graph
  have hshape₄ : ∀ n, (c₄.nodes n).shape = (c.nodes n).shape :=
    fun n => (hg.shape n).trans (hshape₂ n)
  have hlive₄ : ∀ n, (c₄.nodes n).live = (c.nodes n).live := fun n =>
    (congrArg Node.live (hshape₄ n) :)
  have hdeps₄ : ∀ n, (c₄.nodes n).deps = (c.nodes n).deps := fun n =>
    (congrArg Node.deps (hshape₄ n) :)
  have hdeps₁ : ∀ n, (c.nodes n).deps = (c₁.nodes n).deps := fun n =>
    (congrArg Node.deps (h.shape n) :)
  -- The source had announced its change, so the announcement adds nothing.
  have howed₃ : ∀ n, c₃.owed n = c.owed n := by
    intro n
    rw [Bool.eq_iff_iff]
    constructor
    · intro hn
      rcases hann.fresh n hn with hn | hn
      · rw [← howed₂]
        exact hn
      · rw [← howed₂]
        exact hrest₂.ledger.owed_downstream (by rw [howed₂]; exact ho) hn
    · intro hn
      exact hann.owed n (by rw [howed₂]; exact hn)
  have hcache₃ : ∀ n, c₃.cache n = c.cache n := fun n => (hann.cache n).trans (hcache₂ n)
  have hcache₄ : ∀ n, n ≠ s → c.owed n = false → c₄.cache n = c.cache n := by
    intro n hne hn
    have hkept := (hemit.kept n hne (by rw [howed₃]; exact hn)).1
    rw [← hcache₃, cache, hkept]
    rfl
  have hmono : ∀ n, c₄.owed n = true → c.owed n = true := by
    intro n hn
    rw [← howed₃]
    exact hemit.owed n hn
  have hread : ∀ n ctx, c.Read n ctx → c₄.Read n ctx := by
    intro n ctx hr
    refine ⟨?_, ?_⟩
    · rw [hr.1, hdeps₄]
      refine map_congr_left ?_
      intro d hd
      refine (hcache₄ d ?_ (hr.2 d hd)).symm
      rintro rfl
      rw [hr.2 s hd] at ho
      cases ho
    · intro d hd
      rw [hdeps₄] at hd
      by_contra hcon
      rw [Bool.not_eq_false] at hcon
      have := hmono d hcon
      rw [hr.2 d hd] at this
      cases this
  have hnodup := nodup_cons.mp h.nodup
  refine ⟨{ c₄ with wave := none }, ?_, ?_⟩
  · refine Exec.enter c₂ [.down s [.data v], .waveExit s] h.resting.running ?_
      (Exec.cons hex (exec_waveExit_batch (hrest₄ rfl).running ?_))
    · intro rest
      have hwave : ((c.setBatchDirtyOwed s false).popTo rest).waveInFlight = false := by
        have hnone : ((c.setBatchDirtyOwed s false).popTo rest).wave = none := h.wave
        unfold waveInFlight
        rw [hnone]
        rfl
      simp only [enter, withWaveOwner, hwave, Bool.false_eq_true, ↓reduceIte, hslice]
      rfl
    · rw [hg.batch, show c₂.batch = some b from hb]
      rfl
  · refine ⟨(hrest₄ rfl).of_nodes rfl rfl rfl rfl rfl rfl, rfl, hg.boundary.trans h.boundary,
      ⟨b, hg.batch.trans hb, hcol⟩, fun n => (hshape₄ n).trans (h.shape n), hnodup.2,
        ?_, ?_, ?_, ?_,
      ?_, ?_, ?_⟩
    · intro e' he'
      rcases h.targets e' (mem_cons_of_mem _ he') with ⟨hl, hd, ho', hv⟩
      have hne : e'.1 ≠ s := by
        intro heq
        refine hnodup.1 (mem_map.mpr ⟨e', he', ?_⟩)
        exact heq
      refine ⟨(hlive₄ _).trans hl, (hdeps₄ _).trans hd, ?_, hv⟩
      -- A source that is owed waits for its own emission.
      by_contra hcon
      rw [Bool.not_eq_true] at hcon
      have hder := hemit.derived e'.1 hne (by rw [howed₃]; exact ho') hcon
      have hdeps₃ : (c₃.nodes e'.1).deps = [] := by
        rw [hann.graph.deps]
        exact (congrArg Node.deps (hshape₂ e'.1) :).trans hd
      exact hder.2 hdeps₃
    · intro n hl hd hn
      have hl' : (c.nodes n).live = true := (hlive₄ n).symm.trans hl
      have hd' : (c.nodes n).deps = [] := (hdeps₄ n).symm.trans hd
      rcases mem_cons.mp (h.sources n hl' hd' (hmono n hn)) with hns | hmem
      · have hdone := hemit.done
        rw [show n = s from hns] at hn
        rw [show c₄.owed s = true from hn] at hdone
        cases hdone
      · exact hmem
    · intro n u hu hnot
      by_cases hns : n = s
      · rw [hns] at hu ⊢
        rw [hlast] at hu
        cases hu
        exact ⟨hemit.holds, hemit.done⟩
      · have hnot' : n ∉ (e :: todo).map (·.1) := by
          rw [map_cons, mem_cons]
          rintro (heq | hmem)
          · exact hns heq
          · exact hnot hmem
        have hold := h.written n u hu hnot'
        refine ⟨(hcache₄ n hns hold.2).trans hold.1, ?_⟩
        by_contra hcon
        rw [Bool.not_eq_false] at hcon
        have hn := hmono n hcon
        rw [hold.2] at hn
        cases hn
    · intro n hn
      exact h.owed n (hmono n hn)
    · intro n hd hn hn'
      by_cases hc : c.owed n = true
      · have hns : n ≠ s := by
          rintro rfl
          exact hd ((hdeps₁ _).symm.trans hsrc)
        have hder := (hemit.derived n hns (by rw [howed₃]; exact hc) hn').1
        rw [hann.graph.live] at hder
        exact (congrArg Node.live (h.shape n) :).symm.trans
          ((congrArg Node.live (hshape₂ n) :).symm.trans hder)
      · exact h.derived n hd hn (Bool.not_eq_true _ ▸ hc)
    · intro n hn
      have hc : c.owed n = false := by
        by_contra hcon
        rw [Bool.not_eq_false] at hcon
        rw [h.owed n hcon] at hn
        cases hn
      have hns : n ≠ s := by
        rintro rfl
        rw [ho] at hc
        cases hc
      exact (hcache₄ n hns hc).trans (h.kept n hn)
    · rcases h.log with ⟨es, hes, hcount, hreads⟩
      rcases hann.log with ⟨es₁, hes₁, htold⟩
      rcases hemit.log with ⟨es₂, hes₂, hcount₂, hreads₂, _⟩
      refine ⟨es₂ ++ (es₁ ++ es), ?_, ?_, ?_⟩
      · have hlog₃ : c₃.log = es₁ ++ c.log := hes₁
        rw [append_assoc, append_assoc, ← hes, ← hlog₃]
        exact hes₂
      · intro n
        have hquiet := Event.countP_isRunOf_of_telling htold n
        rw [countP_append, countP_append, hquiet, hcount, hcount₂, howed₃]
        have hfinal : ({ c₄ with wave := none } : Config V S).owed n = c₄.owed n := rfl
        rw [hfinal]
        by_cases hd : (c₁.nodes n).deps = []
        · -- A source never runs.
          have hno : ¬ (n ≠ s ∧ c.owed n = true ∧ c₄.owed n = false) := by
            rintro ⟨hns, hn, hn'⟩
            have hder := (hemit.derived n hns (by rw [howed₃]; exact hn) hn').2
            rw [hann.graph.deps] at hder
            exact hder ((congrArg Node.deps (hshape₂ n) :).trans ((hdeps₁ n).trans hd))
          rw [if_neg hno]
          simp [hd]
        · have hns : n ≠ s := by
            rintro rfl
            exact hd ((hdeps₁ _).symm.trans hsrc)
          have hstep := h.owed n
          have hstep' := hmono n
          cases h₁ : c₁.owed n <;> cases h₂ : c.owed n <;> cases h₄ : c₄.owed n <;> simp_all
      · intro n ctx ls hmem
        rcases mem_append.mp hmem with hmem | hmem
        · exact (hreads₂ n ctx ls hmem).1
        · rcases mem_append.mp hmem with hmem | hmem
          · cases htold _ hmem
          · exact hread n ctx (hreads n ctx ls hmem)

/-- The held values go out one after another. -/
theorem exec_commit (henv : env.Computes compute) (hok : ∀ f xs e, compute f xs ≠ .error e)
    {c₁ : Config V S} :
    ∀ (todo : List (NodeId × Wave V)) (c : Config V S),
      Committing compute rank sets c₁ todo c →
      ∃ c', Exec env [.commitTargets todo] c c' ∧ Committing compute rank sets c₁ [] c' := by
  intro todo
  induction todo with
  | nil =>
    intro c h
    exact ⟨c, Exec.enter c [] h.resting.running (fun _ => rfl) Exec.nil, h⟩
  | cons e todo ih =>
    intro c h
    rcases exec_target henv hok h with ⟨c₂, hex, h₂⟩
    rcases ih c₂ h₂ with ⟨c', hex', h'⟩
    refine ⟨c', ?_, h'⟩
    refine Exec.enter (c.setBatchDirtyOwed e.1 false) [.ownedDown e.1 e.2, .commitTargets todo]
      h.resting.running ?_ (Exec.cons hex hex')
    intro rest
    have hl : ((c.popTo rest).nodes e.1).live = true := (h.targets e mem_cons_self).1
    exact if_pos hl

/-- The commit is closed, with nothing waiting for the boundary. -/
theorem exec_commitDone (env : Env V S) (roots : Bool) (hm : c.mode = .running)
    (hb : c.boundary = []) :
    ∃ c', Exec env [.commitDone roots] c c' ∧ c'.nodes = c.nodes ∧ c'.mode = c.mode ∧
      c'.size = c.size ∧ c'.boxes = c.boxes ∧ c'.deferred = c.deferred ∧ c'.depth = c.depth ∧
      c'.wave = c.wave ∧ c'.batch = none ∧ c'.boundary = [] ∧ c'.log = c.log := by
  obtain ⟨committed, hdone⟩ : ∃ committed, ∀ rest, (c.popTo rest).commitDone roots =
      if (c.popTo rest).batchRoots roots then
        ({ c.popTo rest with committed := committed, batch := none } : Config V S).push
          [.drainBoundary]
      else { c.popTo rest with committed := committed, batch := none } := by
    cases hbatch : c.batch with
    | none =>
      refine ⟨[] ++ c.committed, fun rest => ?_⟩
      rw [commitDone, show (c.popTo rest).batch = none from hbatch]
      rfl
    | some b =>
      refine ⟨[b.id] ++ c.committed, fun rest => ?_⟩
      rw [commitDone, show (c.popTo rest).batch = some b from hbatch]
      rfl
  set c' : Config V S := { c with committed := committed, batch := none } with hc'
  refine ⟨c', ?_, rfl, rfl, rfl, rfl, rfl, rfl, rfl, rfl, hb, rfl⟩
  have hdrain : Exec env [.drainBoundary] c' c' := by
    refine Exec.enter c' [] hm ?_ Exec.nil
    intro rest
    simp [enter, drainBoundary, popTo, hc', hb]
  cases hr : c.batchRoots roots with
  | true =>
    refine Exec.enter c' [.drainBoundary] hm ?_ hdrain
    intro rest
    have hr' : (c.popTo rest).batchRoots roots = true := hr
    simp only [enter, hdone, hr', ↓reduceIte]
    rfl
  | false =>
    refine Exec.enter c' [] hm ?_ Exec.nil
    intro rest
    have hr' : (c.popTo rest).batchRoots roots = false := hr
    simp only [enter, hdone, hr', Bool.false_eq_true, ↓reduceIte]
    rfl

/-- Node `n` is a derived node downstream of a written source. -/
def Affected (c : Config V S) (sets : List (NodeId × V)) (n : NodeId) : Prop :=
  (c.nodes n).deps ≠ [] ∧ ∃ s v, lastSet sets s = some v ∧ c.Downstream s n

/-- What a batch of writes has done: nothing ran before the body ended in
    `c₁`; then every derived node downstream of a written source ran once, on
    the values its deps hold in the end. -/
structure Committed (compute : FnId → List (Option V) → V) (rank : NodeId → Nat)
    (sets : List (NodeId × V)) (c c₁ c' : Config V S) : Prop where
  idle : c'.Idle (total compute) rank
  net : SameNet c c'
  quiet : ∃ es, c₁.log = es ++ c.log ∧ ∀ n, es.countP (Event.isRunOf n) = 0
  runs : ∃ es, c'.log = es ++ c₁.log ∧
    (∀ n, c.Affected sets n → es.countP (Event.isRunOf n) = 1) ∧
    (∀ n, ¬ c.Affected sets n → es.countP (Event.isRunOf n) = 0) ∧
    ∀ n ctx ls, .ran n ctx ls ∈ es → ctx.deps.map (·.latest) = (c'.nodes n).deps.map c'.cache
  written : ∀ s v, lastSet sets s = some v → c'.cache s = some v
  kept : ∀ s, (c.nodes s).live = true → (c.nodes s).deps = [] → lastSet sets s = none →
    c'.cache s = c.cache s
  fresh : ∀ n, (c'.nodes n).live = true → (c'.nodes n).deps ≠ [] → c'.Fresh (total compute) n

/-- The call of `batch`. -/
theorem batch_returns {compute : FnId → List (Option V) → V} (henv : env.Computes (total compute))
    (h : c.Idle (total compute) rank)
    (hawake : ∀ n, (c.nodes n).live = true → (c.nodes n).isPaused = false) {b : Nat}
    (hplays : env.Plays b sets)
    (hsets : ∀ e ∈ sets, (c.nodes e.1).live = true ∧ (c.nodes e.1).deps = []) (cb : Callback V) :
    ∃ c₁ c', Returns env (.batchFinish :: c.stack) (c.perform cb (.batch b)) c₁ ∧
      Returns env c.stack c₁ c' ∧ Committed compute rank sets c c₁ c' := by
  have hok : ∀ f xs e, total compute f xs ≠ .error e := fun f xs e he => by cases he
  set c₀ : Config V S := { c with
    batch := some { id := c.nextBatch }
    nextBatch := c.nextBatch + 1 } with hc₀
  have hopen : c.perform cb (.batch b) =
      c₀.popTo ([.user (.batchBody b) 0] ++ (.batchFinish :: c.stack)) := by
    unfold perform openBatch
    simp only [h.batch, Option.isSome_none, Bool.false_eq_true, ↓reduceIte]
    rfl
  have hstart : Collecting (total compute) rank c [] c₀ := by
    refine ⟨h.resting.of_nodes rfl rfl rfl rfl rfl rfl, h.wave, h.boundary,
      ⟨_, rfl, rfl, rfl, nodup_nil, ?_⟩, fun _ => rfl, fun _ => rfl, ?_,
      ⟨[], rfl, fun _ he => absurd he not_mem_nil⟩⟩
    · intro m w
      simp [lastSet]
    · intro n
      have hsame : c₀.owed n = c.owed n := rfl
      rw [hsame]
      simp [lastSet]
  rcases exec_body henv hplays hsets sets [] c₀ rfl hstart with ⟨c₁, hex, hcol⟩
  rcases hcol.batch with ⟨b₁, hb₁, _, hroll, hnodup, hheld⟩
  have hlive₁ : ∀ n, (c₁.nodes n).live = (c.nodes n).live := fun n =>
    (congrArg Node.live (hcol.shape n) :)
  have hdeps₁ : ∀ n, (c₁.nodes n).deps = (c.nodes n).deps := fun n =>
    (congrArg Node.deps (hcol.shape n) :)
  have hnone : ∀ n, (c.nodes n).live = true → c.owed n = false :=
    h.resting.settled hawake h.sources
  set roots := b₁.boundaryRoot || !b₁.deferred.isEmpty with hroots
  set c₂ : Config V S := { c₁ with batch := some { b₁ with
    collecting := false
    deferred := []
    boundaryRoot := false } } with hc₂
  have hcommit : Committing (total compute) rank sets c₁ b₁.deferred c₂ := by
    refine ⟨hcol.resting.of_nodes rfl rfl rfl rfl rfl rfl, hcol.wave, hcol.boundary, ⟨_, rfl, rfl⟩,
      fun _ => rfl, hnodup, ?_, ?_, ?_, fun _ ho => ho, ?_, fun _ _ => rfl, ⟨[], rfl, ?_, ?_⟩⟩
    · rintro ⟨s, w⟩ he
      rcases (hheld s w).mp he with ⟨v, hv, hw⟩
      have hsrc := hsets _ (mem_of_lastSet hv)
      refine ⟨(hlive₁ s).trans hsrc.1, (hdeps₁ s).trans hsrc.2, ?_, v, hv, hw⟩
      exact (hcol.owed s).mpr (Or.inr ⟨s, v, hv, Relation.ReflTransGen.refl⟩)
    · intro n hl hd ho
      have hl' : (c.nodes n).live = true := (hlive₁ n).symm.trans hl
      have hd' : (c.nodes n).deps = [] := (hdeps₁ n).symm.trans hd
      rcases (hcol.owed n).mp ho with ho | ⟨m, v, hm, hdown⟩
      · rw [hnone n hl'] at ho
        cases ho
      · rw [← hdown.eq_of_source hd'] at hm
        exact mem_map.mpr ⟨(n, [.data v]), (hheld n _).mpr ⟨v, hm, rfl⟩, rfl⟩
    · intro n v hv hnot
      exact absurd (mem_map.mpr ⟨(n, [.data v]), (hheld n _).mpr ⟨v, hv, rfl⟩, rfl⟩) hnot
    · intro n _ ho ho'
      rw [show c₁.owed n = false from ho'] at ho
      cases ho
    · intro n
      have hno : ¬ ((c₁.nodes n).deps ≠ [] ∧ c₁.owed n = true ∧ c₂.owed n = false) := by
        rintro ⟨_, ho, ho'⟩
        rw [show c₁.owed n = false from ho'] at ho
        cases ho
      rw [if_neg hno]
      rfl
    · intro n ctx ls hmem
      exact absurd hmem not_mem_nil
  rcases exec_commit henv hok b₁.deferred c₂ hcommit with ⟨c₃, hex₃, h₃⟩
  rcases exec_commitDone env roots h₃.resting.running h₃.boundary with
    ⟨c₄, hex₄, hn, hm, hs, hbx, hdf, hdp, hw, hbt, hbd, hlg⟩
  have hfinish : Exec env [.batchFinish] c₁ c₄ := by
    refine Exec.enter c₂ [.commitTargets b₁.deferred, .commitDone roots] hcol.resting.running ?_
      (Exec.cons hex₃ hex₄)
    intro rest
    have hb' : (c₁.popTo rest).batch = some b₁ := hb₁
    have hkeep : (b₁.rolledBack || (none : Option Payload).isSome) = false := by
      rw [hroll]
      rfl
    simp only [enter, batchFinish, hb', hkeep, Bool.false_eq_true, ↓reduceIte]
    rfl
  refine ⟨c₁.popTo (.batchFinish :: c.stack), c₄.popTo c.stack, ?_, hfinish c.stack, ?_⟩
  · rw [hopen]
    exact hex _
  have hshape : ∀ n, (c₃.nodes n).shape = (c.nodes n).shape :=
    fun n => (h₃.shape n).trans (hcol.shape n)
  have hlive₃ : ∀ n, (c₃.nodes n).live = (c.nodes n).live := fun n =>
    (congrArg Node.live (hshape n) :)
  have hdeps₃ : ∀ n, (c₃.nodes n).deps = (c.nodes n).deps := fun n =>
    (congrArg Node.deps (hshape n) :)
  -- All sources have emitted and nothing is paused, so nothing is owed.
  have hsource : ∀ n, (c₃.nodes n).live = true → (c₃.nodes n).deps = [] → c₃.owed n = false := by
    intro n hl hd
    by_contra hcon
    rw [Bool.not_eq_false] at hcon
    exact absurd (h₃.sources n hl hd hcon) not_mem_nil
  have hsettled : ∀ n, (c₃.nodes n).live = true → c₃.owed n = false := by
    refine h₃.resting.settled ?_ hsource
    intro n hl
    have hp := hawake n ((hlive₃ n).symm.trans hl)
    have hlocks : (c₃.nodes n).aux.pauseLockset = (c.nodes n).aux.pauseLockset :=
      (congrArg (·.aux.pauseLockset) (hshape n) :)
    unfold Node.isPaused at hp ⊢
    rw [hlocks]
    exact hp
  have hrest₄ : (c₄.popTo c.stack).Resting (total compute) rank :=
    h₃.resting.of_nodes hn hm hs hbx hdf hdp
  have hcache : ∀ n, (c₄.popTo c.stack).cache n = c₃.cache n := by
    intro n
    unfold cache popTo
    rw [hn]
  have howed : ∀ n, (c₄.popTo c.stack).owed n = c₃.owed n := by
    intro n
    unfold owed popTo
    rw [hn]
  have hnode : ∀ n, (c₄.popTo c.stack).nodes n = c₃.nodes n := by
    intro n
    unfold popTo
    rw [hn]
  refine ⟨⟨hrest₄, hw.trans h₃.wave, hbt, hbd, ?_⟩, ⟨?_, ?_, ?_⟩, ?_, ?_, ?_, ?_, ?_⟩
  · intro n hl hd
    rw [hnode] at hl hd
    rw [howed]
    exact hsource n hl hd
  · intro n
    rw [hnode]
    exact hlive₃ n
  · intro n
    rw [hnode]
    exact hdeps₃ n
  · intro n
    rw [hnode]
    exact (congrArg Node.handle (hshape n) :)
  · rcases hcol.log with ⟨es, hes, he⟩
    exact ⟨es, hes, Event.countP_isRunOf_of_telling he⟩
  · rcases h₃.log with ⟨es, hes, hcount, hreads⟩
    refine ⟨es, hlg.trans hes, ?_, ?_, ?_⟩
    · rintro n ⟨hd, s, v, hv, hdown⟩
      have hl : (c.nodes n).live = true := by
        cases hdown with
        | refl => exact absurd (hsets _ (mem_of_lastSet hv)).2 hd
        | tail _ hedge =>
          rcases hedge with ⟨i, hat⟩
          exact hat.1
      rw [hcount, if_pos ⟨by rw [hdeps₁]; exact hd, (hcol.owed n).mpr (Or.inr ⟨s, v, hv, hdown⟩),
        hsettled n ((hlive₃ n).trans hl)⟩]
    · intro n hnot
      have hno : ¬ ((c₁.nodes n).deps ≠ [] ∧ c₁.owed n = true ∧ c₃.owed n = false) := by
        rintro ⟨hd, ho, ho'⟩
        have hl := h₃.derived n hd ho ho'
        rw [hlive₁] at hl
        rw [hdeps₁] at hd
        rcases (hcol.owed n).mp ho with ho | hdown
        · rw [hnone n hl] at ho
          cases ho
        · exact hnot ⟨hd, hdown⟩
      rw [hcount, if_neg hno]
    · intro n ctx ls hmem
      rw [(hreads n ctx ls hmem).1, hnode]
      exact map_congr_left (fun d _ => (hcache d).symm)
  · intro s v hv
    rw [hcache]
    exact (h₃.written s v hv not_mem_nil).1
  · intro s hl hd hv
    have ho : c₁.owed s = false := by
      by_contra hcon
      rw [Bool.not_eq_false] at hcon
      rcases (hcol.owed s).mp hcon with ho | ⟨m, v, hm, hdown⟩
      · rw [hnone s hl] at ho
        cases ho
      · rw [← hdown.eq_of_source hd, hv] at hm
        cases hm
    rw [hcache, h₃.kept s ho, hcol.cache]
  · intro n hl hd
    refine hrest₄.ledger.coherent n hl hd ?_
    rw [hnode] at hl
    rw [howed]
    exact hsettled n hl

/-- A batch of writes is one atomic update: nothing runs during the body, then
    every affected node runs once and reads committed values only; and bodies
    that leave the same last values leave the same caches. -/
theorem batch_atomic {compute : FnId → List (Option V) → V} (henv : env.Computes (total compute))
    (h : c.Idle (total compute) rank)
    (hawake : ∀ n, (c.nodes n).live = true → (c.nodes n).isPaused = false) {b : Nat}
    {sets : List (NodeId × V)} (hplays : env.Plays b sets)
    (hsets : ∀ e ∈ sets, (c.nodes e.1).live = true ∧ (c.nodes e.1).deps = []) (cb : Callback V) :
    ∃ c₁ c', Returns env (.batchFinish :: c.stack) (c.perform cb (.batch b)) c₁ ∧
      Returns env c.stack (c.perform cb (.batch b)) c' ∧ Committed compute rank sets c c₁ c' ∧
      ∀ (env' : Env V S) b' sets' cb' c'', env'.Computes (total compute) → env'.Plays b' sets' →
        (∀ e ∈ sets', (c.nodes e.1).live = true ∧ (c.nodes e.1).deps = []) →
        (∀ s, lastSet sets' s = lastSet sets s) →
        Returns env' c.stack (c.perform cb' (.batch b')) c'' →
        ∀ n, (c.nodes n).live = true → c''.cache n = c'.cache n := by
  rcases batch_returns henv h hawake hplays hsets cb with ⟨c₁, c', hbody, hrest, hdone⟩
  refine ⟨c₁, c', hbody, Returns.trans [.batchFinish] hbody hrest, hdone, ?_⟩
  intro env' b' sets' cb' c'' henv' hplays' hsets' hlast hret n hn
  rcases batch_returns henv' h hawake hplays' hsets' cb' with ⟨c₂, c₃, hbody', hrest', hdone'⟩
  have heq : c'' = c₃ := hret.unique (Returns.trans [.batchFinish] hbody' hrest')
  subst heq
  have hnet : SameNet c' c'' := by
    refine ⟨fun n => ?_, fun n => ?_, fun n => ?_⟩
    · rw [hdone'.net.live, hdone.net.live]
    · rw [hdone'.net.deps, hdone.net.deps]
    · rw [hdone'.net.handle, hdone.net.handle]
  refine caches_unique hdone.idle.resting.wired hnet hdone.fresh hdone'.fresh ?_ n
    (by rw [hdone.net.live]; exact hn)
  intro s hl hd
  rw [hdone.net.live] at hl
  rw [hdone.net.deps] at hd
  cases hv : lastSet sets s with
  | some v => rw [hdone.written s v hv, hdone'.written s v ((hlast s).trans hv)]
  | none => rw [hdone.kept s hl hd hv, hdone'.kept s hl hd ((hlast s).trans hv)]

/-- Two sources joined by node 2. The body writes source 0 twice, around
    source 1. -/
def twoSources : Env Nat Unit := Env.computing (total sums) fun cb => match cb with
  | .main => [.newNode { initial := some 1 }, .newNode { initial := some 2 },
      .newNode { deps := [0, 1], handle := some (3, .sync) }, .subscribe 2 0]
  | .batchBody _ => [.down 0 [.data 5], .down 1 [.data 6], .down 0 [.data 7]]
  | _ => []

/-- The join once the subscription is made. -/
def twoSourcesIdle : Config Nat Unit :=
  initial.run twoSources 49

theorem twoSources_plays : twoSources.Plays 0 [(0, 5), (1, 6), (0, 7)] := by
  rintro c (_ | _ | _ | i)
  · rfl
  · rfl
  · rfl
  · rfl

theorem batch_atomic_twoSources :
    ∃ c', Returns twoSources twoSourcesIdle.stack (twoSourcesIdle.perform .main (.batch 0)) c' ∧
      c'.cache 0 = some 7 ∧ c'.cache 1 = some 6 := by
  have hidle : twoSourcesIdle.Idle (total sums) id :=
    idle_run twoSources 49 (by decide +kernel) (by decide +kernel) (by decide +kernel)
  have hsize : twoSourcesIdle.size = 3 := by decide +kernel
  have hawake : ∀ n, (twoSourcesIdle.nodes n).live = true →
      (twoSourcesIdle.nodes n).isPaused = false := by
    intro n hn
    have hlt := hidle.resting.wired.bounded n hn
    rw [hsize] at hlt
    have hall : ∀ n < 3, (twoSourcesIdle.nodes n).isPaused = false := by decide +kernel
    exact hall n hlt
  have hsets : ∀ e ∈ [((0 : NodeId), 5), (1, 6), (0, 7)],
      (twoSourcesIdle.nodes e.1).live = true ∧ (twoSourcesIdle.nodes e.1).deps = [] := by
    decide +kernel
  rcases batch_atomic (Env.computing_computes _ _) hidle hawake twoSources_plays hsets .main with
    ⟨c₁, c', _, hret, hdone, _⟩
  exact ⟨c', hret, hdone.written 0 7 rfl, hdone.written 1 6 rfl⟩

end Config

end GraphRefly
