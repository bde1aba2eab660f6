import GraphRefly.Lib.Earlier
import GraphRefly.Storage.ReadThrough

/-!
# What a Lookup Answers and Writes

The answer of a lookup through tiers depends on what each tier says when its turn comes:
the first value found is the answer. What the lookup writes depends on nothing else. It
writes that value under that key, to tiers before the one it was found in, and to a
versioned tier only on the condition that the generation it read there is current.

So a tier whose conditional writes are atomic loses nothing: if anyone has written the
key there since the lookup read it, the lookup's own write has no effect.

## Main definitions

* `readAt`: What a tier says when its turn comes.
* `Has`, `First`: A tier that has the key; the first one.
* `Written`: What may be said of a write of the lookup.
* `Atomic`, `Framed`: What is asked of the tiers.
* `ReadsThrough`: What is to hold of a lookup.

## Theorems

* `readTiers_spec`: The reads.
* `promoteAll_writes`: The writes.
* `memoryTier_atomic`: The conditional writes of the memory tier are atomic.
* `readsThrough`: Every lookup answers and writes as it should.
-/

namespace GraphRefly.Storage

open List Lib

variable {W Op V : Type} (sys : System W Op) (others : Nat → List Op)
  (opts : TieredReadThroughOptions W Op V) (w : W)

/-! ### Turns -/

/-- What the others do in their first turns. -/
def turns (n : Nat) : List (Doing Op) := (List.range n).flatMap fun k => (others k).map .others

/-- The world at a turn, as long as the lookup only reads. -/
def turnWorld (i : Nat) : W := worldAfter sys w (turns others (i + 1))

theorem turns_succ (n : Nat) : turns others (n + 1) = turns others n ++ (others n).map .others := by
  rw [turns, range_succ, flatMap_append, flatMap_singleton]
  rfl

/-- What a tier says when its turn comes. -/
def readAt (i : Nat) : Option (Except StorageError (Option V × Option KvGeneration)) :=
  opts.tiers[i]?.map fun tier => readTier tier (turnWorld sys others w i) opts.key

/-- What the loader says, when no tier has the key. -/
def loaderAnswer : Option (Except StorageError (Option V)) :=
  opts.load.map fun load => load (turnWorld sys others w opts.tiers.length) opts.key

/-- A tier has the key when its turn comes. -/
def Has (i : Nat) (v : V) : Prop :=
  ∃ generation, readAt sys others opts w i = some (.ok (some v, generation))

/-- The first tier that has the key. -/
def First (i : Nat) (v : V) : Prop :=
  Has sys others opts w i v ∧ ∀ j < i, ∀ v', ¬ Has sys others opts w j v'

/-- A tier or the loader has failed. -/
def Failed : Prop :=
  (∃ i error, readAt sys others opts w i = some (.error error)) ∨
    ∃ error, loaderAnswer sys others opts w = some (.error error)

/-! ### What is asked of a lookup -/

/-- The policy names a tier. -/
def PromotionPolicy.Names (i : Nat) : PromotionPolicy → Prop
  | .allEarlier => True
  | .disabled => False
  | .indices listed => i ∈ listed

/-- A tier in front of the place of the value that the policy names. -/
def Target (i : Nat) : Prop :=
  opts.promoteTo.Names i ∧ i < opts.tiers.length ∧
    ∀ j v, First sys others opts w j v → i < j

/-- An operation of the lookup on a tier: it writes the value under the key, and to a versioned
    tier with the generation that was read there. -/
structure Written (value : V) (i : Nat) (op : Op) (before : List (Doing Op)) : Prop where
  target : Target sys others opts w i
  plain : ∀ tier, opts.tiers[i]? = some tier → tier.supportsVersioned = false →
    op = tier.set opts.key value
  versioned : ∀ tier, opts.tiers[i]? = some tier → tier.supportsVersioned = true →
    ∃ read generation, tier.getVersioned (turnWorld sys others w i) opts.key = .ok read ∧
      read.generation = generation ∧ op = tier.setIfMatch opts.key value generation ∧
      ∃ between, before = turns others (i + 1) ++ between

/-- The conditional writes of a tier are atomic: one that has an effect follows its read with
    no change of the key's entry between. -/
def Atomic (tier : Tier W Op V) (key : String) (changes : W → Op → Prop) (keeps : W → Prop) :
    Prop :=
  ∀ w₀ ops read v, keeps w₀ → tier.getVersioned w₀ key = .ok read →
    sys.step (ops.foldl sys.step w₀) (tier.setIfMatch key v read.generation) ≠
      ops.foldl sys.step w₀ →
    Stamp.Quiet sys.step changes w₀ ops

/-- Every tier has its place, and its writes leave what is elsewhere or under other keys. -/
def Framed {P : Type} (place : Nat → P) (content : W → P → String → Option V) : Prop :=
  ∀ i tier, opts.tiers[i]? = some tier → ∀ w' key v op,
    (op = tier.set key v ∨ ∃ generation, op = tier.setIfMatch key v generation) →
    ∀ p k, ¬ (p = place i ∧ k = key) → content (sys.step w' op) p k = content w' p k

/-- What is to hold of a lookup with its log. -/
structure ReadsThrough (result : TieredReadThroughResult V) (log : List (Doing Op)) : Prop where
  hit : ∀ i v, First sys others opts w i v → result.status = .hit ∧ result.value = some v ∧
    result.hitTier = some (lookupTier i opts.tierNames)
  loaded : (∀ i v, ¬ Has sys others opts w i v) →
    ∀ v, loaderAnswer sys others opts w = some (.ok (some v)) →
      result.status = .hit ∧ result.value = some v ∧ result.hitTier = some loaderTier
  missed : (∀ i v, ¬ Has sys others opts w i v) →
    (∀ v, loaderAnswer sys others opts w ≠ some (.ok (some v))) →
      result.value = none ∧ result.hitTier = none ∧
        (Failed sys others opts w → result.status = .error) ∧
        (¬ Failed sys others opts w → result.status = .miss)
  writes : ∀ before doing later, log = before ++ doing :: later →
    ∀ i op, doing = .own i op →
      ∃ v, result.value = some v ∧ Written sys others opts w v i op before
  /-- No write that others made since the read is overwritten. -/
  safe : ∀ before doing later, log = before ++ doing :: later → ∀ i op, doing = .own i op →
    ∀ tier, opts.tiers[i]? = some tier → tier.supportsVersioned = true →
    ∀ changes keeps, Atomic sys tier opts.key changes keeps →
      keeps (turnWorld sys others w i) →
      sys.step (worldAfter sys w before) op ≠ worldAfter sys w before →
      ∃ between, before = turns others (i + 1) ++ between ∧
        Stamp.Quiet sys.step changes (turnWorld sys others w i) (between.map Doing.op)
  /-- Nothing changes but the key, in the places of targets. -/
  frame : ∀ (P : Type) (place : Nat → P) (content : W → P → String → Option V),
    Framed sys opts place content →
    ∀ before doing later, log = before ++ doing :: later → ∀ i op, doing = .own i op →
    ∀ p k, content (sys.step (worldAfter sys w before) op) p k ≠
        content (worldAfter sys w before) p k →
      k = opts.key ∧ p = place i ∧ Target sys others opts w i

/-! ### The reads -/

variable {sys others opts w}

variable {i : Nat} {v : V}

variable {v' : V}

theorem has_unique (h : Has sys others opts w i v) (h' : Has sys others opts w i v') : v = v' := by
  obtain ⟨generation, hread⟩ := h
  obtain ⟨generation', hread'⟩ := h'
  rw [hread] at hread'
  exact Option.some.inj (Prod.mk.inj (Except.ok.inj (Option.some.inj hread'))).1

variable {j : Nat}

theorem First.unique (h : First sys others opts w i v)
    (h' : First sys others opts w j v') : i = j := by
  rcases Nat.lt_trichotomy i j with hlt | heq | hgt
  · exact absurd h.1 (h'.2 i hlt v)
  · exact heq
  · exact absurd h'.1 (h.2 j hgt v')

/-- The facts of the first reads. -/
def readFacts (sys : System W Op) (others : Nat → List Op)
    (opts : TieredReadThroughOptions W Op V) (w : W) (n : Nat) : List (ReadThroughLookupFact V) :=
  (List.range n).filterMap fun i =>
    (readAt sys others opts w i).map (lookupFact opts.key (lookupTier i opts.tierNames))

variable {n : Nat}

theorem readFacts_succ {read : Except StorageError (Option V × Option KvGeneration)}
    (h : readAt sys others opts w n = some read) :
    readFacts sys others opts w (n + 1) = readFacts sys others opts w n ++
      [lookupFact opts.key (lookupTier n opts.tierNames) read] := by
  rw [readFacts, range_succ, filterMap_append, filterMap_cons_some (by rw [h]; rfl),
    filterMap_nil]
  rfl

/-- A lookup after its first reads, none of which found the key. -/
structure Searching (sys : System W Op) (others : Nat → List Op)
    (opts : TieredReadThroughOptions W Op V) (w : W) (n : Nat) (l : Lookup Op V) : Prop where
  session : l.session = ⟨n, turns others n⟩
  facts : l.facts = readFacts sys others opts w n
  hitTier : l.hitTier = none
  value : l.value = none
  absent : ∀ j < n, ∀ v, ¬ Has sys others opts w j v

/-- A lookup that has found the key in a tier. -/
structure Found (sys : System W Op) (others : Nat → List Op)
    (opts : TieredReadThroughOptions W Op V) (w : W) (i : Nat) (v : V) (l : Lookup Op V) : Prop where
  first : First sys others opts w i v
  session : l.session = ⟨i + 1, turns others (i + 1)⟩
  facts : l.facts = readFacts sys others opts w (i + 1)
  hitTier : l.hitTier = some (lookupTier i opts.tierNames)
  value : l.value = some v

variable {l : Lookup Op V}

/-- The reads: the key is found at the first tier that has it, or all tiers are read. -/
theorem readTiers_spec {tiers : List (Tier W Op V)} (htiers : opts.tiers.drop i = tiers)
    (h : Searching sys others opts w i l) (hi : i ≤ opts.tiers.length) :
    (∃ j v, Found sys others opts w j v (readTiers sys others opts w tiers i l)) ∨
      Searching sys others opts w opts.tiers.length (readTiers sys others opts w tiers i l) := by
  induction tiers generalizing i l with
  | nil =>
    have hend : i = opts.tiers.length := by
      have := drop_eq_nil_iff.mp htiers
      omega
    rw [readTiers, ← hend]
    exact Or.inr h
  | cons tier tiers ih =>
    have hget : opts.tiers[i]? = some tier := by
      rw [← List.head?_drop, htiers, List.head?_cons]
    have hlt : i < opts.tiers.length := (List.getElem?_eq_some_iff.mp hget).1
    have hrest : opts.tiers.drop (i + 1) = tiers := by
      rw [← tail_drop, htiers, tail_cons]
    have hsession : l.session.turn others = ⟨i + 1, turns others (i + 1)⟩ := by
      rw [h.session, Session.turn, turns_succ]
    have hread : readAt sys others opts w i =
        some (readTier tier (turnWorld sys others w i) opts.key) := by
      rw [readAt, hget, Option.map_some]
    have hworld : worldAfter sys w (l.session.turn others).log = turnWorld sys others w i := by
      rw [hsession]
      rfl
    have hfacts : l.facts ++ [lookupFact opts.key (lookupTier i opts.tierNames)
        (readTier tier (turnWorld sys others w i) opts.key)] =
          readFacts sys others opts w (i + 1) := by
      rw [h.facts, readFacts_succ hread]
    -- A read without a value goes on to the next tier.
    have hnext (hnone : ∀ v, ¬ Has sys others opts w i v) :=
      ih hrest (l := l.note (l.session.turn others) opts.key (lookupTier i opts.tierNames)
        (readTier tier (turnWorld sys others w i) opts.key))
        ⟨hsession, hfacts, h.hitTier, h.value, fun j hj v => by
          rcases Nat.lt_succ_iff_lt_or_eq.mp hj with hj | rfl
          · exact h.absent j hj v
          · exact hnone v⟩ hlt
    rw [readTiers, hworld]
    cases hanswer : readTier tier (turnWorld sys others w i) opts.key with
    | error error =>
      rw [hanswer] at hnext hread
      refine hnext fun v => ?_
      rintro ⟨generation, hhas⟩
      rw [hread] at hhas
      cases hhas
    | ok answer =>
      obtain ⟨found, generation⟩ := answer
      rw [hanswer] at hnext hread hfacts
      cases found with
      | none =>
        refine hnext fun v => ?_
        rintro ⟨generation', hhas⟩
        rw [hread] at hhas
        cases hhas
      | some v =>
        exact Or.inl ⟨i, v, ⟨⟨generation, hread⟩, h.absent⟩, hsession, hfacts, rfl, rfl⟩

/-! ### The loader -/

theorem Searching.has_none (h : Searching sys others opts w opts.tiers.length l)
    (i : Nat) (v : V) : ¬ Has sys others opts w i v := by
  by_cases hi : i < opts.tiers.length
  · exact h.absent i hi v
  · rintro ⟨generation, hread⟩
    rw [readAt, List.getElem?_eq_none (Nat.le_of_not_lt hi)] at hread
    cases hread

/-- The facts after all reads, with the loader's if there is one. -/
def allFacts (sys : System W Op) (others : Nat → List Op)
    (opts : TieredReadThroughOptions W Op V) (w : W) : List (ReadThroughLookupFact V) :=
  readFacts sys others opts w opts.tiers.length ++
    ((loaderAnswer sys others opts w).map fun answer =>
      lookupFact opts.key loaderTier (answer.map fun found => (found, none))).toList

/-- A lookup that has asked the loader, or would have if there were one. -/
structure Loaded (sys : System W Op) (others : Nat → List Op)
    (opts : TieredReadThroughOptions W Op V) (w : W) (l : Lookup Op V) : Prop where
  absent : ∀ i v, ¬ Has sys others opts w i v
  log : ∃ rest : List Op, l.session.log = turns others opts.tiers.length ++ rest.map .others
  facts : l.facts = allFacts sys others opts w
  found : ∀ v, loaderAnswer sys others opts w = some (.ok (some v)) →
    l.hitTier = some loaderTier ∧ l.value = some v
  missed : (∀ v, loaderAnswer sys others opts w ≠ some (.ok (some v))) →
    l.hitTier = none ∧ l.value = none

theorem Searching.load (h : Searching sys others opts w opts.tiers.length l) :
    Loaded sys others opts w (runLoader sys others opts w l) := by
  rw [runLoader, h.hitTier]
  cases hload : opts.load with
  | none =>
    have hnone : loaderAnswer sys others opts w = none := by rw [loaderAnswer, hload]; rfl
    refine ⟨h.has_none, ⟨[], ?_⟩, ?_, ?_, fun _ => ⟨h.hitTier, h.value⟩⟩
    · dsimp only
      rw [h.session, map_nil, append_nil]
    · dsimp only
      rw [h.facts, allFacts, hnone, Option.map_none, Option.toList_none, append_nil]
    · intro v hv
      rw [hnone] at hv
      cases hv
  | some load =>
    have hlog : (l.session.turn others).log = turns others (opts.tiers.length + 1) := by
      rw [h.session, Session.turn, turns_succ]
    have hanswer : loaderAnswer sys others opts w =
        some (load (worldAfter sys w (l.session.turn others).log) opts.key) := by
      rw [loaderAnswer, hload, hlog]
      rfl
    have hrest : ∃ rest : List Op, (l.session.turn others).log =
        turns others opts.tiers.length ++ rest.map .others := by
      rw [hlog, turns_succ]
      exact ⟨others opts.tiers.length, rfl⟩
    have hfacts : l.facts ++ [lookupFact opts.key loaderTier
        ((load (worldAfter sys w (l.session.turn others).log) opts.key).map fun found =>
          (found, none))] = allFacts sys others opts w := by
      rw [h.facts, allFacts, hanswer, Option.map_some, Option.toList_some]
    dsimp only
    cases hread : load (worldAfter sys w (l.session.turn others).log) opts.key with
    | error error =>
      rw [hread] at hanswer hfacts
      refine ⟨h.has_none, hrest, hfacts, ?_, fun _ => ⟨h.hitTier, h.value⟩⟩
      intro v hv
      rw [hanswer] at hv
      cases hv
    | ok found =>
      rw [hread] at hanswer hfacts
      cases found with
      | none =>
        refine ⟨h.has_none, hrest, hfacts, ?_, fun _ => ⟨h.hitTier, h.value⟩⟩
        intro v hv
        rw [hanswer] at hv
        cases hv
      | some loaded =>
        refine ⟨h.has_none, hrest, hfacts, ?_, fun hnone => absurd hanswer (hnone loaded)⟩
        intro v hv
        rw [hanswer] at hv
        cases hv
        exact ⟨rfl, rfl⟩

/-! ### Generations -/

theorem lookupFact_index (key : String) (index : Int) (names : List String)
    (read : Except StorageError (Option V × Option KvGeneration)) :
    (lookupFact key (lookupTier index names) read).tier.index = index := by
  unfold lookupFact
  split <;> rfl

theorem lookupFact_generation (key : String) (tier : ReadThroughLookupTier) (found : Option V)
    (generation : Option KvGeneration) :
    (lookupFact key tier (.ok (found, generation))).generation = generation := by
  cases found <;> rfl

theorem generationForTier_append {front back : List (ReadThroughLookupFact V)}
    (hback : ∀ fact ∈ back, fact.tier.index ≠ i) :
    generationForTier (front ++ back) i = generationForTier front i := by
  have hnone : back.find? (fun fact => decide (fact.tier.index = (i : Int))) = none := by
    rw [List.find?_eq_none]
    intro fact hfact
    simpa using hback fact hfact
  rw [generationForTier, List.find?_append, hnone, Option.or_none, generationForTier]

theorem index_lt_of_mem_readFacts {fact : ReadThroughLookupFact V}
    (h : fact ∈ readFacts sys others opts w n) : fact.tier.index < (n : Int) := by
  obtain ⟨i, hi, hfact⟩ := mem_filterMap.mp h
  obtain ⟨read, -, rfl⟩ := Option.map_eq_some_iff.mp hfact
  rw [lookupFact_index]
  exact_mod_cast mem_range.mp hi

variable {generation : KvGeneration}

theorem generationForTier_readFacts
    (h : generationForTier (readFacts sys others opts w n) i = some generation) :
    ∃ found, readAt sys others opts w i = some (.ok (found, some generation)) := by
  induction n with
  | zero => cases h
  | succ n ih =>
    cases hread : readAt sys others opts w n with
    | none =>
      have hsame : readFacts sys others opts w (n + 1) = readFacts sys others opts w n := by
        rw [readFacts, range_succ, filterMap_append,
          filterMap_cons_none (by rw [hread]; rfl), filterMap_nil, append_nil]
        rfl
      exact ih (hsame ▸ h)
    | some read =>
      rw [readFacts_succ hread] at h
      by_cases hi : i = n
      · -- The facts before are of other tiers.
        have hnone : (readFacts sys others opts w n).find?
            (fun fact => decide (fact.tier.index = (i : Int))) = none := by
          rw [List.find?_eq_none]
          intro fact hfact
          have := index_lt_of_mem_readFacts hfact
          simp only [decide_eq_true_eq]
          omega
        rw [generationForTier, List.find?_append, hnone, Option.none_or, hi,
          List.find?_cons_of_pos (by simp [lookupFact_index]), Option.bind_some] at h
        rw [hi, hread]
        cases read with
        | error error => cases h
        | ok answer =>
          rw [lookupFact_generation] at h
          exact ⟨answer.1, by rw [← h]⟩
      · refine ih ?_
        rw [generationForTier_append] at h
        · exact h
        · intro fact hfact
          rw [mem_singleton.mp hfact, lookupFact_index]
          exact_mod_cast Ne.symm hi

theorem generationForTier_allFacts
    (h : generationForTier (allFacts sys others opts w) i = some generation) :
    ∃ found, readAt sys others opts w i = some (.ok (found, some generation)) := by
  rw [allFacts, generationForTier_append] at h
  · exact generationForTier_readFacts h
  · -- The loader's fact is of no tier.
    intro fact hfact
    obtain ⟨answer, -, rfl⟩ := Option.map_eq_some_iff.mp (Option.mem_toList.mp hfact)
    have hindex : (lookupFact opts.key loaderTier (answer.map fun found =>
        (found, (none : Option KvGeneration)))).tier.index = -1 :=
      lookupFact_index opts.key (-1) ["load"] _
    rw [hindex]
    omega

variable {tier : Tier W Op V}

theorem getVersioned_of_readAt {found : Option V}
    (h : readAt sys others opts w i = some (.ok (found, some generation)))
    (htier : opts.tiers[i]? = some tier) :
    ∃ read, tier.getVersioned (turnWorld sys others w i) opts.key = .ok read ∧
      read.generation = generation := by
  rw [readAt, htier, Option.map_some, Option.some.injEq, readTier] at h
  split_ifs at h with hversioned
  · cases hread : tier.getVersioned (turnWorld sys others w i) opts.key with
    | error error =>
      rw [hread] at h
      cases h
    | ok read =>
      rw [hread] at h
      refine ⟨read, rfl, ?_⟩
      cases read with
      | hit value g => exact Option.some.inj (Prod.mk.inj (Except.ok.inj h)).2
      | miss g => exact Option.some.inj (Prod.mk.inj (Except.ok.inj h)).2
  · cases hread : tier.get (turnWorld sys others w i) opts.key with
    | error error =>
      rw [hread] at h
      cases h
    | ok read =>
      rw [hread] at h
      exact absurd (Prod.mk.inj (Except.ok.inj h)).2 (Option.some_ne_none _).symm

/-! ### The writes -/

theorem mem_buildPromotionTargets {tierCount hitIndex : Nat} {promoteTo : PromotionPolicy}
    (h : i ∈ buildPromotionTargets tierCount hitIndex promoteTo) :
    promoteTo.Names i ∧ i < tierCount ∧ i < hitIndex := by
  rw [buildPromotionTargets] at h
  split_ifs at h with hcount
  · cases h
  cases promoteTo with
  | disabled => cases h
  | allEarlier =>
    have := mem_range.mp h
    exact ⟨trivial, by omega, by omega⟩
  | indices listed =>
    -- The targets gathered so far are among those listed.
    have hall : ∀ (rest out : List Nat), (∀ j ∈ rest, j ∈ listed) →
        (∀ j ∈ out, j ∈ listed ∧ j < tierCount ∧ j < hitIndex) →
        ∀ j ∈ rest.foldl (fun out index => if index < tierCount ∧
          index < min hitIndex tierCount ∧ index ∉ out then out ++ [index] else out) out,
          j ∈ listed ∧ j < tierCount ∧ j < hitIndex := by
      intro rest
      induction rest with
      | nil => exact fun out _ hout => hout
      | cons index rest ih =>
        intro out hrest hout
        rw [foldl_cons]
        refine ih _ (fun j hj => hrest j (mem_cons_of_mem index hj)) ?_
        split_ifs with hfits
        · intro j hj
          rcases mem_append.mp hj with hj | hj
          · exact hout j hj
          · rw [mem_singleton.mp hj]
            exact ⟨hrest index mem_cons_self, hfits.1, by omega⟩
        · exact hout
    exact hall listed [] (fun _ hj => hj) (fun _ hj => absurd hj not_mem_nil) i h

/-- The operations of the lookup in a log are writes of a value. -/
def AllWritten (sys : System W Op) (others : Nat → List Op)
    (opts : TieredReadThroughOptions W Op V) (w : W) (v : V) (log : List (Doing Op)) : Prop :=
  ∀ before doing later, log = before ++ doing :: later → ∀ i op, doing = .own i op →
    Written sys others opts w v i op before

variable {log : List (Doing Op)}

theorem allWritten_others
    (h : ∀ doing ∈ log, ∃ op, doing = .others op) : AllWritten sys others opts w v log := by
  intro before doing later heq i op hown
  obtain ⟨op', hother⟩ := h doing (heq ▸ mem_append_right _ mem_cons_self)
  rw [hown] at hother
  cases hother

theorem AllWritten.wait (h : AllWritten sys others opts w v log) (ops : List Op) :
    AllWritten sys others opts w v (log ++ ops.map .others) := by
  induction ops using List.reverseRecOn with
  | nil => simpa using h
  | append_singleton ops op ih =>
    rw [map_append, ← append_assoc]
    refine forall_split_concat.mpr ⟨ih, fun i op' hown => ?_⟩
    cases hown

theorem turns_others (n : Nat) : ∀ doing ∈ turns others n, ∃ op, doing = .others op := by
  intro doing hdoing
  obtain ⟨k, -, hmem⟩ := mem_flatMap.mp hdoing
  obtain ⟨op, -, rfl⟩ := mem_map.mp hmem
  exact ⟨op, rfl⟩

/-- The writes to the targets, after a log that begins with the turns of all their reads. -/
theorem promoteAll_writes {facts : List (ReadThroughLookupFact V)}
    (hfacts : ∀ i generation, generationForTier facts i = some generation →
      ∃ found, readAt sys others opts w i = some (.ok (found, some generation)))
    {targets : List Nat} (htargets : ∀ i ∈ targets, Target sys others opts w i)
    {done : Session Op × List ReadThroughPromotionFact}
    (hread : ∀ i ∈ targets, ∃ rest, done.1.log = turns others (i + 1) ++ rest)
    (hdone : AllWritten sys others opts w v done.1.log) :
    AllWritten sys others opts w v (promoteAll sys others opts w facts v targets done).1.log := by
  induction targets generalizing done with
  | nil => exact hdone
  | cons i targets ih =>
    have htargets' : ∀ j ∈ targets, Target sys others opts w j :=
      fun j hj => htargets j (mem_cons_of_mem i hj)
    have hread' : ∀ j ∈ targets, ∃ rest, done.1.log = turns others (j + 1) ++ rest :=
      fun j hj => hread j (mem_cons_of_mem i hj)
    rw [promoteAll]
    cases htier : opts.tiers[i]? with
    | none => exact hdone
    | some tier =>
      dsimp only
      cases hop : promotionOp opts facts v i tier with
      | none => exact ih htargets' hread' hdone
      | some op =>
        have hlog : ((done.1.turn others).perform i op).log =
            done.1.log ++ (others done.1.calls).map .others ++ [.own i op] := rfl
        refine ih htargets' (fun j hj => ?_) ?_
        · obtain ⟨rest, hrest⟩ := hread' j hj
          rw [hlog, hrest, append_assoc, append_assoc]
          exact ⟨_, rfl⟩
        · rw [hlog]
          refine forall_split_concat.mpr ⟨hdone.wait _, fun j op' hown => ?_⟩
          obtain ⟨rfl, rfl⟩ := Doing.own.inj hown
          rw [promotionOp] at hop
          refine ⟨htargets i mem_cons_self, ?_, ?_⟩
          · intro tier' htier' hplain
            obtain rfl := Option.some.inj (htier.symm.trans htier')
            rw [hplain, if_neg Bool.false_ne_true] at hop
            exact (Option.some.inj hop).symm
          · intro tier' htier' hversioned
            obtain rfl := Option.some.inj (htier.symm.trans htier')
            rw [if_pos hversioned] at hop
            obtain ⟨generation, hgeneration, rfl⟩ := Option.map_eq_some_iff.mp hop
            obtain ⟨found, hfound⟩ := hfacts i generation hgeneration
            obtain ⟨read, hanswer, hsame⟩ := getVersioned_of_readAt hfound htier
            obtain ⟨rest, hrest⟩ := hread i mem_cons_self
            refine ⟨read, generation, hanswer, hsame, rfl,
              rest ++ (others done.1.calls).map .others, ?_⟩
            rw [hrest, append_assoc]

/-! ### Consequences of a write -/

theorem worldAfter_append (front back : List (Doing Op)) :
    worldAfter sys w (front ++ back) =
      (back.map Doing.op).foldl sys.step (worldAfter sys w front) := by
  rw [worldAfter, map_append, foldl_append]
  rfl

variable {op : Op} {before : List (Doing Op)}

theorem Written.safe (h : Written sys others opts w v i op before)
    (htier : opts.tiers[i]? = some tier) (hversioned : tier.supportsVersioned = true)
    {changes : W → Op → Prop} {keeps : W → Prop} (hatomic : Atomic sys tier opts.key changes keeps)
    (hkeeps : keeps (turnWorld sys others w i))
    (heffect : sys.step (worldAfter sys w before) op ≠ worldAfter sys w before) :
    ∃ between, before = turns others (i + 1) ++ between ∧
      Stamp.Quiet sys.step changes (turnWorld sys others w i) (between.map Doing.op) := by
  obtain ⟨read, generation, hread, rfl, rfl, between, rfl⟩ := h.versioned tier htier hversioned
  rw [worldAfter_append] at heffect
  exact ⟨between, rfl, hatomic _ _ read v hkeeps hread heffect⟩

theorem Written.frame (h : Written sys others opts w v i op before) {P : Type} {place : Nat → P}
    {content : W → P → String → Option V} (hframed : Framed sys opts place content) {p : P}
    {k : String} (hchange : content (sys.step (worldAfter sys w before) op) p k ≠
      content (worldAfter sys w before) p k) :
    k = opts.key ∧ p = place i ∧ Target sys others opts w i := by
  obtain ⟨tier, htier⟩ : ∃ tier, opts.tiers[i]? = some tier :=
    ⟨_, List.getElem?_eq_getElem h.target.2.1⟩
  have hop : op = tier.set opts.key v ∨
      ∃ generation, op = tier.setIfMatch opts.key v generation := by
    by_cases hversioned : tier.supportsVersioned = true
    · obtain ⟨-, generation, -, -, hop, -⟩ := h.versioned _ htier hversioned
      exact Or.inr ⟨generation, hop⟩
    · exact Or.inl (h.plain _ htier (Bool.eq_false_iff.mpr hversioned))
  by_contra hnot
  refine hchange (hframed i _ htier (worldAfter sys w before) opts.key v op hop p k ?_)
  exact fun hplace => hnot ⟨hplace.2, hplace.1, h.target⟩

/-! ### The memory tier -/

section Memory

/-- The stores of a program. -/
def kvSystem (V : Type) : System (KvWorld V) (KvOp V) where
  step := KvWorld.step
  answer := fun w op =>
    match op with
    | .call i (.setIfMatch key value generation) =>
      .ok (w.setIfMatch i key value generation == some true)
    | _ => .ok true

/-- A memory tier, at its position among the stores. -/
def memoryTier (V : Type) (i : Nat) : Tier (KvWorld V) (KvOp V) V where
  supportsVersioned := true
  get := fun w key => .ok (w.stores[i]?.bind (·.get key))
  getVersioned := fun w key =>
    match w.getVersioned i key with
    | some read => .ok read
    | none => .error (.backend "no such store")
  set := fun key value => .call i (.set key value)
  setIfMatch := fun key value generation => .call i (.setIfMatch key value generation)

/-- The conditional writes of the memory tier are atomic. -/
theorem memoryTier_atomic (V : Type) (i : Nat) (key : String) :
    Atomic (kvSystem V) (memoryTier V i) key (KvWorld.Changes i key)
      (fun w => ∃ ops, w = (KvWorld.start V).run ops) := by
  rintro w₀ since read v ⟨before, rfl⟩ hread heffect
  have hread' : ((KvWorld.start V).run before).getVersioned i key = some read := by
    unfold memoryTier at hread
    dsimp only at hread
    cases hanswer : ((KvWorld.start V).run before).getVersioned i key with
    | none =>
      rw [hanswer] at hread
      cases hread
    | some answer =>
      rw [hanswer] at hread
      rw [Except.ok.inj hread]
  obtain ⟨hiff, hfalse, -⟩ :=
    KvWorld.setIfMatch_iff_unchanged before since i i key key v read hread'
  by_contra hchanged
  refine heffect (hfalse fun htrue => hchanged ?_)
  exact (hiff.mp htrue).2.2

theorem get_perform_of_ne (kv : MemoryKvInner V) {key k : String} (hk : k ≠ key) (v : V)
    (generation : KvGeneration) : (kv.perform (.set key v)).get k = kv.get k ∧
      (kv.perform (.setIfMatch key v generation)).get k = kv.get k := by
  have hset : (kv.set key v).get k = kv.get k := by
    rw [MemoryKvInner.get, MemoryKvInner.set, MemoryKvInner.get]
    dsimp only [MemoryKvInner.bumpVersion]
    rw [MemoryKvInner.lookup_cons_filter, if_neg hk]
  refine ⟨hset, ?_⟩
  rw [MemoryKvInner.perform, MemoryKvInner.setIfMatch_snd]
  split_ifs
  · exact hset
  · rfl

theorem memoryTiers_framed {opts : TieredReadThroughOptions (KvWorld V) (KvOp V) V}
    {positions : List Nat} (h : opts.tiers = positions.map (memoryTier V)) :
    Framed (kvSystem V) opts (fun i => positions.getD i 0)
      (fun w p k => w.stores[p]?.bind (·.get k)) := by
  intro i tier htier w' key v op hop p k hplace
  rw [h, List.getElem?_map] at htier
  obtain ⟨position, hposition, rfl⟩ := Option.map_eq_some_iff.mp htier
  have hgetD : positions.getD i 0 = position := by rw [getD_eq_getElem?_getD, hposition]; rfl
  have hother : ¬ (p = position ∧ k = key) := hgetD ▸ hplace
  obtain ⟨call, rfl, hcall⟩ : ∃ call, op = .call position call ∧
      ∀ kv : MemoryKvInner V, k ≠ key → (kv.perform call).get k = kv.get k := by
    rcases hop with rfl | ⟨generation, rfl⟩
    · exact ⟨_, rfl, fun kv hk => (get_perform_of_ne kv hk v ⟨0, 0, key, 0⟩).1⟩
    · exact ⟨_, rfl, fun kv hk => (get_perform_of_ne kv hk v generation).2⟩
  change ((w'.step (.call position call)).stores[p]?).bind (·.get k) = w'.stores[p]?.bind (·.get k)
  rw [KvWorld.getElem?_step_call]
  cases w'.stores[p]? with
  | none => rfl
  | some kv =>
    rw [Option.map_some, Option.bind_some, Option.bind_some]
    by_cases hp : position = p
    · rw [if_pos hp]
      exact hcall kv fun hk => hother ⟨hp.symm, hk⟩
    · rw [if_neg hp]

end Memory

/-! ### The whole lookup -/

theorem statusOf_hit {tier : ReadThroughLookupTier}
    (htier : l.hitTier = some tier) (hvalue : l.value = some v) : statusOf l = .hit := by
  rw [statusOf, htier, hvalue]
  rfl

theorem lookupFact_outcome (key : String) (tier : ReadThroughLookupTier)
    (read : Except StorageError (Option V × Option KvGeneration)) :
    (lookupFact key tier read).outcome = .error ↔ ∃ error, read = .error error := by
  cases read with
  | error error => exact ⟨fun _ => ⟨error, rfl⟩, fun _ => rfl⟩
  | ok answer =>
    obtain ⟨found, generation⟩ := answer
    cases found <;> simp [lookupFact]

theorem error_allFacts :
    (∃ fact ∈ allFacts sys others opts w, fact.outcome = .error) ↔ Failed sys others opts w := by
  constructor
  · rintro ⟨fact, hfact, houtcome⟩
    rcases mem_append.mp hfact with hfact | hfact
    · obtain ⟨i, -, hmap⟩ := mem_filterMap.mp hfact
      obtain ⟨read, hread, rfl⟩ := Option.map_eq_some_iff.mp hmap
      obtain ⟨error, rfl⟩ := (lookupFact_outcome _ _ read).mp houtcome
      exact Or.inl ⟨i, error, hread⟩
    · obtain ⟨answer, hanswer, rfl⟩ := Option.map_eq_some_iff.mp (Option.mem_toList.mp hfact)
      obtain ⟨error, herror⟩ := (lookupFact_outcome _ _ _).mp houtcome
      cases answer with
      | error e => exact Or.inr ⟨e, hanswer⟩
      | ok found => cases herror
  · rintro (⟨i, error, hread⟩ | ⟨error, hanswer⟩)
    · have hi : i < opts.tiers.length := by
        by_contra hlt
        rw [readAt, List.getElem?_eq_none (Nat.le_of_not_lt hlt)] at hread
        cases hread
      refine ⟨_, mem_append_left _ (mem_filterMap.mpr
        ⟨i, mem_range.mpr hi, by rw [hread]; rfl⟩), rfl⟩
    · refine ⟨_, mem_append_right _ (Option.mem_toList.mpr (by rw [hanswer]; rfl)), rfl⟩

theorem ReadsThrough.of_written {result : TieredReadThroughResult V}
    (hit : ∀ i v, First sys others opts w i v → result.status = .hit ∧ result.value = some v ∧
      result.hitTier = some (lookupTier i opts.tierNames))
    (loaded : (∀ i v, ¬ Has sys others opts w i v) →
      ∀ v, loaderAnswer sys others opts w = some (.ok (some v)) →
        result.status = .hit ∧ result.value = some v ∧ result.hitTier = some loaderTier)
    (missed : (∀ i v, ¬ Has sys others opts w i v) →
      (∀ v, loaderAnswer sys others opts w ≠ some (.ok (some v))) →
        result.value = none ∧ result.hitTier = none ∧
          (Failed sys others opts w → result.status = .error) ∧
          (¬ Failed sys others opts w → result.status = .miss))
    (writes : ∀ before doing later, log = before ++ doing :: later →
      ∀ i op, doing = .own i op →
        ∃ v, result.value = some v ∧ Written sys others opts w v i op before) :
    ReadsThrough sys others opts w result log where
  hit := hit
  loaded := loaded
  missed := missed
  writes := writes
  safe := by
    intro before doing later heq i op hown tier htier hversioned changes keeps hatomic hkeeps
      heffect
    obtain ⟨v, -, hwritten⟩ := writes before doing later heq i op hown
    exact hwritten.safe htier hversioned hatomic hkeeps heffect
  frame := by
    intro P place content hframed before doing later heq i op hown p k hchange
    obtain ⟨v, -, hwritten⟩ := writes before doing later heq i op hown
    exact hwritten.frame hframed hchange

theorem turns_prefix (others : Nat → List Op) (h : j ≤ n) :
    ∃ rest, turns others n = turns others j ++ rest := by
  induction n with
  | zero =>
    obtain rfl := Nat.le_zero.mp h
    exact ⟨[], (append_nil _).symm⟩
  | succ n ih =>
    rcases Nat.le_succ_iff.mp h with hle | rfl
    · obtain ⟨rest, hrest⟩ := ih hle
      exact ⟨rest ++ (others n).map .others, by rw [turns_succ, hrest, append_assoc]⟩
    · exact ⟨[], (append_nil _).symm⟩

variable {source : ReadThroughLookupTier}

theorem promoted_written
    (hfacts : ∀ i generation, generationForTier l.facts i = some generation →
      ∃ found, readAt sys others opts w i = some (.ok (found, some generation)))
    (hsource : ∀ i, i < sourceIndex opts source → i < opts.tiers.length →
      (∀ j v', First sys others opts w j v' → i < j) ∧
        ∃ rest, l.session.log = turns others (i + 1) ++ rest)
    (hothers : ∀ doing ∈ l.session.log, ∃ op, doing = .others op) :
    AllWritten sys others opts w v (promoteAll sys others opts w l.facts v
      (buildPromotionTargets opts.tiers.length (sourceIndex opts source) opts.promoteTo)
      (l.session, [])).1.log := by
  refine promoteAll_writes hfacts (fun i hi => ?_) (fun i hi => ?_) (allWritten_others hothers)
  · obtain ⟨hnames, hlt, hbefore⟩ := mem_buildPromotionTargets hi
    exact ⟨hnames, hlt, (hsource i hbefore hlt).1⟩
  · obtain ⟨-, hlt, hbefore⟩ := mem_buildPromotionTargets hi
    exact (hsource i hbefore hlt).2

theorem Found.written (h : Found sys others opts w i v l) :
    AllWritten sys others opts w v (promoteAll sys others opts w l.facts v
      (buildPromotionTargets opts.tiers.length (sourceIndex opts (lookupTier i opts.tierNames))
        opts.promoteTo) (l.session, [])).1.log := by
  have hindex : sourceIndex opts (lookupTier i opts.tierNames) = i := by
    have hnonneg : ¬ ((i : Int) < 0) := by omega
    exact (if_neg hnonneg).trans (Int.toNat_natCast i)
  refine promoted_written ?_ ?_ ?_
  · intro j generation hgeneration
    rw [h.facts] at hgeneration
    exact generationForTier_readFacts hgeneration
  · intro j hj _
    rw [hindex] at hj
    constructor
    · intro k v' hfirst
      rw [← h.first.unique hfirst]
      exact hj
    · rw [h.session]
      exact turns_prefix others (by omega)
  · rw [h.session]
    exact turns_others (i + 1)

theorem Loaded.only_others (h : Loaded sys others opts w l) :
    ∀ doing ∈ l.session.log, ∃ op, doing = .others op := by
  obtain ⟨rest, hrest⟩ := h.log
  rw [hrest]
  intro doing hdoing
  rcases mem_append.mp hdoing with hmem | hmem
  · exact turns_others _ doing hmem
  · obtain ⟨op, -, rfl⟩ := mem_map.mp hmem
    exact ⟨op, rfl⟩

theorem Loaded.written (h : Loaded sys others opts w l) :
    AllWritten sys others opts w v (promoteAll sys others opts w l.facts v
      (buildPromotionTargets opts.tiers.length (sourceIndex opts loaderTier) opts.promoteTo)
      (l.session, [])).1.log := by
  obtain ⟨rest, hrest⟩ := h.log
  refine promoted_written ?_ ?_ ?_
  · intro j generation hgeneration
    rw [h.facts] at hgeneration
    exact generationForTier_allFacts hgeneration
  · intro j _ hlt
    refine ⟨fun k v' hfirst => absurd hfirst.1 (h.absent k v'), ?_⟩
    obtain ⟨tail, htail⟩ := turns_prefix others (Nat.succ_le_of_lt hlt)
    rw [hrest, htail, append_assoc]
    exact ⟨_, rfl⟩
  · exact h.only_others

theorem log_of_value (hvalue : l.value = some v) (hhit : l.hitTier = some source)
    (h : AllWritten sys others opts w v (promoteAll sys others opts w l.facts v
      (buildPromotionTargets opts.tiers.length (sourceIndex opts source) opts.promoteTo)
      (l.session, [])).1.log) :
    ∀ before doing later, (promoted sys others opts w l).1.log = before ++ doing :: later →
      ∀ i op, doing = .own i op → ∃ v', l.value = some v' ∧
        Written sys others opts w v' i op before := by
  rw [promoted, hvalue, hhit]
  intro before doing later heq i op hown
  exact ⟨v, rfl, h before doing later heq i op hown⟩

theorem statusOf_missed (hhit : l.hitTier = none) :
    (Failed sys others opts w → l.facts = allFacts sys others opts w → statusOf l = .error) ∧
      (¬ Failed sys others opts w → l.facts = allFacts sys others opts w → statusOf l = .miss) := by
  have herror : l.facts = allFacts sys others opts w →
      ((l.facts.any fun fact => decide (fact.outcome = .error)) = true ↔
        Failed sys others opts w) := by
    intro hfacts
    rw [← error_allFacts, any_eq_true, hfacts]
    simp only [decide_eq_true_eq]
  rw [statusOf, hhit]
  constructor
  · intro hfailed hfacts
    rw [if_neg (fun hsome => Bool.false_ne_true hsome.1), if_pos ((herror hfacts).mpr hfailed)]
  · intro hfailed hfacts
    rw [if_neg (fun hsome => Bool.false_ne_true hsome.1),
      if_neg (fun hany => hfailed ((herror hfacts).mp hany))]

/-- Every lookup answers and writes as it should. -/
theorem readsThrough (sys : System W Op) (others : Nat → List Op)
    (opts : TieredReadThroughOptions W Op V) (w : W) :
    ReadsThrough sys others opts w (tieredReadThrough sys others opts w).1
      (tieredReadThrough sys others opts w).2 := by
  have hstart : Searching sys others opts w 0 .start :=
    ⟨rfl, rfl, rfl, rfl, fun j hj => absurd hj (Nat.not_lt_zero j)⟩
  rcases readTiers_spec drop_zero hstart (Nat.zero_le _) with ⟨i, v, hfound⟩ | hsearching
  · -- The key was found in a tier, and the loader is not asked.
    have hskip : runLoader sys others opts w (readTiers sys others opts w opts.tiers 0 .start) =
        readTiers sys others opts w opts.tiers 0 .start := by
      rw [runLoader, hfound.hitTier]
    rw [tieredReadThrough, hskip]
    refine ReadsThrough.of_written ?_ ?_ ?_ ?_
    · intro j v' hfirst
      obtain rfl := hfound.first.unique hfirst
      obtain rfl := has_unique hfound.first.1 hfirst.1
      exact ⟨statusOf_hit hfound.hitTier hfound.value, hfound.value, hfound.hitTier⟩
    · exact fun hno => absurd hfound.first.1 (hno i v)
    · exact fun hno => absurd hfound.first.1 (hno i v)
    · exact log_of_value hfound.value hfound.hitTier hfound.written
  · -- No tier has the key, and the loader's answer is the answer.
    have hloaded := hsearching.load
    rw [tieredReadThrough]
    refine ReadsThrough.of_written ?_ ?_ ?_ ?_
    · exact fun i v hfirst => absurd hfirst.1 (hloaded.absent i v)
    · intro _ v hv
      obtain ⟨hhit, hvalue⟩ := hloaded.found v hv
      exact ⟨statusOf_hit hhit hvalue, hvalue, hhit⟩
    · intro _ hnone
      obtain ⟨hhit, hvalue⟩ := hloaded.missed hnone
      exact ⟨hvalue, hhit, fun hfailed => (statusOf_missed hhit).1 hfailed hloaded.facts,
        fun hfailed => (statusOf_missed hhit).2 hfailed hloaded.facts⟩
    · by_cases hany : ∃ v, loaderAnswer sys others opts w = some (.ok (some v))
      · obtain ⟨v, hv⟩ := hany
        obtain ⟨hhit, hvalue⟩ := hloaded.found v hv
        exact log_of_value hvalue hhit hloaded.written
      · obtain ⟨hhit, hvalue⟩ := hloaded.missed fun v hv => hany ⟨v, hv⟩
        have hlog : (promoted sys others opts w (runLoader sys others opts w
            (readTiers sys others opts w opts.tiers 0 .start))).1.log =
              (runLoader sys others opts w
                (readTiers sys others opts w opts.tiers 0 .start)).session.log := by
          rw [promoted, hvalue]
        -- Nothing was found, and only the others are in the log.
        intro before doing later heq j op hown
        have hmem := mem_append_right before (mem_cons_self (a := doing) (l := later))
        rw [← hlog.symm.trans heq] at hmem
        obtain ⟨op', hother⟩ := hloaded.only_others doing hmem
        rw [hown] at hother
        cases hother

end GraphRefly.Storage
