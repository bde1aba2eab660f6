import GraphRefly.Json.Identity
import GraphRefly.Safety.Loops
import GraphRefly.Versioning.Version

/-!
# The Machine With Versions

The engine keeps the versions of its nodes beside their slots. They are written when a
node is made and when a DATA of it is emitted. A wave is checked as a whole before
anything is done with it, so that a version never fails to name a DATA in the middle of
a wave.

Here a step of the machine comes with what it does to the versions. A wave that is
refused ends in a panic, and so does a node whose first value has no version.

## Main definitions

* `VersionSlot`: The version of a node, and the DATA it has emitted.
* `Versioned`, `Versioned.step`, `Versioned.run`: The machine with versions.
* `Versioned.Faithful`: What the versions say.

## Theorems

* `Versioned.Sound.step`: What a step preserves.
* `versions_faithful`: What holds after every run.
* `refused_wave_errors`: A refused wave does not leave the status alone.
-/

namespace GraphRefly.Versioning

open List GraphRefly.Json

/-- The version of a node. Its first value and the DATA it has emitted are noted as well,
    which no step reads. -/
structure VersionSlot (F X : Type) where
  policy : ResolvedNodeVersioningPolicy
  value : Option NodeVersion
  initial : Option (AnyValue F X)
  emitted : List (AnyValue F X)

structure Versioned (F X S : Type) where
  core : Config (AnyValue F X) S := Config.initial
  slots : NodeId → Option (VersionSlot F X) := fun _ => none

def noVersionSlot : String := "Core points at a live GraphCore version slot"

namespace Versioned

variable {F X S : Type} [Float64 F]

section

variable (env : Env (AnyValue F X) S) (c : Versioned F X S)

/-- A step that leaves the versions alone. -/
def plain : Option (Versioned F X S) :=
  (c.core.step env).map fun core => { c with core }

/-- The first DATA of a wave that a policy refuses. -/
def refusal (policy : ResolvedNodeVersioningPolicy) (msgs : Wave (AnyValue F X)) :
    Option String :=
  (collapseInvalidate (sortByTier msgs)).findSome? fun
    | .data value =>
      match assertNodeVersionDataCompatible value policy with
      | .error err => some err
      | .ok () => none
    | _ => none

/-- A wave that is to be emitted. A terminated node ignores it. -/
def down (n : NodeId) (msgs : Wave (AnyValue F X)) (rest : List (Frame (AnyValue F X))) :
    Option (Versioned F X S) :=
  if (c.core.nodes n).value.terminal then c.plain env
  else
    let core := (c.core.popTo rest).waveRegister n
    match c.slots n with
    | none => some { c with core := core.panic noVersionSlot }
    | some slot =>
      match refusal slot.policy msgs with
      | some err => some { c with core := core.panic err }
      | none => c.plain env

/-- The next DATA of a wave that is emitted. -/
def emitData (n : NodeId)
    (value : AnyValue F X) (rest : List (Frame (AnyValue F X))) : Option (Versioned F X S) :=
  match c.slots n with
  | none => some { c with core := (c.core.popTo rest).panic noVersionSlot }
  | some slot =>
    match advanceNodeVersion slot.value value slot.policy with
    | .error err => some { c with core := (c.core.popTo rest).panic err }
    | .ok next =>
      (c.core.step env).map fun core =>
        { core
          slots := Function.update c.slots n
            (some { slot with value := next, emitted := slot.emitted ++ [value] }) }

end

/-- The allocation of a node, unless something else forbids it. -/
def newNode (policies : NodeId → Option NodeVersioningPolicy) (env : Env (AnyValue F X) S)
    (c : Versioned F X S) (spec : NodeSpec (AnyValue F X)) (core : Config (AnyValue F X) S) :
    Option (Versioned F X S) :=
  if (core.newNode spec).size = core.size then c.plain env
  else
    let policy := resolveNodeVersioningPolicy (policies core.size)
    match createNodeVersion spec.initial policy with
    | .error err => some { c with core := core.panic ("node versioning: " ++ err) }
    | .ok value =>
      (c.core.step env).map fun core' =>
        { core := core'
          slots := Function.update c.slots core.size
            (some { policy, value, initial := spec.initial, emitted := [] }) }

/-- One step. The policy of a node is the one it is made with. -/
def step (policies : NodeId → Option NodeVersioningPolicy) (env : Env (AnyValue F X) S)
    (c : Versioned F X S) : Option (Versioned F X S) :=
  match c.core.mode, c.core.stack with
  | .running, .down n msgs :: rest => c.down env n msgs rest
  | .running, .downLoop n (.data value :: _) :: rest => c.emitData env n value rest
  | .running, .user cb i :: rest =>
    match env.act cb (c.core.popTo rest) i with
    | .op (.newNode spec) =>
      c.newNode policies env spec ((c.core.popTo rest).push [.user cb (i + 1)])
    | _ => c.plain env
  | _, _ => c.plain env

/-- A run of steps. The user code may do something else at every one of them. -/
def run (policies : NodeId → Option NodeVersioningPolicy) :
    List (Env (AnyValue F X) S) → Versioned F X S → Versioned F X S
  | [], c => c
  | env :: envs, c =>
    match c.step policies env with
    | none => c
    | some c' => run policies envs c'

/-! ### What the versions say -/

/-- A step that refuses a wave: nothing of the wave is left to do, and nothing of it was
    done. -/
structure Refuses (n : NodeId) (rest : List (Frame (AnyValue F X))) (c c' : Versioned F X S) :
    Prop where
  slots : c'.slots = c.slots
  nodes : c'.core.nodes = c.core.nodes
  log : c'.core.log = c.core.log
  stack : c'.core.stack = rest
  panics : (c.core.nodes n).value.terminal = false → ∃ p, c'.core.mode = .unwinding p

/-- Every node has a version that counts and names the DATA it has emitted, and the last
    of them is cached unless the cache is empty. A wave with a DATA that has no name is
    refused as a whole, so the waves under way have none. -/
structure Faithful (policies : NodeId → Option NodeVersioningPolicy) (c : Versioned F X S) :
    Prop where
  slot : ∀ n, (c.slots n).isSome = true ↔ n < c.core.size
  tells : ∀ n slot, c.slots n = some slot →
    Tells slot.initial slot.emitted slot.value slot.policy
  cached : ∀ n slot, c.slots n = some slot → (c.core.nodes n).value.cache = none ∨
    (c.core.nodes n).value.cache = latestOf slot.initial slot.emitted
  readBack : ∀ n slot version path, c.slots n = some slot → slot.value = some version →
    validateNodeVersionJson (nodeVersionToJson version : Value F) path = .ok version
  refused : ∀ n slot msgs rest value, c.core.mode = .running →
    c.core.stack = .down n msgs :: rest → c.slots n = some slot → .data value ∈ msgs →
      assertNodeVersionDataCompatible value slot.policy ≠ .ok () →
        ∀ env, ∃ c', c.step policies env = some c' ∧ Refuses n rest c c'
  underWay : ∀ f ∈ c.core.stack, ∀ n msgs, f.emission = some (n, msgs) → ∃ slot,
    c.slots n = some slot ∧
      ∀ value, .data value ∈ msgs → assertNodeVersionDataCompatible value slot.policy = .ok ()

/-! ### What a step does -/

/-- What a step of the machine with versions is. -/
inductive Moves (env : Env (AnyValue F X) S) (c c' : Versioned F X S) : Prop
  /-- Something panics before the machine goes on. -/
  | panics (core : Config (AnyValue F X) S) (rest : List (Frame (AnyValue F X))) (err : String)
      (hnodes : core.nodes = c.core.nodes) (hsize : core.size = c.core.size)
      (hrest : rest ⊆ c.core.stack)
      (hstack : ∀ f ∈ core.stack, f ∈ rest ∨ f.emission = none)
      (h : c' = { c with core := core.panic err })
  | emits (n : NodeId) (value : AnyValue F X) (msgs : Wave (AnyValue F X))
      (rest : List (Frame (AnyValue F X))) (slot : VersionSlot F X) (next : Option NodeVersion)
      (hstack : c.core.stack = .downLoop n (.data value :: msgs) :: rest)
      (hslot : c.slots n = some slot)
      (hnext : advanceNodeVersion slot.value value slot.policy = .ok next)
      (h : c' = ⟨(c.core.popTo rest).downLoop n (.data value :: msgs),
        Function.update c.slots n
          (some { slot with value := next, emitted := slot.emitted ++ [value] })⟩)
  | creates (spec : NodeSpec (AnyValue F X)) (core : Config (AnyValue F X) S)
      (rest : List (Frame (AnyValue F X))) (policy : ResolvedNodeVersioningPolicy)
      (value : Option NodeVersion)
      (hnodes : core.nodes = c.core.nodes) (hsize : core.size = c.core.size)
      (hrest : rest ⊆ c.core.stack)
      (hstack : ∀ f ∈ core.stack, f ∈ rest ∨ f.emission = none)
      (hnew : (core.newNode spec).size ≠ core.size)
      (hvalue : createNodeVersion spec.initial policy = .ok value)
      (h : c' = ⟨core.newNode spec, Function.update c.slots c.core.size
        (some { policy, value, initial := spec.initial, emitted := [] })⟩)
  | goes (hstep : c.core.step env = some c'.core) (hslots : c'.slots = c.slots)
      (hsize : c'.core.size = c.core.size)
      (hdata : ∀ n value msgs rest, c.core.mode = .running →
        c.core.stack ≠ .downLoop n (.data value :: msgs) :: rest)
      (hdown : ∀ n msgs rest, c.core.mode = .running → c.core.stack = .down n msgs :: rest →
        (c.core.nodes n).value.terminal = false →
          ∃ slot, c.slots n = some slot ∧ refusal slot.policy msgs = none)

variable {policies : NodeId → Option NodeVersioningPolicy} {env : Env (AnyValue F X) S}
  {c c' : Versioned F X S}

omit [Float64 F] in
theorem newNode_size (core : Config (AnyValue F X) S) (spec : NodeSpec (AnyValue F X))
    (hne : (core.newNode spec).size ≠ core.size) :
    (core.newNode spec).size = core.size + 1 ∧
      (core.newNode spec).nodes = Function.update core.nodes core.size (Config.freshNode spec) := by
  revert hne
  unfold Config.newNode
  split_ifs
  · exact fun hne => absurd rfl hne
  · exact fun _ => ⟨rfl, rfl⟩
  · exact fun hne => absurd rfl hne

/-- A step of the core that is neither of the two that write versions. -/
theorem Moves.of_plain (h : c.plain env = some c')
    (hdata : ∀ n value msgs rest, c.core.mode = .running →
      c.core.stack ≠ .downLoop n (.data value :: msgs) :: rest)
    (hdown : ∀ n msgs rest, c.core.mode = .running → c.core.stack = .down n msgs :: rest →
      (c.core.nodes n).value.terminal = false →
        ∃ slot, c.slots n = some slot ∧ refusal slot.policy msgs = none)
    (hnew : ∀ cb i spec rest, c.core.mode = .running → c.core.stack = .user cb i :: rest →
      env.act cb (c.core.popTo rest) i = .op (.newNode spec) →
        (((c.core.popTo rest).push [.user cb (i + 1)]).newNode spec).size = c.core.size) :
    Moves env c c' := by
  rw [plain, Option.map_eq_some_iff] at h
  obtain ⟨core, hstep, rfl⟩ := h
  refine .goes hstep rfl ?_ hdata hdown
  cases Config.step_turn hstep with
  | scopeless rest hrest h => exact h.size
  | created cb i spec rest hmode hs hact h =>
    have hsame := hnew cb i spec rest hmode hs hact
    rw [← h] at hsame
    exact hsame
  | asked n msgs rest hmode hs h =>
    rw [h]
    exact (Config.down_opens _ n msgs).size
  | goesOn f n msgs rest hmode hs hf h => exact h.size

variable {n : NodeId} {msgs : Wave (AnyValue F X)} {rest : List (Frame (AnyValue F X))}

theorem down_moves
    (hs : c.core.stack = .down n msgs :: rest) (h : c.down env n msgs rest = some c') : Moves
      env c c' := by
  have hrest : rest ⊆ c.core.stack := by
    rw [hs]
    exact subset_cons_self _ _
  have hreg := Config.waveRegister_wave (c.core.popTo rest) n
  have hplain : ∀ hchecked : (c.core.nodes n).value.terminal = false →
      ∃ slot, c.slots n = some slot ∧ refusal slot.policy msgs = none,
      c.plain env = some c' → Moves env c c' := by
    intro hchecked hgoes
    refine .of_plain hgoes (fun _ _ _ _ _ => by simp [hs]) ?_ (fun _ _ _ _ _ => by simp [hs])
    intro m wave below _ hsame hopen
    obtain ⟨hframe, rfl⟩ := List.cons.inj (hs.symm.trans hsame)
    obtain ⟨rfl, rfl⟩ := Frame.down.inj hframe
    exact hchecked hopen
  have hpanics : ∀ err, c' = { c with core := ((c.core.popTo rest).waveRegister n).panic err } →
      Moves env c c' := by
    intro err heq
    refine .panics _ rest err ?_ ?_ hrest ?_ heq
    · rw [hreg]
      rfl
    · rw [hreg]
      rfl
    · rw [hreg]
      exact fun f hf => .inl hf
  unfold down at h
  split_ifs at h with hterminal
  · exact hplain (fun hopen => by rw [hterminal] at hopen; cases hopen) h
  · split at h
    · exact hpanics _ (Option.some.inj h).symm
    · rename_i slot hslot
      split at h
      · exact hpanics _ (Option.some.inj h).symm
      · rename_i hnone
        exact hplain (fun _ => ⟨slot, hslot, hnone⟩) h

variable {value : AnyValue F X}

theorem emitData_moves (hmode : c.core.mode = .running)
    (hs : c.core.stack = .downLoop n (.data value :: msgs) :: rest)
    (h : c.emitData env n value rest = some c') : Moves env c c' := by
  have hrest : rest ⊆ c.core.stack := by
    rw [hs]
    exact subset_cons_self _ _
  have hstep : c.core.step env = some ((c.core.popTo rest).downLoop n (.data value :: msgs)) := by
    rw [Config.step, hs, hmode]
    rfl
  have hpanics : ∀ err, c' = { c with core := (c.core.popTo rest).panic err } →
      Moves env c c' := fun err heq =>
    .panics (c.core.popTo rest) rest err rfl rfl hrest (fun f hf => .inl hf) heq
  unfold emitData at h
  split at h
  · exact hpanics _ (Option.some.inj h).symm
  · rename_i slot hslot
    split at h
    · exact hpanics _ (Option.some.inj h).symm
    · rename_i next hnext
      rw [hstep, Option.map_some] at h
      exact .emits n value msgs rest slot next hs hslot hnext (Option.some.inj h).symm

variable {spec : NodeSpec (AnyValue F X)}

theorem newNode_moves {cb : Callback (AnyValue F X)} {i : Nat}
    (hmode : c.core.mode = .running) (hs : c.core.stack = .user cb i :: rest)
    (hact : env.act cb (c.core.popTo rest) i = .op (.newNode spec))
    (h : c.newNode policies env spec ((c.core.popTo rest).push [.user cb (i + 1)]) = some c') :
    Moves env c c' := by
  have hrest : rest ⊆ c.core.stack := by
    rw [hs]
    exact subset_cons_self _ _
  generalize hcore : (c.core.popTo rest).push [.user cb (i + 1)] = core at h
  have hstep : c.core.step env = some (core.newNode spec) := by
    rw [Config.step, hs, hmode]
    simp only [Config.enter, Config.stepUser, hact, hcore]
    rfl
  have hstack : ∀ f ∈ core.stack, f ∈ rest ∨ f.emission = none := by
    rw [← hcore]
    intro f hf
    rcases mem_cons.mp hf with rfl | hf
    · exact .inr rfl
    · exact .inl hf
  have hnodes : core.nodes = c.core.nodes := by
    rw [← hcore]
    rfl
  have hsize : core.size = c.core.size := by
    rw [← hcore]
    rfl
  unfold newNode at h
  split_ifs at h with hsame
  · refine .of_plain h (fun _ _ _ _ _ => by simp [hs]) (fun _ _ _ _ => by simp [hs]) ?_
    intro other k spec' below _ hs' hact'
    obtain ⟨hframe, rfl⟩ := List.cons.inj (hs.symm.trans hs')
    obtain ⟨rfl, rfl⟩ := Frame.user.inj hframe
    obtain rfl : spec = spec' := by simpa using hact.symm.trans hact'
    rw [hcore, hsame, hsize]
  · dsimp only at h
    split at h
    · exact .panics core rest _ hnodes hsize hrest hstack (Option.some.inj h).symm
    · rename_i value hvalue
      rw [hstep, Option.map_some, hsize] at h
      rw [hsize] at hvalue
      exact .creates spec core rest _ value hnodes hsize hrest hstack hsame hvalue
        (Option.some.inj h).symm

theorem step_moves (h : c.step policies env = some c') : Moves env c c' := by
  unfold step at h
  split at h
  · rename_i n msgs rest _ hs
    exact down_moves hs h
  · rename_i n value msgs rest hmode hs
    exact emitData_moves hmode hs h
  · rename_i cb i rest hmode hs
    split at h
    · rename_i spec hact
      exact newNode_moves hmode hs hact h
    · rename_i hact
      refine .of_plain h (fun _ _ _ _ _ => by simp [hs]) (fun _ _ _ _ => by simp [hs]) ?_
      intro other k spec below _ hs' hact'
      obtain ⟨hframe, rfl⟩ := List.cons.inj (hs.symm.trans hs')
      obtain ⟨rfl, rfl⟩ := Frame.user.inj hframe
      exact absurd hact' (hact spec)
  · rename_i hdown hdata huser
    refine .of_plain h ?_ ?_ ?_
    · exact fun n value msgs rest hmode hs => hdata n value msgs rest hmode hs
    · exact fun n msgs rest hmode hs => absurd hs (hdown n msgs rest hmode)
    · exact fun cb i spec rest hmode hs => absurd hs (huser cb i rest hmode)

/-! ### What a step preserves -/

/-- What the steps keep of the versions. -/
structure Sound (c : Versioned F X S) : Prop where
  slot : ∀ n, (c.slots n).isSome = true ↔ n < c.core.size
  tells : ∀ n slot, c.slots n = some slot →
    Tells slot.initial slot.emitted slot.value slot.policy
  cached : ∀ n slot, c.slots n = some slot → (c.core.nodes n).value.cache = none ∨
    (c.core.nodes n).value.cache = latestOf slot.initial slot.emitted
  underWay : ∀ f ∈ c.core.stack, ∀ n msgs, f.emission = some (n, msgs) → ∃ slot,
    c.slots n = some slot ∧
      ∀ value, .data value ∈ msgs → assertNodeVersionDataCompatible value slot.policy = .ok ()

theorem Sound.initial : Sound ({} : Versioned F X S) where
  slot := fun n => ⟨fun h => (by cases h), fun h => absurd h (Nat.not_lt_zero n)⟩
  tells := fun n slot h => by cases h
  cached := fun n slot h => by cases h
  underWay := by
    intro f hf n msgs he
    obtain rfl := mem_singleton.mp hf
    cases he

omit [Float64 F] in
/-- Collapsing keeps every DATA. -/
theorem data_mem_collapse (msgs : Wave (AnyValue F X)) :
    .data value ∈ collapseInvalidate msgs ↔ .data value ∈ msgs := by
  induction msgs with
  | nil => exact Iff.rfl
  | cons m msgs ih =>
    rw [collapseInvalidate]
    split_ifs with hinvalidate
    · simp [mem_filter, Message.isInvalidate]
    · rw [mem_cons, mem_cons, ih]

variable {policy : ResolvedNodeVersioningPolicy}

/-- A wave that a policy does not refuse. -/
theorem refusal_eq_none :
    refusal policy msgs = none ↔
      ∀ value, .data value ∈ msgs → assertNodeVersionDataCompatible value policy = .ok () := by
  have hsame : ∀ value : AnyValue F X,
      .data value ∈ collapseInvalidate (sortByTier msgs) ↔ .data value ∈ msgs := fun value =>
    (data_mem_collapse _).trans (mem_sortByTier msgs _)
  rw [refusal, List.findSome?_eq_none_iff]
  constructor
  · intro h value hmem
    have hnone := h _ ((hsame value).mpr hmem)
    dsimp only at hnone
    cases hcheck : assertNodeVersionDataCompatible value policy with
    | error err =>
      rw [hcheck] at hnone
      cases hnone
    | ok _ => rfl
  · intro h m hmem
    cases m with
    | data value => simp only [h value ((hsame value).mp hmem)]
    | _ => rfl

omit [Float64 F] in
/-- What a step of the core does to a cache: it keeps it, clears it, or puts the DATA
    there that is being emitted. -/
theorem slotStep_cache {core : Config (AnyValue F X) S}
    {y : Node (AnyValue F X) S} {size : Nat} (h : Config.SlotStep core n y size)
    (hsize : size = core.size) :
    y.value.cache = (core.nodes n).value.cache ∨ y.value.cache = none ∨
      ∃ value rest, core.Entering (.downLoop n (.data value :: rest)) := by
  have hkeep : y.value = (core.nodes n).value → y.value.cache = (core.nodes n).value.cache ∨
      y.value.cache = none ∨ ∃ value rest, core.Entering (.downLoop n (.data value :: rest)) :=
    fun heq => .inl (by rw [heq])
  cases h with
  | idle h => exact hkeep (Node.value_of_kernel h)
  | received _ _ _ _ d b i m _ _ _ _ h =>
    rcases (core.nodes n).receive_value d b i m with hv | ⟨_, hv⟩
    · exact hkeep (by rw [h, hv])
    · exact .inl (by rw [h, hv])
  | relayed _ v h => exact hkeep (by rw [h])
  | started _ h => exact hkeep (by rw [h]; rfl)
  | rolled keep h => exact hkeep (by rw [h]; rfl)
  | reset h => exact hkeep (by rw [h]; rfl)
  | dirtied _ h => exact .inl (by rw [Node.value_of_kernel h])
  | told m rest hf h =>
    rw [h]
    cases m with
    | data value => exact .inr (.inr ⟨value, rest, hf⟩)
    | dirty | complete | error _ =>
      unfold Node.collectDown
      dsimp only
      split_ifs <;> exact .inl rfl
    | invalidate =>
      unfold Node.collectDown
      dsimp only
      split_ifs
      · exact .inr (.inl rfl)
      · exact .inl rfl
    | _ => exact .inl rfl
  | invalidated _ h => exact .inr (.inl (by rw [h]; rfl))
  | deactivated _ h =>
    rw [h, Node.deactivated]
    dsimp only
    split_ifs
    · exact .inr (.inl rfl)
    · exact .inl rfl
  | activated _ _ h => exact hkeep (by rw [h])
  | linked _ _ _ _ _ _ h => exact hkeep (by rw [h])
  | created spec _ hgrows _ => omega
  | dropped _ h => exact hkeep ((Node.value_of_kernel h).trans rfl)
  | swapped _ _ _ h => exact hkeep ((Node.value_of_kernel h).trans rfl)
  | removed _ _ _ _ _ _ _ h => exact hkeep (by rw [h])
  | assigned _ _ _ _ _ h => exact hkeep (by rw [h])
  | finished _ _ _ _ status _ h => exact .inl (by rw [Node.value_of_kernel h])
  | guarded _ _ h => exact hkeep ((Node.value_of_kernel h).trans rfl)

/-- A wave under way stays checked as long as no version slot goes away or changes its
    policy. -/
theorem Sound.underWay_step (h : c.Sound) (core : Config (AnyValue F X) S)
    {slots : NodeId → Option (VersionSlot F X)}
    (hslots : ∀ n slot, c.slots n = some slot →
      ∃ slot', slots n = some slot' ∧ slot'.policy = slot.policy)
    (hstack : ∀ f ∈ core.stack, ∀ n msgs, f.emission = some (n, msgs) →
      (∃ g ∈ c.core.stack, ∃ old, g.emission = some (n, old) ∧ msgs ⊆ old) ∨
        ∃ slot, c.slots n = some slot ∧ ∀ value, .data value ∈ msgs →
          assertNodeVersionDataCompatible value slot.policy = .ok ()) :
    ∀ f ∈ core.stack, ∀ n msgs, f.emission = some (n, msgs) → ∃ slot, slots n = some slot ∧
      ∀ value, .data value ∈ msgs → assertNodeVersionDataCompatible value slot.policy = .ok () := by
  intro f hf n msgs he
  have hchecked : ∃ slot, c.slots n = some slot ∧ ∀ value, .data value ∈ msgs →
      assertNodeVersionDataCompatible value slot.policy = .ok () := by
    rcases hstack f hf n msgs he with ⟨g, hg, old, hold, hsub⟩ | hchecked
    · obtain ⟨slot, hslot, hall⟩ := h.underWay g hg n old hold
      exact ⟨slot, hslot, fun value hmem => hall value (hsub hmem)⟩
    · exact hchecked
  obtain ⟨slot, hslot, hall⟩ := hchecked
  obtain ⟨slot', hslot', hpolicy⟩ := hslots n slot hslot
  exact ⟨slot', hslot', fun value hmem => by rw [hpolicy]; exact hall value hmem⟩

omit [Float64 F] in
/-- Frames that were there before, or emit nothing. -/
theorem old_frames {core core' : Config (AnyValue F X) S} (rest : List (Frame (AnyValue F X)))
    (hrest : rest ⊆ core.stack) (hstack : ∀ f ∈ core'.stack, f ∈ rest ∨ f.emission = none) :
    ∀ f ∈ core'.stack, ∀ n msgs, f.emission = some (n, msgs) →
      ∃ g ∈ core.stack, ∃ old, g.emission = some (n, old) ∧ msgs ⊆ old := by
  intro f hf n msgs he
  rcases hstack f hf with hf | hnone
  · exact ⟨f, hrest hf, msgs, he, List.Subset.refl _⟩
  · rw [hnone] at he
    cases he

theorem Sound.panics (h : c.Sound) {core : Config (AnyValue F X) S} (err : String)
    (hnodes : core.nodes = c.core.nodes)
    (hsize : core.size = c.core.size) (hrest : rest ⊆ c.core.stack)
    (hstack : ∀ f ∈ core.stack, f ∈ rest ∨ f.emission = none) :
    Sound { c with core := core.panic err } where
  slot := fun n => (h.slot n).trans (by rw [← hsize]; rfl)
  tells := h.tells
  cached := fun n slot hslot => by
    have hcached := h.cached n slot hslot
    rwa [← hnodes] at hcached
  underWay := h.underWay_step (core.panic err) (fun n slot hslot => ⟨slot, hslot, rfl⟩)
    fun f hf n msgs he => .inl (old_frames rest hrest hstack f hf n msgs he)

variable {slot : VersionSlot F X}

theorem Sound.emits (h : c.Sound)
    {next : Option NodeVersion} (hs : c.core.stack = .downLoop n (.data value :: msgs) :: rest)
    (hslot : c.slots n = some slot)
    (hnext : advanceNodeVersion slot.value value slot.policy = .ok next) :
    Sound ⟨(c.core.popTo rest).downLoop n (.data value :: msgs),
      Function.update c.slots n
        (some { slot with value := next, emitted := slot.emitted ++ [value] })⟩ := by
  have hrest : rest ⊆ c.core.stack := by
    rw [hs]
    exact subset_cons_self _ _
  have hopens := Config.downLoop_opens (c.core.popTo rest) n (.data value :: msgs)
  refine ⟨fun m => ?_, fun m slot' hslot' => ?_, fun m slot' hslot' => ?_,
    h.underWay_step _ (fun m slot' hslot' => ?_) fun f hf m wave he => .inl ?_⟩
  · dsimp only
    rw [hopens.size]
    by_cases hm : m = n
    · subst hm
      rw [Function.update_self]
      exact iff_of_true rfl ((h.slot m).mp (by rw [hslot]; rfl))
    · rw [Function.update_of_ne hm]
      exact h.slot m
  · dsimp only at hslot'
    by_cases hm : m = n
    · subst hm
      rw [Function.update_self] at hslot'
      obtain rfl := Option.some.inj hslot'
      exact (h.tells m slot hslot).advance hnext
    · rw [Function.update_of_ne hm] at hslot'
      exact h.tells m slot' hslot'
  · -- The loop writes the DATA to the cache of its own node.
    have hnodes : ((c.core.popTo rest).downLoop n (.data value :: msgs)).nodes =
        Function.update c.core.nodes n ((c.core.nodes n).collectDown (.data value)).1 := rfl
    dsimp only at hslot' ⊢
    rw [hnodes]
    by_cases hm : m = n
    · subst hm
      rw [Function.update_self] at hslot' ⊢
      obtain rfl := Option.some.inj hslot'
      exact .inr (by rw [latestOf, List.getLast?_concat]; rfl)
    · rw [Function.update_of_ne hm] at hslot' ⊢
      exact h.cached m slot' hslot'
  · dsimp only
    by_cases hm : m = n
    · subst hm
      rw [Function.update_self]
      obtain rfl := Option.some.inj (hslot.symm.trans hslot')
      exact ⟨_, rfl, rfl⟩
    · rw [Function.update_of_ne hm]
      exact ⟨slot', hslot', rfl⟩
  · obtain ⟨fs, hfs, hopened⟩ := hopens.stack
    rw [hfs] at hf
    rcases mem_append.mp hf with hf | hf
    · obtain ⟨rfl, hsub⟩ := hopened f hf m wave he
      exact ⟨.downLoop m (.data value :: msgs), by rw [hs]; exact mem_cons_self, _, rfl, hsub⟩
    · exact ⟨f, hrest hf, wave, he, List.Subset.refl _⟩

theorem Sound.creates (h : c.Sound) {core : Config (AnyValue F X) S} {value : Option NodeVersion}
    (hnodes : core.nodes = c.core.nodes) (hsize : core.size = c.core.size)
    (hrest : rest ⊆ c.core.stack) (hstack : ∀ f ∈ core.stack, f ∈ rest ∨ f.emission = none)
    (hnew : (core.newNode spec).size ≠ core.size)
    (hvalue : createNodeVersion spec.initial policy = .ok value) :
    Sound ⟨core.newNode spec, Function.update c.slots c.core.size
      (some { policy, value, initial := spec.initial, emitted := [] })⟩ := by
  obtain ⟨hgrows, hmade⟩ := newNode_size core spec hnew
  have hold : ∀ m slot, c.slots m = some slot → m ≠ c.core.size := by
    intro m slot hslot
    exact Nat.ne_of_lt ((h.slot m).mp (by rw [hslot]; rfl))
  refine ⟨fun m => ?_, fun m slot' hslot' => ?_, fun m slot' hslot' => ?_,
    h.underWay_step _ (fun m slot' hslot' => ?_) fun f hf m wave he => .inl ?_⟩
  · dsimp only
    rw [hgrows, hsize]
    by_cases hm : m = c.core.size
    · subst hm
      rw [Function.update_self]
      exact iff_of_true rfl (Nat.lt_succ_self _)
    · rw [Function.update_of_ne hm, h.slot m]
      exact ⟨Nat.lt_succ_of_lt, fun hlt => (Nat.lt_succ_iff_lt_or_eq.mp hlt).resolve_right hm⟩
  · dsimp only at hslot'
    by_cases hm : m = c.core.size
    · subst hm
      rw [Function.update_self] at hslot'
      obtain rfl := Option.some.inj hslot'
      exact tells_create hvalue
    · rw [Function.update_of_ne hm] at hslot'
      exact h.tells m slot' hslot'
  · dsimp only at hslot' ⊢
    rw [hmade, hsize, hnodes]
    by_cases hm : m = c.core.size
    · subst hm
      rw [Function.update_self] at hslot' ⊢
      obtain rfl := Option.some.inj hslot'
      cases hinitial : spec.initial with
      | none => exact .inl (by rw [Config.freshNode, hinitial])
      | some first => exact .inr (by rw [Config.freshNode, hinitial]; rfl)
    · rw [Function.update_of_ne hm] at hslot' ⊢
      exact h.cached m slot' hslot'
  · dsimp only
    rw [Function.update_of_ne (hold m slot' hslot')]
    exact ⟨slot', hslot', rfl⟩
  · dsimp only at hf
    rw [Config.Scopeless.newNode_stack] at hf
    exact old_frames rest hrest hstack f hf m wave he

theorem Sound.goes (h : c.Sound) (hstep : c.core.step env = some c'.core)
    (hslots : c'.slots = c.slots) (hsize : c'.core.size = c.core.size)
    (hdata : ∀ n value msgs rest, c.core.mode = .running →
      c.core.stack ≠ .downLoop n (.data value :: msgs) :: rest)
    (hdown : ∀ n msgs rest, c.core.mode = .running → c.core.stack = .down n msgs :: rest →
      (c.core.nodes n).value.terminal = false →
        ∃ slot, c.slots n = some slot ∧ refusal slot.policy msgs = none) : c'.Sound := by
  -- Where the waves under way after the step come from.
  have hstack : ∀ f ∈ c'.core.stack, ∀ n msgs, f.emission = some (n, msgs) →
      (∃ g ∈ c.core.stack, ∃ old, g.emission = some (n, old) ∧ msgs ⊆ old) ∨
        ∃ slot, c.slots n = some slot ∧ ∀ value, .data value ∈ msgs →
          assertNodeVersionDataCompatible value slot.policy = .ok () := by
    cases Config.step_turn hstep with
    | scopeless rest hrest hopens =>
      obtain ⟨fs, hfs, hnone⟩ := hopens.stack
      refine fun f hf n msgs he => .inl (old_frames rest hrest (fun g hg => ?_) f hf n msgs he)
      rw [hfs] at hg
      exact (mem_append.mp hg).symm.imp id (hnone g)
    | created cb i spec rest hmode hs hact hcore =>
      refine fun f hf n msgs he =>
        .inl (old_frames rest ?_ (fun g hg => ?_) f hf n msgs he)
      · rw [hs]
        exact subset_cons_self _ _
      · rw [hcore, Config.Scopeless.newNode_stack] at hg
        rcases mem_cons.mp hg with rfl | hg
        · exact .inr rfl
        · exact .inl hg
    | asked n msgs rest hmode hs hcore =>
      have hrest : rest ⊆ c.core.stack := by
        rw [hs]
        exact subset_cons_self _ _
      cases hterminal : (c.core.nodes n).value.terminal with
      | true =>
        have hsame : c'.core = c.core.popTo rest := by
          rw [hcore, Config.down]
          exact if_pos hterminal
        rw [hsame]
        exact fun f hf m wave he => .inl ⟨f, hrest hf, wave, he, List.Subset.refl _⟩
      | false =>
        obtain ⟨slot, hslot, hnone⟩ := hdown n msgs rest hmode hs hterminal
        obtain ⟨fs, hfs, hopened⟩ := (Config.down_opens (c.core.popTo rest) n msgs).stack
        rw [hcore, hfs]
        intro f hf m wave he
        rcases mem_append.mp hf with hf | hf
        · obtain ⟨rfl, hsub⟩ := hopened f hf m wave he
          exact .inr ⟨slot, hslot, fun value hmem =>
            refusal_eq_none.mp hnone value (hsub hmem)⟩
        · exact .inl ⟨f, hrest hf, wave, he, List.Subset.refl _⟩
    | goesOn g n msgs rest hmode hs hg hopens =>
      have hrest : rest ⊆ c.core.stack := by
        rw [hs]
        exact subset_cons_self _ _
      obtain ⟨fs, hfs, hopened⟩ := hopens.stack
      rw [hfs]
      intro f hf m wave he
      rcases mem_append.mp hf with hf | hf
      · obtain ⟨rfl, hsub⟩ := hopened f hf m wave he
        exact .inl ⟨g, by rw [hs]; exact mem_cons_self, msgs, hg, hsub⟩
      · exact .inl ⟨f, hrest hf, wave, he, List.Subset.refl _⟩
  refine ⟨fun n => ?_, fun n slot hslot => ?_, fun n slot hslot => ?_,
    h.underWay_step _ (fun n slot hslot => ⟨slot, by rw [hslots]; exact hslot, rfl⟩) hstack⟩
  · rw [hslots, hsize]
    exact h.slot n
  · rw [hslots] at hslot
    exact h.tells n slot hslot
  · rw [hslots] at hslot
    rcases slotStep_cache (Config.step_slot ⟨env, hstep⟩ n) hsize with
      hsame | hnone | ⟨value, msgs, hmode, rest, hs⟩
    · rw [hsame]
      exact h.cached n slot hslot
    · exact .inl hnone
    · exact absurd hs (hdata n value msgs rest hmode)

theorem Sound.step (h : c.Sound) (hstep : c.step policies env = some c') : c'.Sound := by
  cases step_moves hstep with
  | panics core rest err hnodes hsize hrest hstack heq =>
    rw [heq]
    exact h.panics err hnodes hsize hrest hstack
  | emits n value msgs rest slot next hs hslot hnext heq =>
    rw [heq]
    exact h.emits hs hslot hnext
  | creates spec core rest policy value hnodes hsize hrest hstack hnew hvalue heq =>
    rw [heq]
    exact h.creates hnodes hsize hrest hstack hnew hvalue
  | goes hcore hslots hsize hdata hdown => exact h.goes hcore hslots hsize hdata hdown

/-! ### Every run -/

theorem Sound.run (h : c.Sound) (envs : List (Env (AnyValue F X) S)) :
    (Versioned.run policies envs c).Sound := by
  induction envs generalizing c with
  | nil => exact h
  | cons env envs ih =>
    rw [Versioned.run]
    cases hstep : c.step policies env with
    | none => exact h
    | some next => exact ih (h.step hstep)

-- A terminated node drops the wave, and at any other node the step is a panic.
theorem refuses (hmode : c.core.mode = .running)
    (hs : c.core.stack = .down n msgs :: rest) (hslot : c.slots n = some slot)
    (hrefused : refusal slot.policy msgs ≠ none) (env : Env (AnyValue F X) S) :
    ∃ c', c.step policies env = some c' ∧ Refuses n rest c c' := by
  have hstep : c.step policies env = c.down env n msgs rest := by
    rw [Versioned.step, hmode, hs]
  rw [hstep, Versioned.down]
  by_cases hterminal : (c.core.nodes n).value.terminal = true
  · have hcore : c.core.step env = some (c.core.popTo rest) := by
      rw [Config.step, hs, hmode]
      exact congrArg some (if_pos hterminal)
    rw [if_pos hterminal, plain, hcore, Option.map_some]
    refine ⟨_, rfl, rfl, rfl, rfl, rfl, fun hopen => ?_⟩
    rw [hterminal] at hopen
    cases hopen
  · obtain ⟨err, herr⟩ := Option.ne_none_iff_exists'.mp hrefused
    simp only [if_neg hterminal, hslot, herr]
    have hreg := Config.waveRegister_wave (c.core.popTo rest) n
    refine ⟨_, rfl, rfl, ?_, ?_, ?_, fun _ => ⟨_, rfl⟩⟩
    · rw [hreg]
      rfl
    · rw [hreg]
      rfl
    · rw [hreg]
      rfl

theorem Sound.faithful (h : c.Sound) : c.Faithful policies where
  slot := h.slot
  tells := h.tells
  cached := h.cached
  readBack := by
    intro n slot version path hslot hversion
    have htells := h.tells n slot hslot
    rw [hversion] at htells
    exact validate_toJson htells.valid path
  refused := by
    intro n slot msgs rest value hmode hs hslot hmem hrefused env
    refine refuses hmode hs hslot (fun hnone => ?_) env
    exact hrefused (refusal_eq_none.mp hnone value hmem)
  underWay := h.underWay

theorem versions_faithful (policies : NodeId → Option NodeVersioningPolicy)
    (envs : List (Env (AnyValue F X) S)) : (run policies envs {}).Faithful policies :=
  (Sound.initial.run envs).faithful

/-- A node on level 1 is sent DATA that has no JSON. -/
def sendOther : Env (AnyValue Empty Unit) Unit := Env.scripted fun cb => match cb with
  | .main => [.newNode {}, .down 0 [.data (.other ())]]
  | _ => []

def onLevel1 : NodeId → Option NodeVersioningPolicy :=
  fun _ => some (.level1 (some fun _ => "h"))

-- The wave is refused by a panic. The owner of the wave catches it and blames the node.
theorem refused_wave_errors :
    ∃ before after : Versioned Empty Unit Unit,
      before = run onLevel1 (List.replicate 2 sendOther) {} ∧
      after = run onLevel1 (List.replicate 40 sendOther) {} ∧
      (∃ rest, before.core.stack = .down 0 [.data (.other ())] :: rest) ∧
      assertNodeVersionDataCompatible (.other () : AnyValue Empty Unit)
        (resolveNodeVersioningPolicy (onLevel1 0)) ≠ .ok () ∧
      after.core.stack = [] ∧ (before.core.nodes 0).value.status = .sentinel ∧
      (after.core.nodes 0).value.status = .errored := by
  refine ⟨_, _, rfl, rfl, ⟨_, rfl⟩, nofun, ?_, ?_, ?_⟩
  all_goals decide +kernel

end Versioned

end GraphRefly.Versioning
