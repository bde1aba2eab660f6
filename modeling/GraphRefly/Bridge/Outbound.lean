import GraphRefly.Lib.Earlier
import GraphRefly.Bridge.Cohorts

/-!
# What An Outbound Group Sends

An outbound group keeps a value of every edge until it has one of each, and then sends
them as one cohort. Before the first cohort every DATA replaces the one that waits.
Afterwards a DATA is taken only if the version of its node is not the one that waits
already and not the one that was sent last.

The version is read when the group runs, and a run brings all that its nodes have said
since the run before. Several DATA of one node in a run then have one version, the
version of the last of them, and the group keeps the first. So a cohort carries the
latest values exactly if, whenever one falls due after the first, the last run that
brought something of an edge ends with equal bytes.

## Main definitions

* `OutboundGroup`, `OutboundGroup.run`: A group over the waves of its nodes.
* `OutboundGroup.CohortsCurrent`: What a cohort should carry.
* `Backlog`, `Backlog.Due`: What has come since the last cohort, and when the next one
  is due.
* `Backlog.Steady`, `SteadyWaves`: When the next one carries the latest values.

## Theorems

* `outboundItems`, `outboundBatches`: What the waves of a run do to the group.
* `Backs.step`: The group keeps what the backlog says.
* `cohorts_current_iff`: Cohorts are current exactly on steady waves.
* `second_data_is_lost`: A second DATA of a wave that is not sent.
-/

namespace GraphRefly.Bridge

open List GraphRefly.Lib

/-- A group of outbound edges. The node of an edge gets a new version with every DATA. -/
structure OutboundGroup (V : Type) where
  name : String
  edges : List String
  edges_ne : edges ≠ []
  nodup : edges.Nodup
  /-- The version the node of an edge has after so many DATA. -/
  version : String → Nat → V
  version_injective : ∀ edgeId, Function.Injective (version edgeId)

/-- What a run brings of every edge. -/
abbrev EdgeWave := String → List EdgeItem

def EdgeItem.isData : EdgeItem → Bool
  | .bytes _ | .foreign => true
  | .sentinel => false

def dataCount (items : List EdgeItem) : Nat := items.countP EdgeItem.isData

/-- All that an edge has brought. -/
def itemsOf (waves : List EdgeWave) (edgeId : String) : List EdgeItem :=
  waves.flatMap fun wave => wave edgeId

/-- The most recent DATA. -/
def lastData (items : List EdgeItem) : Option EdgeItem :=
  (items.filter EdgeItem.isData).getLast?

/-- The frames that were sent in a run, and the waves up to it. -/
structure SentFrames where
  waves : List EdgeWave
  frames : List CanonicalWireEdgeFrame

structure OutboundRun (V : Type) where
  waves : List EdgeWave
  state : WireEdgeGroupOutState V
  sent : List SentFrames

/-- The frames among the events of a group. -/
def framesSent (events : List WireEdgeGroupEvent) : List CanonicalWireEdgeFrame :=
  (groupCommands events).filterMap WireBridgeCommand.frame?

namespace OutboundGroup

variable {V : Type} [DecidableEq V]

section

variable (G : OutboundGroup V)

/-- What the group is given in a run: the items of every edge, and the version its node
    has by then. -/
def batches (before : List EdgeWave) (wave : EdgeWave) :
    List (EdgeBatch V) :=
  G.edges.map fun edgeId =>
    { edgeId
      version := some (G.version edgeId (dataCount (itemsOf (before ++ [wave]) edgeId)))
      items := wave edgeId }

def step (r : OutboundRun V) (wave : EdgeWave) : OutboundRun V :=
  let (state, events, _) :=
    wireEdgeGroupEvents G.name G.edges r.state (G.batches r.waves wave)
  { waves := r.waves ++ [wave]
    state
    sent := r.sent ++ [⟨r.waves ++ [wave], framesSent events⟩] }

def run (waves : List EdgeWave) : OutboundRun V :=
  waves.foldl G.step ⟨[], .initial V, []⟩

theorem run_concat (waves : List EdgeWave) (wave : EdgeWave) :
    G.run (waves ++ [wave]) = G.step (G.run waves) wave := by
  rw [run, foldl_concat]
  rfl

end

end OutboundGroup

/-! ### What a cohort should carry -/

/-- Frames that are a cohort of the latest values: DIRTY of every edge and then DATA of
    every edge, under a cause that was not used before. The value of an edge is its most
    recent DATA, and there are more DATA by now than when an earlier cohort was sent, so
    that no DATA is sent twice. -/
structure SentFrames.Current (edges : List String) (earlier : List SentFrames)
    (s : SentFrames) (causeId : String) (values : String → Bytes) : Prop where
  frames : s.frames =
    edges.map (fun edgeId => ⟨.dirty, edgeId, causeId, none⟩) ++
      edges.map (fun edgeId => ⟨.data, edgeId, causeId, some (values edgeId)⟩)
  fresh : ∀ t ∈ earlier, ∀ frame ∈ t.frames, frame.causeId ≠ causeId
  latest : ∀ edgeId ∈ edges, lastData (itemsOf s.waves edgeId) = some (.bytes (values edgeId))
  new : ∀ t ∈ earlier, t.frames ≠ [] → ∀ edgeId ∈ edges,
    dataCount (itemsOf t.waves edgeId) < dataCount (itemsOf s.waves edgeId)

/-- Whenever frames are sent, they are a cohort of the latest values. -/
def OutboundGroup.CohortsCurrent {V : Type} [DecidableEq V] (G : OutboundGroup V)
    (waves : List EdgeWave) : Prop :=
  ∀ earlier s later, (G.run waves).sent = earlier ++ s :: later → s.frames ≠ [] →
    ∃ causeId values, s.Current G.edges earlier causeId values

/-! ### When a cohort is due -/

/-- The bytes at the end of the items of a wave, after what is no bytes. -/
def closingBytes (items : List EdgeItem) : List Bytes :=
  items.foldl (fun bytes item =>
    match item with
    | .bytes value => bytes ++ [value]
    | .foreign | .sentinel => []) []

/-- The cohorts that have been due, and the last that each edge has brought since. -/
structure Backlog where
  cohorts : Nat
  last : EdgeWave

namespace Backlog

def empty : Backlog := ⟨0, fun _ => []⟩

def take (b : Backlog) (wave : EdgeWave) : Backlog :=
  { b with last := fun edgeId =>
      if (wave edgeId).isEmpty then b.last edgeId else wave edgeId }

variable {wave : EdgeWave} {edgeId : String}

theorem take_nothing (b : Backlog)
    (h : (wave edgeId).isEmpty = true) : (b.take wave).last edgeId = b.last edgeId :=
  if_pos h

theorem take_items (b : Backlog)
    (h : ¬ (wave edgeId).isEmpty = true) : (b.take wave).last edgeId = wave edgeId :=
  if_neg h

/-- Every edge has brought bytes, and nothing after them. -/
def Due (edges : List String) (b : Backlog) : Prop :=
  ∀ edgeId ∈ edges, closingBytes (b.last edgeId) ≠ []

instance (edges : List String) (b : Backlog) : Decidable (b.Due edges) :=
  inferInstanceAs (Decidable (∀ edgeId ∈ edges, closingBytes (b.last edgeId) ≠ []))

section

variable (edges : List String)

def step (b : Backlog) (wave : EdgeWave) : Backlog :=
  if (b.take wave).Due edges then ⟨b.cohorts + 1, fun _ => []⟩ else b.take wave

def after (waves : List EdgeWave) : Backlog :=
  waves.foldl (step edges) empty

theorem after_concat (waves : List EdgeWave) (wave : EdgeWave) :
    after edges (waves ++ [wave]) = step edges (after edges waves) wave := by
  rw [after, foldl_concat]
  rfl

/-- There is a cause left, and after the first cohort the bytes of each edge end as they
    begin. -/
def Steady (b : Backlog) : Prop :=
  b.cohorts < u64Max ∧
    (b.cohorts = 0 ∨ ∀ edgeId ∈ edges,
      (closingBytes (b.last edgeId)).head? = (closingBytes (b.last edgeId)).getLast?)

end

end Backlog

/-- Whenever a cohort is due, the backlog is steady. -/
def SteadyWaves (edges : List String) (waves : List EdgeWave) : Prop :=
  ∀ before wave later, waves = before ++ wave :: later →
    ((Backlog.after edges before).take wave).Due edges →
      ((Backlog.after edges before).take wave).Steady edges

/-! ### What a wave does to the group -/

theorem closingBytes_concat (items : List EdgeItem) (item : EdgeItem) :
    closingBytes (items ++ [item]) =
      match item with
      | .bytes value => closingBytes items ++ [value]
      | .foreign | .sentinel => [] := by
  rw [closingBytes, foldl_concat]
  rfl

variable {items : List EdgeItem}

theorem dataCount_pos (h : closingBytes items ≠ []) :
    0 < dataCount items := by
  induction items using List.reverseRecOn with
  | nil => exact absurd rfl h
  | append_singleton items item _ =>
    rw [closingBytes_concat] at h
    cases item with
    | bytes value => simp [dataCount, EdgeItem.isData]
    | foreign => exact absurd rfl h
    | sentinel => exact absurd rfl h

theorem lastData_closing {value : Bytes}
    (h : (closingBytes items).getLast? = some value) : lastData items = some (.bytes value) := by
  induction items using List.reverseRecOn with
  | nil => cases h
  | append_singleton items item _ =>
    rw [closingBytes_concat] at h
    cases item with
    | bytes other =>
      obtain rfl : other = value := by simpa using h
      simp [lastData, EdgeItem.isData]
    | foreign => cases h
    | sentinel => cases h

section Group

variable {V : Type} [DecidableEq V]

/-- The bytes that wait after a wave: the last ones before the first cohort, and the first
    ones after it. -/
def waiting (emittedOnce : Bool) (bytes : List Bytes) : Option Bytes :=
  if emittedOnce then bytes.head? else bytes.getLast?

theorem waiting_isSome {emittedOnce : Bool} {bytes : List Bytes} (h : bytes ≠ []) :
    ∃ value, waiting emittedOnce bytes = some value := by
  rw [← Option.isSome_iff_exists]
  cases emittedOnce <;> simpa [waiting] using h

@[simp] theorem waiting_nil (emittedOnce : Bool) : waiting emittedOnce [] = none := by
  cases emittedOnce <;> rfl

/-- An edge whose version was neither taken nor sent. -/
def WireEdgeGroupOutState.IsNew (state : WireEdgeGroupOutState V) (edgeId : String)
    (version : Option V) : Prop :=
  (∀ pending, state.pending.lookup edgeId = some pending → pending.version ≠ version) ∧
    ∀ last, state.lastEmittedVersions.lookup edgeId = some last → last ≠ version

/-- What a part of a run does: it is about the edges it brings something of, and nothing
    is sent. -/
structure Brings (wave : EdgeWave) (version : String → V) (edges : List String)
    (old new : OutboundLoop V) : Prop where
  nextCause : new.1.nextCause = old.1.nextCause
  emittedOnce : new.1.emittedOnce = old.1.emittedOnce
  lastEmitted : new.1.lastEmittedVersions = old.1.lastEmittedVersions
  pending : ∀ edgeId ∈ edges, new.1.pending.lookup edgeId =
    if (wave edgeId).isEmpty then old.1.pending.lookup edgeId
    else (waiting old.1.emittedOnce (closingBytes (wave edgeId))).map fun value =>
      ⟨value, some (version edgeId)⟩
  others : ∀ edgeId, edgeId ∉ edges →
    new.1.pending.lookup edgeId = old.1.pending.lookup edgeId
  triggered : (old.2.1 = true ∨ ∃ edgeId ∈ edges, closingBytes (wave edgeId) ≠ []) →
    new.2.1 = true
  events : framesSent new.2.2 = framesSent old.2.2

theorem framesSent_append (events more : List WireEdgeGroupEvent) :
    framesSent (events ++ more) = framesSent events ++ framesSent more := by
  simp [framesSent, groupCommands]

variable {state : WireEdgeGroupOutState V} {edgeId : String}

variable {ver : V}

/-- Whether a value is taken after some items of a run. Before the first cohort it always
    is, and afterwards exactly if no bytes of the run wait. -/
theorem shouldAdmit_after
    {old : WireEdgeGroupOutState V} (hlast : state.lastEmittedVersions = old.lastEmittedVersions)
    (hnew : old.IsNew edgeId (some ver)) (items : List EdgeItem)
    (hpending : state.pending.lookup edgeId =
      if items.isEmpty then old.pending.lookup edgeId
      else (waiting state.emittedOnce (closingBytes items)).map fun value => ⟨value, some ver⟩) :
    shouldAdmitOutboundData state edgeId (some ver) =
      (!state.emittedOnce || (closingBytes items).isEmpty) := by
  have hsent : ((state.lastEmittedVersions.lookup edgeId).all
      fun last => decide (last ≠ some ver)) = true := by
    rw [hlast, Option.all_eq_true]
    intro last hsome
    exact decide_eq_true (hnew.2 last hsome)
  cases honce : state.emittedOnce with
  | false => simp [shouldAdmitOutboundData, honce]
  | true =>
    rw [honce] at hpending
    rw [shouldAdmitOutboundData, if_neg (by simp [honce]), if_neg (by simp)]
    by_cases hitems : items = []
    · subst hitems
      -- What waited before the run has an older version.
      have hold : ¬ ((state.pending.lookup edgeId).any fun pending =>
          decide (pending.version = some ver)) = true := by
        rw [hpending, Option.any_eq_true]
        rintro ⟨pending, hsome, hsame⟩
        exact hnew.1 pending hsome (of_decide_eq_true hsame)
      rw [if_neg hold, hsent]
      rfl
    · rw [if_neg (by simpa using hitems)] at hpending
      cases hbytes : closingBytes items with
      | nil =>
        rw [hbytes] at hpending
        rw [hpending, if_neg (by simp [waiting]), hsent]
        rfl
      | cons value rest =>
        rw [hbytes] at hpending
        rw [hpending, if_pos (by simp [waiting])]
        rfl

-- The induction is on the items of the run, the last of them split off. After some of
-- them the edge holds what waits of their closing bytes, under the version of the run.
theorem outboundItems (name : String) (batch : EdgeBatch V)
    (hver : batch.version = some ver) (old : OutboundLoop V) (items : List EdgeItem)
    (hnew : dataCount items ≠ 0 → old.1.IsNew batch.edgeId (some ver)) :
    Brings (fun _ => items) (fun _ => ver) [batch.edgeId] old
      (items.foldl (outboundItem name batch) old) := by
  induction items using List.reverseRecOn with
  | nil =>
    refine ⟨rfl, rfl, rfl, fun _ _ => rfl, fun _ _ => rfl, fun h => ?_, rfl⟩
    rcases h with h | ⟨_, _, hne⟩
    · exact h
    · exact absurd rfl hne
  | append_singleton items item ih =>
    have hpart : dataCount items ≠ 0 → old.1.IsNew batch.edgeId (some ver) := by
      intro hcount
      refine hnew fun hzero => hcount ?_
      rw [dataCount, countP_append] at hzero
      exact (Nat.add_eq_zero_iff.mp hzero).1
    specialize ih hpart
    rw [foldl_concat]
    generalize items.foldl (outboundItem name batch) old = mid at ih
    obtain ⟨state, triggered, events⟩ := mid
    have hne : (items ++ [item]).isEmpty = false := by simp
    cases item with
    | bytes value =>
      have hwaits := ih.pending _ (mem_singleton_self _)
      have hadmit := shouldAdmit_after ih.lastEmitted
        (hnew (by simp [dataCount, EdgeItem.isData])) items
        (by rw [hwaits, ih.emittedOnce])
      rw [← hver, ih.emittedOnce] at hadmit
      rw [outboundItem, hadmit]
      by_cases htake : (!old.1.emittedOnce || (closingBytes items).isEmpty) = true
      · rw [if_pos htake]
        have hvalue : waiting old.1.emittedOnce (closingBytes items ++ [value]) =
            some value := by
          cases honce : old.1.emittedOnce with
          | false => simp [waiting]
          | true =>
            have hnil : closingBytes items = [] := by simpa [honce] using htake
            simp [waiting, hnil]
        refine ⟨ih.nextCause, ih.emittedOnce, ih.lastEmitted, fun edgeId hmem => ?_,
          fun edgeId hmem => ?_, fun _ => rfl, ih.events⟩
        · obtain rfl := mem_singleton.mp hmem
          rw [if_neg (by simp [hne]), closingBytes_concat, hvalue]
          simp [hver]
        · rw [← ih.others edgeId hmem]
          exact SortedMap.lookup_insert_of_ne _ _ fun h => hmem (by simp [h])
      · -- Bytes of the run wait already, and they stay.
        rw [if_neg htake]
        have honce : old.1.emittedOnce = true := by
          cases hcase : old.1.emittedOnce <;> simp [hcase] at htake ⊢
        have hbytes : closingBytes items ≠ [] := by simpa [honce] using htake
        have hitems : items ≠ [] := fun h => hbytes (by rw [h]; rfl)
        refine ⟨ih.nextCause, ih.emittedOnce, ih.lastEmitted, fun edgeId hmem => ?_,
          ih.others, fun _ => ih.triggered (.inr ⟨_, mem_singleton_self _, hbytes⟩),
          ih.events⟩
        rw [ih.pending edgeId hmem, if_neg (by simpa using hitems), if_neg (by simp [hne]),
          closingBytes_concat, honce]
        simp [waiting, List.head?_append_of_ne_nil _ hbytes]
    | foreign =>
      refine ⟨ih.nextCause, ih.emittedOnce, ih.lastEmitted, fun edgeId hmem => ?_,
        fun edgeId hmem => ?_, fun h => ?_, ?_⟩
      · obtain rfl := mem_singleton.mp hmem
        rw [if_neg (by simp [hne]), closingBytes_concat, waiting_nil]
        exact SortedMap.lookup_erase_self _ _
      · rw [← ih.others edgeId hmem]
        exact SortedMap.lookup_erase_of_ne _ fun h => hmem (by simp [h])
      · rcases h with h | ⟨_, _, hbytes⟩
        · exact ih.triggered (.inl h)
        · refine absurd ?_ hbytes
          rw [closingBytes_concat]
      · rw [← ih.events]
        exact (framesSent_append events _).trans (append_nil _)
    | sentinel =>
      refine ⟨ih.nextCause, ih.emittedOnce, ih.lastEmitted, fun edgeId hmem => ?_,
        fun edgeId hmem => ?_, fun _ => rfl, ih.events⟩
      · obtain rfl := mem_singleton.mp hmem
        rw [if_neg (by simp [hne]), closingBytes_concat, waiting_nil]
        exact SortedMap.lookup_erase_self _ _
      · rw [← ih.others edgeId hmem]
        exact SortedMap.lookup_erase_of_ne _ fun h => hmem (by simp [h])

variable {edges : List String}

/-- The batches of a run, one edge after the other. -/
theorem outboundBatches (name : String) (wave : EdgeWave) (version : String → V)
    (hnodup : edges.Nodup) (old : OutboundLoop V)
    (hnew : ∀ edgeId ∈ edges, dataCount (wave edgeId) ≠ 0 →
      old.1.IsNew edgeId (some (version edgeId))) :
    Brings wave version edges old
      ((edges.map fun edgeId => (⟨edgeId, some (version edgeId), wave edgeId⟩ : EdgeBatch V)).foldl
        (fun acc batch => batch.items.foldl (outboundItem name batch) acc) old) := by
  induction edges generalizing old with
  | nil =>
    refine ⟨rfl, rfl, rfl, fun _ h => absurd h not_mem_nil, fun _ _ => rfl, fun h => ?_, rfl⟩
    rcases h with h | ⟨_, hmem, _⟩
    · exact h
    · exact absurd hmem not_mem_nil
  | cons edgeId edges ih =>
    obtain ⟨hnot, hnodup⟩ := nodup_cons.mp hnodup
    have hfirst := outboundItems name ⟨edgeId, some (version edgeId), wave edgeId⟩ rfl old
      (wave edgeId) (hnew edgeId mem_cons_self)
    rw [map_cons, foldl_cons]
    generalize (wave edgeId).foldl (outboundItem name _) old = mid at hfirst
    have hne : ∀ other ∈ edges, other ∉ [edgeId] := fun other hmem hin =>
      hnot (mem_singleton.mp hin ▸ hmem)
    have hrest := ih hnodup mid fun other hmem hcount => by
      obtain ⟨hwaits, hsent⟩ := hnew other (mem_cons_of_mem _ hmem) hcount
      refine ⟨?_, ?_⟩
      · rw [hfirst.others other (hne other hmem)]
        exact hwaits
      · rw [hfirst.lastEmitted]
        exact hsent
    refine ⟨hrest.nextCause.trans hfirst.nextCause, hrest.emittedOnce.trans hfirst.emittedOnce,
      hrest.lastEmitted.trans hfirst.lastEmitted, fun other hmem => ?_, fun other hmem => ?_,
      fun h => hrest.triggered ?_, hrest.events.trans hfirst.events⟩
    · rcases mem_cons.mp hmem with rfl | hmem
      · rw [hrest.others _ hnot]
        exact hfirst.pending _ (mem_singleton_self _)
      · rw [hrest.pending other hmem, hfirst.others other (hne other hmem), hfirst.emittedOnce]
    · obtain ⟨hself, hmem⟩ := not_or.mp (mt mem_cons.mpr hmem)
      rw [hrest.others other hmem, hfirst.others other (mt mem_singleton.mp hself)]
    · rcases h with h | ⟨other, hmem, hbytes⟩
      · exact .inl (hfirst.triggered (.inl h))
      · rcases mem_cons.mp hmem with rfl | hmem
        · exact .inl (hfirst.triggered (.inr ⟨_, mem_singleton_self _, hbytes⟩))
        · exact .inr ⟨other, hmem, hbytes⟩

omit [DecidableEq V] in
theorem emit_missing (name : String) (hmem : edgeId ∈ edges)
    (hnone : state.pending.lookup edgeId = none) :
    (emitWireEdgeGroupOutbound name edges state).1 = state ∧
      framesSent (emitWireEdgeGroupOutbound name edges state).2.1 = [] := by
  have hmissing : edges.filter (fun edgeId => (state.pending.lookup edgeId).isNone) ≠ [] := by
    refine ne_nil_of_mem (mem_filter.mpr ⟨hmem, ?_⟩)
    rw [hnone]
    rfl
  rw [emitWireEdgeGroupOutbound, if_pos hmissing]
  refine ⟨rfl, ?_⟩
  simp [framesSent, groupCommands, filterMap_map]

omit [DecidableEq V] in
theorem emit_all (name : String) {pending : String → WireEdgeGroupPendingOutbound V}
    (hall : ∀ edgeId ∈ edges, state.pending.lookup edgeId = some (pending edgeId)) :
    (emitWireEdgeGroupOutbound name edges state).1 =
        { nextCause := saturatingAdd u64Max state.nextCause 1
          emittedOnce := true
          pending := .empty
          lastEmittedVersions := .ofList (edges.map fun edgeId =>
            (edgeId, (pending edgeId).version)) } ∧
      framesSent (emitWireEdgeGroupOutbound name edges state).2.1 =
        edges.map (fun edgeId => ⟨.dirty, edgeId, causeKey name state.nextCause, none⟩) ++
          edges.map (fun edgeId =>
            ⟨.data, edgeId, causeKey name state.nextCause, some (pending edgeId).value⟩) := by
  have hmissing : ¬ edges.filter (fun edgeId => (state.pending.lookup edgeId).isNone) ≠ [] := by
    rw [not_not, filter_eq_nil_iff]
    intro edgeId hmem
    simp [hall edgeId hmem]
  have hpending : (edges.filterMap fun edgeId =>
      (state.pending.lookup edgeId).map fun pending => (edgeId, pending)) =
        edges.map fun edgeId => (edgeId, pending edgeId) := by
    rw [← filterMap_eq_map]
    refine filterMap_congr fun edgeId hmem => ?_
    rw [hall edgeId hmem]
    rfl
  rw [emitWireEdgeGroupOutbound, if_neg hmissing, hpending]
  refine ⟨?_, ?_⟩
  · simp [Function.comp_def]
  · simp [framesSent, groupCommands, Cohort.frames, Cohort.dirtyFrame, Cohort.dataFrame,
      wireEdgeGroupSend, WireBridgeCommand.frame?, filterMap_map, Function.comp_def]

/-! ### The group keeps what the backlog says -/

/-- The cause of a cohort, by how many were sent before it. The last number is used again
    and again. -/
def OutboundGroup.cause (G : OutboundGroup V) (cohorts : Nat) : String :=
  causeKey G.name (min (cohorts + 1) u64Max)

/-- A group against its backlog. Up to `base` the DATA of an edge are older than the last
    cohort, and what the edge has brought last is newer. -/
structure Backs (G : OutboundGroup V) (r : OutboundRun V) (b : Backlog) (base : String → Nat) :
    Prop where
  idle : ¬ b.Due G.edges
  nextCause : r.state.nextCause = min (b.cohorts + 1) u64Max
  emittedOnce : r.state.emittedOnce = decide (0 < b.cohorts)
  pending : ∀ edgeId ∈ G.edges, r.state.pending.lookup edgeId =
    (waiting r.state.emittedOnce (closingBytes (b.last edgeId))).map fun value =>
      ⟨value, some (G.version edgeId (dataCount (itemsOf r.waves edgeId)))⟩
  recent : ∀ edgeId, ∃ older, itemsOf r.waves edgeId = older ++ b.last edgeId ∧
    base edgeId ≤ dataCount older
  emitted : ∀ edgeId last, r.state.lastEmittedVersions.lookup edgeId = some last →
    ∃ k ≤ base edgeId, last = some (G.version edgeId k)
  counted : ∀ t ∈ r.sent, t.frames ≠ [] → ∀ edgeId,
    dataCount (itemsOf t.waves edgeId) ≤ base edgeId
  causes : ∀ t ∈ r.sent, ∀ frame ∈ t.frames, ∃ k < b.cohorts, frame.causeId = G.cause k
  used : ∀ k < b.cohorts, ∃ t ∈ r.sent, ∃ frame ∈ t.frames, frame.causeId = G.cause k

theorem not_due_empty (hne : edges ≠ []) (cohorts : Nat) :
    ¬ Backlog.Due edges ⟨cohorts, fun _ => []⟩ := by
  intro hdue
  obtain ⟨edgeId, hmem⟩ := exists_mem_of_ne_nil _ hne
  exact hdue edgeId hmem rfl

theorem Backs.initial (G : OutboundGroup V) :
    Backs G (G.run []) (Backlog.after G.edges []) fun _ => 0 where
  idle := not_due_empty G.edges_ne 0
  nextCause := by
    change 1 = min (0 + 1) u64Max
    decide
  emittedOnce := rfl
  pending := fun _ _ => by
    rw [show closingBytes ((Backlog.after G.edges []).last _) = [] from rfl, waiting_nil]
    rfl
  recent := fun _ => ⟨[], rfl, Nat.le_refl 0⟩
  emitted := fun _ _ h => by cases h
  counted := fun t h => absurd h not_mem_nil
  causes := fun t h => absurd h not_mem_nil
  used := fun k h => absurd h (Nat.not_lt_zero k)

variable {G : OutboundGroup V} {r : OutboundRun V} {b : Backlog} {base : String → Nat}

theorem itemsOf_concat (waves : List EdgeWave) (wave : EdgeWave) (edgeId : String) :
    itemsOf (waves ++ [wave]) edgeId = itemsOf waves edgeId ++ wave edgeId := by
  simp [itemsOf]

theorem dataCount_append (items more : List EdgeItem) :
    dataCount (items ++ more) = dataCount items + dataCount more := by
  rw [dataCount, countP_append]
  rfl

omit [DecidableEq V] in
theorem Backs.isNew (h : Backs G r b base) (wave : EdgeWave)
    (hmem : edgeId ∈ G.edges) (hcount : dataCount (wave edgeId) ≠ 0) :
    r.state.IsNew edgeId
      (some (G.version edgeId (dataCount (itemsOf (r.waves ++ [wave]) edgeId)))) := by
  obtain ⟨older, hitems, hbase⟩ := h.recent edgeId
  have hmore : dataCount (itemsOf (r.waves ++ [wave]) edgeId) =
      dataCount older + dataCount (b.last edgeId) + dataCount (wave edgeId) := by
    rw [itemsOf_concat, dataCount_append, hitems, dataCount_append]
  refine ⟨fun pending hpending hsame => ?_, fun last hlast hsame => ?_⟩
  · rw [h.pending edgeId hmem, Option.map_eq_some_iff] at hpending
    obtain ⟨value, -, rfl⟩ := hpending
    have heq := G.version_injective edgeId (Option.some.inj hsame)
    rw [hmore, hitems, dataCount_append] at heq
    omega
  · obtain ⟨k, hk, rfl⟩ := h.emitted edgeId last hlast
    have heq := G.version_injective edgeId (Option.some.inj hsame)
    omega

omit [DecidableEq V] in
theorem Backs.recent_take (h : Backs G r b base) (wave : EdgeWave) (edgeId : String) :
    ∃ older, itemsOf (r.waves ++ [wave]) edgeId = older ++ (b.take wave).last edgeId ∧
      base edgeId ≤ dataCount older := by
  obtain ⟨older, hitems, hbase⟩ := h.recent edgeId
  by_cases hnil : (wave edgeId).isEmpty = true
  · refine ⟨older, ?_, hbase⟩
    rw [itemsOf_concat, List.isEmpty_iff.mp hnil, append_nil, hitems, b.take_nothing hnil]
  · refine ⟨itemsOf r.waves edgeId, ?_, ?_⟩
    · rw [itemsOf_concat, b.take_items hnil]
    · rw [hitems, dataCount_append]
      omega

/-- The batches of a run, before anything is sent. -/
def OutboundGroup.gather (G : OutboundGroup V) (r : OutboundRun V) (wave : EdgeWave) :
    OutboundLoop V :=
  (G.batches r.waves wave).foldl
    (fun acc batch => batch.items.foldl (outboundItem G.name batch) acc) (r.state, false, [])

theorem OutboundGroup.step_eq (G : OutboundGroup V) (r : OutboundRun V) (wave : EdgeWave) :
    G.step r wave =
      let loop := G.gather r wave
      let send := emitWireEdgeGroupOutbound G.name G.edges loop.1
      if loop.2.1 then
        ⟨r.waves ++ [wave], send.1,
          r.sent ++ [⟨r.waves ++ [wave], framesSent (loop.2.2 ++ send.2.1)⟩]⟩
      else ⟨r.waves ++ [wave], loop.1, r.sent ++ [⟨r.waves ++ [wave], framesSent loop.2.2⟩]⟩ := by
  rw [OutboundGroup.step, wireEdgeGroupEvents]
  generalize hloop : G.gather r wave = loop
  rw [OutboundGroup.gather] at hloop
  rw [hloop]
  obtain ⟨state, triggered, events⟩ := loop
  cases triggered with
  | false => rfl
  | true => rfl

/-- What the batches of a run leave for the cohort. -/
structure Gathered (G : OutboundGroup V) (r : OutboundRun V) (b : Backlog) (wave : EdgeWave)
    (loop : OutboundLoop V) : Prop where
  nextCause : loop.1.nextCause = r.state.nextCause
  emittedOnce : loop.1.emittedOnce = r.state.emittedOnce
  lastEmitted : loop.1.lastEmittedVersions = r.state.lastEmittedVersions
  pending : ∀ edgeId ∈ G.edges, loop.1.pending.lookup edgeId =
    (waiting r.state.emittedOnce (closingBytes ((b.take wave).last edgeId))).map fun value =>
      ⟨value, some (G.version edgeId (dataCount (itemsOf (r.waves ++ [wave]) edgeId)))⟩
  triggered : (b.take wave).Due G.edges → loop.2.1 = true
  events : framesSent loop.2.2 = []

theorem Backs.gathered (h : Backs G r b base) (wave : EdgeWave) :
    Gathered G r b wave (G.gather r wave) := by
  have hbrings := outboundBatches G.name wave
    (fun edgeId => G.version edgeId (dataCount (itemsOf (r.waves ++ [wave]) edgeId)))
    G.nodup (r.state, false, []) fun edgeId hmem hcount => h.isNew wave hmem hcount
  refine ⟨hbrings.nextCause, hbrings.emittedOnce, hbrings.lastEmitted, fun edgeId hmem => ?_,
    fun hdue => hbrings.triggered (.inr ?_), hbrings.events⟩
  · refine (hbrings.pending edgeId hmem).trans ?_
    by_cases hnil : (wave edgeId).isEmpty = true
    · -- An edge that brings nothing keeps what waits, and its version.
      rw [if_pos hnil, h.pending edgeId hmem, b.take_nothing hnil, itemsOf_concat,
        List.isEmpty_iff.mp hnil, append_nil]
    · rw [if_neg hnil, b.take_items hnil]
  · -- The group was not due before, so an edge has brought bytes.
    by_contra hnone
    refine h.idle fun edgeId hmem => ?_
    have hbytes := hdue edgeId hmem
    by_cases hnil : (wave edgeId).isEmpty = true
    · rwa [b.take_nothing hnil] at hbytes
    · rw [b.take_items hnil] at hbytes
      exact absurd ⟨edgeId, hmem, hbytes⟩ hnone

variable {wave : EdgeWave}

theorem Backs.step_waits (h : Backs G r b base) (hdue : ¬ (b.take wave).Due G.edges) :
    G.step r wave =
      ⟨r.waves ++ [wave], (G.gather r wave).1, r.sent ++ [⟨r.waves ++ [wave], []⟩]⟩ := by
  have hgathered := h.gathered wave
  rw [G.step_eq]
  by_cases htriggered : (G.gather r wave).2.1 = true
  · -- The group tries to send, and an edge has nothing that waits.
    obtain ⟨edgeId, hmem, hnil⟩ : ∃ edgeId ∈ G.edges,
        closingBytes ((b.take wave).last edgeId) = [] := by
      by_contra hall
      exact hdue fun edgeId hmem hnil => hall ⟨edgeId, hmem, hnil⟩
    have hnone := hgathered.pending edgeId hmem
    rw [hnil, waiting_nil] at hnone
    obtain ⟨hstate, hframes⟩ := emit_missing G.name hmem hnone
    simp only [if_pos htriggered, framesSent_append, hstate, hframes, hgathered.events,
      append_nil]
  · simp only [if_neg htriggered, hgathered.events]

theorem Backs.step_sends (h : Backs G r b base) (hdue : (b.take wave).Due G.edges) :
    ∃ values : String → Bytes,
      (∀ edgeId ∈ G.edges, waiting r.state.emittedOnce
        (closingBytes ((b.take wave).last edgeId)) = some (values edgeId)) ∧
      G.step r wave =
        { waves := r.waves ++ [wave]
          state :=
            { nextCause := saturatingAdd u64Max r.state.nextCause 1
              emittedOnce := true
              pending := .empty
              lastEmittedVersions := .ofList (G.edges.map fun edgeId =>
                (edgeId,
                  some (G.version edgeId (dataCount (itemsOf (r.waves ++ [wave]) edgeId))))) }
          sent := r.sent ++ [⟨r.waves ++ [wave],
            G.edges.map (fun edgeId =>
              ⟨.dirty, edgeId, causeKey G.name r.state.nextCause, none⟩) ++
            G.edges.map (fun edgeId =>
              ⟨.data, edgeId, causeKey G.name r.state.nextCause, some (values edgeId)⟩)⟩] } := by
  have hgathered := h.gathered wave
  have hvalue : ∀ edgeId ∈ G.edges, ∃ value, waiting r.state.emittedOnce
      (closingBytes ((b.take wave).last edgeId)) = some value := fun edgeId hmem =>
    waiting_isSome (hdue edgeId hmem)
  choose! values hvalues using hvalue
  have hall : ∀ edgeId ∈ G.edges, (G.gather r wave).1.pending.lookup edgeId = some
      ⟨values edgeId,
        some (G.version edgeId (dataCount (itemsOf (r.waves ++ [wave]) edgeId)))⟩ := by
    intro edgeId hmem
    exact (hgathered.pending edgeId hmem).trans (by rw [hvalues edgeId hmem]; rfl)
  obtain ⟨hstate, hframes⟩ := emit_all G.name hall
  refine ⟨values, hvalues, ?_⟩
  rw [G.step_eq]
  simp only [if_pos (hgathered.triggered hdue), framesSent_append, hstate, hframes,
    hgathered.events, hgathered.nextCause, nil_append]

theorem Backs.waits (h : Backs G r b base)
    (hdue : ¬ (b.take wave).Due G.edges) : Backs G (G.step r wave) (b.take wave) base := by
  have hgathered := h.gathered wave
  rw [h.step_waits hdue]
  refine ⟨hdue, hgathered.nextCause.trans h.nextCause, hgathered.emittedOnce.trans h.emittedOnce,
    fun edgeId hmem => ?_, h.recent_take wave, fun edgeId last hlast => ?_,
    fun t hmem hframes => ?_, fun t hmem frame hframe => ?_, fun k hk => ?_⟩
  · rw [hgathered.emittedOnce]
    exact hgathered.pending edgeId hmem
  · rw [hgathered.lastEmitted] at hlast
    exact h.emitted edgeId last hlast
  · rcases mem_append.mp hmem with hmem | hmem
    · exact h.counted t hmem hframes
    · rw [mem_singleton.mp hmem] at hframes
      exact absurd rfl hframes
  · rcases mem_append.mp hmem with hmem | hmem
    · exact h.causes t hmem frame hframe
    · rw [mem_singleton.mp hmem] at hframe
      exact absurd hframe not_mem_nil
  · obtain ⟨t, hmem, hused⟩ := h.used k hk
    exact ⟨t, mem_append_left _ hmem, hused⟩

theorem Backs.sends (h : Backs G r b base) (hdue : (b.take wave).Due G.edges) :
    Backs G (G.step r wave) ⟨b.cohorts + 1, fun _ => []⟩ fun edgeId =>
      dataCount (itemsOf (r.waves ++ [wave]) edgeId) := by
  obtain ⟨values, -, hstep⟩ := h.step_sends hdue
  have hcause : causeKey G.name r.state.nextCause = G.cause b.cohorts := by
    rw [h.nextCause]
    rfl
  have hbase : ∀ edgeId, base edgeId ≤ dataCount (itemsOf (r.waves ++ [wave]) edgeId) := by
    intro edgeId
    obtain ⟨older, hitems, hle⟩ := h.recent_take wave edgeId
    rw [hitems, dataCount_append]
    omega
  rw [hstep, hcause]
  refine ⟨not_due_empty G.edges_ne _, ?_, (by simp), fun edgeId _ => ?_,
    fun edgeId => ⟨_, (append_nil _).symm, Nat.le_refl _⟩, fun edgeId last hlast => ?_,
    fun t hmem hframes edgeId => ?_, fun t hmem frame hframe => ?_, fun k hk => ?_⟩
  · change saturatingAdd u64Max r.state.nextCause 1 = min (b.cohorts + 1 + 1) u64Max
    rw [h.nextCause]
    unfold saturatingAdd
    omega
  · rw [show closingBytes [] = [] from rfl, waiting_nil]
    rfl
  · obtain ⟨other, -, heq⟩ := mem_map.mp (SortedMap.mem_ofList
      (SortedMap.lookup_eq_some hlast))
    obtain ⟨rfl, rfl⟩ := Prod.mk.inj heq
    exact ⟨_, Nat.le_refl _, rfl⟩
  · rcases mem_append.mp hmem with hmem | hmem
    · exact (h.counted t hmem hframes edgeId).trans (hbase edgeId)
    · rw [mem_singleton.mp hmem]
  · rcases mem_append.mp hmem with hmem | hmem
    · obtain ⟨k, hk, hid⟩ := h.causes t hmem frame hframe
      exact ⟨k, Nat.lt_succ_of_lt hk, hid⟩
    · rw [mem_singleton.mp hmem] at hframe
      refine ⟨b.cohorts, Nat.lt_succ_self _, ?_⟩
      rcases mem_append.mp hframe with hframe | hframe
      · obtain ⟨edgeId, -, rfl⟩ := mem_map.mp hframe
        rfl
      · obtain ⟨edgeId, -, rfl⟩ := mem_map.mp hframe
        rfl
  · rcases Nat.lt_succ_iff_lt_or_eq.mp hk with hk | rfl
    · obtain ⟨t, hmem, hused⟩ := h.used k hk
      exact ⟨t, mem_append_left _ hmem, hused⟩
    · obtain ⟨edgeId, hmem⟩ := exists_mem_of_ne_nil _ G.edges_ne
      exact ⟨_, mem_append_right _ (mem_singleton_self _), _,
        mem_append_left _ (mem_map_of_mem hmem), rfl⟩

theorem backs_run (G : OutboundGroup V) (waves : List EdgeWave) :
    (G.run waves).waves = waves ∧
      ∃ base, Backs G (G.run waves) (Backlog.after G.edges waves) base := by
  induction waves using List.reverseRecOn with
  | nil => exact ⟨rfl, _, Backs.initial G⟩
  | append_singleton waves wave ih =>
    obtain ⟨hwaves, base, hbacks⟩ := ih
    rw [G.run_concat, Backlog.after_concat, Backlog.step]
    refine ⟨congrArg (· ++ [wave]) hwaves, ?_⟩
    by_cases hdue : ((Backlog.after G.edges waves).take wave).Due G.edges
    · rw [if_pos hdue]
      exact ⟨_, hbacks.sends hdue⟩
    · rw [if_neg hdue]
      exact ⟨_, hbacks.waits hdue⟩

/-! ### Which cohorts are current -/

theorem lastData_append (older : List EdgeItem) {value : Bytes}
    (h : (closingBytes items).getLast? = some value) :
    lastData (older ++ items) = some (.bytes value) := by
  have hlast := lastData_closing h
  rw [lastData] at hlast ⊢
  rw [filter_append, List.getLast?_append, hlast]
  rfl

omit [DecidableEq V] in
theorem OutboundGroup.cause_inj (G : OutboundGroup V) {k cohorts : Nat} (hk : k < cohorts) :
    G.cause k = G.cause cohorts ↔ u64Max ≤ k + 1 := by
  constructor
  · intro h
    have hparts := Json.compoundTupleKey_injective h
    have heq : min (k + 1) u64Max = min (cohorts + 1) u64Max :=
      Json.toString_nat_injective (by simpa using hparts)
    omega
  · intro h
    rw [OutboundGroup.cause, OutboundGroup.cause, Nat.min_eq_right h,
      Nat.min_eq_right (by omega)]

theorem cohortFrames_inj (hne : edges ≠ []) {causeId other : String}
    {values others : String → Bytes}
    (h : edges.map (fun edgeId => (⟨.dirty, edgeId, causeId, none⟩ : CanonicalWireEdgeFrame)) ++
        edges.map (fun edgeId => ⟨.data, edgeId, causeId, some (values edgeId)⟩) =
      edges.map (fun edgeId => ⟨.dirty, edgeId, other, none⟩) ++
        edges.map (fun edgeId => ⟨.data, edgeId, other, some (others edgeId)⟩)) :
    causeId = other ∧ ∀ edgeId ∈ edges, values edgeId = others edgeId := by
  obtain ⟨hdirty, hdata⟩ := append_inj h (by simp)
  rw [map_inj_left] at hdirty hdata
  obtain ⟨edgeId, hmem⟩ := exists_mem_of_ne_nil _ hne
  refine ⟨congrArg CanonicalWireEdgeFrame.causeId (hdirty edgeId hmem), fun edgeId hmem => ?_⟩
  exact Option.some.inj (congrArg CanonicalWireEdgeFrame.value (hdata edgeId hmem))

-- A cohort that is due is sent with what waits. Its cause is new while there are causes
-- left, and its values are the latest if what waits is what came last.
theorem Backs.current_iff (h : Backs G r b base) (hdue : (b.take wave).Due G.edges) :
    ∃ frames, frames ≠ [] ∧ (G.step r wave).sent = r.sent ++ [⟨r.waves ++ [wave], frames⟩] ∧
      ((∃ causeId values, SentFrames.Current G.edges r.sent ⟨r.waves ++ [wave], frames⟩ causeId
          values) ↔ (b.take wave).Steady G.edges) := by
  obtain ⟨values, hvalues, hstep⟩ := h.step_sends hdue
  have hcause : causeKey G.name r.state.nextCause = G.cause b.cohorts := by
    rw [h.nextCause]
    rfl
  have hlast : ∀ edgeId ∈ G.edges, ∃ value,
      (closingBytes ((b.take wave).last edgeId)).getLast? = some value := fun edgeId hmem =>
    ⟨_, List.getLast?_eq_some_getLast (hdue edgeId hmem)⟩
  have hlatest : ∀ edgeId ∈ G.edges, ∀ value,
      (closingBytes ((b.take wave).last edgeId)).getLast? = some value →
        lastData (itemsOf (r.waves ++ [wave]) edgeId) = some (.bytes value) := by
    intro edgeId _ value hvalue
    obtain ⟨older, hitems, -⟩ := h.recent_take wave edgeId
    rw [hitems]
    exact lastData_append older hvalue
  rw [hcause] at hstep
  refine ⟨_, ?_, by rw [hstep], ⟨?_, ?_⟩⟩
  · simpa using fun hnil => absurd hnil G.edges_ne
  · rintro ⟨causeId, others, hcurrent⟩
    obtain ⟨rfl, hsame⟩ := cohortFrames_inj G.edges_ne hcurrent.frames
    refine ⟨?_, or_iff_not_imp_left.mpr fun hfirst edgeId hmem => ?_⟩
    · -- Without a cause left, the one before is used again.
      by_contra hlimit
      have hpos : b.cohorts ≠ 0 := by
        intro hzero
        exact absurd (not_lt.mp hlimit) (by simp [Backlog.take, hzero, u64Max])
      obtain ⟨t, ht, frame, hframe, hused⟩ := h.used (b.cohorts - 1) (by omega)
      refine hcurrent.fresh t ht frame hframe (hused.trans ?_)
      change ¬ b.cohorts < u64Max at hlimit
      exact (G.cause_inj (by omega)).mpr (by omega)
    · have honce : r.state.emittedOnce = true := by
        rw [h.emittedOnce]
        exact decide_eq_true (Nat.pos_of_ne_zero hfirst)
      have hwaits := hvalues edgeId hmem
      rw [honce] at hwaits
      obtain ⟨value, hvalue⟩ := hlast edgeId hmem
      have heq := (hlatest edgeId hmem value hvalue).symm.trans (hcurrent.latest edgeId hmem)
      rw [hvalue, EdgeItem.bytes.inj (Option.some.inj heq), ← hsame edgeId hmem]
      exact hwaits
  · rintro ⟨hlimit, hends⟩
    refine ⟨_, values, rfl, fun t ht frame hframe hsame => ?_, fun edgeId hmem => ?_,
      fun t ht hframes edgeId hmem => ?_⟩
    · obtain ⟨k, hk, hid⟩ := h.causes t ht frame hframe
      have hge := (G.cause_inj hk).mp (hid.symm.trans hsame)
      change b.cohorts < u64Max at hlimit
      omega
    · obtain ⟨value, hvalue⟩ := hlast edgeId hmem
      have hwaits := hvalues edgeId hmem
      have heq : value = values edgeId := by
        rcases hends with hfirst | hends
        · have honce : r.state.emittedOnce = false := by
            rw [h.emittedOnce]
            exact decide_eq_false (by change b.cohorts = 0 at hfirst; omega)
          rw [honce] at hwaits
          exact Option.some.inj (hvalue.symm.trans hwaits)
        · have hboth := hends edgeId hmem
          rw [waiting, hboth, ite_self] at hwaits
          exact Option.some.inj (hvalue.symm.trans hwaits)
      rw [← heq]
      exact hlatest edgeId hmem value hvalue
    · obtain ⟨older, hitems, hle⟩ := h.recent_take wave edgeId
      have hpos := dataCount_pos (hdue edgeId hmem)
      have hold := h.counted t ht hframes edgeId
      change _ < dataCount (itemsOf (r.waves ++ [wave]) edgeId)
      rw [hitems, dataCount_append]
      omega

-- The induction is on the waves. Each of them sends a cohort exactly if one is due.
theorem cohorts_current_iff (G : OutboundGroup V) (waves : List EdgeWave) :
    G.CohortsCurrent waves ↔ SteadyWaves G.edges waves := by
  induction waves using List.reverseRecOn with
  | nil =>
    refine ⟨fun _ before wave later heq => ?_, fun _ earlier s later heq => ?_⟩
    · exact absurd heq (by simp)
    · exact absurd heq (by simp [OutboundGroup.run])
  | append_singleton waves wave ih =>
    obtain ⟨hwaves, base, hbacks⟩ := backs_run G waves
    rw [SteadyWaves, Lib.forall_split_concat]
    rw [SteadyWaves] at ih
    rw [← ih]
    by_cases hdue : ((Backlog.after G.edges waves).take wave).Due G.edges
    · obtain ⟨frames, hne, hsent, hiff⟩ := hbacks.current_iff hdue
      rw [OutboundGroup.CohortsCurrent, G.run_concat, hsent, Lib.forall_split_concat, ← hiff]
      exact and_congr_right fun _ => ⟨fun h _ => h hne, fun h _ => h hdue⟩
    · have hstep := congrArg OutboundRun.sent (hbacks.step_waits hdue)
      rw [OutboundGroup.CohortsCurrent, G.run_concat, hstep, Lib.forall_split_concat]
      exact and_congr_right fun _ => ⟨fun _ h => absurd h hdue, fun _ h => absurd rfl h⟩

end Group

/-- A group of one edge, whose node counts its DATA. -/
def loneEdge : OutboundGroup Nat where
  name := "out"
  edges := ["a"]
  edges_ne := by simp
  nodup := nodup_singleton _
  version := fun _ count => count
  version_injective := fun _ _ _ h => h

/-- One DATA, and then two of them in one wave. -/
def burst : List EdgeWave := [fun _ => [.bytes [0]], fun _ => [.bytes [1], .bytes [2]]]

/-- The cohort that is sent with the second wave carries the first of its DATA. -/
theorem second_data_is_lost : ¬ loneEdge.CohortsCurrent burst := by
  intro h
  obtain ⟨first, second, hsent⟩ : ∃ first second, (loneEdge.run burst).sent = [first, second] :=
    ⟨_, _, rfl⟩
  have hframes : ((loneEdge.run burst).sent.map SentFrames.frames)[1]? =
      some [⟨.dirty, "a", causeKey "out" 2, none⟩,
        ⟨.data, "a", causeKey "out" 2, some [1]⟩] := by decide +kernel
  have hdata : ((loneEdge.run burst).sent.map fun s => lastData (itemsOf s.waves "a"))[1]? =
      some (some (.bytes [2])) := rfl
  rw [hsent] at hframes hdata
  have hsecond := Option.some.inj hframes
  obtain ⟨causeId, values, hcurrent⟩ :=
    h [first] second [] hsent (by rw [hsecond]; exact cons_ne_nil _ _)
  have hvalue := (@cohortFrames_inj ["a"] (cons_ne_nil _ _) _ _ (fun _ => [1]) values
    (hsecond.symm.trans hcurrent.frames)).2 "a" (mem_singleton_self _)
  have hlatest := (Option.some.inj hdata).symm.trans
    (hcurrent.latest "a" (mem_singleton_self _))
  have hsame := EdgeItem.bytes.inj (Option.some.inj hlatest)
  exact absurd (hsame.trans hvalue.symm) (by decide)

end GraphRefly.Bridge
