import GraphRefly.Bridge.Gate
import GraphRefly.Lib.Recent

/-!
# One Cause At A Time

The gate over any events at all: frames of any causes and edges in any order,
issues, and ends of the bridge. `GateMove` is what one event can do. The gate
ignores it, notes a DIRTY or a DATA frame of the one cause it collects, releases
that cause, or forgets what it has and remembers which causes have failed.

A gate that collects is therefore told apart from a gate at rest by what has
come since its cause became active, edge by edge (`Collecting`). The frames of
causes that failed or were released before do not count: the gate reports them
and goes on.

## Main definitions

* `WireEdgeGroupGateState.failures`: The causes an event fails.
* `GateMove`: What an event can do.
* `causeFrames`: The frames of an edge and a cause.
* `Completes`: A last frame that completes a cause.
* `Collecting`: What a gate holds of the cause it collects.

## Theorems

* `gateEvent_move`: Every event does one of these.
* `Collecting.step`: One more event for the collected cause.
* `gate_releases_complete`: Which causes are released, with which bytes, and how often.
-/

namespace GraphRefly.Bridge

open List GraphRefly.Lib

namespace WireEdgeGroupGateState

/-- Whether a frame of the cause that is collected, or of a first one, is taken. -/
def accepts (expectedIds : List String) (g : WireEdgeGroupGateState)
    (frame : CanonicalWireEdgeFrame) : Bool :=
  decide (frame.edgeId ∈ expectedIds) &&
    match frame.kind with
    | .dirty => decide (frame.edgeId ∉ g.dirty)
    | .data =>
      g.activeCauseId.isSome && decide (frame.edgeId ∈ g.dirty) &&
        (g.data.lookup frame.edgeId).isNone

/-- The causes an event fails, in order. -/
def failures (expectedIds : List String) (g : WireEdgeGroupGateState) :
    WireEdgeGroupEvent → List String
  | .issue about =>
    match about.causeId with
    | none => []
    | some causeId => (g.activeCauseId.filter fun active => active ≠ causeId).toList ++ [causeId]
  | .outbound _ => []
  | .bridgeEnd => g.activeCauseId.toList
  | .frame frame =>
    if frame.causeId ∈ g.failed.seen ∨ frame.causeId ∈ g.released.seen then []
    else
      match g.activeCauseId.filter fun active => active ≠ frame.causeId with
      | some active => [active, frame.causeId]
      | none => if g.accepts expectedIds frame then [] else [frame.causeId]

end WireEdgeGroupGateState

/-- What an event can do to a gate. -/
inductive GateMove (expectedIds : List String) (g : WireEdgeGroupGateState) :
    WireEdgeGroupEvent → WireEdgeGroupGateState → List WireEdgeGroupReleaseCohort → Prop
  /-- It is not for the cause that is collected. -/
  | pass {event} (h : g.failures expectedIds event = [])
      (hframe : ∀ frame, event = .frame frame → g.knows frame.causeId) :
      GateMove expectedIds g event g []
  /-- An edge turns dirty. -/
  | dirty {frame} (hunknown : ¬ g.knows frame.causeId)
      (hactive : g.activeCauseId = none ∨ g.activeCauseId = some frame.causeId)
      (hedge : frame.edgeId ∈ expectedIds) (hkind : frame.kind = .dirty)
      (hnew : frame.edgeId ∉ g.dirty) :
      GateMove expectedIds g (.frame frame)
        { g with activeCauseId := some frame.causeId, dirty :=
          Insert.insert frame.edgeId g.dirty } []
  /-- The bytes of an edge are kept. -/
  | data {frame} (hunknown : ¬ g.knows frame.causeId)
      (hactive : g.activeCauseId = some frame.causeId)
      (hedge : frame.edgeId ∈ expectedIds) (hkind : frame.kind = .data)
      (hdirty : frame.edgeId ∈ g.dirty) (hnew : g.data.lookup frame.edgeId = none)
      (hmore : ¬ (g.dirty.card = expectedIds.length ∧ g.data.length + 1 = expectedIds.length)) :
      GateMove expectedIds g (.frame frame)
        { g with data := g.data.insert frame.edgeId (frame.value.getD []) } []
  /-- The last bytes have come. -/
  | release {frame} (hunknown : ¬ g.knows frame.causeId)
      (hactive : g.activeCauseId = some frame.causeId)
      (hedge : frame.edgeId ∈ expectedIds) (hkind : frame.kind = .data)
      (hdirty : frame.edgeId ∈ g.dirty) (hnew : g.data.lookup frame.edgeId = none)
      (hall : g.dirty.card = expectedIds.length ∧ g.data.length + 1 = expectedIds.length) :
      GateMove expectedIds g (.frame frame)
        { g with released := g.released.insert frame.causeId }.reset
        [⟨frame.causeId, .ofList (expectedIds.filterMap fun edgeId =>
          ((g.data.insert frame.edgeId (frame.value.getD [])).lookup edgeId).map fun value =>
            (edgeId, value))⟩]
  /-- Some causes fail, and with them what was collected. -/
  | fail {event g'} (h : g.failures expectedIds event ≠ []) (hrest : AtRest g')
      (hreleased : g'.released = g.released) : GateMove expectedIds g event g' []

section Event

variable {name : String} {expectedIds : List String} {g : WireEdgeGroupGateState}

/-- The failed causes after some more failed. -/
def WireEdgeGroupGateState.failedAfter (g : WireEdgeGroupGateState) (causes : List String) :
    WireEdgeGroupCauseTombstones :=
  causes.foldl (fun tombstones causeId => tombstones.insert causeId) g.failed

variable {frame : CanonicalWireEdgeFrame}

theorem refuse_move {g₀ : WireEdgeGroupGateState}
    (hfailures : g.failures expectedIds (.frame frame) = [frame.causeId])
    (hfailed : g₀.failed = g.failed) (hreleased : g₀.released = g.released)
    (code : WireEdgeGroupIssueCode) (message : String) :
    let out := g₀.refuse frame code message
    GateMove expectedIds g (.frame frame) out.1 (releasesOf out.2) ∧
      out.1.failed = g.failedAfter (g.failures expectedIds (.frame frame)) := by
  refine ⟨.fail (by rw [hfailures]; simp) (AtRest.reset _) hreleased, ?_⟩
  rw [hfailures]
  exact congrArg (·.insert frame.causeId) hfailed

section

variable (name : String)

theorem accepted_move (hunknown : ¬ g.knows frame.causeId)
    (hrival : (g.activeCauseId.filter fun active => active ≠ frame.causeId) = none)
    (hedge : frame.edgeId ∈ expectedIds) :
    let out := match frame.kind with
      | .dirty => g.dirtyFrame name frame
      | .data => g.dataFrame name expectedIds frame
    GateMove expectedIds g (.frame frame) out.1 (releasesOf out.2) ∧
      out.1.failed = g.failedAfter (g.failures expectedIds (.frame frame)) := by
  have hfailures : g.failures expectedIds (.frame frame) =
      if g.accepts expectedIds frame = true then [] else [frame.causeId] := by
    simp only [WireEdgeGroupGateState.failures, hrival]
    exact if_neg hunknown
  have hactive : g.activeCauseId = none ∨ g.activeCauseId = some frame.causeId := by
    cases hg : g.activeCauseId with
    | none => exact .inl rfl
    | some active =>
      right
      rw [hg] at hrival
      by_contra hne
      have hne' : active ≠ frame.causeId := fun heq => hne (congrArg some heq)
      simp [hne'] at hrival
  cases hkind : frame.kind with
  | dirty =>
    have hor : g.activeCauseId.or (some frame.causeId) = some frame.causeId := by
      rcases hactive with h | h <;> rw [h] <;> rfl
    simp only [WireEdgeGroupGateState.dirtyFrame, hor]
    by_cases hnew : frame.edgeId ∈ g.dirty
    · rw [if_pos hnew]
      refine refuse_move ?_ rfl rfl _ _
      rw [hfailures, if_neg]
      simp [WireEdgeGroupGateState.accepts, hkind, hnew]
    · rw [if_neg hnew]
      have haccepts : g.accepts expectedIds frame = true := by
        simp [WireEdgeGroupGateState.accepts, hkind, hnew, hedge]
      refine ⟨.dirty hunknown hactive hedge hkind hnew, ?_⟩
      rw [hfailures, if_pos haccepts]
      rfl
  | data =>
    simp only [WireEdgeGroupGateState.dataFrame]
    by_cases hnone : g.activeCauseId = none
    · rw [if_pos hnone]
      refine refuse_move ?_ rfl rfl _ _
      rw [hfailures, if_neg]
      simp [WireEdgeGroupGateState.accepts, hkind, hnone]
    have hsome := hactive.resolve_left hnone
    rw [if_neg hnone]
    by_cases hdirty : frame.edgeId ∈ g.dirty
    case neg =>
      rw [if_pos hdirty]
      refine refuse_move ?_ rfl rfl _ _
      rw [hfailures, if_neg]
      simp [WireEdgeGroupGateState.accepts, hkind, hdirty]
    rw [if_neg (not_not.mpr hdirty)]
    cases hnew : g.data.lookup frame.edgeId with
    | some bytes =>
      simp only [Option.isSome_some, if_true]
      refine refuse_move ?_ rfl rfl _ _
      rw [hfailures, if_neg]
      simp [WireEdgeGroupGateState.accepts, hkind, hnew]
    | none =>
      simp only [Option.isSome_none, Bool.false_eq_true, if_false]
      have haccepts : g.accepts expectedIds frame = true := by
        simp [WireEdgeGroupGateState.accepts, hkind, hedge, hsome, hdirty, hnew]
      rw [hfailures, if_pos haccepts]
      by_cases hall : g.dirty.card = expectedIds.length ∧
          g.data.length + 1 = expectedIds.length
      · rw [if_pos hall]
        exact ⟨.release hunknown hsome hedge hkind hdirty hnew hall, rfl⟩
      · rw [if_neg hall]
        exact ⟨.data hunknown hsome hedge hkind hdirty hnew hall, rfl⟩

theorem competing_move {event : WireEdgeGroupEvent} {causeId active : String}
    (hfailures : g.failures expectedIds event = [active, causeId]) (edgeId : Option String) :
    let out := g.competingCause name edgeId causeId active
    GateMove expectedIds g event out.1 (releasesOf out.2) ∧
      out.1.failed = g.failedAfter (g.failures expectedIds event) := by
  refine ⟨.fail (by rw [hfailures]; simp) ⟨rfl, rfl, rfl⟩ rfl, ?_⟩
  rw [hfailures]
  rfl

theorem releasesOf_gate (event : WireEdgeGroupGate) (outputs : List WireEdgeGroupGateState.Output) :
    releasesOf (.gate event :: outputs) = releasesOf outputs := rfl

theorem issue_move (hrest : g.activeCauseId = none → AtRest g) (about : WireEdgeGroupIssue) :
    let out := g.gateEvent name expectedIds (.issue about)
    GateMove expectedIds g (.issue about) out.1 (releasesOf out.2) ∧
      out.1.failed = g.failedAfter (g.failures expectedIds (.issue about)) := by
  simp only [WireEdgeGroupGateState.gateEvent, WireEdgeGroupGateState.failIssueCause,
    releasesOf_gate]
  cases hcause : about.causeId with
  | none =>
    have hfailures : g.failures expectedIds (.issue about) = [] := by
      simp only [WireEdgeGroupGateState.failures, hcause]
    rw [hfailures]
    exact ⟨.pass hfailures (fun _ hframe => by cases hframe), rfl⟩
  | some causeId =>
    cases hactive : g.activeCauseId with
    | none =>
      have hfailures : g.failures expectedIds (.issue about) = [causeId] := by
        simp [WireEdgeGroupGateState.failures, hcause, hactive]
      have h := hrest hactive
      refine ⟨.fail (by rw [hfailures]; simp) ⟨rfl, h.dirty, h.data⟩ rfl, ?_⟩
      rw [hfailures]
      rfl
    | some active =>
      by_cases hne : active ≠ causeId
      · simp only [if_pos hne]
        refine competing_move name ?_ about.edgeId
        simp [WireEdgeGroupGateState.failures, hcause, hactive, Option.filter, hne]
      · have hfailures : g.failures expectedIds (.issue about) = [causeId] := by
          simp [WireEdgeGroupGateState.failures, hcause, hactive, not_not.mp hne]
        simp only [if_neg hne]
        refine ⟨.fail (by rw [hfailures]; simp) (AtRest.reset _) rfl, ?_⟩
        rw [hfailures]
        rfl

theorem frame_move (frame : CanonicalWireEdgeFrame) :
    let out := g.reduceFrame name expectedIds frame
    GateMove expectedIds g (.frame frame) out.1 (releasesOf out.2) ∧
      out.1.failed = g.failedAfter (g.failures expectedIds (.frame frame)) := by
  by_cases hknown : g.knows frame.causeId
  · obtain ⟨hsame, hnone⟩ := reduceFrame_known name expectedIds hknown
    have hfailures : g.failures expectedIds (.frame frame) = [] := if_pos hknown
    simp only [hsame, hnone, hfailures]
    exact ⟨.pass hfailures fun f hf => WireEdgeGroupEvent.frame.inj hf ▸ hknown, rfl⟩
  · have hfailed : frame.causeId ∉ g.failed.seen := fun h => hknown (.inl h)
    have hreleased : frame.causeId ∉ g.released.seen := fun h => hknown (.inr h)
    simp only [WireEdgeGroupGateState.reduceFrame, if_neg hfailed, if_neg hreleased]
    have hfailures : g.failures expectedIds (.frame frame) =
        match g.activeCauseId.filter fun active => active ≠ frame.causeId with
        | some active => [active, frame.causeId]
        | none => if g.accepts expectedIds frame then [] else [frame.causeId] := if_neg hknown
    cases hrival : g.activeCauseId.filter fun active => active ≠ frame.causeId with
    | some active =>
      rw [hrival] at hfailures
      exact competing_move name hfailures _
    | none =>
      by_cases hedge : frame.edgeId ∈ expectedIds
      · simp only [if_neg (not_not.mpr hedge)]
        exact accepted_move name hknown hrival hedge
      · simp only [if_pos hedge]
        rw [hrival] at hfailures
        refine refuse_move ?_ rfl rfl _ _
        rw [hfailures]
        simp [WireEdgeGroupGateState.accepts, hedge]

/-- Every event does one of these, and fails the causes it is said to fail. -/
theorem gateEvent_move (hrest : g.activeCauseId = none → AtRest g) (event : WireEdgeGroupEvent) :
    let out := g.gateEvent name expectedIds event
    GateMove expectedIds g event out.1 (releasesOf out.2) ∧
      out.1.failed = g.failedAfter (g.failures expectedIds event) := by
  cases event with
  | issue about => exact issue_move name hrest about
  | outbound command => exact ⟨.pass rfl (fun _ hframe => by cases hframe), rfl⟩
  | frame frame => exact frame_move name frame
  | bridgeEnd =>
    cases hactive : g.activeCauseId with
    | none =>
      have hfailures : g.failures expectedIds .bridgeEnd = [] := by
        simp [WireEdgeGroupGateState.failures, hactive]
      simp only [WireEdgeGroupGateState.gateEvent, hactive, hfailures]
      exact ⟨.pass hfailures (fun _ hframe => by cases hframe), rfl⟩
    | some active =>
      have hfailures : g.failures expectedIds .bridgeEnd = [active] := by
        simp [WireEdgeGroupGateState.failures, hactive]
      simp only [WireEdgeGroupGateState.gateEvent, hactive]
      refine ⟨.fail (by rw [hfailures]; simp) (AtRest.reset _) rfl, ?_⟩
      rw [hfailures]
      rfl

end

end Event

/-! ### What has come for a cause -/

/-- The frames of an edge and a cause among some events, in order. -/
def causeFrames (causeId edgeId : String) (events : List WireEdgeGroupEvent) :
    List CanonicalWireEdgeFrame :=
  events.filterMap fun
    | .frame frame =>
      if frame.causeId = causeId ∧ frame.edgeId = edgeId then some frame else none
    | _ => none

/-- An event that leaves a cause alone, or is a frame of it: it names no other cause
    than those that are known already. -/
def Passes (causeId : String) (known : String → Prop) : WireEdgeGroupEvent → Prop
  | .issue about => about.causeId = none
  | .outbound _ => True
  | .bridgeEnd => False
  | .frame frame => frame.causeId = causeId ∨ known frame.causeId

/-- A last frame completes a cause: since its first frame, one DIRTY and then one DATA
    frame of it has come for every expected edge and nothing has come between that
    does not pass. -/
structure Completes (expectedIds : List String) (causeId : String) (known : String → Prop)
    (taken : List WireEdgeGroupEvent) (last : CanonicalWireEdgeFrame) : Prop where
  opens : ∃ first rest, taken = .frame first :: rest ∧ first.causeId = causeId
  passes : ∀ event ∈ taken, Passes causeId known event
  cause : last.causeId = causeId
  kind : last.kind = .data
  frames : ∀ edgeId, (causeFrames causeId edgeId (taken ++ [.frame last])).map (·.kind) =
    if edgeId ∈ expectedIds then [.dirty, .data] else []

/-- What a gate has of one edge, from its frames: whether it is dirty, and its bytes. -/
inductive EdgeTaken : List CanonicalWireEdgeFrame → Prop → Option Bytes → Prop
  | untouched {isDirty} (h : ¬ isDirty) : EdgeTaken [] isDirty none
  | dirty {d isDirty} (h : isDirty) (hd : d.kind = .dirty) : EdgeTaken [d] isDirty none
  | data {d f isDirty} (h : isDirty) (hd : d.kind = .dirty) (hf : f.kind = .data) :
      EdgeTaken [d, f] isDirty (some (f.value.getD []))

/-- A gate that was at rest has taken these events for one cause. -/
structure Collecting (expectedIds : List String) (causeId : String) (g₀ : WireEdgeGroupGateState)
    (taken : List WireEdgeGroupEvent) (g : WireEdgeGroupGateState) : Prop where
  active : g.activeCauseId = some causeId
  failed : g.failed = g₀.failed
  released : g.released = g₀.released
  unknown : ¬ g₀.knows causeId
  opens : ∃ first rest, taken = .frame first :: rest ∧ first.causeId = causeId
  passes : ∀ event ∈ taken, Passes causeId g₀.knows event
  edges : ∀ edgeId, EdgeTaken (causeFrames causeId edgeId taken) (edgeId ∈ g.dirty)
    (g.data.lookup edgeId)
  within : ∀ edgeId ∈ g.dirty, edgeId ∈ expectedIds

section Collect

variable {expectedIds : List String} {causeId edgeId : String} {g₀ g g' : WireEdgeGroupGateState}
  {taken events : List WireEdgeGroupEvent} {event : WireEdgeGroupEvent}
  {frame : CanonicalWireEdgeFrame} {released : List WireEdgeGroupReleaseCohort}

theorem causeFrames_append (events more : List WireEdgeGroupEvent) :
    causeFrames causeId edgeId (events ++ more) =
      causeFrames causeId edgeId events ++ causeFrames causeId edgeId more :=
  filterMap_append

theorem causeFrames_frame (h : frame.causeId = causeId) (events : List WireEdgeGroupEvent) :
    causeFrames causeId edgeId (events ++ [.frame frame]) =
      if frame.edgeId = edgeId then causeFrames causeId edgeId events ++ [frame]
      else causeFrames causeId edgeId events := by
  rw [causeFrames_append]
  by_cases hedge : frame.edgeId = edgeId <;> simp [causeFrames, h, hedge]

theorem causeFrames_other (h : ∀ frame, event = .frame frame → frame.causeId ≠ causeId)
    (events : List WireEdgeGroupEvent) :
    causeFrames causeId edgeId (events ++ [event]) = causeFrames causeId edgeId events := by
  rw [causeFrames_append]
  cases event with
  | frame frame => simp [causeFrames, h frame rfl]
  | issue | outbound | bridgeEnd => simp [causeFrames]

variable {fs : List CanonicalWireEdgeFrame}

theorem EdgeTaken.bytes {isDirty : Prop} {held : Option Bytes}
    (h : EdgeTaken fs isDirty held) (bytes : Bytes) :
    held = some bytes ↔ ∃ f ∈ fs, f.kind = .data ∧ f.value.getD [] = bytes := by
  cases h with
  | untouched => simp
  | dirty _ hd => simp [hd]
  | data _ hd hf => simp [hd, hf]

theorem EdgeTaken.kinds {isDirty : Prop} {held : Option Bytes}
    (h : EdgeTaken fs isDirty held) (hheld : held ≠ none) : fs.map (·.kind) = [.dirty, .data] := by
  cases h with
  | untouched => exact absurd rfl hheld
  | dirty => exact absurd rfl hheld
  | data _ hd hf => rw [map_cons, map_cons, hd, hf, map_nil]

theorem EdgeTaken.isDirty {isDirty : Prop}
    {held : Option Bytes} (h : EdgeTaken fs isDirty held) (hheld : held ≠ none) : isDirty := by
  cases h with
  | untouched => exact absurd rfl hheld
  | dirty => exact absurd rfl hheld
  | data hdirty => exact hdirty

theorem EdgeTaken.of_not {isDirty : Prop}
    {held : Option Bytes} (h : EdgeTaken fs isDirty held) (hnot : ¬ isDirty) :
    fs = [] ∧ held = none := by
  cases h with
  | untouched => exact ⟨rfl, rfl⟩
  | dirty hdirty => exact absurd hdirty hnot
  | data hdirty => exact absurd hdirty hnot

theorem EdgeTaken.held_of_kinds {isDirty : Prop}
    {held : Option Bytes} (h : EdgeTaken fs isDirty held)
    (hkinds : fs.map (·.kind) = [.dirty, .data]) : held ≠ none := by
  cases h with
  | untouched => cases hkinds
  | dirty => simp at hkinds
  | data => simp

theorem EdgeTaken.concat {isDirty : Prop}
    (h : EdgeTaken fs isDirty none) (hdirty : isDirty) (hkind : frame.kind = .data) :
    EdgeTaken (fs ++ [frame]) isDirty (some (frame.value.getD [])) := by
  cases h with
  | untouched hnot => exact absurd hdirty hnot
  | dirty _ hd => exact .data hdirty hd hkind

theorem Collecting.edges_data (h : Collecting expectedIds causeId g₀ taken g)
    (hcause : frame.causeId = causeId) (hkind : frame.kind = .data)
    (hdirty : frame.edgeId ∈ g.dirty) (hnew : g.data.lookup frame.edgeId = none)
    (edgeId : String) :
    EdgeTaken (causeFrames causeId edgeId (taken ++ [.frame frame])) (edgeId ∈ g.dirty)
      ((g.data.insert frame.edgeId (frame.value.getD [])).lookup edgeId) := by
  have hedge := h.edges edgeId
  rw [causeFrames_frame hcause, SortedMap.lookup_insert]
  by_cases heq : frame.edgeId = edgeId
  · subst heq
    rw [hnew] at hedge
    rw [if_pos rfl, if_pos rfl]
    exact hedge.concat hdirty hkind
  · rw [if_neg heq, if_neg (Ne.symm heq)]
    exact hedge

theorem Collecting.passes_frame (h : Collecting expectedIds causeId g₀ taken g)
    (hevent : Passes causeId g₀.knows event) :
    ∀ e ∈ taken ++ [event], Passes causeId g₀.knows e := by
  intro e he
  rcases mem_append.mp he with he | he
  · exact h.passes e he
  · rw [mem_singleton.mp he]
    exact hevent

theorem Collecting.opens_concat (h : Collecting expectedIds causeId g₀ taken g)
    (event : WireEdgeGroupEvent) :
    ∃ first rest, taken ++ [event] = .frame first :: rest ∧ first.causeId = causeId := by
  obtain ⟨first, rest, rfl, hfirst⟩ := h.opens
  exact ⟨first, rest ++ [event], rfl, hfirst⟩

theorem Collecting.knows_iff (h : Collecting expectedIds causeId g₀ taken g) (id : String) :
    g.knows id ↔ g₀.knows id := by
  unfold WireEdgeGroupGateState.knows
  rw [h.failed, h.released]

theorem Collecting.start (hrest : AtRest g) (hunknown : ¬ g.knows frame.causeId)
    (hedge : frame.edgeId ∈ expectedIds) (hkind : frame.kind = .dirty) :
    Collecting expectedIds frame.causeId g [.frame frame]
      { g with
        activeCauseId := some frame.causeId
        dirty := Insert.insert frame.edgeId g.dirty } where
  active := rfl
  failed := rfl
  released := rfl
  unknown := hunknown
  opens := ⟨frame, [], rfl, rfl⟩
  passes := by
    intro event hevent
    rw [mem_singleton.mp hevent]
    exact .inl rfl
  edges := by
    intro edgeId
    have hframes : causeFrames frame.causeId edgeId [.frame frame] =
        if frame.edgeId = edgeId then [frame] else [] := causeFrames_frame rfl []
    have hlookup : g.data.lookup edgeId = none := by
      rw [hrest.data]
      rfl
    simp only [hframes, hlookup, hrest.dirty]
    by_cases heq : frame.edgeId = edgeId
    · subst heq
      rw [if_pos rfl]
      exact .dirty (by simp) hkind
    · rw [if_neg heq]
      exact .untouched (by simpa using Ne.symm heq)
  within := by
    intro edgeId hmem
    simp only [hrest.dirty, insert_empty_eq, Finset.mem_singleton] at hmem
    rw [hmem]
    exact hedge

/-- One event for a gate at rest: it passes, or a cause becomes active, or some causes fail. -/
theorem AtRest.step (hrest : AtRest g) (hmove : GateMove expectedIds g event g' released) :
    released = [] ∧
      ((g' = g ∧ ∀ frame, event = .frame frame → g.knows frame.causeId) ∨
        (∃ frame, event = .frame frame ∧
          Collecting expectedIds frame.causeId g [.frame frame] g') ∨
        (AtRest g' ∧ g.failures expectedIds event ≠ [])) := by
  cases hmove with
  | pass _ hframe => exact ⟨rfl, .inl ⟨rfl, hframe⟩⟩
  | dirty hunknown hactive hedge hkind hnew =>
    exact ⟨rfl, .inr (.inl ⟨_, rfl, .start hrest hunknown hedge hkind⟩)⟩
  | data _ hactive => rw [hrest.active] at hactive; cases hactive
  | release _ hactive => rw [hrest.active] at hactive; cases hactive
  | fail hfailures hrest' => exact ⟨rfl, .inr (.inr ⟨hrest', hfailures⟩)⟩

theorem AtRest.no_failures (hrest : AtRest g) (hedge : frame.edgeId ∈ expectedIds)
    (hkind : frame.kind = .dirty) : g.failures expectedIds (.frame frame) = [] := by
  simp [WireEdgeGroupGateState.failures, WireEdgeGroupGateState.accepts, hrest.active, hrest.dirty,
    hedge, hkind]

/-- When the sizes agree, every expected edge is dirty and all but the last have bytes. -/
theorem Collecting.all_edges (h : Collecting expectedIds causeId g₀ taken g)
    (hids : expectedIds.Nodup) (hdirty : edgeId ∈ g.dirty) (hnew : g.data.lookup edgeId = none)
    (hall : g.dirty.card = expectedIds.length ∧ g.data.length + 1 = expectedIds.length) :
    ∀ id ∈ expectedIds, id ∈ g.dirty ∧ (id ≠ edgeId → g.data.lookup id ≠ none) := by
  have hcard := toFinset_card_of_nodup hids
  have hsub : g.dirty ⊆ expectedIds.toFinset := fun id hid =>
    mem_toFinset.mpr (h.within id hid)
  have hdirtyAll : g.dirty = expectedIds.toFinset :=
    Finset.eq_of_subset_of_card_le hsub (by omega)
  -- The edges with bytes and the last one are as many as the expected edges.
  have hheld : ∀ id, id ∈ (g.data.entries.map (·.1)).toFinset ↔ g.data.lookup id ≠ none := by
    intro id
    rw [mem_toFinset, mem_map, Ne, SortedMap.lookup_eq_none]
    push Not
    exact ⟨fun ⟨e, he, hid⟩ => ⟨e, he, hid⟩, fun ⟨e, he, hid⟩ => ⟨e, he, hid⟩⟩
  have hlast : edgeId ∉ (g.data.entries.map (·.1)).toFinset := fun hmem =>
    (hheld edgeId).mp hmem hnew
  have hcount : (Insert.insert edgeId (g.data.entries.map (·.1)).toFinset).card =
      expectedIds.length := by
    rw [Finset.card_insert_of_notMem hlast, toFinset_card_of_nodup g.data.nodup_keys,
      length_map, ← hall.2]
    rfl
  have hheldSub : Insert.insert edgeId (g.data.entries.map (·.1)).toFinset ⊆
      expectedIds.toFinset := by
    intro id hid
    rcases Finset.mem_insert.mp hid with rfl | hid
    · exact hsub hdirty
    · exact hsub ((h.edges id).isDirty ((hheld id).mp hid))
  have hheldAll := Finset.eq_of_subset_of_card_le hheldSub (by omega)
  intro id hid
  have hmem := mem_toFinset.mpr hid
  refine ⟨hdirtyAll ▸ hmem, fun hne => (hheld id).mp ?_⟩
  rw [← hheldAll] at hmem
  exact (Finset.mem_insert.mp hmem).resolve_left hne

theorem Collecting.all_counted (h : Collecting expectedIds causeId g₀ taken g)
    (hids : expectedIds.Nodup) (hedge : edgeId ∈ expectedIds) (hnew : g.data.lookup edgeId = none)
    (hall : ∀ id ∈ expectedIds, id ∈ g.dirty ∧ (id ≠ edgeId → g.data.lookup id ≠ none)) :
    g.dirty.card = expectedIds.length ∧ g.data.length + 1 = expectedIds.length := by
  have hcard := toFinset_card_of_nodup hids
  have hdirtyAll : g.dirty = expectedIds.toFinset := by
    ext id
    rw [mem_toFinset]
    exact ⟨h.within id, fun hid => (hall id hid).1⟩
  have hheldAll : (g.data.entries.map (·.1)).toFinset = expectedIds.toFinset.erase edgeId := by
    ext id
    rw [mem_toFinset, mem_map, Finset.mem_erase, mem_toFinset]
    constructor
    · rintro ⟨e, he, rfl⟩
      have hsome := SortedMap.lookup_eq_some_iff.mpr he
      refine ⟨fun heq => ?_, h.within _ ((h.edges e.1).isDirty (by rw [hsome]; simp))⟩
      rw [heq, hnew] at hsome
      cases hsome
    · rintro ⟨hne, hid⟩
      obtain ⟨bytes, hbytes⟩ := Option.ne_none_iff_exists'.mp ((hall id hid).2 hne)
      exact ⟨(id, bytes), SortedMap.lookup_eq_some hbytes, rfl⟩
  have hcount := congrArg Finset.card hheldAll
  rw [toFinset_card_of_nodup g.data.nodup_keys, length_map,
    Finset.card_erase_of_mem (mem_toFinset.mpr hedge), hcard] at hcount
  have hpos := length_pos_of_mem hedge
  have hlength : g.data.length = g.data.entries.length := rfl
  exact ⟨by rw [hdirtyAll, hcard], by omega⟩

-- Before the frame the edge has had none or its DIRTY frame, since the two kinds after it say so.
/-- An event that passes and is in its place in a completed cause fails nothing. -/
theorem Collecting.no_failures (h : Collecting expectedIds causeId g₀ taken g)
    (hpass : Passes causeId g₀.knows event)
    (hplace : ∀ frame, event = .frame frame → frame.causeId = causeId →
      ∃ more, (causeFrames causeId frame.edgeId taken ++ frame :: more).map (·.kind) =
        if frame.edgeId ∈ expectedIds then [.dirty, .data] else []) :
    g.failures expectedIds event = [] := by
  cases event with
  | issue about =>
    have hcause : about.causeId = none := hpass
    simp [WireEdgeGroupGateState.failures, hcause]
  | outbound => rfl
  | bridgeEnd => exact absurd hpass id
  | frame frame =>
    by_cases hknown : g.knows frame.causeId
    · exact if_pos hknown
    have hcause : frame.causeId = causeId :=
      hpass.resolve_right fun hk => hknown ((h.knows_iff _).mpr hk)
    obtain ⟨more, hkinds⟩ := hplace frame rfl hcause
    have hedge : frame.edgeId ∈ expectedIds := by
      by_contra hnot
      rw [if_neg hnot] at hkinds
      simp at hkinds
    rw [if_pos hedge] at hkinds
    have haccepts : g.accepts expectedIds frame = true := by
      have htaken := h.edges frame.edgeId
      generalize causeFrames causeId frame.edgeId taken = fs at htaken hkinds
      generalize hheld : g.data.lookup frame.edgeId = held at htaken
      cases htaken with
      | untouched hnot =>
        have hkind : frame.kind = .dirty := (List.cons.inj hkinds).1
        simp [WireEdgeGroupGateState.accepts, hkind, hedge, hnot]
      | dirty hdirty =>
        have hkind : frame.kind = .data := (List.cons.inj (List.cons.inj hkinds).2).1
        simp [WireEdgeGroupGateState.accepts, hkind, hedge, hdirty, hheld, h.active]
      | data => simp at hkinds
    have hrival : (g.activeCauseId.filter fun active => active ≠ frame.causeId) = none := by
      rw [h.active, hcause]
      simp [Option.filter]
    simp only [WireEdgeGroupGateState.failures, hrival, haccepts, if_true, ite_self]

variable {last : CanonicalWireEdgeFrame}

theorem Completes.not_twice {known known' : String → Prop} {rest : List WireEdgeGroupEvent}
    (h : Completes expectedIds causeId known taken frame)
    (h' : Completes expectedIds causeId known' (taken ++ .frame frame :: rest) last) : False := by
  have hfirst := congrArg List.length (h.frames last.edgeId)
  have hlast := congrArg List.length (h'.frames last.edgeId)
  have hsplit : taken ++ .frame frame :: rest ++ [.frame last] =
      taken ++ [.frame frame] ++ (rest ++ [.frame last]) := by simp
  rw [hsplit, causeFrames_append, causeFrames_frame h'.cause, if_pos rfl] at hlast
  simp only [length_map, length_append, length_singleton] at hfirst hlast
  omega

theorem Collecting.release (h : Collecting expectedIds causeId g₀ taken g)
    (hids : expectedIds.Nodup) (hlast : Completes expectedIds causeId g₀.knows taken last)
    (hmove : GateMove expectedIds g (.frame last) g' released) : released ≠ [] := by
  have hframes := fun id => @causeFrames_frame causeId id last hlast.cause taken
  cases hmove with
  | pass hnone hframe =>
    have hknown := (h.knows_iff _).mp (hframe last rfl)
    rw [hlast.cause] at hknown
    exact absurd hknown h.unknown
  | dirty _ _ _ hkind =>
    rw [hlast.kind] at hkind
    cases hkind
  | data _ _ hedge _ hdirty hnew hmore =>
    refine absurd (h.all_counted hids hedge hnew fun id hid => ?_) hmore
    by_cases heq : last.edgeId = id
    · exact ⟨heq ▸ hdirty, fun hne => absurd heq.symm hne⟩
    · -- All frames of another edge have come before.
      have hkinds := hlast.frames id
      rw [hframes, if_neg heq, if_pos hid] at hkinds
      have hheld := (h.edges id).held_of_kinds hkinds
      exact ⟨(h.edges id).isDirty hheld, fun _ => hheld⟩
  | release => simp
  | fail hfailures =>
    have hpass : Passes causeId g₀.knows (.frame last) := Or.inl hlast.cause
    refine absurd (h.no_failures hpass fun frame hframe hcause => ⟨[], ?_⟩) hfailures
    obtain rfl := WireEdgeGroupEvent.frame.inj hframe
    have hkinds := hlast.frames last.edgeId
    rwa [hframes, if_pos rfl] at hkinds

/-- A release has the bytes of the DATA frames of its cause. -/
def ReadsOff (cohort : WireEdgeGroupReleaseCohort) (events : List WireEdgeGroupEvent) : Prop :=
  ∀ edgeId bytes, cohort.values.lookup edgeId = some bytes ↔
    ∃ f ∈ causeFrames cohort.causeId edgeId events, f.kind = .data ∧ f.value.getD [] = bytes

/-- One more event for a cause that is collected: the gate has taken it as well, or it
    completes the cause, or the gate is at rest again and has released nothing. -/
theorem Collecting.step (h : Collecting expectedIds causeId g₀ taken g) (hids : expectedIds.Nodup)
    (hmove : GateMove expectedIds g event g' released) :
    (Collecting expectedIds causeId g₀ (taken ++ [event]) g' ∧ released = []) ∨
    (AtRest g' ∧ ∃ last cohort, event = .frame last ∧ released = [cohort] ∧
      cohort.causeId = causeId ∧ Completes expectedIds causeId g₀.knows taken last ∧
      ReadsOff cohort (taken ++ [event])) ∨
    (AtRest g' ∧ released = [] ∧ g.failures expectedIds event ≠ []) := by
  cases hmove with
  | pass hnone hframe =>
    refine .inl ⟨⟨h.active, h.failed, h.released, h.unknown, h.opens_concat _,
      h.passes_frame ?_, fun edgeId => ?_, h.within⟩, rfl⟩
    · cases event with
      | frame frame => exact .inr ((h.knows_iff _).mp (hframe frame rfl))
      | outbound => trivial
      | bridgeEnd => simp [WireEdgeGroupGateState.failures, h.active] at hnone
      | issue about =>
        simp only [Passes]
        by_contra hcause
        obtain ⟨id, hid⟩ := Option.ne_none_iff_exists'.mp hcause
        simp [WireEdgeGroupGateState.failures, hid] at hnone
    · rw [causeFrames_other fun frame hevent hcause => ?_]
      · exact h.edges edgeId
      · -- A frame of this cause would have been taken.
        have hknown := (h.knows_iff _).mp (hframe frame hevent)
        rw [hcause] at hknown
        exact h.unknown hknown
  | @dirty frame hunknown hactive hedge hkind hnew =>
    have hcause : frame.causeId = causeId := by
      rw [h.active] at hactive
      exact (Option.some.inj (hactive.resolve_left (by simp))).symm
    refine .inl ⟨⟨congrArg some hcause, h.failed, h.released, h.unknown, h.opens_concat _,
      h.passes_frame (.inl hcause), fun edgeId => ?_, fun edgeId hmem => ?_⟩, rfl⟩
    · rw [causeFrames_frame hcause]
      by_cases heq : frame.edgeId = edgeId
      · subst heq
        obtain ⟨hframes, hheld⟩ := (h.edges frame.edgeId).of_not hnew
        rw [if_pos rfl, hframes, hheld]
        exact .dirty (Finset.mem_insert_self _ _) hkind
      · rw [if_neg heq]
        have hmem : (edgeId ∈ Insert.insert frame.edgeId g.dirty) = (edgeId ∈ g.dirty) := by
          simp [Ne.symm heq]
        simp only [hmem]
        exact h.edges edgeId
    · rcases Finset.mem_insert.mp hmem with rfl | hmem
      · exact hedge
      · exact h.within edgeId hmem
  | @data frame hunknown hactive hedge hkind hdirty hnew hmore =>
    have hcause : frame.causeId = causeId := (Option.some.inj (h.active.symm.trans hactive)).symm
    exact .inl ⟨⟨h.active, h.failed, h.released, h.unknown, h.opens_concat _,
      h.passes_frame (.inl hcause), h.edges_data hcause hkind hdirty hnew, h.within⟩, rfl⟩
  | @release frame hunknown hactive hedge hkind hdirty hnew hall =>
    have hcause : frame.causeId = causeId := (Option.some.inj (h.active.symm.trans hactive)).symm
    have hedges := h.edges_data hcause hkind hdirty hnew
    have hcomplete := h.all_edges hids hdirty hnew hall
    refine .inr (.inl ⟨AtRest.reset _, frame, _, rfl, rfl, hcause,
      ⟨h.opens, h.passes, hcause, hkind, fun edgeId => ?_⟩, fun edgeId bytes => ?_⟩)
    · by_cases hid : edgeId ∈ expectedIds
      · rw [if_pos hid]
        refine (hedges edgeId).kinds ?_
        rw [SortedMap.lookup_insert]
        by_cases heq : edgeId = frame.edgeId
        · rw [if_pos heq]
          simp
        · rw [if_neg heq]
          exact (hcomplete edgeId hid).2 heq
      · have hnot : edgeId ∉ g.dirty := fun hmem => hid (h.within edgeId hmem)
        rw [if_neg hid, ((hedges edgeId).of_not hnot).1, map_nil]
    · rw [SortedMap.lookup_select _ hids, hcause, ← (hedges edgeId).bytes]
      by_cases hid : edgeId ∈ expectedIds
      · rw [if_pos hid]
      · rw [if_neg hid]
        have hnot : edgeId ≠ frame.edgeId := fun heq => hid (heq ▸ hedge)
        have hdirty' : edgeId ∉ g.dirty := fun hmem => hid (h.within edgeId hmem)
        rw [SortedMap.lookup_insert, if_neg hnot, ((h.edges edgeId).of_not hdirty').2]
  | fail hfailures hrest => exact .inr (.inr ⟨hrest, rfl, hfailures⟩)

end Collect

/-! ### Runs -/

/-- A gate with the causes that failed and those that were released so far, in order. -/
structure GateRun where
  gate : WireEdgeGroupGateState
  failed : List String
  released : List String

def GateRun.initial : GateRun := ⟨.default, [], []⟩

section

variable (name : String) (expectedIds : List String)

def GateRun.next (r : GateRun) (event : WireEdgeGroupEvent) : GateRun :=
  let (gate, outputs) := r.gate.gateEvent name expectedIds event
  { gate
    failed := r.failed ++ r.gate.failures expectedIds event
    released := r.released ++ (releasesOf outputs).map (·.causeId) }

/-- A new gate over some events. -/
def gateRun (events : List WireEdgeGroupEvent) :
    GateRun :=
  events.foldl (GateRun.next name expectedIds) .initial

/-- The memory of some causes, entered one by one. -/
def WireEdgeGroupCauseTombstones.ofCauses (causes : List String) : WireEdgeGroupCauseTombstones :=
  causes.foldl (fun tombstones causeId => tombstones.insert causeId) .default

/-- An event completes a cause: the last of these events were taken for it, from a gate
    that collected nothing and did not know it. -/
def CompletesAt (events : List WireEdgeGroupEvent)
    (event : WireEdgeGroupEvent) (causeId : String) (taken : List WireEdgeGroupEvent) : Prop :=
  ∃ earlier last, event = .frame last ∧ events = earlier ++ taken ∧
    (gateRun name expectedIds earlier).gate.activeCauseId = none ∧
    ¬ (gateRun name expectedIds earlier).gate.knows causeId ∧
    Completes expectedIds causeId (gateRun name expectedIds earlier).gate.knows taken last

end

section Runs

variable {name : String} {expectedIds : List String} {events : List WireEdgeGroupEvent}
  {event : WireEdgeGroupEvent} {causeId : String}

theorem gateRun_concat (name : String) (expectedIds : List String)
    (events : List WireEdgeGroupEvent) (event : WireEdgeGroupEvent) :
    gateRun name expectedIds (events ++ [event]) =
      (gateRun name expectedIds events).next name expectedIds event := by
  rw [gateRun, foldl_append]
  rfl

theorem gateRun_phase (name : String) (hids : expectedIds.Nodup)
    (events : List WireEdgeGroupEvent) :
    AtRest (gateRun name expectedIds events).gate ∨
      ∃ earlier taken causeId, events = earlier ++ taken ∧
        AtRest (gateRun name expectedIds earlier).gate ∧
        Collecting expectedIds causeId (gateRun name expectedIds earlier).gate taken
          (gateRun name expectedIds events).gate := by
  induction events using List.reverseRecOn with
  | nil => exact .inl AtRest.default
  | append_singleton events event ih =>
    rw [gateRun_concat]
    have hrest : (gateRun name expectedIds events).gate.activeCauseId = none →
        AtRest (gateRun name expectedIds events).gate := by
      intro hnone
      rcases ih with hrest | ⟨earlier, taken, causeId, -, -, hcollect⟩
      · exact hrest
      · rw [hcollect.active] at hnone
        cases hnone
    obtain ⟨hmove, -⟩ := @gateEvent_move expectedIds _ name hrest event
    rcases ih with hidle | ⟨earlier, taken, causeId, rfl, hearlier, hcollect⟩
    · rcases (hidle.step hmove).2 with ⟨hsame, -⟩ | ⟨frame, rfl, hcollect⟩ | ⟨hdone, -⟩
      · left
        change AtRest (WireEdgeGroupGateState.gateEvent ..).1
        rw [hsame]
        exact hidle
      · exact .inr ⟨events, [.frame frame], frame.causeId, rfl, hidle, hcollect⟩
      · exact .inl hdone
    · rcases hcollect.step hids hmove with ⟨hnext, -⟩ | ⟨hdone, -⟩ | ⟨hdone, -⟩
      · exact .inr ⟨earlier, taken ++ [event], causeId, append_assoc .., hearlier, hnext⟩
      · exact .inl hdone
      · exact .inl hdone

theorem gateRun_rest (name : String) (hids : expectedIds.Nodup)
    (events : List WireEdgeGroupEvent)
    (hnone : (gateRun name expectedIds events).gate.activeCauseId = none) :
    AtRest (gateRun name expectedIds events).gate := by
  rcases gateRun_phase name hids events with hrest | ⟨earlier, taken, causeId, -, -, hcollect⟩
  · exact hrest
  · rw [hcollect.active] at hnone
    cases hnone

theorem gateRun_move (name : String) (hids : expectedIds.Nodup)
    (events : List WireEdgeGroupEvent) (event : WireEdgeGroupEvent) :
    let g := (gateRun name expectedIds events).gate
    let out := g.gateEvent name expectedIds event
    GateMove expectedIds g event out.1 (releasesOf out.2) ∧
      out.1.failed = g.failedAfter (g.failures expectedIds event) :=
  gateEvent_move name (gateRun_rest name hids events) event

variable {taken : List WireEdgeGroupEvent}

theorem Completes.collecting {earlier : List WireEdgeGroupEvent}
    {last : CanonicalWireEdgeFrame} (name : String) (hids : expectedIds.Nodup)
    (hnone : (gateRun name expectedIds earlier).gate.activeCauseId = none)
    (hunknown : ¬ (gateRun name expectedIds earlier).gate.knows causeId)
    (h : Completes expectedIds causeId (gateRun name expectedIds earlier).gate.knows taken last)
    (part : List WireEdgeGroupEvent) (hpart : part <+: taken) (hne : part ≠ []) :
    Collecting expectedIds causeId (gateRun name expectedIds earlier).gate part
      (gateRun name expectedIds (earlier ++ part)).gate := by
  have hrest := gateRun_rest name hids earlier hnone
  induction part using List.reverseRecOn with
  | nil => exact absurd rfl hne
  | append_singleton part event ih =>
    obtain ⟨rest, hsplit⟩ := hpart
    have hmem : event ∈ taken := hsplit ▸ by simp
    rw [← append_assoc, gateRun_concat]
    obtain ⟨hmove, -⟩ := gateRun_move name hids (earlier ++ part) event
    by_cases hfirst : part = []
    · -- The first event is a DIRTY frame of the cause.
      subst hfirst
      obtain ⟨first, others, hopens, hcause⟩ := h.opens
      obtain ⟨rfl, rfl⟩ : event = .frame first ∧ rest = others := by
        rw [← hsplit] at hopens
        simpa using hopens
      have hkinds := h.frames first.edgeId
      rw [← hsplit, append_assoc, causeFrames_append, causeFrames_frame hcause, if_pos rfl]
        at hkinds
      have hedge : first.edgeId ∈ expectedIds := by
        by_contra hnot
        rw [if_neg hnot] at hkinds
        simp at hkinds
      rw [if_pos hedge] at hkinds
      have hkind : first.kind = .dirty := (List.cons.inj hkinds).1
      rw [append_nil] at hmove ⊢
      rcases (hrest.step hmove).2 with ⟨-, hknown⟩ | ⟨frame, hframe, hcollect⟩ | ⟨-, hfailures⟩
      · exact absurd (hcause ▸ hknown first rfl) hunknown
      · obtain rfl := WireEdgeGroupEvent.frame.inj hframe
        rw [hcause] at hcollect
        exact hcollect
      · exact absurd (hrest.no_failures hedge hkind) hfailures
    · have hcollect := ih ⟨event :: rest, by rw [← hsplit]; simp⟩ hfirst
      rcases hcollect.step hids hmove with ⟨hnext, -⟩ | ⟨-, f, cohort, rfl, -, -, hdone, -⟩ |
        ⟨-, -, hfailures⟩
      · exact hnext
      · rw [append_assoc, singleton_append] at hsplit
        rw [← hsplit] at h
        exact (hdone.not_twice h).elim
      · refine absurd (hcollect.no_failures (h.passes event hmem) fun frame hframe hcause =>
          ⟨causeFrames causeId frame.edgeId (rest ++ [.frame last]), ?_⟩) hfailures
        have hkinds := h.frames frame.edgeId
        rw [← hsplit, append_assoc, causeFrames_append, hframe, causeFrames_frame hcause,
          if_pos rfl] at hkinds
        simpa using hkinds

theorem CompletesAt.released (hids : expectedIds.Nodup)
    (h : CompletesAt name expectedIds events event causeId taken) :
    ∃ cohort, releasesOf ((gateRun name expectedIds events).gate.gateEvent name expectedIds
        event).2 = [cohort] ∧ cohort.causeId = causeId ∧ ReadsOff cohort (taken ++ [event]) := by
  obtain ⟨earlier, last, rfl, rfl, hnone, hunknown, hcompletes⟩ := h
  have hne : taken ≠ [] := by
    obtain ⟨first, rest, rfl, -⟩ := hcompletes.opens
    simp
  have hcollect := hcompletes.collecting name hids hnone hunknown taken (prefix_refl _) hne
  obtain ⟨hmove, -⟩ := gateRun_move name hids (earlier ++ taken) (.frame last)
  have hsome := hcollect.release hids hcompletes hmove
  rcases hcollect.step hids hmove with ⟨-, hnil⟩ |
    ⟨-, f, cohort, -, hcohort, hcause, -, hreads⟩ | ⟨-, hnil, -⟩
  · exact absurd hnil hsome
  · exact ⟨cohort, hcohort, hcause, hreads⟩
  · exact absurd hnil hsome

theorem completesAt_of_released (hids : expectedIds.Nodup) {cohort : WireEdgeGroupReleaseCohort}
    (h : cohort ∈ releasesOf
      ((gateRun name expectedIds events).gate.gateEvent name expectedIds event).2) :
    ∃ taken, CompletesAt name expectedIds events event cohort.causeId taken := by
  obtain ⟨hmove, -⟩ := gateRun_move name hids events event
  rcases gateRun_phase name hids events with hidle | ⟨earlier, taken, causeId, rfl, hrest, hcollect⟩
  · rw [(hidle.step hmove).1] at h
    exact absurd h not_mem_nil
  · rcases hcollect.step hids hmove with ⟨-, hnil⟩ |
      ⟨-, last, found, hlast, hfound, hcause, hcompletes, -⟩ | ⟨-, hnil, -⟩
    · rw [hnil] at h
      exact absurd h not_mem_nil
    · rw [hfound] at h
      obtain rfl := mem_singleton.mp h
      rw [hcause]
      exact ⟨taken, earlier, last, hlast, rfl, hrest.active, hcollect.unknown, hcompletes⟩
    · rw [hnil] at h
      exact absurd h not_mem_nil

/-! ### What is remembered -/

section

variable (tombstones : WireEdgeGroupCauseTombstones)

theorem WireEdgeGroupCauseTombstones.mem_seen :
    causeId ∈ tombstones.seen ↔ causeId ∈ tombstones.order := by
  rw [tombstones.seen_eq, mem_toFinset]

theorem WireEdgeGroupCauseTombstones.order_insert (causeId : String) :
    (tombstones.insert causeId).order =
      Recent.remember wireEdgeGroupCauseTombstoneLimit tombstones.order causeId := by
  unfold WireEdgeGroupCauseTombstones.insert Recent.remember
  by_cases h : causeId ∈ tombstones.seen
  · rw [dif_pos h, if_pos (tombstones.mem_seen.mp h)]
  · rw [dif_neg h, if_neg fun hmem => h (tombstones.mem_seen.mpr hmem)]

theorem WireEdgeGroupCauseTombstones.order_foldl (causes : List String) :
    (causes.foldl (fun tombstones causeId => tombstones.insert causeId) tombstones).order =
      causes.foldl (Recent.remember wireEdgeGroupCauseTombstoneLimit) tombstones.order := by
  induction causes generalizing tombstones with
  | nil => rfl
  | cons causeId causes ih =>
    rw [foldl_cons, foldl_cons, ih, tombstones.order_insert]

end

/-- A cause that was entered is remembered while fewer than the limit of others follow. -/
theorem WireEdgeGroupCauseTombstones.mem_ofCauses {earlier later : List String}
    (hnew : causeId ∉ (ofCauses earlier).seen)
    (h : (later.toFinset.erase causeId).card < wireEdgeGroupCauseTombstoneLimit) :
    causeId ∈ (ofCauses (earlier ++ causeId :: later)).seen := by
  rw [mem_seen, ofCauses, foldl_append, order_foldl]
  refine Recent.mem_foldl_remember (ofCauses earlier).nodup ?_ (by decide) h
  exact fun hmem => hnew ((mem_seen _).mpr hmem)

theorem WireEdgeGroupCauseTombstones.ofCauses_append (earlier later : List String) :
    ofCauses (earlier ++ later) =
      later.foldl (fun tombstones causeId => tombstones.insert causeId) (ofCauses earlier) :=
  foldl_append

/-- An event releases nothing, or a cause that the gate does not know and then remembers. -/
theorem GateMove.remembers {g g' : WireEdgeGroupGateState}
    {released : List WireEdgeGroupReleaseCohort}
    (h : GateMove expectedIds g event g' released) :
    (released = [] ∧ g'.released = g.released) ∨
      ∃ cohort, released = [cohort] ∧ ¬ g.knows cohort.causeId ∧
        g'.released = g.released.insert cohort.causeId := by
  cases h with
  | pass => exact .inl ⟨rfl, rfl⟩
  | dirty => exact .inl ⟨rfl, rfl⟩
  | data => exact .inl ⟨rfl, rfl⟩
  | release hunknown => exact .inr ⟨_, rfl, hunknown, rfl⟩
  | fail _ _ hsame => exact .inl ⟨rfl, hsame⟩

/-- The gate remembers what has failed and what was released, and a cause is released
    only when it is not remembered. -/
theorem gateRun_memory (name : String) (hids : expectedIds.Nodup)
    (events : List WireEdgeGroupEvent) :
    (gateRun name expectedIds events).gate.failed =
        .ofCauses (gateRun name expectedIds events).failed ∧
      (gateRun name expectedIds events).gate.released =
        .ofCauses (gateRun name expectedIds events).released ∧
      ∀ before causeId after, (gateRun name expectedIds events).released =
        before ++ causeId :: after →
          causeId ∉ (WireEdgeGroupCauseTombstones.ofCauses before).seen := by
  induction events using List.reverseRecOn with
  | nil => exact ⟨rfl, rfl, fun before causeId after h => by simp [gateRun, GateRun.initial] at h⟩
  | append_singleton events event ih =>
    obtain ⟨hfailed, hreleased, hfresh⟩ := ih
    obtain ⟨hmove, hfails⟩ := gateRun_move name hids events event
    rw [gateRun_concat]
    refine ⟨?_, ?_⟩
    · change (WireEdgeGroupGateState.gateEvent ..).1.failed = _
      rw [hfails, WireEdgeGroupGateState.failedAfter, hfailed]
      exact (WireEdgeGroupCauseTombstones.ofCauses_append _ _).symm
    · simp only [GateRun.next]
      rcases hmove.remembers with ⟨hnil, hsame⟩ | ⟨cohort, hcohort, hunknown, hinsert⟩
      · rw [hnil, hsame, map_nil, append_nil]
        exact ⟨hreleased, hfresh⟩
      · rw [hcohort, hinsert, hreleased, map_singleton,
          WireEdgeGroupCauseTombstones.ofCauses_append]
        refine ⟨rfl, fun before causeId after hsplit => ?_⟩
        rcases eq_nil_or_concat after with rfl | ⟨others, last, rfl⟩
        · -- The last release is the new one.
          obtain ⟨rfl, hlast⟩ := append_inj' hsplit rfl
          rw [← (List.cons.inj hlast).1, ← hreleased]
          exact fun hmem => hunknown (.inr hmem)
        · rw [concat_eq_append, ← cons_append, ← append_assoc] at hsplit
          exact hfresh before causeId others (append_inj' hsplit rfl).1

theorem not_released_of_known (hids : expectedIds.Nodup)
    (hknown : (gateRun name expectedIds events).gate.knows causeId) :
    ∀ cohort ∈ releasesOf
      ((gateRun name expectedIds events).gate.gateEvent name expectedIds event).2,
      cohort.causeId ≠ causeId := by
  intro cohort hcohort hcause
  rcases (gateRun_move name hids events event).1.remembers with ⟨hnil, -⟩ |
    ⟨found, hfound, hunknown, -⟩
  · rw [hnil] at hcohort
    exact absurd hcohort not_mem_nil
  · rw [hfound] at hcohort
    rw [mem_singleton.mp hcohort] at hcause
    exact hunknown (hcause ▸ hknown)

end Runs

/-- The gate over any events. A cause is released by the event that completes it and by
    no other: a DATA frame after which, since the first frame of the cause, one DIRTY
    and then one DATA frame of it has come for every expected edge, and no issue that
    names a cause, no end of the bridge, and no other frame except of causes that are
    remembered as failed or released. The release has every expected edge with the
    bytes of its DATA frame. The gate collects no cause exactly when it holds no dirty
    edges and no bytes, and an edge with bytes is dirty. A cause is not released again
    while fewer causes than the limit were released since, nor after it was entered as
    failed while fewer than the limit failed since. -/
theorem gate_releases_complete (name : String) {expectedIds : List String}
    (hids : expectedIds.Nodup) (events : List WireEdgeGroupEvent) (event : WireEdgeGroupEvent) :
    let run := gateRun name expectedIds events
    let released := releasesOf (run.gate.gateEvent name expectedIds event).2
    (∀ causeId, (∃ cohort ∈ released, cohort.causeId = causeId) ↔
      ∃ taken, CompletesAt name expectedIds events event causeId taken) ∧
    (∀ cohort ∈ released, ∀ taken,
      CompletesAt name expectedIds events event cohort.causeId taken →
        (∀ edgeId ∈ expectedIds, cohort.values.lookup edgeId ≠ none) ∧
          ReadsOff cohort (taken ++ [event])) ∧
    (run.gate.activeCauseId = none ↔ run.gate.dirty = ∅ ∧ run.gate.data = .empty) ∧
    (∀ edgeId, run.gate.data.lookup edgeId ≠ none → edgeId ∈ run.gate.dirty) ∧
    (∀ before causeId after, run.released = before ++ causeId :: after →
      (after.toFinset.erase causeId).card < wireEdgeGroupCauseTombstoneLimit →
        ∀ cohort ∈ released, cohort.causeId ≠ causeId) ∧
    (∀ before causeId after, run.failed = before ++ causeId :: after →
      causeId ∉ (WireEdgeGroupCauseTombstones.ofCauses before).seen →
        (after.toFinset.erase causeId).card < wireEdgeGroupCauseTombstoneLimit →
          ∀ cohort ∈ released, cohort.causeId ≠ causeId) := by
  obtain ⟨hfailed, hreleased, hfresh⟩ := gateRun_memory name hids events
  refine ⟨fun causeId => ⟨?_, ?_⟩, ?_, ?_, ?_, ?_, ?_⟩
  · rintro ⟨cohort, hcohort, rfl⟩
    exact completesAt_of_released hids hcohort
  · rintro ⟨taken, htaken⟩
    obtain ⟨cohort, hcohort, hcause, -⟩ := htaken.released hids
    exact ⟨cohort, by rw [hcohort]; exact mem_singleton_self _, hcause⟩
  · intro cohort hcohort taken htaken
    obtain ⟨found, hfound, -, hreads⟩ := htaken.released hids
    rw [hfound] at hcohort
    obtain rfl := mem_singleton.mp hcohort
    refine ⟨fun edgeId hedge hnone => ?_, hreads⟩
    obtain ⟨earlier, last, rfl, -, -, -, hcompletes⟩ := htaken
    have hkinds := hcompletes.frames edgeId
    rw [if_pos hedge] at hkinds
    -- The edge has a DATA frame, whose bytes were read.
    have hdata : CanonicalWireEdgeKind.data ∈
        (causeFrames cohort.causeId edgeId (taken ++ [.frame last])).map (·.kind) := by
      rw [hkinds]
      simp
    obtain ⟨f, hf, hkind⟩ := mem_map.mp hdata
    have hsome := (hreads edgeId (f.value.getD [])).mpr ⟨f, hf, hkind, rfl⟩
    rw [hnone] at hsome
    cases hsome
  · constructor
    · intro hnone
      have hrest := gateRun_rest name hids events hnone
      exact ⟨hrest.dirty, hrest.data⟩
    · rintro ⟨hdirty, -⟩
      rcases gateRun_phase name hids events with hrest | ⟨earlier, taken, causeId, -, -, hcollect⟩
      · exact hrest.active
      · -- The first frame of the cause made its edge dirty.
        obtain ⟨first, rest, rfl, hcause⟩ := hcollect.opens
        have hedge := (hcollect.edges first.edgeId).of_not (by rw [hdirty]; simp)
        have hframes := hedge.1
        rw [← singleton_append, causeFrames_append] at hframes
        have hfirst : causeFrames causeId first.edgeId [.frame first] = [first] := by
          simp [causeFrames, hcause]
        rw [hfirst] at hframes
        cases hframes
  · intro edgeId hheld
    rcases gateRun_phase name hids events with hrest | ⟨earlier, taken, causeId, -, -, hcollect⟩
    · rw [hrest.data] at hheld
      exact absurd rfl hheld
    · exact (hcollect.edges edgeId).isDirty hheld
  · intro before causeId after hsplit hfew
    refine not_released_of_known hids (.inr ?_)
    rw [hreleased, hsplit]
    exact WireEdgeGroupCauseTombstones.mem_ofCauses (hfresh before causeId after hsplit) hfew
  · intro before causeId after hsplit hnew hfew
    refine not_released_of_known hids (.inl ?_)
    rw [hfailed, hsplit]
    exact WireEdgeGroupCauseTombstones.mem_ofCauses hnew hfew

/-- A frame of the only edge. -/
def edgeFrame (kind : CanonicalWireEdgeKind) (causeId : String) : WireEdgeGroupEvent :=
  .frame ⟨kind, "a", causeId, match kind with | .dirty => none | .data => some [7]⟩

/-- An issue about a cause that comes before its frames. -/
def issueAbout (causeId : String) : WireEdgeGroupEvent :=
  .issue ⟨.malformedFrame, "malformed", none, some causeId, none⟩

theorem gate_releases_complete_failed :
    (gateRun "group" ["a"] [issueAbout "late", edgeFrame .dirty "c"]).gate.activeCauseId = none ↔
      (gateRun "group" ["a"] [issueAbout "late", edgeFrame .dirty "c"]).gate.dirty = ∅ ∧
        (gateRun "group" ["a"] [issueAbout "late", edgeFrame .dirty "c"]).gate.data = .empty :=
  (gate_releases_complete "group" (by decide) [issueAbout "late", edgeFrame .dirty "c"]
    (edgeFrame .data "c")).2.2.1

/-- A frame of a cause that failed before does not disturb the one that is collected. -/
theorem late_frame_is_ignored :
    ¬ ∀ (name : String) (expectedIds : List String) (events : List WireEdgeGroupEvent)
      (event : WireEdgeGroupEvent) (causeId : String),
      (∃ cohort ∈ releasesOf
        ((gateRun name expectedIds events).gate.gateEvent name expectedIds event).2,
        cohort.causeId = causeId) →
      ∃ earlier taken last, event = .frame last ∧ events = earlier ++ taken ∧
        Completes expectedIds causeId (fun _ => False) taken last := by
  intro h
  have hreleased : ((releasesOf ((gateRun "group" ["a"]
      [issueAbout "late", edgeFrame .dirty "c", edgeFrame .dirty "late"]).gate.gateEvent "group"
        ["a"] (edgeFrame .data "c")).2).map (·.causeId)) = ["c"] := by
    decide +kernel
  have hmem := mem_singleton_self "c"
  rw [← hreleased] at hmem
  obtain ⟨cohort, hcohort, hcause⟩ := mem_map.mp hmem
  obtain ⟨earlier, taken, last, -, hsplit, hcompletes⟩ :=
    h _ _ _ _ "c" ⟨cohort, hcohort, hcause⟩
  have hlate : edgeFrame .dirty "late" ∈ taken := by
    obtain ⟨first, rest, rfl, -⟩ := hcompletes.opens
    have hlast := congrArg List.getLast? hsplit
    rw [List.getLast?_append_of_ne_nil _ (by simp)] at hlast
    exact mem_of_getLast? hlast.symm
  rcases hcompletes.passes _ hlate with hc | hfalse
  · exact absurd hc (by decide)
  · exact hfalse

end GraphRefly.Bridge
