import GraphRefly.Bridge.Cohorts

/-!
# Every Cohort Is Released

The right bridge takes every envelope once and in order, but the gate behind it is
given whatever arrives. As long as nothing but what the bridge takes, or what belongs
to a cause that the gate remembers, reaches the gate, it follows the bridge frame by
frame, and every cohort that came through is released once, in order, with its bytes.
A frame that arrives twice while its cohort is collected fails the cohort, although
the bridge turns the second one away.

## Main definitions

* `Tracked`: The gate against the frames the bridge has taken.

## Theorems

* `Tracked.takeFrame`, `Tracked.bridgeEnd`: The gate over what arrives.
* `GroupSound.step`: A calm step keeps the invariant.
* `cohorts_released`: Calm runs release every cohort that came through.
* `duplicate_fails_cohort`: A run with one duplicate.
-/

namespace GraphRefly.Bridge

open List GraphRefly.Json

/-! ### Facts at the inbound end -/

@[simp] theorem framesOf_append (fs gs : List GroupFact) :
    framesOf (fs ++ gs) = framesOf fs ++ framesOf gs :=
  filterMap_append

@[simp] theorem releases_append (fs gs : List GroupFact) :
    releases (fs ++ gs) = releases fs ++ releases gs :=
  filterMap_append

@[simp] theorem framesOf_released (rs : List WireEdgeGroupReleaseCohort) :
    framesOf (rs.map .released) = [] := by
  simp [framesOf, filterMap_map]

@[simp] theorem releases_released (rs : List WireEdgeGroupReleaseCohort) :
    releases (rs.map .released) = rs := by
  simp [releases, filterMap_map]

@[simp] theorem framesOf_frames (fs : List CanonicalWireEdgeFrame) :
    framesOf (fs.map .frame) = fs := by
  simp [framesOf, filterMap_map]

@[simp] theorem framesOf_nil : framesOf [] = [] := rfl

@[simp] theorem releases_nil : releases [] = [] := rfl

@[simp] theorem framesOf_frame (frame : CanonicalWireEdgeFrame) (log : List GroupFact) :
    framesOf (.frame frame :: log) = frame :: framesOf log := rfl

@[simp] theorem releases_frame (frame : CanonicalWireEdgeFrame) (log : List GroupFact) :
    releases (.frame frame :: log) = releases log := rfl

@[simp] theorem framesOf_ended (log : List GroupFact) :
    framesOf (.ended :: log) = framesOf log := rfl

@[simp] theorem releases_ended (log : List GroupFact) :
    releases (.ended :: log) = releases log := rfl

/-- The bridge ended after a frame of a cohort. -/
def Broken (cohort : Cohort) (log : List GroupFact) : Prop :=
  ∃ before first after, log = before ++ .frame first :: after ∧
    first.causeId = cohort.causeId ∧ .ended ∈ after

variable {cohort : Cohort} {log : List GroupFact}

theorem Broken.append (h : Broken cohort log)
    (facts : List GroupFact) : Broken cohort (log ++ facts) := by
  obtain ⟨before, first, after, rfl, hid, hended⟩ := h
  exact ⟨before, first, after ++ facts, by simp, hid, mem_append_left _ hended⟩

theorem Interrupted.append (h : Interrupted cohort log)
    (facts : List GroupFact) : Interrupted cohort (log ++ facts) := by
  obtain ⟨before, first, during, last, after, rfl, hfirst, hlast, hended⟩ := h
  exact ⟨before, first, during, last, after ++ facts, by simp, hfirst, hlast, hended⟩

variable {frame : CanonicalWireEdgeFrame}

/-- One more frame of a broken cohort comes after the end of the bridge. -/
theorem Broken.interrupted (h : Broken cohort log) (hid : frame.causeId = cohort.causeId) :
    Interrupted cohort (log ++ [.frame frame]) := by
  obtain ⟨before, first, after, rfl, hfirst, hended⟩ := h
  exact ⟨before, first, after, frame, [], by simp, hfirst, hid, hended⟩

theorem Cohort.frame_causeId (h : frame ∈ cohort.frames) : frame.causeId = cohort.causeId := by
  rcases mem_append.mp h with h | h <;> obtain ⟨v, -, rfl⟩ := mem_map.mp h <;> rfl

theorem GroupSetup.frames_ne (S : GroupSetup)
    (hedges : cohort.values.map Prod.fst = S.edges) : cohort.frames ≠ [] := by
  intro hnil
  have hvalues : cohort.values = [] := by simpa [Cohort.frames] using hnil
  rw [hvalues] at hedges
  exact S.edges_ne hedges.symm

/-! ### The gate against the bridge -/

/-- What the gate is doing about the cohort whose first frames have been taken. -/
inductive Position (gate : WireEdgeGroupGateState) (log : List GroupFact) (rest : List Cohort) :
    List CanonicalWireEdgeFrame → Prop
  /-- No frame of the next cohort has been taken. -/
  | idle (atRest : AtRest gate) : Position gate log rest []
  /-- The gate has taken the frames as well. -/
  | collecting {part : List CanonicalWireEdgeFrame} (cohort : Cohort)
      (head : rest.head? = some cohort) (taken : Taken cohort gate part) (some : part ≠ []) :
      Position gate log rest part
  /-- The bridge ended in the middle and the gate has failed the cohort. -/
  | broken {part : List CanonicalWireEdgeFrame} (cohort : Cohort)
      (head : rest.head? = some cohort) (atRest : AtRest gate)
      (failed : cohort.causeId ∈ gate.failed.seen) (ended : Broken cohort log)
      (some : part ≠ []) : Position gate log rest part

/-- The gate against the frames the bridge has taken. Those of the cohorts in `done` are
    all there and `part` holds the first frames of the next one. -/
structure Tracked (gate : WireEdgeGroupGateState) (log : List GroupFact)
    (done rest : List Cohort) (part : List CanonicalWireEdgeFrame) : Prop where
  frames : framesOf log = done.flatMap Cohort.frames ++ part
  short : ∀ cohort, rest.head? = some cohort → part <+: cohort.frames ∧ part ≠ cohort.frames
  position : Position gate log rest part
  memory : ∀ id, gate.knows id → id ∈ done.map Cohort.causeId ∨
    part ≠ [] ∧ ∃ cohort, rest.head? = some cohort ∧ id = cohort.causeId
  settled : ∀ cohort ∈ done, Interrupted cohort log ∨ ∃ r ∈ releases log, Carries r cohort
  order : ∃ cohorts, cohorts.Sublist done ∧ List.Forall₂ Carries (releases log) cohorts

section Tracked

variable {S : GroupSetup} {gate : WireEdgeGroupGateState} {log : List GroupFact}
  {done rest : List Cohort} {part : List CanonicalWireEdgeFrame}

/-- The next frame belongs to the next cohort, as long as a frame is a part of it. -/
theorem Tracked.next (h : Tracked gate log done rest part)
    (hnext : framesOf log ++ [frame] <+: (done ++ rest).flatMap Cohort.frames)
    (hne : ∀ cohort ∈ rest, cohort.frames ≠ []) :
    ∃ cohort, rest.head? = some cohort ∧ part ++ [frame] <+: cohort.frames := by
  rw [h.frames, flatMap_append, append_assoc, prefix_append_right_inj] at hnext
  cases rest with
  | nil => exact absurd hnext.length_le (by simp)
  | cons cohort rest =>
    refine ⟨cohort, rfl, ?_⟩
    obtain ⟨⟨more, hmore⟩, hpart⟩ := h.short cohort rfl
    cases more with
    | nil => exact absurd ((append_nil part).symm.trans hmore) hpart
    | cons next more =>
      rw [flatMap_cons, ← hmore, append_assoc, prefix_append_right_inj,
        cons_append, cons_prefix_cons] at hnext
      obtain rfl := hnext.1
      exact ⟨more, by rw [← hmore]; simp⟩

variable {gate' : WireEdgeGroupGateState} {cohort : Cohort} {frame : CanonicalWireEdgeFrame}

theorem Tracked.grow (h : Tracked gate log done (cohort :: rest) part)
    (hpart : part ++ [frame] <+: cohort.frames) (hshort : part ++ [frame] ≠ cohort.frames)
    (hfailed : gate'.failed = gate.failed) (hreleased : gate'.released = gate.released)
    (hposition : Position gate' (log ++ [.frame frame]) (cohort :: rest) (part ++ [frame])) :
    Tracked gate' (log ++ [.frame frame]) done (cohort :: rest) (part ++ [frame]) where
  frames := by rw [framesOf_append, h.frames, framesOf_frame, framesOf_nil, append_assoc]
  short := by
    intro c hc
    obtain rfl := Option.some.inj hc
    exact ⟨hpart, hshort⟩
  position := hposition
  memory := by
    intro id hid
    have hold : gate.knows id := by
      rwa [WireEdgeGroupGateState.knows, hfailed, hreleased] at hid
    rcases h.memory id hold with hdone | ⟨-, hnow⟩
    · exact Or.inl hdone
    · exact Or.inr ⟨by simp, hnow⟩
  settled := by
    intro c hc
    rcases h.settled c hc with hinterrupted | hreleased
    · exact Or.inl (hinterrupted.append _)
    · rw [releases_append, releases_frame, releases_nil, append_nil]
      exact Or.inr hreleased
  order := by
    rw [releases_append, releases_frame, releases_nil, append_nil]
    exact h.order

/-- The last frame of the next cohort: the cohort is released now, or the bridge ended in
    the middle of it. -/
theorem Tracked.finish (h : Tracked gate log done (cohort :: rest) part)
    (hall : part ++ [frame] = cohort.frames) (hrest : AtRest gate')
    (hmemory : ∀ id, gate'.knows id → id = cohort.causeId ∨ gate.knows id)
    {rs : List WireEdgeGroupReleaseCohort}
    (hsettled : rs = [] ∧ Interrupted cohort (log ++ [.frame frame]) ∨
      ∃ r, rs = [r] ∧ Carries r cohort)
    (hne : ∀ c ∈ rest, c.frames ≠ []) :
    Tracked gate' (log ++ [.frame frame] ++ rs.map .released) (done ++ [cohort]) rest [] where
  frames := by
    simp [h.frames, ← hall]
  short := by
    intro c hc
    exact ⟨List.nil_prefix, (hne c (mem_of_mem_head? hc)).symm⟩
  position := .idle hrest
  memory := by
    intro id hid
    refine Or.inl ?_
    rw [map_append, mem_append]
    rcases hmemory id hid with rfl | hold
    · exact Or.inr (by simp)
    · rcases h.memory id hold with hdone | ⟨-, c, hc, rfl⟩
      · exact Or.inl hdone
      · obtain rfl := Option.some.inj hc
        exact Or.inr (by simp)
  settled := by
    intro c hc
    simp only [releases_append, releases_frame, releases_nil, append_nil, releases_released]
    rcases mem_append.mp hc with hc | hc
    · rcases h.settled c hc with hinterrupted | ⟨r, hr, hcarries⟩
      · exact Or.inl ((hinterrupted.append _).append _)
      · exact Or.inr ⟨r, mem_append_left _ hr, hcarries⟩
    · rw [mem_singleton.mp hc]
      rcases hsettled with ⟨-, hinterrupted⟩ | ⟨r, rfl, hcarries⟩
      · exact Or.inl (hinterrupted.append _)
      · exact Or.inr ⟨r, by simp, hcarries⟩
  order := by
    simp only [releases_append, releases_frame, releases_nil, append_nil, releases_released]
    obtain ⟨cohorts, hsub, hall₂⟩ := h.order
    rcases hsettled with ⟨rfl, -⟩ | ⟨r, rfl, hcarries⟩
    · rw [append_nil]
      exact ⟨cohorts, hsub.trans (sublist_append_left _ _), hall₂⟩
    · exact ⟨cohorts ++ [cohort], hsub.append (List.Sublist.refl _),
        rel_append hall₂ (.cons hcarries .nil)⟩

theorem Tracked.ended (h : Tracked gate log done rest part)
    (hposition : Position gate' (log ++ [.ended]) rest part)
    (hmemory : ∀ id, gate'.knows id → gate.knows id ∨
      part ≠ [] ∧ ∃ cohort, rest.head? = some cohort ∧ id = cohort.causeId) :
    Tracked gate' (log ++ [.ended]) done rest part where
  frames := by rw [framesOf_append, h.frames, framesOf_ended, framesOf_nil, append_nil]
  short := h.short
  position := hposition
  memory := by
    intro id hid
    rcases hmemory id hid with hold | hnow
    · exact h.memory id hold
    · exact Or.inr hnow
  settled := by
    intro c hc
    rw [releases_append, releases_ended, releases_nil, append_nil]
    rcases h.settled c hc with hinterrupted | hreleased
    · exact Or.inl (hinterrupted.append _)
    · exact Or.inr hreleased
  order := by
    rw [releases_append, releases_ended, releases_nil, append_nil]
    exact h.order

/-- The gate when the bridge ends. -/
theorem Tracked.bridgeEnd (S : GroupSetup) (h : Tracked gate log done rest part) :
    let out := gate.gateEvent S.inName S.expectedIds .bridgeEnd
    releasesOf out.2 = [] ∧ Tracked out.1 (log ++ [.ended]) done rest part := by
  have hsame : ∀ id, gate.knows id → gate.knows id ∨
      part ≠ [] ∧ ∃ cohort, rest.head? = some cohort ∧ id = cohort.causeId :=
    fun id hid => Or.inl hid
  cases h.position with
  | idle hrest =>
    simp only [hrest.interrupt]
    exact ⟨rfl, h.ended (.idle hrest) hsame⟩
  | broken cohort hhead hrest hfailed hended hsome =>
    simp only [hrest.interrupt]
    exact ⟨rfl, h.ended (.broken cohort hhead hrest hfailed (hended.append _) hsome) hsame⟩
  | collecting cohort hhead htaken hsome =>
    obtain ⟨hrest, hfailed, hmemory, hreleased, hout⟩ :=
      htaken.interrupt S.inName S.expectedIds hsome
    refine ⟨hout, h.ended (.broken cohort hhead hrest hfailed ?_ hsome) ?_⟩
    · -- A frame of the cohort is in the log, and the bridge ends after it.
      obtain ⟨first, hfirst⟩ := exists_mem_of_ne_nil part hsome
      have hid := Cohort.frame_causeId ((h.short cohort hhead).1.subset hfirst)
      have hlog : first ∈ framesOf log := h.frames ▸ mem_append_right _ hfirst
      obtain ⟨fact, hfact, heq⟩ := mem_filterMap.mp hlog
      cases fact with
      | frame f =>
        obtain rfl := Option.some.inj heq
        obtain ⟨before, after, rfl⟩ := append_of_mem hfact
        exact ⟨before, f, after ++ [.ended], by simp, hid, by simp⟩
      | ended => cases heq
      | released r => cases heq
    · intro id hid
      rcases hid with hid | hid
      · rcases hmemory id hid with rfl | hold
        · exact Or.inr ⟨hsome, cohort, hhead, rfl⟩
        · exact Or.inl (Or.inl hold)
      · exact Or.inl (Or.inr (hreleased ▸ hid))

/-- The gate over the next frame that the bridge takes. -/
theorem Tracked.takeFrame (h : Tracked gate log done rest part)
    (hnext : framesOf log ++ [frame] <+: (done ++ rest).flatMap Cohort.frames)
    (hedges : ∀ c ∈ rest, c.values.map Prod.fst = S.edges)
    (hcauses : ((done ++ rest).map Cohort.causeId).Nodup) :
    let out := gate.reduceFrame S.inName S.expectedIds frame
    ∃ done' rest' part', done' ++ rest' = done ++ rest ∧
      Tracked out.1 (log ++ [.frame frame] ++ (releasesOf out.2).map .released)
        done' rest' part' := by
  have hne : ∀ c ∈ rest, c.frames ≠ [] := fun c hc => S.frames_ne (hedges c hc)
  obtain ⟨cohort, hhead, hpart⟩ := h.next hnext hne
  cases rest with
  | nil => cases hhead
  | cons c rest =>
  obtain rfl := Option.some.inj hhead
  have hid : frame.causeId = c.causeId := Cohort.frame_causeId (hpart.subset (by simp))
  have hkeys := hedges c mem_cons_self
  have hmore : ∀ d ∈ rest, d.frames ≠ [] := fun d hd => hne d (mem_cons_of_mem _ hd)
  have hwhole : done ++ [c] ++ rest = done ++ c :: rest := by simp
  -- A gate that has taken the first frames takes this one as well.
  have htaken : ∀ (ht : Taken c gate part),
      let out := gate.reduceFrame S.inName S.expectedIds frame
      ∃ done' rest' part', done' ++ rest' = done ++ c :: rest ∧
        Tracked out.1 (log ++ [.frame frame] ++ (releasesOf out.2).map .released)
          done' rest' part' := by
    intro ht
    rcases ht.step S.inName (hkeys ▸ S.nodup) (hkeys ▸ S.perm) hpart with
      ⟨hshort, htaken, hfailed, hreleased, hout⟩ | ⟨hlast, hrest, hfailed, hreleased, r, hout, hr⟩
    · refine ⟨done, c :: rest, part ++ [frame], rfl, ?_⟩
      simp only [hout, map_nil, append_nil]
      exact h.grow hpart hshort hfailed hreleased (.collecting c rfl htaken (by simp))
    · refine ⟨done ++ [c], rest, [], hwhole, ?_⟩
      refine h.finish hlast hrest (fun id hid => ?_) (Or.inr ⟨r, hout, hr⟩) hmore
      rcases hid with hid | hid
      · exact Or.inr (Or.inl (hfailed ▸ hid))
      · rw [hreleased] at hid
        rcases WireEdgeGroupCauseTombstones.mem_insert hid with hid | hid
        · exact Or.inl hid
        · exact Or.inr (Or.inr hid)
  cases h.position with
  | idle hrest =>
    refine htaken (hrest.taken fun hknows => ?_)
    rcases h.memory _ hknows with hdone | ⟨hsome, -⟩
    · rw [map_append, map_cons] at hcauses
      exact disjoint_of_nodup_append hcauses hdone mem_cons_self
    · exact hsome rfl
  | collecting cohort hhead ht hsome =>
    obtain rfl := Option.some.inj hhead
    exact htaken ht
  | broken cohort hhead hrest hfailed hended hsome =>
    obtain rfl := Option.some.inj hhead
    obtain ⟨hgate, hout⟩ := reduceFrame_known S.inName S.expectedIds
      (Or.inl (hid ▸ hfailed) : gate.knows frame.causeId)
    simp only [hgate, hout, map_nil, append_nil]
    by_cases hlast : part ++ [frame] = c.frames
    · refine ⟨done ++ [c], rest, [], hwhole, ?_⟩
      have hfinish := h.finish hlast hrest (fun id hid => Or.inr hid)
        (Or.inl ⟨rfl, hended.interrupted hid⟩) hmore
      rwa [map_nil, append_nil] at hfinish
    · exact ⟨done, c :: rest, part ++ [frame], rfl,
        h.grow hpart hlast rfl rfl (.broken c rfl hrest hfailed (hended.append _) (by simp))⟩

end Tracked

/-! ### What arrives -/

/-- A valid envelope of the session is taken exactly when it is the next one. -/
theorem processInbound_takes {T U : Type} {sessionId : String} {s s' : BridgeState T}
    {envelope : WireBridgeEnvelope U} {es : List (WireBridgeEvent T U)} (hvalid : envelope.Valid)
    (hsession : envelope.sessionId = sessionId)
    (h : processInbound sessionId s (.envelope envelope) = .ok (s', es)) :
    inbounds es = if s.takes envelope then [envelope] else [] := by
  simp only [processInbound, (validateInboundEnvelope_eq_ok envelope).mpr hvalid, hsession, ne_eq,
    not_true_eq_false, if_false] at h
  by_cases hdup : envelope.metadata.seq ≤ s.cursor
  · rw [if_pos hdup] at h
    cases h
    simp [BridgeState.takes, hdup, inbounds, WireBridgeEvent.inbound?]
  rw [if_neg hdup] at h
  by_cases hgap : saturatingAdd u64Max s.cursor 1 < envelope.metadata.seq
  · rw [if_pos hgap] at h
    cases h
    simp [BridgeState.takes, hgap, inbounds, WireBridgeEvent.inbound?]
  rw [if_neg hgap] at h
  by_cases hback : envelope.metadata.cursor < s.remoteCursor
  · rw [if_pos hback] at h
    cases h
    simp [BridgeState.takes, hback, inbounds, WireBridgeEvent.inbound?]
  rw [if_neg hback] at h
  obtain ⟨state, receipts, hreceipt, hdone⟩ := processReceipt_cases
    ({ s with remoteCursor := envelope.metadata.cursor, cursor := envelope.metadata.seq } :
      BridgeState T) hvalid
  rw [hreceipt] at h
  cases h
  have htakes : s.takes envelope = true := by
    simp [BridgeState.takes, hdup, hgap, hback]
  rw [if_pos htakes]
  exact congrArg (envelope :: ·) hdone.taken

/-- What an envelope does to the gate. -/
inductive Arrival (S : GroupSetup) (gate : WireEdgeGroupGateState)
    (envelope : WireBridgeEnvelope WireBridgeProtobufDataBody) :
    WireEdgeGroupGateState × List GroupFact → Prop
  | frame {frame : CanonicalWireEdgeFrame} (carries : envelope.frame? = some frame) :
      Arrival S gate envelope ((gate.reduceFrame S.inName S.expectedIds frame).1,
        (releasesOf (gate.reduceFrame S.inName S.expectedIds frame).2).map .released)
  | ended (carries : envelope.frame? = none) :
      Arrival S gate envelope ((gate.gateEvent S.inName S.expectedIds .bridgeEnd).1,
        .ended :: (releasesOf (gate.gateEvent S.inName S.expectedIds .bridgeEnd).2).map .released)
  | silent (carries : envelope.frame? = none) : Arrival S gate envelope (gate, [])

variable {envelope : WireBridgeEnvelope WireBridgeProtobufDataBody}

theorem frame?_eq_none
    (hvalid : envelope.Valid) (htype : envelope.envelopeType ≠ .data) : envelope.frame? = none := by
  have hpayload := hvalid.payload
  rw [WireBridgeEnvelope.frame?]
  split
  case h_1 frame heq =>
    rw [heq] at hpayload
    cases hkind : envelope.envelopeType <;> rw [hkind] at hpayload <;> cases hpayload
    exact absurd hkind htype
  case h_2 => rfl

variable {S : GroupSetup}

/-- A valid envelope of the session brings its frame, ends the bridge or says nothing. -/
theorem arrive_cases (gate : WireEdgeGroupGateState) (hvalid : envelope.Valid)
    (hsession : envelope.sessionId = S.session.sessionId)
    (hframe : ∀ frame, envelope.frame? = some frame →
      validateWireEdgeGroupFrame S.inName frame = none) :
    Arrival S gate envelope (arrive S gate envelope) := by
  have hcheck := (validateInboundEnvelope_eq_ok envelope).mpr hvalid
  have hother : envelope.envelopeType ≠ .data → envelope.frame? = none := frame?_eq_none hvalid
  have hpayload := hvalid.payload
  simp only [arrive, wireEdgeGroupFrameEvent, hcheck, hsession, ne_eq, not_true_eq_false, if_false]
  cases htype : envelope.envelopeType with
  | data =>
    rw [htype] at hpayload
    cases hbody : envelope.payload with
    | none =>
      rw [hbody] at hpayload
      cases hpayload
    | some payload =>
      rw [hbody] at hpayload
      cases payload with
      | data body =>
        cases body with
        | value value => exact .silent (by rw [WireBridgeEnvelope.frame?, hbody])
        | wireEdge frame =>
          have hcarries : envelope.frame? = some frame := by
            rw [WireBridgeEnvelope.frame?, hbody]
          simp only [hframe frame hcarries]
          exact .frame hcarries
      | error message => cases hpayload
      | status message => cases hpayload
      | close reason => cases hpayload
  | close => exact .ended (hother (by simp [htype]))
  | error => exact .ended (hother (by simp [htype]))
  | start => exact .silent (hother (by simp [htype]))
  | ack => exact .silent (hother (by simp [htype]))
  | nack => exact .silent (hother (by simp [htype]))
  | status => exact .silent (hother (by simp [htype]))

theorem causeKey_ne (name : String) (cause : Nat) : causeKey name cause ≠ "" := by
  intro hnil
  have hlength := congrArg String.toList hnil
  simp [causeKey, compoundTupleKey] at hlength

theorem validateWireEdgeGroupFrame_cohort
    (hedges : cohort.values.map Prod.fst = S.edges) (hid : cohort.causeId ≠ "")
    (hframe : frame ∈ cohort.frames) :
    validateWireEdgeGroupFrame S.inName frame = none := by
  have hedge : ∀ v ∈ cohort.values, v.1 ≠ "" := fun v hv =>
    S.ids_ne v.1 (hedges ▸ mem_map_of_mem hv)
  rcases mem_append.mp hframe with hframe | hframe
  · obtain ⟨v, hv, rfl⟩ := mem_map.mp hframe
    simp [validateWireEdgeGroupFrame, Cohort.dirtyFrame, hedge v hv, hid]
  · obtain ⟨v, hv, rfl⟩ := mem_map.mp hframe
    simp [validateWireEdgeGroupFrame, Cohort.dataFrame, hedge v hv, hid]

/-! ### Calm runs -/

section Sound

variable {V : Type} {S : GroupSetup} {w w' : GroupWorld V}

/-- The invariant of calm runs: the cohorts are numbered by the left bridge, the gate
    follows the frames the right bridge takes, and these are the ones in its log. -/
structure GroupSound (S : GroupSetup) (w : GroupWorld V) : Prop where
  tracked : ∃ stream unsent done rest part, Outflow S w stream (done ++ rest) unsent ∧
    Tracked w.gate w.log done rest part
  frames : framesOf w.log =
    (inbounds w.session.right.events).filterMap WireBridgeEnvelope.frame?

theorem GroupSound.initial (S : GroupSetup) (V : Type) : GroupSound S (GroupWorld.initial V) where
  tracked := by
    refine ⟨[], [], [], [], [], Outflow.initial S V, rfl, fun c hc => ?_, .idle .default,
      fun id hid => ?_, fun c hc => absurd hc not_mem_nil, [], .slnil, .nil⟩
    · cases hc
    · simp [WireEdgeGroupGateState.knows, GroupWorld.initial, WireEdgeGroupGateState.default,
        WireEdgeGroupCauseTombstones.default] at hid
  frames := rfl

variable {done rest : List Cohort} {part : List CanonicalWireEdgeFrame}

theorem Tracked.more {gate : WireEdgeGroupGateState}
    (h : Tracked gate log done rest part) {more : List Cohort}
    (hne : ∀ c ∈ more, c.frames ≠ []) : Tracked gate log done (rest ++ more) part where
  frames := h.frames
  short := by
    intro c hc
    cases rest with
    | cons d rest => exact h.short c hc
    | nil =>
      -- Nothing was to come, so no frame is on its way.
      have hpart : part = [] := by
        cases h.position with
        | idle hrest => rfl
        | collecting cohort hhead => cases hhead
        | broken cohort hhead => cases hhead
      rw [hpart]
      exact ⟨List.nil_prefix, (hne c (mem_of_mem_head? hc)).symm⟩
  position := by
    have hgrow : ∀ {c : Cohort}, rest.head? = some c → (rest ++ more).head? = some c := by
      intro c hc
      rw [List.head?_append, hc]
      rfl
    cases h.position with
    | idle hrest => exact .idle hrest
    | collecting cohort hhead htaken hsome => exact .collecting cohort (hgrow hhead) htaken hsome
    | broken cohort hhead hrest hfailed hended hsome =>
      exact .broken cohort (hgrow hhead) hrest hfailed hended hsome
  memory := by
    intro id hid
    rcases h.memory id hid with hdone | ⟨hsome, c, hc, rfl⟩
    · exact Or.inl hdone
    · refine Or.inr ⟨hsome, c, ?_, rfl⟩
      rw [List.head?_append, hc]
      rfl
  settled := h.settled
  order := h.order

variable {c' : GroupSession}

/-- An action of the session that sends no frame and brings nothing to the right. -/
theorem GroupSound.act (h : GroupSound S w)
    {a : Action WireBridgeProtobufDataBody WireBridgeProtobufDataBody}
    (hact : w.session.act S.session a = some c')
    (hquiet : ∀ now cmd, a = .commandLeft now cmd → cmd.frame? = none)
    (hright : inbounds c'.right.events = inbounds w.session.right.events) :
    GroupSound S { w with session := c' } := by
  obtain ⟨stream, unsent, done, rest, part, hout, htracked⟩ := h.tracked
  obtain ⟨stream', hout'⟩ := hout.act { w with session := c' } hact hquiet rfl rfl rfl
  exact ⟨⟨stream', unsent, done, rest, part, hout', htracked⟩, h.frames.trans (by rw [hright])⟩

theorem Session.actAll_right {P : Setup} (now : Nat → Nat)
    (cmds : List (WireBridgeCommand WireBridgeProtobufDataBody)) {c : GroupSession}
    (hact : c.actAll P (cmds.mapIdx fun i cmd => .commandLeft (now i) cmd) = some c') :
    c'.right = c.right := by
  induction cmds generalizing c now with
  | nil =>
    obtain rfl := Option.some.inj hact
    rfl
  | cons cmd cmds ih =>
    rw [mapIdx_cons] at hact
    obtain ⟨c₁, hhead, hrest⟩ := Option.bind_eq_some_iff.mp hact
    obtain ⟨x, -, rfl⟩ := Option.map_eq_some_iff.mp hhead
    have hsame := ih (fun i => now (i + 1)) hrest
    exact hsame

variable {envelope : WireBridgeEnvelope WireBridgeProtobufDataBody}

/-- What one frame of an envelope means for the log: it is noted if the bridge takes it. -/
theorem takenFrames {T : Type} {s : BridgeState T}
    {es : List (WireBridgeEvent T WireBridgeProtobufDataBody)}
    (h : inbounds es = if s.takes envelope then [envelope] else []) :
    (inbounds es).filterMap WireBridgeEnvelope.frame? =
      if s.takes envelope then envelope.frame?.toList else [] := by
  rw [h]
  split
  · cases hframe : envelope.frame? <;> simp [hframe]
  · rfl

/-- A delivery to the right side. A frame that the bridge does not take belongs to a cause
    the gate remembers. -/
theorem GroupSound.deliver (h : GroupSound S w) {index : Nat}
    (hget : (outbounds w.session.left.events)[index]? = some envelope)
    {state : BridgeState WireBridgeProtobufDataBody}
    {es : List (WireBridgeEvent WireBridgeProtobufDataBody WireBridgeProtobufDataBody)}
    (hin : processInbound S.session.sessionId w.session.right.state (.envelope envelope) =
      .ok (state, es))
    (hcalm : ∀ frame, envelope.frame? = some frame →
      w.session.right.state.takes envelope = true ∨ w.gate.knows frame.causeId) :
    GroupSound S
      { w with
        session := { w.session with right := ⟨state, w.session.right.events ++ es⟩ }
        gate := (arrive S w.gate envelope).1
        log := w.log ++ ((inbounds es).filterMap WireBridgeEnvelope.frame?).map .frame ++
          (arrive S w.gate envelope).2 } := by
  obtain ⟨stream, unsent, done, rest, part, hout, htracked⟩ := h.tracked
  have hmem := mem_of_getElem? hget
  obtain ⟨hvalid, hsession⟩ := hout.numbered.flow.valid envelope hmem
  have htaken := takenFrames (processInbound_takes hvalid hsession hin)
  have hact : w.session.act S.session (.deliverRight index) =
      some { w.session with right := ⟨state, w.session.right.events ++ es⟩ } := by
    rw [Session.act, hget, Option.bind_some, hin]
    rfl
  have hcohort : ∀ c ∈ done ++ rest, c.values.map Prod.fst = S.edges := fun c hc =>
    hout.edges c (hout.cohorts ▸ mem_append_left _ hc)
  have hframe : ∀ frame, envelope.frame? = some frame →
      validateWireEdgeGroupFrame S.inName frame = none := by
    intro frame hcarries
    have hstream := hout.frames.subset (hout.numbered.mem_frames hmem hcarries)
    obtain ⟨c, hc, hin⟩ := mem_flatMap.mp hstream
    refine validateWireEdgeGroupFrame_cohort (hcohort c hc) ?_ hin
    have hid : c.causeId ∈ (done ++ rest).map Cohort.causeId := mem_map_of_mem hc
    rw [hout.causes] at hid
    obtain ⟨k, -, hk⟩ := mem_map.mp hid
    rw [← hk]
    exact causeKey_ne _ _
  have harrival := arrive_cases w.gate hvalid hsession hframe
  generalize arrive S w.gate envelope = arrival at harrival
  -- The log of frames grows as the bridge takes them, whatever the gate does.
  have hnext : framesOf w.log ++ (inbounds es).filterMap WireBridgeEnvelope.frame? <+:
      (done ++ rest).flatMap Cohort.frames := by
    obtain ⟨stream', hout'⟩ := hout.act { w with session := _ } hact
      (fun _ _ heq => absurd heq (by simp)) rfl rfl rfl
    have hreceived := hout'.numbered.received_prefix.trans hout'.frames
    rwa [inbounds_append, filterMap_append, ← h.frames] at hreceived
  have hgate : ∃ done' rest' part', done' ++ rest' = done ++ rest ∧
      Tracked arrival.1
        (w.log ++ ((inbounds es).filterMap WireBridgeEnvelope.frame?).map .frame ++ arrival.2)
        done' rest' part' := by
    cases harrival with
    | @frame frame hcarries =>
      rw [hcarries] at htaken
      by_cases htakes : w.session.right.state.takes envelope = true
      · rw [if_pos htakes] at htaken
        rw [htaken] at hnext ⊢
        exact htracked.takeFrame hnext
          (fun c hc => hcohort c (mem_append_right _ hc)) hout.nodup
      · rw [if_neg htakes] at htaken
        obtain ⟨hsame, hnothing⟩ := reduceFrame_known S.inName S.expectedIds
          ((hcalm frame hcarries).resolve_left htakes)
        refine ⟨done, rest, part, rfl, ?_⟩
        rw [htaken, hsame, hnothing, map_nil, map_nil, append_nil, append_nil]
        exact htracked
    | ended hcarries =>
      rw [hcarries, Option.toList_none, ite_self] at htaken
      obtain ⟨hnothing, hended⟩ := htracked.bridgeEnd S
      refine ⟨done, rest, part, rfl, ?_⟩
      rw [htaken, hnothing, map_nil, map_nil, append_nil]
      exact hended
    | silent hcarries =>
      rw [hcarries, Option.toList_none, ite_self] at htaken
      refine ⟨done, rest, part, rfl, ?_⟩
      rw [htaken, map_nil, append_nil, append_nil]
      exact htracked
  obtain ⟨done', rest', part', hwhole, htracked'⟩ := hgate
  obtain ⟨stream', hout'⟩ := hout.act
    { w with
      session := { w.session with right := ⟨state, w.session.right.events ++ es⟩ }
      gate := arrival.1
      log := w.log ++ ((inbounds es).filterMap WireBridgeEnvelope.frame?).map .frame ++ arrival.2 }
    hact (fun _ _ heq => absurd heq (by simp)) rfl rfl rfl
  refine ⟨⟨stream', unsent, done', rest', part', hwhole ▸ hout', htracked'⟩, ?_⟩
  have hquiet : framesOf arrival.2 = [] := by
    cases harrival with
    | frame hcarries => exact framesOf_released _
    | ended hcarries => exact framesOf_released _
    | silent hcarries => rfl
  rw [inbounds_append, filterMap_append, framesOf_append, framesOf_append, framesOf_frames,
    hquiet, append_nil, h.frames]

variable [DecidableEq V]

theorem GroupSound.run (h : GroupSound S w) {now : Nat → Nat} {batches : List (EdgeBatch V)}
    (hstep : groupStep S w (.run now batches) = some w') : GroupSound S w' := by
  obtain ⟨stream, unsent, done, rest, part, hout, htracked⟩ := h.tracked
  have hcases := wireEdgeGroupEvents_cases S.outName S.edges w.out batches
  simp only [groupStep] at hstep
  generalize wireEdgeGroupEvents S.outName S.edges w.out batches = made at hcases hstep
  obtain ⟨out, events, cohort?⟩ := made
  obtain ⟨session, hall, rfl⟩ := Option.map_eq_some_iff.mp hstep
  have hright := Session.actAll_right now (groupCommands events) hall
  refine ⟨?_, by rw [hright]; exact h.frames⟩
  rcases hcases with ⟨hnone, hcommands, hcause⟩ | ⟨cohort, hsome, hcommands, hcause, hid, hedges⟩
  · -- Nothing is sent.
    simp only at hnone hcommands hcause
    subst hnone
    rw [hcommands] at hall
    obtain rfl := Option.some.inj hall
    exact ⟨stream, unsent, done, rest, part, hout.keep rfl hcause (append_nil _), htracked⟩
  · simp only at hsome hcommands hcause
    subst hsome
    rw [hcommands] at hall
    obtain ⟨stream', more, hout'⟩ := hout.send
      { w with session, out, cohorts := w.cohorts ++ (some cohort).toList } now hall
      rfl rfl hcause hid hedges
    refine ⟨stream', _, done, rest ++ more, part, append_assoc done rest more ▸ hout',
      htracked.more fun c hc => ?_⟩
    refine S.frames_ne (hout'.edges c ?_)
    rw [hout'.cohorts]
    exact mem_append_left _ (mem_append_right _ hc)

/-- A calm step keeps the invariant. -/
theorem GroupSound.step (h : GroupSound S w) {step : GroupStep V} (hcalm : calm w step = true)
    (hstep : groupStep S w step = some w') : GroupSound S w' := by
  have hsound : w.session.Sound S.session := by
    obtain ⟨stream, unsent, done, rest, part, hout, -⟩ := h.tracked
    exact hout.numbered.sound
  cases step with
  | run now batches => exact h.run hstep
  | act a =>
    cases a with
    | commandLeft now cmd =>
      rw [groupStep] at hstep
      by_cases hframe : cmd.frame?.isSome = true
      · rw [if_pos hframe] at hstep
        cases hstep
      · rw [if_neg hframe] at hstep
        obtain ⟨c', hact, rfl⟩ := Option.map_eq_some_iff.mp hstep
        refine h.act hact (fun _ _ heq => ?_) ?_
        · obtain ⟨-, rfl⟩ := Action.commandLeft.inj heq
          simpa using hframe
        · obtain ⟨x, -, rfl⟩ := Option.map_eq_some_iff.mp hact
          rfl
    | commandRight now cmd =>
      obtain ⟨c', hact, rfl⟩ := Option.map_eq_some_iff.mp hstep
      refine h.act hact (fun _ _ heq => absurd heq (by simp)) ?_
      cases Session.act_cases hsound hact with
      | commandRight hdone => rw [inbounds_append, hdone.accepted, append_nil]
    | deliverLeft index =>
      obtain ⟨c', hact, rfl⟩ := Option.map_eq_some_iff.mp hstep
      refine h.act hact (fun _ _ heq => absurd heq (by simp)) ?_
      cases Session.act_cases hsound hact with
      | deliverLeft hmem hsent hdone => rfl
    | deliverRight index =>
      obtain ⟨envelope, hget, hrest⟩ := Option.bind_eq_some_iff.mp hstep
      obtain ⟨state, es, hin, -, -⟩ :=
        inbound_cases S.session.sessionId w.session.right.state envelope
      simp only [hin, Option.some.injEq] at hrest
      subst hrest
      refine h.deliver hget hin fun frame hframe => ?_
      simp only [calm, hget, hframe, Bool.or_eq_true, decide_eq_true_eq] at hcalm
      exact hcalm

theorem GroupSound.groupRun {steps : List (GroupStep V)} (h : GroupSound S w)
    (hrun : groupRun S calm steps w = some w') : GroupSound S w' := by
  induction steps generalizing w with
  | nil =>
    obtain rfl := Option.some.inj hrun
    exact h
  | cons step steps ih =>
    rw [Bridge.groupRun] at hrun
    by_cases hcalm : calm w step = true
    · rw [if_pos hcalm] at hrun
      obtain ⟨w₁, hstep, hrest⟩ := Option.bind_eq_some_iff.mp hrun
      exact ih (h.step hcalm hstep) hrest
    · rw [if_neg hcalm] at hrun
      cases hrun

theorem Cohort.nodup_frames (h : (cohort.values.map Prod.fst).Nodup) :
    cohort.frames.Nodup := by
  have hvalues : cohort.values.Nodup := h.of_map
  refine (hvalues.map_on ?_).append (hvalues.map_on ?_) ?_
  · intro v hv w hw heq
    exact inj_on_of_nodup_map h hv hw (congrArg CanonicalWireEdgeFrame.edgeId heq)
  · intro v hv w hw heq
    exact inj_on_of_nodup_map h hv hw (congrArg CanonicalWireEdgeFrame.edgeId heq)
  · intro frame hdirty hdata
    obtain ⟨v, -, rfl⟩ := mem_map.mp hdirty
    obtain ⟨w, -, heq⟩ := mem_map.mp hdata
    exact absurd (congrArg CanonicalWireEdgeFrame.kind heq) (by simp [dataFrame, dirtyFrame])

omit [DecidableEq V] in
/-- A cohort that came through is one whose frames the gate was given to the last. -/
theorem GroupSound.mem_done {stream : List (WireBridgeEnvelope WireBridgeProtobufDataBody)}
    {unsent : List Cohort} (hout : Outflow S w stream (done ++ rest) unsent)
    (htracked : Tracked w.gate w.log done rest part)
    (hframes : framesOf w.log =
      (inbounds w.session.right.events).filterMap WireBridgeEnvelope.frame?) (hcohort :
    cohort ∈ w.cohorts) (hcame : CameThrough cohort w) :
    cohort ∈ done := by
  have hkeys := hout.edges cohort hcohort
  -- A frame of the cohort that came through is one of its own cause.
  have hown : ∀ frame ∈ cohort.frames, frame ∈ done.flatMap Cohort.frames ++ part := by
    intro frame hframe
    obtain ⟨e, he, hcarries, hseq⟩ := hcame frame hframe
    rw [← htracked.frames, hframes]
    exact hout.numbered.mem_received he hcarries hseq
  have hcause : ∀ c ∈ done ++ rest, c.causeId = cohort.causeId → c = cohort := by
    intro c hc hid
    rw [hout.cohorts] at hcohort
    rcases mem_append.mp hcohort with hsent | hunsent
    · exact inj_on_of_nodup_map hout.nodup hc hsent hid
    · exact absurd (hid ▸ mem_map_of_mem hc) (hout.other hunsent)
  by_contra hdone
  have hpart : ∀ frame ∈ cohort.frames, frame ∈ part := by
    intro frame hframe
    refine (mem_append.mp (hown frame hframe)).resolve_left fun hin => ?_
    obtain ⟨c, hc, hmem⟩ := mem_flatMap.mp hin
    have hid := (Cohort.frame_causeId hmem).symm.trans (Cohort.frame_causeId hframe)
    obtain rfl := hcause c (mem_append_left _ hc) hid
    exact hdone hc
  obtain ⟨first, hfirst⟩ := exists_mem_of_ne_nil _ (S.frames_ne hkeys)
  cases rest with
  | nil =>
    cases htracked.position with
    | idle hrest => exact absurd (hpart first hfirst) not_mem_nil
    | collecting c hhead => cases hhead
    | broken c hhead => cases hhead
  | cons c rest =>
    obtain ⟨⟨more, hmore⟩, hshort⟩ := htracked.short c rfl
    have hin : first ∈ c.frames := hmore ▸ mem_append_left _ (hpart first hfirst)
    have hid := (Cohort.frame_causeId hin).symm.trans (Cohort.frame_causeId hfirst)
    obtain rfl := hcause c (by simp) hid
    -- The frame that is still to come would be there twice.
    cases more with
    | nil => exact hshort ((append_nil part).symm.trans hmore)
    | cons last more =>
      have hnodup := Cohort.nodup_frames (hkeys ▸ S.nodup)
      have hlast := hpart last (hmore ▸ by simp)
      rw [← hmore] at hnodup
      exact disjoint_of_nodup_append hnodup hlast mem_cons_self

theorem Carries.causes {rs : List WireEdgeGroupReleaseCohort} {cohorts : List Cohort}
    (h : List.Forall₂ Carries rs cohorts) : rs.map (·.causeId) = cohorts.map Cohort.causeId := by
  induction h with
  | nil => rfl
  | cons hhead _ ih => rw [map_cons, map_cons, hhead.1, ih]

/-- In calm runs every cohort that came through without an end of the bridge is released,
    once, in order and with its bytes. -/
theorem cohorts_released (S : GroupSetup) {steps : List (GroupStep V)}
    (hrun : Bridge.groupRun S calm steps (GroupWorld.initial V) = some w) : CohortsReleased w := by
  obtain ⟨⟨stream, unsent, done, rest, part, hout, htracked⟩, hframes⟩ :=
    (GroupSound.initial S V).groupRun hrun
  obtain ⟨cohorts, hsub, hcarries⟩ := htracked.order
  refine ⟨⟨cohorts, ?_, hcarries⟩, ?_, ?_⟩
  · rw [hout.cohorts, append_assoc]
    exact hsub.trans (sublist_append_left _ _)
  · rw [Carries.causes hcarries]
    exact hout.nodup.sublist ((hsub.trans (sublist_append_left _ _)).map _)
  · intro cohort hcohort hcame huninterrupted
    have hdone := GroupSound.mem_done hout htracked hframes hcohort hcame
    exact (htracked.settled cohort hdone).resolve_left huninterrupted

end Sound

/-- Two edges, which the inbound side names in the other order. -/
def twoEdges : GroupSetup where
  session := Session.pairSetup
  outName := "out"
  inName := "in"
  edges := ["x", "y"]
  expectedIds := ["y", "x"]
  edges_ne := by decide
  nodup := by decide
  ids_ne := by decide
  perm := by decide

/-- A value of each edge at once. -/
def valuesOf (values : List (String × Bytes)) : GroupStep Nat :=
  .run (fun _ => 1) (values.map fun v => ⟨v.1, none, [.bytes v.2]⟩)

def deliverAll (indices : List Nat) : List (GroupStep Nat) :=
  indices.map fun index => .act (.deliverRight index)

/-- The first frame times out and its second attempt takes its place; what was released
    arrives again afterwards. -/
def retriedFirst : List (GroupStep Nat) :=
  [valuesOf [("x", [1]), ("y", [2])], .act (.commandLeft 5 (.ackTimeout 1 1 none))] ++
    deliverAll [4, 1, 2, 3, 0, 2]

theorem cohorts_released_retriedFirst :
    ∃ w, groupRun twoEdges calm retriedFirst (GroupWorld.initial Nat) = some w ∧
      (w.cohorts.length = 1 ∧ (releases w.log).length = 1) ∧ CohortsReleased w := by
  have hrun : (groupRun twoEdges calm retriedFirst (GroupWorld.initial Nat)).map (fun w =>
      (w.cohorts.length, (releases w.log).length)) = some (1, 1) := by
    decide +kernel
  obtain ⟨w, hw, hcounts⟩ := Option.map_eq_some_iff.mp hrun
  exact ⟨w, hw, Prod.mk.inj hcounts, cohorts_released twoEdges hw⟩

def oneEdge : GroupSetup where
  session := Session.pairSetup
  outName := "out"
  inName := "in"
  edges := ["x"]
  expectedIds := ["x"]
  edges_ne := by decide
  nodup := by decide
  ids_ne := by decide
  perm := by decide

/-- A cohort of one edge, whose DIRTY frame arrives twice. -/
def dirtyTwice : List (GroupStep Nat) :=
  valuesOf [("x", [7])] :: deliverAll [0, 0, 1]

def onlyCohort : Cohort := ⟨causeKey "out" 1, [("x", [7])]⟩

/-- Both frames of a cohort are accepted and the bridge never ends, but nothing is
    released: the second DIRTY frame, which the bridge turns away, has failed the cause. -/
theorem duplicate_fails_cohort :
    ∃ w, groupRun oneEdge (fun _ _ => true) dirtyTwice (GroupWorld.initial Nat) = some w ∧
      (onlyCohort ∈ w.cohorts ∧ CameThrough onlyCohort w ∧ ¬ Interrupted onlyCohort w.log) ∧
        releases w.log = [] ∧ ¬ CohortsReleased w := by
  have hrun : (groupRun oneEdge (fun _ _ => true) dirtyTwice (GroupWorld.initial Nat)).map
      (fun w => (w.cohorts, w.log.all fun fact => (framesOf [fact]).isEmpty = false,
        (outbounds w.session.left.events).map fun e =>
          (e.frame?, decide (e.metadata.seq ≤ w.session.right.state.cursor)))) =
        some ([onlyCohort], true,
          [(some (onlyCohort.dirtyFrame ("x", [7])), true),
            (some (onlyCohort.dataFrame ("x", [7])), true)]) := by
    decide +kernel
  obtain ⟨w, hw, heq⟩ := Option.map_eq_some_iff.mp hrun
  obtain ⟨hcohorts, hrest⟩ := Prod.mk.inj heq
  obtain ⟨hfacts, hsent⟩ := Prod.mk.inj hrest
  have hframes : ∀ fact ∈ w.log, ∃ frame, fact = .frame frame := by
    intro fact hfact
    have hsome := all_eq_true.mp hfacts fact hfact
    cases fact with
    | frame frame => exact ⟨frame, rfl⟩
    | ended => exact absurd hsome (by decide)
    | released r => exact absurd hsome (by simp [framesOf])
  have hmem : onlyCohort ∈ w.cohorts := hcohorts ▸ mem_singleton_self _
  have hnone : releases w.log = [] := by
    refine filterMap_eq_nil_iff.mpr fun fact hfact => ?_
    obtain ⟨frame, rfl⟩ := hframes fact hfact
    rfl
  have hcame : CameThrough onlyCohort w := by
    intro frame hframe
    have hin : (some frame, true) ∈ (outbounds w.session.left.events).map fun e =>
        (e.frame?, decide (e.metadata.seq ≤ w.session.right.state.cursor)) := by
      rw [hsent]
      simp only [Cohort.frames, onlyCohort, map_cons, map_nil, cons_append,
        nil_append] at hframe
      simp only [mem_cons, not_mem_nil, or_false] at hframe
      rcases hframe with rfl | rfl
      · exact mem_cons_self
      · exact mem_cons_of_mem _ mem_cons_self
    obtain ⟨e, he, hpair⟩ := mem_map.mp hin
    obtain ⟨hcarries, hseq⟩ := Prod.mk.inj hpair
    exact ⟨e, he, hcarries, of_decide_eq_true hseq⟩
  have hwhole : ¬ Interrupted onlyCohort w.log := by
    rintro ⟨before, first, during, last, after, hlog, -, -, hended⟩
    have hin : GroupFact.ended ∈ w.log := by
      rw [hlog]
      exact mem_append_left _ (mem_append_right _ (mem_cons_of_mem _ hended))
    obtain ⟨frame, heq⟩ := hframes .ended hin
    cases heq
  refine ⟨w, hw, ⟨hmem, hcame, hwhole⟩, hnone, fun hclaim => ?_⟩
  obtain ⟨r, hr, -⟩ := hclaim.released onlyCohort hmem hcame hwhole
  rw [hnone] at hr
  exact absurd hr not_mem_nil

end GraphRefly.Bridge
