import GraphRefly.Bridge.EdgeGroup

/-!
# The Gate Over A Cohort

What the gate does with the frames of one cohort, given in the order in which they
were sent. While the cohort is collected the gate holds exactly the edges and the
bytes it has been given, and with the last frame it releases them.

## Main definitions

* `Gathering`: The gate has taken the first frames of a cohort.
* `Carries`: A release has the bytes of a cohort, edge by edge.

## Theorems

* `Taken.step`: The gate over one more frame of a cohort.
* `Taken.interrupt`: The gate when the bridge ends.
-/

namespace GraphRefly.Bridge

open List GraphRefly.Lib

/-- A release has the cause of a cohort and, for every edge, the bytes of the cohort. -/
def Carries (release : WireEdgeGroupReleaseCohort) (cohort : Cohort) : Prop :=
  release.causeId = cohort.causeId ∧
    ∀ edgeId bytes, release.values.lookup edgeId = some bytes ↔ (edgeId, bytes) ∈ cohort.values

/-- The cohorts among what a gate puts out. -/
def releasesOf (outputs : List WireEdgeGroupGateState.Output) : List WireEdgeGroupReleaseCohort :=
  outputs.filterMap fun
    | .cohort cohort => some cohort
    | .gate _ => none

/-- The gate has taken the DIRTY frames of `ds` and the DATA frames of `es`, and nothing
    has happened to the cause. -/
structure Gathering (g : WireEdgeGroupGateState) (cohort : Cohort)
    (ds es : List (String × Bytes)) : Prop where
  active : g.activeCauseId = if ds = [] then none else some cohort.causeId
  dirty : g.dirty = (ds.map Prod.fst).toFinset
  data : g.data = .ofList es
  notFailed : cohort.causeId ∉ g.failed.seen
  notReleased : cohort.causeId ∉ g.released.seen

/-- The gate is collecting nothing. -/
structure AtRest (g : WireEdgeGroupGateState) : Prop where
  active : g.activeCauseId = none
  dirty : g.dirty = ∅
  data : g.data = .empty

theorem AtRest.default : AtRest .default := ⟨rfl, rfl, rfl⟩

theorem AtRest.reset (g : WireEdgeGroupGateState) : AtRest g.reset := ⟨rfl, rfl, rfl⟩

theorem AtRest.gathering {g : WireEdgeGroupGateState} (h : AtRest g) {cohort : Cohort}
    (hf : cohort.causeId ∉ g.failed.seen) (hr : cohort.causeId ∉ g.released.seen) :
    Gathering g cohort [] [] :=
  ⟨h.active, h.dirty, h.data, hf, hr⟩

/-- The memory of a gate. -/
def WireEdgeGroupGateState.knows (g : WireEdgeGroupGateState) (causeId : String) : Prop :=
  causeId ∈ g.failed.seen ∨ causeId ∈ g.released.seen

section Frame

variable {name : String} {expectedIds : List String} {g : WireEdgeGroupGateState}
  {cohort : Cohort} {ds es : List (String × Bytes)} {v : String × Bytes}

variable {frame : CanonicalWireEdgeFrame}

theorem reduceFrame_known (name : String) (expectedIds : List String) (h : g.knows frame.causeId) :
    (g.reduceFrame name expectedIds frame).1 = g ∧
      releasesOf (g.reduceFrame name expectedIds frame).2 = [] := by
  rw [WireEdgeGroupGateState.reduceFrame]
  by_cases hf : frame.causeId ∈ g.failed.seen
  · rw [if_pos hf]
    exact ⟨rfl, rfl⟩
  · rw [if_neg hf, if_pos (h.resolve_left hf)]
    exact ⟨rfl, rfl⟩

theorem Gathering.reduceFrame_eq (h : Gathering g cohort ds es)
    (hcause : frame.causeId = cohort.causeId) (hexpected : frame.edgeId ∈ expectedIds) :
    g.reduceFrame name expectedIds frame =
      match frame.kind with
      | .dirty => g.dirtyFrame name frame
      | .data => g.dataFrame name expectedIds frame := by
  have hrival : (g.activeCauseId.filter fun active => active ≠ cohort.causeId) = none := by
    rw [h.active]
    split <;> simp
  rw [WireEdgeGroupGateState.reduceFrame, hcause, if_neg h.notFailed, if_neg h.notReleased, hrival]
  exact if_neg (not_not.mpr hexpected)

theorem Gathering.dirty_step (name : String) (h : Gathering g cohort ds [])
    (hnew : v.1 ∉ ds.map Prod.fst)
    (hexpected : v.1 ∈ expectedIds) :
    let out := g.reduceFrame name expectedIds (cohort.dirtyFrame v)
    Gathering out.1 cohort (ds ++ [v]) [] ∧ out.1.failed = g.failed ∧
      out.1.released = g.released ∧ releasesOf out.2 = [] := by
  have hactive : g.activeCauseId.or (some cohort.causeId) = some cohort.causeId := by
    rw [h.active]
    split <;> rfl
  have hdirty : v.1 ∉ g.dirty := by
    rw [h.dirty, mem_toFinset]
    exact hnew
  have hstep : g.reduceFrame name expectedIds (cohort.dirtyFrame v) =
      g.dirtyFrame name (cohort.dirtyFrame v) := h.reduceFrame_eq rfl hexpected
  simp only [hstep]
  simp only [WireEdgeGroupGateState.dirtyFrame, Cohort.dirtyFrame, hactive, if_neg hdirty]
  refine ⟨⟨?_, ?_, h.data, h.notFailed, h.notReleased⟩, trivial, trivial, rfl⟩
  · simp
  · rw [h.dirty]
    ext id
    simp

/-- What the gate finds when the bytes of one more edge come: a cause that is active, an
    edge that is dirty and has no bytes yet, and as many bytes as it was given. -/
theorem Gathering.dataFrame_eq (h : Gathering g cohort cohort.values es)
    (hdistinct : (cohort.values.map Prod.fst).Nodup) (hsub : (es ++ [v]).Sublist cohort.values) :
    g.dataFrame name expectedIds (cohort.dataFrame v) =
      let data : SortedMap String Bytes := .ofList (es ++ [v])
      if g.dirty.card = expectedIds.length ∧ es.length + 1 = expectedIds.length then
        let values : SortedMap String Bytes := .ofList (expectedIds.filterMap fun edgeId =>
          (data.lookup edgeId).map fun value => (edgeId, value))
        ({ g with released := g.released.insert cohort.causeId }.reset,
          [.gate (.release cohort.causeId values.length), .cohort ⟨cohort.causeId, values⟩])
      else ({ g with data }, [{ g with data }.progress cohort.causeId]) := by
  have hmem : v ∈ cohort.values := hsub.subset (by simp)
  have hactive : g.activeCauseId ≠ none := by
    rw [h.active, if_neg (ne_nil_of_mem hmem)]
    simp
  have hdirty : v.1 ∈ g.dirty := by
    rw [h.dirty, mem_toFinset]
    exact mem_map_of_mem hmem
  have hkeys : ((es ++ [v]).map Prod.fst).Nodup := hdistinct.sublist (hsub.map _)
  rw [map_append] at hkeys
  have hnew : (g.data.lookup v.1).isSome = false := by
    rw [Option.isSome_eq_false_iff, Option.isNone_iff_eq_none, h.data, SortedMap.lookup_eq_none]
    intro e he hkey
    exact disjoint_of_nodup_append hkeys (mem_map_of_mem (SortedMap.mem_ofList he))
      (by simp [hkey])
  have hlength : g.data.length = es.length := by
    rw [h.data, SortedMap.length_ofList hkeys.of_append_left]
  have hdata : g.data.insert v.1 v.2 = SortedMap.ofList (es ++ [v]) := by
    rw [h.data, SortedMap.ofList_concat]
  simp only [WireEdgeGroupGateState.dataFrame, Cohort.dataFrame, if_neg hactive, hdirty,
    not_true_eq_false, if_false, hnew, Bool.false_eq_true, hlength, Option.getD_some, hdata]

theorem Gathering.data_step (name : String) (h : Gathering g cohort cohort.values es)
    (hdistinct : (cohort.values.map Prod.fst).Nodup) (hsub : (es ++ [v]).Sublist cohort.values)
    (hexpected : v.1 ∈ expectedIds) (hmore : es.length + 1 ≠ expectedIds.length) :
    let out := g.reduceFrame name expectedIds (cohort.dataFrame v)
    Gathering out.1 cohort cohort.values (es ++ [v]) ∧ out.1.failed = g.failed ∧
      out.1.released = g.released ∧ releasesOf out.2 = [] := by
  have hstep : g.reduceFrame name expectedIds (cohort.dataFrame v) =
      g.dataFrame name expectedIds (cohort.dataFrame v) := h.reduceFrame_eq rfl hexpected
  have hnotReady : ¬ (g.dirty.card = expectedIds.length ∧
      es.length + 1 = expectedIds.length) := fun hready => hmore hready.2
  simp only [hstep, h.dataFrame_eq hdistinct hsub, if_neg hnotReady]
  exact ⟨⟨h.active, h.dirty, rfl, h.notFailed, h.notReleased⟩, trivial, trivial, rfl⟩

theorem lookup_readBack {keys : List String} {values : List (String × Bytes)}
    (hkeys : keys.Nodup) (hvalues : (values.map Prod.fst).Nodup)
    (hsub : ∀ v ∈ values, v.1 ∈ keys) (edgeId : String) (bytes : Bytes) :
    (SortedMap.ofList (keys.filterMap fun id =>
        ((SortedMap.ofList values).lookup id).map fun value => (id, value))).lookup edgeId =
      some bytes ↔ (edgeId, bytes) ∈ values := by
  rw [SortedMap.lookup_select _ hkeys]
  constructor
  · intro h
    by_cases hid : edgeId ∈ keys
    · rw [if_pos hid] at h
      exact SortedMap.mem_ofList (SortedMap.lookup_eq_some h)
    · rw [if_neg hid] at h
      cases h
  · intro hmem
    rw [if_pos (hsub _ hmem)]
    exact SortedMap.lookup_eq_some_iff.mpr ((SortedMap.mem_ofList_iff hvalues).mpr hmem)

theorem Gathering.last_step (name : String) (h : Gathering g cohort cohort.values es)
    (hdistinct : (cohort.values.map Prod.fst).Nodup) (hall : es ++ [v] = cohort.values)
    (hperm : expectedIds.Perm (cohort.values.map Prod.fst)) :
    let out := g.reduceFrame name expectedIds (cohort.dataFrame v)
    AtRest out.1 ∧ out.1.failed = g.failed ∧
      out.1.released = g.released.insert cohort.causeId ∧
        ∃ release, releasesOf out.2 = [release] ∧ Carries release cohort := by
  have hmem : v ∈ cohort.values := hall ▸ by simp
  have hexpected : v.1 ∈ expectedIds := hperm.mem_iff.mpr (mem_map_of_mem hmem)
  have hsize : expectedIds.length = cohort.values.length := by
    rw [hperm.length_eq, length_map]
  have hready : g.dirty.card = expectedIds.length ∧ es.length + 1 = expectedIds.length := by
    refine ⟨?_, ?_⟩
    · rw [h.dirty, toFinset_card_of_nodup hdistinct, length_map, hsize]
    · rw [hsize, ← hall, length_append, length_singleton]
  have hstep : g.reduceFrame name expectedIds (cohort.dataFrame v) =
      g.dataFrame name expectedIds (cohort.dataFrame v) := h.reduceFrame_eq rfl hexpected
  have hsub : (es ++ [v]).Sublist cohort.values := hall.symm ▸ List.Sublist.refl _
  simp only [hstep, h.dataFrame_eq hdistinct hsub, if_pos hready, hall]
  refine ⟨AtRest.reset _, rfl, rfl, _, rfl, rfl, ?_⟩
  exact lookup_readBack (hperm.nodup_iff.mpr hdistinct) hdistinct
    fun w hw => hperm.mem_iff.mpr (mem_map_of_mem hw)

theorem Gathering.interrupt (h : Gathering g cohort ds es) (hds : ds ≠ []) :
    let out := g.gateEvent name expectedIds .bridgeEnd
    AtRest out.1 ∧ cohort.causeId ∈ out.1.failed.seen ∧
      (∀ id ∈ out.1.failed.seen, id = cohort.causeId ∨ id ∈ g.failed.seen) ∧
        out.1.released = g.released ∧ releasesOf out.2 = [] := by
  have hactive : g.activeCauseId = some cohort.causeId := by
    rw [h.active, if_neg hds]
  simp only [WireEdgeGroupGateState.gateEvent, hactive]
  exact ⟨AtRest.reset _, WireEdgeGroupCauseTombstones.mem_insert_self _ _,
    fun id hid => WireEdgeGroupCauseTombstones.mem_insert hid, rfl, rfl⟩

theorem AtRest.interrupt (h : AtRest g) :
    g.gateEvent name expectedIds .bridgeEnd = (g, []) := by
  simp only [WireEdgeGroupGateState.gateEvent, h.active]

/-! ### A cohort, frame by frame -/

/-- The gate has taken exactly these first frames of a cohort. -/
structure Taken (cohort : Cohort) (g : WireEdgeGroupGateState)
    (part : List CanonicalWireEdgeFrame) : Prop where
  split : ∃ ds es, Gathering g cohort ds es ∧
    part = ds.map cohort.dirtyFrame ++ es.map cohort.dataFrame ∧
      ds <+: cohort.values ∧ es <+: cohort.values ∧ (es ≠ [] → ds = cohort.values)

theorem AtRest.taken (h : AtRest g) (hknows : ¬ g.knows cohort.causeId) : Taken cohort g [] :=
  ⟨⟨[], [], h.gathering (fun hf => hknows (Or.inl hf)) (fun hr => hknows (Or.inr hr)), rfl,
    nil_prefix, nil_prefix, fun hne => absurd rfl hne⟩⟩

variable {part : List CanonicalWireEdgeFrame}

/-- The gate over the next frame of a cohort: it has taken one more, or that was the last
    and the cohort is released. -/
theorem Taken.step (name : String) (h : Taken cohort g part)
      (hdistinct : (cohort.values.map Prod.fst).Nodup)
    (hperm : expectedIds.Perm (cohort.values.map Prod.fst))
    (hnext : part ++ [frame] <+: cohort.frames) :
    let out := g.reduceFrame name expectedIds frame
    (part ++ [frame] ≠ cohort.frames ∧ Taken cohort out.1 (part ++ [frame]) ∧
        out.1.failed = g.failed ∧ out.1.released = g.released ∧ releasesOf out.2 = []) ∨
      (part ++ [frame] = cohort.frames ∧ AtRest out.1 ∧ out.1.failed = g.failed ∧
        out.1.released = g.released.insert cohort.causeId ∧
          ∃ release, releasesOf out.2 = [release] ∧ Carries release cohort) := by
  obtain ⟨ds, es, hg, rfl, ⟨rest, hds⟩, ⟨more, hes⟩, hfull⟩ := h.split
  cases rest with
  | cons v rest =>
    -- An edge is still to turn dirty, so there are no bytes yet.
    have hnil : es = [] := by
      by_contra hne
      have hall := hfull hne
      rw [hall] at hds
      exact absurd (append_right_eq_self.mp hds) (by simp)
    subst hnil
    have hframe : frame = cohort.dirtyFrame v := by
      rw [Cohort.frames, ← hds, map_nil, append_nil, map_append,
        append_assoc, prefix_append_right_inj, map_cons, cons_append,
        cons_prefix_cons] at hnext
      exact hnext.1
    subst hframe
    have hkeys := hdistinct
    rw [← hds, map_append, map_cons] at hkeys
    have hnew : v.1 ∉ ds.map Prod.fst := fun hmem =>
      disjoint_of_nodup_append hkeys hmem mem_cons_self
    have hmem : v ∈ cohort.values := hds ▸ by simp
    obtain ⟨hg', hfailed, hreleased, hout⟩ :=
      hg.dirty_step name hnew (hperm.mem_iff.mpr (mem_map_of_mem hmem))
    have hlength := congrArg List.length hds
    refine Or.inl ⟨fun hall => ?_, ⟨⟨ds ++ [v], [], hg', ?_, ⟨rest, ?_⟩, nil_prefix,
      fun hne => absurd rfl hne⟩⟩, hfailed, hreleased, hout⟩
    · have hcount := congrArg List.length hall
      simp only [Cohort.frames, length_append, length_map, length_cons,
        length_nil] at hcount hlength
      omega
    · simp
    · rw [append_assoc]
      exact hds
  | nil =>
    rw [append_nil] at hds
    subst hds
    rw [Cohort.frames, append_assoc, prefix_append_right_inj] at hnext
    cases more with
    | nil =>
      rw [append_nil] at hes
      rw [hes] at hnext
      exact absurd hnext.length_le (by simp)
    | cons v more =>
      have hframe : frame = cohort.dataFrame v := by
        rw [← hes, map_append, prefix_append_right_inj, map_cons,
          cons_prefix_cons] at hnext
        exact hnext.1
      subst hframe
      have hsub : (es ++ [v]).Sublist cohort.values := by
        rw [← hes]
        exact (List.Sublist.refl es).append (singleton_sublist.mpr mem_cons_self)
      have hmem : v ∈ cohort.values := hsub.subset (by simp)
      by_cases hlast : more = []
      · subst hlast
        obtain ⟨hrest, hfailed, hreleased, hout⟩ :=
          hg.last_step name hdistinct hes hperm
        refine Or.inr ⟨?_, hrest, hfailed, hreleased, hout⟩
        rw [Cohort.frames, append_assoc]
        congr 1
        rw [← map_singleton, ← map_append, hes]
      · have hlength := congrArg List.length hes
        have hpos := length_pos_iff.mpr hlast
        rw [length_append, length_cons] at hlength
        have hmore : es.length + 1 ≠ expectedIds.length := by
          rw [hperm.length_eq, length_map]
          omega
        obtain ⟨hg', hfailed, hreleased, hout⟩ := hg.data_step name hdistinct hsub
          (hperm.mem_iff.mpr (mem_map_of_mem hmem)) hmore
        refine Or.inl ⟨fun hall => ?_, ⟨⟨cohort.values, es ++ [v], hg', ?_, prefix_refl _,
          ⟨more, ?_⟩, fun _ => rfl⟩⟩, hfailed, hreleased, hout⟩
        · have hcount := congrArg List.length hall
          simp only [Cohort.frames, length_append, length_map, length_cons,
            length_nil] at hcount
          omega
        · rw [map_append, append_assoc]
          rfl
        · rw [append_assoc]
          exact hes

/-- When the bridge ends, a cohort of which a frame was taken has failed. -/
theorem Taken.interrupt (name : String) (expectedIds : List String) (h : Taken cohort g part)
    (hpart : part ≠ []) :
    let out := g.gateEvent name expectedIds .bridgeEnd
    AtRest out.1 ∧ cohort.causeId ∈ out.1.failed.seen ∧
      (∀ id ∈ out.1.failed.seen, id = cohort.causeId ∨ id ∈ g.failed.seen) ∧
        out.1.released = g.released ∧ releasesOf out.2 = [] := by
  obtain ⟨ds, es, hg, rfl, hds, hes, hfull⟩ := h.split
  refine hg.interrupt ?_
  rintro rfl
  -- Bytes come only after every edge is dirty.
  by_cases hne : es = []
  · subst hne
    exact hpart rfl
  · have hvalues := hfull hne
    rw [← hvalues] at hes
    exact hne (prefix_nil.mp hes)

end Frame

end GraphRefly.Bridge
