import GraphRefly.Collections.Backlog
import GraphRefly.Collections.Writes

/-!
# Durability of a Persistence

When the storage of a persisted collection loads as what the collection holds.

The invariant follows the content that the storage loads as and the backlog behind
it. Every persistence that can still write has the backlog in its queue, so
draining moves its front into the storage; a snapshot replaces the stored content
by that of the mirror, which is the live one.

Three things break this and are what `Careful` excludes. A persistence whose
cursor is not at the end of the change log writes a snapshot that names too few
changes, or appends a change a second time; `persist_reactive_*` starts without a
cursor, so it must meet an empty log and no queue. A persistence that failed and
then ignored a delta has a stale mirror, which `snapshot` would write. And a
cursor counts no further than an `i64`.

## Main definitions

* `Careful`: What a step must not do.
* `Confirmed`: What a step promises of the storage.
* `Inv`: The invariant of a world.

## Theorems

* `Inv.deliver`, `Inv.advance`: The invariant over a delta and over a call.
* `Inv.step`, `Inv.run`: The invariant over a step and over a run.
* `persisted_collection_durable`: Careful runs keep every promise.
-/

namespace GraphRefly.Collections

open List GraphRefly.Json GraphRefly.Storage GraphRefly.Lib

variable {F : Type} [Float64 F] {C : Collection F} {setup : Setup F}
  {restore : List C.Row → Except StorageError C.Content}

/-! ### What is promised, and when -/

/-- A persistence can write without repeating a change or missing one. -/
def Persistence.AtEnd (setup : Setup F) (disk : Disk F) (p : Persistence C) : Prop :=
  (setup.changeLog = true → p.cursor = lastSeq disk.log.length) ∧
    disk.log.length + p.pendingChanges.length ≤ 2 ^ 63

/-- What a step must not do. -/
def Careful (setup : Setup F) (w : World C) : Step C → Prop
  | .flush i _ => ∀ p, w.persistences[i]? = some p → p.disposed = false → p.errored = false →
      p.AtEnd setup w.disk
  | .snapshot i _ => ∀ p, w.persistences[i]? = some p → p.disposed = false →
      p.AtEnd setup w.disk ∧ p.missed = false
  | .persist _ _ => setup.changeLog = true → w.disk.log = [] ∧
      ∀ p ∈ w.persistences, p.disposed = true ∨ p.missed = true ∨ p.pendingChanges = []
  | _ => True

/-- Every step of a run is careful. -/
def CarefulRun (setup : Setup F) (restore : List C.Row → Except StorageError C.Content) :
    World C → List (Step C) → Prop
  | _, [] => True
  | w, s :: steps => Careful setup w s ∧ CarefulRun setup restore (w.step setup restore s).1 steps

/-- A `flush` or a `snapshot` of a persistence that is not disposed. -/
def Confirms (w : World C) : Step C → Prop
  | .flush i _ | .snapshot i _ => ∃ p, w.persistences[i]? = some p ∧ p.disposed = false
  | _ => False

/-- What a step promises of the storage: the live content after an `Ok`, and after
    a crash something the collection held since the last `Ok`, or nothing while
    nothing was ever stored. -/
structure Confirmed (setup : Setup F) (w : World C) (s : Step C) (w' : World C) (ended : Ended) :
    Prop where
  ok : Confirms w s → ended = .ok → ∃ c restored, w'.live = some c ∧
    w'.disk.load C setup = .ok restored ∧ C.Represents restored.state c
  crash : ended = .crash → ∃ restored, w'.disk.load C setup = .ok restored ∧
    ((∃ c ∈ w'.moments, C.Represents restored.state c) ∨
      (w'.okSeen = false ∧ restored.snapshotFound = false ∧ restored.state = []))

/-- Every step of a run keeps its promise. -/
def ConfirmedRun (setup : Setup F) (restore : List C.Row → Except StorageError C.Content) :
    World C → List (Step C) → Prop
  | _, [] => True
  | w, s :: steps =>
    Confirmed setup w s (w.step setup restore s).1 (w.step setup restore s).2 ∧
      ConfirmedRun setup restore (w.step setup restore s).1 steps

/-! ### The invariant -/

/-- What the storage holds: nothing yet, or a content with a backlog behind it. -/
inductive OnDisk (w : World C) : Option C.Content → Backlog C → Prop
  | nothing : w.disk = ⟨none, []⟩ → w.okSeen = false → OnDisk w none []
  | content (c : C.Content) (backlog : Backlog C) : Stored C w.disk c → Backed C c backlog →
      c ∈ w.moments → (∀ e ∈ backlog, e.2 ∈ w.moments) → OnDisk w (some c) backlog

/-- The content that storage and backlog lead to. -/
def reached (stored : Option C.Content) (backlog : Backlog C) : Option C.Content :=
  stored.map fun c => lastContent c backlog

/-- A persistence that can still write. -/
structure Active (setup : Setup F) (disk : Disk F) (p : Persistence C) : Prop where
  disposed : p.disposed = false
  missed : p.missed = false
  cursor : setup.changeLog = true → p.cursor = lastSeq disk.log.length

/-- An active persistence mirrors the live content and queues the backlog; unless
    it failed or has a snapshot to write, that leads to the live content. -/
structure Attuned (setup : Setup F) (stored : Option C.Content) (backlog : Backlog C)
    (c : C.Content) (p : Persistence C) : Prop where
  mirror : C.Represents p.snapshotState c
  pending : p.pendingChanges = backlog.map (·.1)
  upToDate : p.errored = false → setup.changeLog = true ∨ p.snapshotDirty = false →
    reached stored backlog = some c

/-- What holds of every persistence. -/
structure Follower (setup : Setup F) (w : World C) (stored : Option C.Content)
    (backlog : Backlog C) (p : Persistence C) : Prop where
  failed : p.missed = true → p.errored = true
  cursor : p.disposed = false → ∃ m ≤ w.disk.log.length, p.cursor = lastSeq m
  active : Active setup w.disk p → ∃ c, w.live = some c ∧ Attuned setup stored backlog c p

/-- The invariant of a world. -/
structure Inv (setup : Setup F) (w : World C) (stored : Option C.Content) (backlog : Backlog C) :
    Prop where
  disk : OnDisk w stored backlog
  noLog : setup.changeLog = false → w.disk.log = [] ∧ backlog = []
  length : w.disk.log.length ≤ 2 ^ 63
  held : ∀ c, w.live = some c → c ∈ w.moments
  followers : ∀ p ∈ w.persistences, Follower setup w stored backlog p

variable {w : World C} {stored : Option C.Content} {backlog : Backlog C}

theorem Inv.load (h : Inv setup w stored backlog) :
    ∃ restored, w.disk.load C setup = .ok restored ∧
      restored.cursor = lastSeq w.disk.log.length ∧
      ((∃ c ∈ w.moments, C.Represents restored.state c) ∨
        (w.okSeen = false ∧ restored.snapshotFound = false ∧ restored.state = [])) := by
  cases h.disk with
  | nothing hdisk hok =>
    obtain ⟨restored, hload, hstate, hcursor, hfound⟩ := load_empty C setup
    rw [hdisk]
    exact ⟨restored, hload, hcursor, Or.inr ⟨hok, hfound, hstate⟩⟩
  | content c _ hstored _ hmem _ =>
    obtain ⟨restored, hload, hrep, hcursor⟩ :=
      hstored.load (fun hlog => (h.noLog hlog).1) h.length
    exact ⟨restored, hload, hcursor, Or.inl ⟨c, hmem, hrep⟩⟩

theorem Inv.crash (h : Inv setup w stored backlog) : Inv setup (w.crash w.disk) stored backlog where
  disk := by
    cases h.disk with
    | nothing hdisk hok => exact .nothing hdisk hok
    | content c _ hstored hbacked hmem hmems => exact .content c _ hstored hbacked hmem hmems
  noLog := h.noLog
  length := h.length
  held := by simp [World.crash]
  followers := by simp [World.crash]

/-! ### Following a delta -/

theorem onDelta_flags (setup : Setup F) (change : C.Change) (p : Persistence C) :
    (p.onDelta setup change).disposed = p.disposed ∧
      (p.onDelta setup change).cursor = p.cursor ∧
      ((p.missed = true → p.errored = true) →
        (p.onDelta setup change).missed = true → (p.onDelta setup change).errored = true) ∧
      (p.disposed = false → p.errored = true → (p.onDelta setup change).missed = true) := by
  unfold Persistence.onDelta
  cases hdisposed : p.disposed with
  | true => simp [hdisposed]
  | false =>
    cases herrored : p.errored with
    | true => simp
    | false =>
      cases C.mirror p.snapshotState change with
      | error e => simp
      | ok rows =>
        cases C.changeFrame change with
        | error e => simp
        | ok frame => cases setup.changeLog <;> simp

/-- One version of the live collection: how rows follow it. -/
structure VersionStep (C : Collection F) (c : C.Content) (version : C.Change × C.Content) :
    Prop where
  fold : ∀ rows, C.Represents rows c →
    ∃ rows', C.fold rows version.1 = .ok rows' ∧ C.Represents rows' version.2
  mirror : ∀ rows, C.Represents rows c →
    ∃ rows', C.mirror rows version.1 = .ok rows' ∧ C.Represents rows' version.2

/-- A persistence that can write and has not failed. -/
def Writing (setup : Setup F) (w : World C) : Prop :=
  ∃ p ∈ w.persistences, Active setup w.disk p ∧ p.errored = false

variable {c : C.Content}

/-- The backlog after a version: it grows by the frame that the writing
    persistences queue. -/
theorem Inv.deliver (h : Inv setup w stored backlog) (hlive : w.live = some c)
    {change : C.Change} {c' : C.Content} (hversion : VersionStep C c (change, c')) :
    ∃ backlog', Inv setup (w.deliver setup (change, c')) stored backlog' := by
  -- The storage keeps what it holds, among more moments.
  have hgrow : OnDisk w stored backlog → OnDisk (w.deliver setup (change, c')) stored backlog := by
    intro hdisk
    cases hdisk with
    | nothing hdisk hok => exact .nothing hdisk hok
    | content c₀ _ hstored hbacked hmem hmems =>
      exact .content c₀ _ hstored hbacked (mem_append_left _ hmem) fun e he =>
        mem_append_left _ (hmems e he)
  -- Which backlog the queues hold afterwards.
  obtain ⟨backlog', hdisk, hnolog, hqueue⟩ : ∃ backlog' : Backlog C,
      OnDisk (w.deliver setup (change, c')) stored backlog' ∧
      (setup.changeLog = false → backlog' = []) ∧
      (Writing setup w → (∀ e, C.changeFrame change = .error e → backlog' = backlog) ∧
        ∀ frame, C.changeFrame change = .ok frame →
          if setup.changeLog then backlog' = backlog ++ [(frame, c')] ∧
            reached stored backlog' = some c' else backlog' = backlog) := by
    cases hframe : C.changeFrame change with
    | error e =>
      refine ⟨backlog, hgrow h.disk, fun hlog => (h.noLog hlog).2, fun _ => ⟨fun _ _ => rfl, ?_⟩⟩
      intro frame hok
      cases hok
    | ok frame =>
      by_cases hwriting : Writing setup w ∧ setup.changeLog = true
      · -- A writing persistence has queued all up to the live content.
        obtain ⟨⟨p, hp, hactive, herrored⟩, hlog⟩ := hwriting
        obtain ⟨c₁, hlive₁, hattuned⟩ := (h.followers p hp).active hactive
        obtain rfl : c = c₁ := Option.some.inj (hlive.symm.trans hlive₁)
        have hreached := hattuned.upToDate herrored (Or.inl hlog)
        obtain ⟨hvalid, hchange⟩ := reactiveCollectionChangeFrame_eq_ok hframe
        cases h.disk with
        | nothing => simp [reached] at hreached
        | content c₀ _ hstored hbacked hmem hmems =>
          have hlast : lastContent c₀ backlog = c := Option.some.inj hreached
          refine ⟨backlog ++ [(frame, c')], .content c₀ _ hstored ?_ ?_ ?_, ?_, fun _ => ?_⟩
          · refine hbacked.concat hvalid ?_
            rw [hlast, hchange]
            intro rows hrows
            rw [Collection.foldChange_toValue]
            exact hversion.fold rows hrows
          · exact mem_append_left _ hmem
          · intro e he
            rcases mem_append.mp he with he | he
            · exact mem_append_left _ (hmems e he)
            · rw [mem_singleton.mp he]
              exact mem_append_right _ (mem_singleton_self _)
          · simp [hlog]
          · refine ⟨fun e herror => (by cases herror), fun frame' hok => ?_⟩
            cases hok
            simp only [hlog, if_true, reached, Option.map_some, lastContent_append]
            exact ⟨trivial, rfl⟩
      · refine ⟨backlog, hgrow h.disk, fun hlog => (h.noLog hlog).2, fun hw => ?_⟩
        have hlog : setup.changeLog ≠ true := fun hlog => hwriting ⟨hw, hlog⟩
        refine ⟨fun _ _ => rfl, fun _ _ => ?_⟩
        simp [hlog]
  refine ⟨backlog', hdisk, fun hlog => ⟨(h.noLog hlog).1, hnolog hlog⟩, h.length, ?_, ?_⟩
  · intro c'' hc''
    obtain rfl : c' = c'' := by simpa [World.deliver] using hc''
    simp [World.deliver]
  · intro q hq
    obtain ⟨p, hp, rfl⟩ := mem_map.mp hq
    have hfollower := h.followers p hp
    obtain ⟨hdisposed, hcursor, hfailed, hmissed⟩ := onDelta_flags setup change p
    refine ⟨hfailed hfollower.failed, fun hlive' => ?_, fun hactive => ⟨c', rfl, ?_⟩⟩
    · rw [hcursor]
      exact hfollower.cursor (hdisposed ▸ hlive')
    · -- Active afterwards, it was active before, and had not failed.
      have hdisposed' : p.disposed = false := hdisposed ▸ hactive.disposed
      have herrored : p.errored = false := by
        by_contra hne
        have := hmissed hdisposed' (by simpa using hne)
        rw [hactive.missed] at this
        exact absurd this (by simp)
      have hnotmissed : p.missed = false := by
        by_contra hne
        have := hfollower.failed (by simpa using hne)
        rw [herrored] at this
        exact absurd this (by simp)
      have hbefore : Active setup w.disk p :=
        ⟨hdisposed', hnotmissed, fun hlog => hcursor ▸ hactive.cursor hlog⟩
      obtain ⟨c₁, hlive₁, hattuned⟩ := hfollower.active hbefore
      obtain rfl : c = c₁ := Option.some.inj (hlive.symm.trans hlive₁)
      obtain ⟨rows, hrows, hrep⟩ := hversion.mirror _ hattuned.mirror
      have hqueued := hqueue ⟨p, hp, hbefore, herrored⟩
      simp only [Persistence.onDelta, hdisposed', herrored, hrows, Bool.false_eq_true, if_false]
      cases hframe : C.changeFrame change with
      | error e =>
        refine ⟨hrep, ?_, by simp⟩
        rw [hqueued.1 e hframe]
        exact hattuned.pending
      | ok frame =>
        replace hqueued := hqueued.2 frame hframe
        cases hlog : setup.changeLog with
        | true =>
          simp only [hlog, if_true] at hqueued
          refine ⟨by simpa using hrep, ?_, fun _ _ => hqueued.2⟩
          simp [hqueued.1, hattuned.pending]
        | false =>
          simp only [hlog, Bool.false_eq_true, if_false] at hqueued
          refine ⟨by simpa using hrep, ?_, by simp [hlog]⟩
          simpa [hqueued] using hattuned.pending

/-! ### Over a call -/

/-- The content that a call leaves stored. -/
def storedAfter (wrote : Bool) (c : C.Content) (stored : Option C.Content) (backlog : Backlog C)
    (j : Nat) : Option C.Content :=
  if wrote then some c else stored.map fun c₀ => lastContent c₀ (backlog.take j)

theorem reached_after (c : C.Content) (stored : Option C.Content) (backlog : Backlog C) (j : Nat) :
    reached (storedAfter false c stored backlog j) (backlog.drop j) = reached stored backlog := by
  cases stored with
  | none => rfl
  | some c₀ =>
    simp only [storedAfter, reached, Bool.false_eq_true, if_false, Option.map_some]
    rw [← lastContent_append, take_append_drop]

variable {p : Persistence C}

variable {r : Written C} {j : Nat} {wrote : Bool}

theorem OnDisk.advance (h : OnDisk w stored backlog) (hc : c ∈ w.moments)
    (ha : Advance p w.disk r j wrote) (hmirror : C.Represents p.snapshotState c)
    (hpending : p.pendingChanges = backlog.map (·.1)) (ps : List (Persistence C)) :
    OnDisk { w with persistences := ps, disk := r.disk } (storedAfter wrote c stored backlog j)
      (backlog.drop j) := by
  have hlog := ha.log
  rw [hpending, ← map_take] at hlog
  -- The appended frames are valid, so a snapshot behind them is loaded.
  have hwrote (hvalid : ∀ frame ∈ r.disk.log, frame.Valid C.kind) (hw : wrote = true) :
      OnDisk { w with persistences := ps, disk := r.disk } (storedAfter wrote c stored backlog j)
        (backlog.drop j) := by
    obtain ⟨hj, frame, hsnapshot, hframe⟩ := ha.snapshot hw
    have hwritten := Stored.write hvalid hmirror hframe
    rw [← hsnapshot] at hwritten
    rw [storedAfter, if_pos hw, drop_of_length_le (by simp [hj, hpending])]
    exact .content c [] hwritten trivial hc (by simp)
  have hkept (hw : wrote = false) :
      r.disk = { w.disk with log := w.disk.log ++ (backlog.take j).map (·.1) } := by
    calc r.disk = ⟨r.disk.snapshot, r.disk.log⟩ := rfl
      _ = _ := by rw [(ha.kept hw).1, hlog]
  cases h with
  | nothing hdisk hok =>
    rw [hdisk] at hlog
    cases hw : wrote with
    | true => exact hw ▸ hwrote (by simp [hlog]) hw
    | false =>
      have hnothing := hkept hw
      rw [hdisk] at hnothing
      simpa [storedAfter] using
        OnDisk.nothing (w := { w with persistences := ps, disk := r.disk })
          (by simpa using hnothing) hok
  | content c₀ _ hstored hbacked hmem hmems =>
    obtain ⟨hadvanced, hrest⟩ := hstored.advance hbacked j
    cases hw : wrote with
    | true =>
      refine hw ▸ hwrote ?_ hw
      rw [hlog]
      exact hadvanced.valid
    | false =>
      rw [← hkept hw] at hadvanced
      rw [storedAfter, if_neg (by simp)]
      exact .content _ _ hadvanced hrest
        (lastContent_mem hmem fun e he => hmems e (mem_of_mem_take he))
        fun e he => hmems e (mem_of_mem_drop he)

/-- The invariant after a call. When the log has grown no other persistence is at
    its end any more; when it has not, their queues are still the backlog. -/
theorem Inv.advance (h : Inv setup w stored backlog) (hlive : w.live = some c)
    (ha : Advance p w.disk r j wrote) (hmirror : C.Represents p.snapshotState c)
    (hpending : p.pendingChanges = backlog.map (·.1)) (hmissed : p.missed = false)
    (hmax : w.disk.log.length + p.pendingChanges.length ≤ 2 ^ 63)
    (ps : List (Persistence C)) (hps : ∀ q ∈ ps, q = r.persistence ∨ q ∈ w.persistences)
    (hcurrent : r.persistence ∈ ps → wrote = false → r.persistence.errored = false →
      setup.changeLog = true ∨ r.persistence.snapshotDirty = false →
      reached stored backlog = some c) :
    Inv setup { w with persistences := ps, disk := r.disk } (storedAfter wrote c stored backlog j)
      (backlog.drop j) := by
  have hle := ha.le
  have hlen := ha.length
  have hreached (hw : wrote = true) :
      reached (storedAfter wrote c stored backlog j) (backlog.drop j) = some c := by
    rw [storedAfter, if_pos hw, drop_of_length_le (by simp [(ha.snapshot hw).1, hpending])]
    rfl
  refine ⟨h.disk.advance (h.held c hlive) ha hmirror hpending ps, ?_, ?_, h.held, ?_⟩
  · intro hlog
    obtain ⟨hnil, hbacklog⟩ := h.noLog hlog
    simp [ha.log, hnil, hpending, hbacklog]
  · simp only [hlen]
    omega
  · intro q hq
    rcases hps q hq with rfl | hmem
    · refine ⟨?_, fun _ => ⟨_, Nat.le_refl _, ha.cursor⟩, fun _ => ⟨c, hlive, ?_⟩⟩
      · rw [ha.missed, hmissed]
        simp
      · refine ⟨ha.mirror ▸ hmirror, ?_, fun herrored hclean => ?_⟩
        · rw [ha.pending, hpending, map_drop]
        · cases hw : wrote with
          | true => exact hw ▸ hreached hw
          | false =>
            rw [reached_after]
            exact hcurrent hq hw herrored hclean
    · obtain ⟨hfailed, hcursor, hactive⟩ := h.followers q hmem
      refine ⟨hfailed, fun hlive' => ?_, fun hact => ⟨c, hlive, ?_⟩⟩
      · obtain ⟨m, hm, hcur⟩ := hcursor hlive'
        exact ⟨m, by simp only [hlen]; omega, hcur⟩
      · -- With a log, the position of an active persistence has not moved.
        obtain ⟨m, hm, hcur⟩ := hcursor hact.disposed
        have hzero : j = 0 := by
          cases hlog : setup.changeLog with
          | true =>
            have := lastSeq_inj (hcur.symm.trans (hact.cursor hlog))
            simp only [hlen] at this
            omega
          | false =>
            rw [hpending, (h.noLog hlog).2] at hle
            simpa using hle
        have hsame : r.disk.log.length = w.disk.log.length := by omega
        obtain ⟨c₁, hlive₁, hattuned⟩ := hactive
          ⟨hact.disposed, hact.missed, fun hlog => by rw [← hsame]; exact hact.cursor hlog⟩
        obtain rfl : c = c₁ := Option.some.inj (hlive.symm.trans hlive₁)
        refine ⟨hattuned.mirror, by simp [hzero, hattuned.pending], fun herrored hclean => ?_⟩
        cases hw : wrote with
        | true => exact hw ▸ hreached hw
        | false =>
          rw [reached_after]
          exact hattuned.upToDate herrored hclean

/-! ### Over a step -/

theorem Inv.mutate (h : Inv setup w stored backlog) (hlive : w.live = some c)
    {versions : List (C.Change × C.Content)}
    (hfold : Follows (B := C.toBackend) C.fold C.Represents c versions)
    (hmirror : Follows (B := C.toBackend) C.mirror C.Represents c versions) :
    ∃ backlog', Inv setup (versions.foldl (World.deliver setup) w) stored backlog' := by
  induction versions generalizing w c backlog with
  | nil => exact ⟨backlog, h⟩
  | cons version versions ih =>
    obtain ⟨change, c'⟩ := version
    have hversion : VersionStep C c (change, c') := ⟨hfold.1, hmirror.1⟩
    obtain ⟨backlog', hnext⟩ := h.deliver hlive hversion
    exact ih hnext rfl hfold.2 hmirror.2

theorem Inv.cursor (h : Inv setup w stored backlog) (hp : p ∈ w.persistences)
    (hactive : Active setup w.disk p) : p.cursor = lastSeq w.disk.log.length := by
  cases hlog : setup.changeLog with
  | true => exact hactive.cursor hlog
  | false =>
    -- Without a log there is one position only.
    obtain ⟨m, hm, hcursor⟩ := (h.followers p hp).cursor hactive.disposed
    rw [(h.noLog hlog).1, length_nil] at hm ⊢
    rw [hcursor, Nat.le_zero.mp hm]

/-- A call that is refused, or one that advances the storage. -/
inductive Called (setup : Setup F) (w : World C) (p : Persistence C) (r : Written C) : Prop
  | refused : r.persistence = p → r.disk = w.disk → (r.ended = .ok → p.disposed = true) →
      r.ended ≠ .crash → Called setup w p r
  | advanced (j : Nat) (wrote : Bool) : Active setup w.disk p →
      w.disk.log.length + p.pendingChanges.length ≤ 2 ^ 63 → Advance p w.disk r j wrote →
      (r.ended = .ok → wrote = true ∨ (j = p.pendingChanges.length ∧ p.errored = false ∧
        (setup.changeLog = true ∨ p.snapshotDirty = false))) → Called setup w p r

variable {i : Nat}

theorem Inv.called (h : Inv setup w stored backlog)
    (hp : w.persistences[i]? = some p) (faults : List Outcome) :
    (Careful setup w (.flush i faults) → Called setup w p (p.flush setup w.disk faults)) ∧
      (Careful setup w (.snapshot i faults) →
        Called setup w p (p.snapshot setup w.disk faults)) := by
  have hmem := mem_of_getElem? hp
  have hfollower := h.followers p hmem
  cases hdisposed : p.disposed with
  | true =>
    refine ⟨fun _ => ?_, fun _ => ?_⟩
    · refine .refused ?_ ?_ ?_ ?_ <;> simp [Persistence.flush, hdisposed]
    · refine .refused ?_ ?_ ?_ ?_ <;> simp [Persistence.snapshot, hdisposed]
  | false =>
    -- What a persistence at the end of the log needs to advance it.
    have hready (hend : p.AtEnd setup w.disk) (hmissed : p.missed = false) :
        Active setup w.disk p ∧ p.cursor = lastSeq w.disk.log.length ∧
          (setup.changeLog = false → p.pendingChanges = []) := by
      have hactive : Active setup w.disk p := ⟨hdisposed, hmissed, hend.1⟩
      refine ⟨hactive, h.cursor hmem hactive, fun hlog => ?_⟩
      obtain ⟨c, -, hattuned⟩ := hfollower.active hactive
      rw [hattuned.pending, (h.noLog hlog).2, map_nil]
    refine ⟨fun hcareful => ?_, fun hcareful => ?_⟩
    · cases herrored : p.errored with
      | true => refine .refused ?_ ?_ ?_ ?_ <;> simp [Persistence.flush, hdisposed, herrored]
      | false =>
        have hmissed : p.missed = false := by
          by_contra hne
          exact absurd (hfollower.failed (by simpa using hne)) (by simp [herrored])
        have hend := hcareful p hp hdisposed herrored
        obtain ⟨hactive, hcursor, hnolog⟩ := hready hend hmissed
        obtain ⟨j, wrote, ha, hok⟩ :=
          p.flush_advance hdisposed herrored hcursor hnolog hend.2 faults
        exact .advanced j wrote hactive hend.2 ha fun hended =>
          (hok hended).imp_right fun hall => ⟨hall.1, herrored, hall.2⟩
    · obtain ⟨hend, hmissed⟩ := hcareful p hp hdisposed
      obtain ⟨hactive, hcursor, hnolog⟩ := hready hend hmissed
      obtain ⟨j, wrote, ha, hok⟩ := p.snapshot_advance hdisposed hcursor hnolog hend.2 faults
      exact .advanced j wrote hactive hend.2 ha fun hended => Or.inl (hok hended)

/-- The invariant over a call on a persistence; after an `Ok` the live content is
    the stored one. -/
theorem Inv.onPersistence (h : Inv setup w stored backlog) {call : Persistence C → Written C}
    (hcalled : ∀ p, w.persistences[i]? = some p → Called setup w p (call p)) :
    ∃ stored' backlog', Inv setup (w.onPersistence i call).1 stored' backlog' ∧
      ((∃ p, w.persistences[i]? = some p ∧ p.disposed = false) → (w.onPersistence i call).2 = .ok →
        ∃ c, (w.onPersistence i call).1.live = some c ∧ stored' = some c) := by
  cases hp : w.persistences[i]? with
  | none => exact ⟨stored, backlog, by simpa [World.onPersistence, hp] using h, by simp⟩
  | some p =>
    have hmem := mem_of_getElem? hp
    cases hcalled p hp with
    | refused hsame hdisk hok hcrash =>
      -- Nothing has changed.
      have hset : w.persistences.set i (call p).persistence = w.persistences := by
        rw [hsame]
        exact ext_getElem? fun k => by
          by_cases hk : i = k
          · subst hk
            rw [List.getElem?_set_self' , hp]
            rfl
          · rw [List.getElem?_set_ne hk]
      refine ⟨stored, backlog, ?_⟩
      cases hended : (call p).ended with
      | crash => exact absurd hended hcrash
      | error e =>
        simp only [World.onPersistence, hp, hended, hset, hdisk]
        exact ⟨h, by simp⟩
      | ok =>
        have hdisposed := hok hended
        simp only [World.onPersistence, hp, hended, hset, hdisk, hdisposed, if_true]
        refine ⟨h, ?_⟩
        rintro ⟨q, hq, hlive⟩
        rw [← Option.some.inj hq, hdisposed] at hlive
        exact absurd hlive (by simp)
    | advanced j wrote hactive hmax ha hok =>
      obtain ⟨c, hlive, hattuned⟩ := (h.followers p hmem).active hactive
      have hafter (ps : List (Persistence C))
          (hps : ∀ q ∈ ps, q = (call p).persistence ∨ q ∈ w.persistences) :=
        h.advance hlive ha hattuned.mirror hattuned.pending hactive.missed hmax ps hps
          fun _ hw herrored hclean => hattuned.upToDate (ha.errored herrored)
            (hclean.imp_right fun hdirty => (ha.kept hw).2 ▸ hdirty)
      have hset : ∀ q ∈ w.persistences.set i (call p).persistence,
          q = (call p).persistence ∨ q ∈ w.persistences := fun q hq =>
        (mem_or_eq_of_mem_set hq).symm
      refine ⟨storedAfter wrote c stored backlog j, backlog.drop j, ?_⟩
      cases hended : (call p).ended with
      | crash =>
        simp only [World.onPersistence, hp, hended]
        exact ⟨(hafter [] (by simp)).crash, by simp⟩
      | error e =>
        simp only [World.onPersistence, hp, hended]
        exact ⟨hafter _ hset, by simp⟩
      | ok =>
        simp only [World.onPersistence, hp, hended, hactive.disposed, Bool.false_eq_true,
          if_false]
        -- The live content is stored, and nothing is behind it.
        have hstored : storedAfter wrote c stored backlog j = some c ∧
            backlog.drop j = [] := by
          have hlen : p.pendingChanges.length = backlog.length := by
            rw [hattuned.pending, length_map]
          rcases hok hended with hw | ⟨hj, herrored, hclean⟩
          · exact ⟨by rw [storedAfter, if_pos hw],
              drop_of_length_le (by rw [(ha.snapshot hw).1, hlen])⟩
          · have hreached := hattuned.upToDate herrored hclean
            cases hw : wrote with
            | true => exact ⟨rfl, drop_of_length_le (by rw [hj, hlen])⟩
            | false =>
              refine ⟨?_, drop_of_length_le (by rw [hj, hlen])⟩
              rw [storedAfter, if_neg (by simp), take_of_length_le (by rw [hj, hlen])]
              exact hreached
        obtain ⟨hdisk, hnolog, hlength, hheld, hfollowers⟩ := hafter _ hset
        rw [hstored.1, hstored.2] at hdisk hfollowers ⊢
        refine ⟨⟨?_, fun hlog => ⟨(hnolog hlog).1, rfl⟩, hlength, ?_, ?_⟩, fun _ _ =>
          ⟨c, hlive, rfl⟩⟩
        · cases hdisk with
          | content _ _ hcontent _ _ _ =>
            exact .content c [] hcontent trivial (by simp [hlive]) (by simp)
        · intro c' hc'
          simp_all
        · intro q hq
          obtain ⟨hfailed, hcursor, hact⟩ := hfollowers q hq
          exact ⟨hfailed, hcursor, hact⟩

theorem Inv.settle (h : Inv setup w stored backlog)
    (hidle : ∀ p ∈ w.persistences, Active setup w.disk p → p.pendingChanges = []) :
    Inv setup w stored [] := by
  refine ⟨?_, fun hlog => ⟨(h.noLog hlog).1, rfl⟩, h.length, h.held, fun p hp => ?_⟩
  · cases h.disk with
    | nothing hdisk hok => exact .nothing hdisk hok
    | content c _ hstored _ hmem _ => exact .content c [] hstored trivial hmem (by simp)
  · obtain ⟨hfailed, hcursor, hactive⟩ := h.followers p hp
    refine ⟨hfailed, hcursor, fun hact => ?_⟩
    obtain ⟨c, hlive, hattuned⟩ := hactive hact
    have hnil : backlog = [] := by
      have := hattuned.pending.symm.trans (hidle p hp hact)
      simpa using this
    exact ⟨c, hlive, hnil ▸ hattuned⟩

theorem Inv.attach (h : Inv setup w stored []) (hlive : w.live = some c)
    {initialCursor : Option Nat} (hcursor : initialCursor = lastSeq w.disk.log.length)
    (every : Option Nat) (faults : List Outcome) :
    ∃ stored' backlog', Inv setup (w.attach setup c initialCursor every faults).1 stored'
      backlog' := by
  unfold World.attach persistCollection
  by_cases hevery : every = some 0
  · rw [if_pos hevery]
    exact ⟨stored, [], h⟩
  · rw [if_neg hevery]
    -- The snapshot of the live content is written behind an empty queue.
    obtain ⟨j, wrote, ha, hok⟩ := writeSnapshot_advance setup (C := C)
      (p := ⟨every, false, false, initialCursor, C.toRows c, [], false, false, 0, false⟩)
      hcursor (fun _ => rfl) (by simpa using h.length) faults
    have hafter (ps : List (Persistence C)) := h.advance hlive ha.record
      (C.represents_toRows c) rfl rfl (by simpa using h.length) ps
    refine ⟨storedAfter wrote c stored [] j, [].drop j, ?_⟩
    cases hended : (writeSnapshot setup (C := C)
      ⟨every, false, false, initialCursor, C.toRows c, [], false, false, 0, false⟩
      w.disk faults).ended with
    | crash =>
      simp only [recordPersistenceError_ended, hended]
      exact (hafter [] (by simp) (by simp)).crash
    | error e =>
      simp only [recordPersistenceError_ended, hended]
      refine hafter _ (fun q hq => ?_) fun _ _ herrored => ?_
      · exact (mem_append.mp hq).symm.imp_left mem_singleton.mp
      · rw [recordPersistenceError_errored hended] at herrored
        exact absurd herrored (by simp)
    | ok =>
      simp only [recordPersistenceError_ended, hended]
      refine hafter _ (fun q hq => ?_) fun _ hw => ?_
      · exact (mem_append.mp hq).symm.imp_left mem_singleton.mp
      · rw [hok hended] at hw
        exact absurd hw (by simp)

theorem Inv.reopen (h : Inv setup w stored backlog) (c : C.Content) :
    Inv setup { w.crash w.disk with live := some c, moments := w.moments ++ [c] } stored [] where
  disk := by
    cases h.disk with
    | nothing hdisk hok => exact .nothing hdisk hok
    | content c₀ _ hstored _ hmem _ =>
      exact .content c₀ [] hstored trivial (mem_append_left _ hmem) (by simp)
  noLog := fun hlog => ⟨(h.noLog hlog).1, rfl⟩
  length := h.length
  held := by simp
  followers := by simp [World.crash]

theorem Inv.openPersistent (h : Inv setup w stored backlog) (initial : List C.Row)
    (every : Option Nat) (readError : Option StorageError) (faults : List Outcome) :
    ∃ stored' backlog', Inv setup
      (w.openPersistent setup restore initial every readError faults).1 stored' backlog' := by
  have hclosed : ∃ stored' backlog', Inv setup (w.crash w.disk) stored' backlog' :=
    ⟨stored, backlog, h.crash⟩
  obtain ⟨restored, hload, hcursor, -⟩ := h.load
  unfold World.openPersistent
  cases readError with
  | some e => exact hclosed
  | none =>
    simp only [hload]
    cases restore (World.openedRows initial restored) with
    | error e => exact hclosed
    | ok c =>
      have hattach := (h.reopen c).attach rfl hcursor every faults
      simp only
      split
      · exact hclosed
      · exact hattach

theorem Inv.dispose (h : Inv setup w stored backlog) (i : Nat) :
    Inv setup { w with persistences := w.persistences.modify i Persistence.dispose } stored
      backlog := by
  refine ⟨?_, h.noLog, h.length, h.held, fun q hq => ?_⟩
  · cases h.disk with
    | nothing hdisk hok => exact .nothing hdisk hok
    | content c _ hstored hbacked hmem hmems => exact .content c _ hstored hbacked hmem hmems
  · obtain ⟨k, hk⟩ := mem_iff_getElem?.mp hq
    rw [List.getElem?_modify, Option.map_eq_map, Option.map_eq_some_iff] at hk
    obtain ⟨p, hp, rfl⟩ := hk
    obtain ⟨hfailed, hcursor, hactive⟩ := h.followers p (mem_of_getElem? hp)
    by_cases hi : i = k
    · rw [if_pos hi]
      exact ⟨hfailed, by simp [Persistence.dispose],
        fun hact => absurd hact.disposed (by simp [Persistence.dispose])⟩
    · rw [if_neg hi]
      exact ⟨hfailed, hcursor, hactive⟩

variable {s : Step C}

/-- The invariant over a careful step; after a confirmation the live content is
    stored. -/
theorem Inv.step (h : Inv setup w stored backlog)
    (restore : List C.Row → Except StorageError C.Content) (hs : Careful setup w s) :
    ∃ stored' backlog', Inv setup (w.step setup restore s).1 stored' backlog' ∧
      (Confirms w s → (w.step setup restore s).2 = .ok →
        ∃ c, (w.step setup restore s).1.live = some c ∧ stored' = some c) := by
  cases s with
  | mutate op =>
    cases hlive : w.live with
    | none => exact ⟨stored, backlog, by simpa [World.step, hlive] using h, False.elim⟩
    | some c =>
      obtain ⟨backlog', hmutate⟩ :=
        h.mutate hlive (C.fold_follows c op) (C.mirror_follows c op)
      exact ⟨stored, backlog', by simpa only [World.step, hlive] using hmutate, False.elim⟩
  | flush i faults => exact h.onPersistence fun p hp => (h.called hp faults).1 hs
  | snapshot i faults => exact h.onPersistence fun p hp => (h.called hp faults).2 hs
  | dispose i => exact ⟨stored, backlog, h.dispose i, False.elim⟩
  | persist every faults =>
    cases hlive : w.live with
    | none => exact ⟨stored, backlog, by simpa [World.step, hlive] using h, False.elim⟩
    | some c =>
      have hempty : w.disk.log = [] := by
        cases hlog : setup.changeLog with
        | true => exact (hs hlog).1
        | false => exact (h.noLog hlog).1
      have hidle : ∀ p ∈ w.persistences, Active setup w.disk p → p.pendingChanges = [] := by
        intro p hp hactive
        cases hlog : setup.changeLog with
        | true =>
          rcases (hs hlog).2 p hp with hdisposed | hmissed | hnil
          · exact absurd hactive.disposed (by simp [hdisposed])
          · exact absurd hactive.missed (by simp [hmissed])
          · exact hnil
        | false =>
          obtain ⟨c', -, hattuned⟩ := (h.followers p hp).active hactive
          rw [hattuned.pending, (h.noLog hlog).2, map_nil]
      have hcursor : none = lastSeq w.disk.log.length := by
        rw [hempty]
        rfl
      obtain ⟨stored', backlog', hattach⟩ :=
        (h.settle hidle).attach hlive hcursor every faults
      exact ⟨stored', backlog', by simpa only [World.step, hlive] using hattach, False.elim⟩
  | openPersistent initial every readError faults =>
    obtain ⟨stored', backlog', hopened⟩ := h.openPersistent initial every readError faults
    exact ⟨stored', backlog', hopened, False.elim⟩
  | crash => exact ⟨stored, backlog, h.crash, False.elim⟩

theorem Inv.confirmed (h : Inv setup w stored backlog) (hs : Careful setup w s) :
    Confirmed setup w s (w.step setup restore s).1 (w.step setup restore s).2 := by
  obtain ⟨stored', backlog', hinv, hconfirms⟩ := h.step restore hs
  refine ⟨fun hc hok => ?_, fun _ => ?_⟩
  · obtain ⟨c, hlive, rfl⟩ := hconfirms hc hok
    cases hinv.disk with
    | content _ _ hstored _ _ _ =>
      obtain ⟨restored, hload, hrep, -⟩ :=
        hstored.load (fun hlog => (hinv.noLog hlog).1) hinv.length
      exact ⟨c, restored, hlive, hload, hrep⟩
  · obtain ⟨restored, hload, -, hcontent⟩ := hinv.load
    exact ⟨restored, hload, hcontent⟩

/-- Careful runs keep every promise. -/
theorem Inv.run (h : Inv setup w stored backlog) {steps : List (Step C)}
    (hsteps : CarefulRun setup restore w steps) : ConfirmedRun setup restore w steps := by
  induction steps generalizing w stored backlog with
  | nil => trivial
  | cons s steps ih =>
    obtain ⟨stored', backlog', hinv, -⟩ := h.step restore hsteps.1
    exact ⟨h.confirmed hsteps.1, ih hinv hsteps.2⟩

theorem Inv.start (setup : Setup F) (c : C.Content) : Inv setup (World.start c) none [] where
  disk := .nothing rfl rfl
  noLog := fun _ => ⟨rfl, rfl⟩
  length := Nat.zero_le _
  held := by simp [World.start]
  followers := by simp [World.start]

/-- Every careful run over empty storage keeps what it promises. -/
def Durable (C : Collection F) (restore : List C.Row → Except StorageError C.Content) : Prop :=
  ∀ (setup : Setup F) (c : C.Content) (steps : List (Step C)),
    CarefulRun setup restore (World.start c) steps →
      ConfirmedRun setup restore (World.start c) steps

/-- Persisted lists, logs, maps and indexes are durable. -/
theorem persisted_collection_durable {T K S V : Type} [LinearOrder K] [LinearOrder S] [Serde F T]
    [Serde F K] [Serde F S] [Serde F V] [StrictJson F T] [StrictJson F K] [StrictJson F S]
    [StrictJson F V] (maxSize : Option ℕ+) (checkpointJson : K → Except String (Value F)) :
    Durable (reactiveList F T maxSize) (restoreReactiveList maxSize) ∧
      Durable (reactiveLog F T maxSize) (restoreReactiveLog maxSize) ∧
      Durable (reactiveMap F K V) (restoreReactiveMap checkpointJson) ∧
      Durable (reactiveIndex F K S V) (restoreReactiveIndex checkpointJson) :=
  ⟨fun setup c _ => (Inv.start setup c).run, fun setup c _ => (Inv.start setup c).run,
    fun setup c _ => (Inv.start setup c).run, fun setup c _ => (Inv.start setup c).run⟩

/-- Storage with a change log. -/
def flagStorage : Setup Empty where
  storagePrefix := some "flags"
  snapshotKey := none
  key := "flags/snapshot"
  resolved := rfl
  changeLog := true
  logPrefix := "flags/changes"

/-- A list of booleans without a capacity. -/
abbrev flags : Collection Empty := reactiveList Empty Bool none

/-- A flush, a crash before the next one, and a second opening. -/
theorem persisted_collection_durable_flags :
    ConfirmedRun flagStorage (restoreReactiveList none) (World.start (C := flags) [])
      [.persist none [], .mutate (.append true), .flush 0 [], .mutate (.append false), .crash,
        .openPersistent [] none none [], .flush 0 []] := by
  refine (persisted_collection_durable (F := Empty) (T := Bool) (K := Bool) (S := Bool) (V := Bool)
    none (fun _ => .error "")).1 flagStorage [] _ ?_
  refine ⟨fun _ => ⟨rfl, fun _ h => absurd h not_mem_nil⟩, trivial, ?_, trivial, trivial,
    trivial, ?_, trivial⟩
  · intro p hp _ _
    obtain rfl := Option.some.inj hp
    exact ⟨fun _ => rfl, by decide⟩
  · intro p hp _ _
    obtain rfl := Option.some.inj hp
    exact ⟨fun _ => rfl, by decide⟩

/-- A second attachment to the same list and storage: after its flush the storage
    loads with the change applied twice. -/
theorem reattached_flush_repeats_a_change :
    ¬ ConfirmedRun flagStorage (restoreReactiveList none) (World.start (C := flags) [])
      [.persist none [], .mutate (.append true), .flush 0 [], .dispose 0, .persist none [],
        .flush 1 []] := by
  intro h
  obtain ⟨-, -, -, -, -, hflush, -⟩ := h
  obtain ⟨c, restored, hlive, hload, hrep⟩ := hflush.ok ⟨_, rfl, rfl⟩ rfl
  have hc : [true] = c := Option.some.inj hlive
  have hrestored : [true, true] = restored.state := congrArg (RestoreState.state ·)
    (Except.ok.inj hload)
  have hstate : restored.state = c := hrep
  have hlength := congrArg List.length ((hrestored.trans hstate).trans hc.symm)
  exact absurd hlength (by decide)

end GraphRefly.Collections
