import GraphRefly.Storage.WalFrame

/-!
# Frames as Values

All checks of a frame come to the same few conditions, whatever they look at: the text
fields are what they have to be, and no field is unknown. A frame is read from any value
that shows its fields, in whatever order they stand, and a value that shows them and no
others is the value of the frame.

## Main definitions

* `IsBody`, `IsFrame`: What the checks of a value accept.
* `WalFrameBody.Valid`, `WalFrame.Valid`: What the checks of a frame accept.
* `Shows`: A value has the fields of a frame.

## Theorems

* `assertWalFrameBodyValue_eq_ok`, `assertWalFrame_eq_ok`: The checks.
* `Shows.of_same`: Equal values show the same frame.
* `Shows.read`: A frame is read from a value that shows it.
* `Shows.same`: Nothing else is shown.
-/

namespace GraphRefly.Storage

open List Json

variable {F T : Type}

/-! ### What the checks accept -/

/-- What the check of a body accepts. A checksum may be there or not. -/
structure IsBody (value : Value F) : Prop where
  record : ∃ record, value = .object record ∧ ∀ e ∈ record, e.1 ∈ walFields
  t : strField value "t" = some "c"
  lifecycle : ∃ lifecycle,
    (strField value "lifecycle").bind ChangeLifecycle.ofName = some lifecycle
  path : ∃ path, strField value "path" = some path ∧ path ≠ ""
  change : ∃ change, value.get "change" = some change
  frameSeq : ∃ frameSeq, u64Field value "frame_seq" = some frameSeq
  frameTNs : ∃ frameTNs, strField value "frame_t_ns" = some frameTNs ∧
    isNonNegativeDecimalIntegerString frameTNs = true
  formatVersion : u64Field value "format_version" = some walFormatVersion

/-- What the check of a frame accepts. -/
structure IsFrame (value : Value F) : Prop where
  body : IsBody value
  checksum : ∃ checksum, strField value "checksum" = some checksum ∧ isSha256Hex checksum = true

/-- What the check of a typed body accepts. -/
structure WalFrameBody.Valid (body : WalFrameBody T) : Prop where
  t : body.t = "c"
  path : body.path ≠ ""
  frameTNs : isNonNegativeDecimalIntegerString body.frameTNs = true
  formatVersion : body.formatVersion = walFormatVersion

/-- What the check of a typed frame accepts. -/
structure WalFrame.Valid (frame : WalFrame T) : Prop where
  body : frame.body.Valid
  checksum : isSha256Hex frame.checksum = true

theorem ensure_eq_ok {ε : Type} {p : Prop} [Decidable p] {error : ε} :
    ensure p error = .ok () ↔ p := by
  unfold ensure
  split_ifs with h <;> simp [h]

theorem assertKnownFields_eq_ok {record : List (String × Value F)} :
    assertKnownFields record = .ok () ↔ ∀ e ∈ record, e.1 ∈ walFields := by
  unfold assertKnownFields
  cases h : record.find? fun e => decide (e.1 ∉ walFields) with
  | none =>
    rw [List.find?_eq_none] at h
    simpa using h
  | some e =>
    have he := List.find?_some h
    have hmem := mem_of_find?_eq_some h
    simp only [decide_eq_true_eq] at he
    simp only [reduceCtorEq, false_iff]
    exact fun hall => he (hall e hmem)

variable {value : Value F}

theorem assertFrameTNs_eq_ok : assertFrameTNs value = .ok () ↔
    ∃ frameTNs, strField value "frame_t_ns" = some frameTNs ∧
      isNonNegativeDecimalIntegerString frameTNs = true := by
  unfold assertFrameTNs
  cases strField value "frame_t_ns" with
  | none => simp
  | some frameTNs => simp [assertNonNegativeDecimalIntegerString, ensure_eq_ok]

/-- The check of a value as a body. -/
theorem assertWalFrameBodyValue_eq_ok {label : String} :
    assertWalFrameBodyValue value label = .ok () ↔ IsBody value := by
  cases value with
  | object record =>
    simp only [assertWalFrameBodyValue, bind_eq_ok_unit, assertKnownFields_eq_ok, ensure_eq_ok,
      assertFrameTNs_eq_ok, Option.isSome_iff_exists, Option.any_eq_true, decide_eq_true_eq]
    constructor
    · rintro ⟨hknown, ht, hlifecycle, hpath, hchange, hseq, htime, hversion⟩
      exact ⟨⟨record, rfl, hknown⟩, ht, hlifecycle, hpath, hchange, hseq, htime, hversion⟩
    · intro h
      obtain ⟨record', heq, hknown⟩ := h.record
      cases heq
      exact ⟨hknown, h.t, h.lifecycle, h.path, h.change, h.frameSeq, h.frameTNs, h.formatVersion⟩
  | null | bool _ | number _ | string _ | array _ =>
    simp only [assertWalFrameBodyValue, reduceCtorEq, false_iff]
    intro h
    obtain ⟨record', heq, -⟩ := h.record
    cases heq

theorem assertWalFrameValue_eq_ok :
    assertWalFrameValue value = .ok () ↔ IsFrame value := by
  have hchecksum : strField value "checksum" = (value.get "checksum").bind Value.asStr := rfl
  unfold assertWalFrameValue
  rw [bind_eq_ok_unit, assertWalFrameBodyValue_eq_ok]
  cases hget : value.get "checksum" with
  | none =>
    rw [hget, Option.bind_none] at hchecksum
    simp only [reduceCtorEq, and_false, false_iff]
    intro h
    obtain ⟨checksum, hsome, -⟩ := h.checksum
    rw [hchecksum] at hsome
    cases hsome
  | some checksum =>
    rw [hget, Option.bind_some] at hchecksum
    simp only [ensure_eq_ok, Option.any_eq_true]
    rw [← hchecksum]
    exact ⟨fun h => ⟨h.1, h.2⟩, fun h => ⟨h.body, h.checksum⟩⟩

theorem ofName_name (lifecycle : ChangeLifecycle) :
    ChangeLifecycle.ofName lifecycle.name = some lifecycle := by
  cases lifecycle <;> rfl

theorem WalFrameBody.Valid.isBody {body : WalFrameBody T} (h : body.Valid)
    (P : SerdePayload F T) : IsBody (body.toValue P) where
  record := by
    refine ⟨body.entries P, rfl, ?_⟩
    simp [WalFrameBody.entries, walFields]
  t := congrArg some h.t
  lifecycle := ⟨body.lifecycle, ofName_name body.lifecycle⟩
  path := ⟨body.path, rfl, h.path⟩
  change := ⟨_, rfl⟩
  frameSeq := ⟨body.frameSeq, Value.asU64_ofNat (F := F) body.frameSeq⟩
  frameTNs := ⟨body.frameTNs, rfl, h.frameTNs⟩
  formatVersion := (Value.asU64_ofNat (F := F) body.formatVersion).trans
    (congrArg some h.formatVersion)

variable {P : SerdePayload F T}

theorem assertWalFrameBody_eq_ok {body : WalFrameBody T} :
    assertWalFrameBody P body = .ok () ↔ body.Valid := by
  unfold assertWalFrameBody
  simp only [bind_eq_ok_unit, ensure_eq_ok, assertNonNegativeDecimalIntegerString,
    assertWalFrameBodyValue_eq_ok]
  constructor
  · rintro ⟨ht, hpath, htime, hversion, -⟩
    exact ⟨ht, hpath, htime, hversion⟩
  · intro h
    exact ⟨h.t, h.path, h.frameTNs, h.formatVersion, h.isBody P⟩

variable {frame : WalFrame T}

theorem assertWalFrame_eq_ok :
    assertWalFrame P frame = .ok () ↔ frame.Valid := by
  unfold assertWalFrame
  rw [bind_eq_ok_unit, assertWalFrameBody_eq_ok, ensure_eq_ok]
  exact ⟨fun h => ⟨h.1, h.2⟩, fun h => ⟨h.body, h.checksum⟩⟩

/-! ### Values that show a frame -/

/-- A value has the fields of a frame. -/
structure Shows (P : SerdePayload F T) (value : Value F) (frame : WalFrame T) : Prop where
  t : strField value "t" = some frame.t
  lifecycle : strField value "lifecycle" = some frame.lifecycle.name
  path : strField value "path" = some frame.path
  change : ∃ change, value.get "change" = some change ∧
    Value.Same (P.toValue frame.change).val change
  frameSeq : u64Field value "frame_seq" = some frame.frameSeq
  frameTNs : strField value "frame_t_ns" = some frame.frameTNs
  formatVersion : u64Field value "format_version" = some frame.formatVersion
  checksum : strField value "checksum" = some frame.checksum

variable {v : Value F}

theorem same_refl (h : v.Distinct) : Value.Same v v :=
  (Value.same_iff_reorder h h).mpr rfl

theorem shows_toValue (P : SerdePayload F T) (frame : WalFrame T) :
    Shows P (frame.toValue P) frame where
  t := rfl
  lifecycle := rfl
  path := rfl
  change := ⟨_, rfl, same_refl (P.toValue frame.change).property⟩
  frameSeq := Value.asU64_ofNat (F := F) frame.frameSeq
  frameTNs := rfl
  formatVersion := Value.asU64_ofNat (F := F) frame.formatVersion
  checksum := rfl

variable {key : String}

theorem distinct_get {x : Value F} (hv : v.Distinct) (h : v.get key = some x) :
    x.Distinct := by
  cases v with
  | object es =>
    have hparts := (Value.all_object _ _).mp hv
    exact hparts.2 (key, x) ((lookup_eq_some_iff_mem hparts.1).mp h)
  | null | bool _ | number _ | string _ | array _ => cases h

variable {w : Value F}

theorem get_of_same {x : Value F} (hv : v.Distinct) (h : Value.Same v w)
    (hx : v.get key = some x) : ∃ y, w.get key = some y ∧ Value.Same x y := by
  cases v with
  | object es =>
    cases w with
    | object fs =>
      have hmem := (lookup_eq_some_iff_mem ((Value.all_object _ _).mp hv).1).mp hx
      exact (Value.sameEntries_iff es fs).mp h.2 (key, x) hmem
    | null | bool _ | number _ | string _ | array _ => exact absurd h (by simp [Value.Same])
  | null | bool _ | number _ | string _ | array _ => cases hx

theorem strField_of_same (hv : v.Distinct) (h : Value.Same v w)
    {s : String} (hs : strField v key = some s) : strField w key = some s := by
  obtain ⟨x, hx, hstr⟩ := Option.bind_eq_some_iff.mp hs
  obtain ⟨y, hy, hsame⟩ := get_of_same hv h hx
  refine Option.bind_eq_some_iff.mpr ⟨y, hy, ?_⟩
  cases x <;> cases y <;> simp_all [Value.Same, Value.asStr]

theorem u64Field_of_same (hv : v.Distinct) (h : Value.Same v w) {n : Nat}
    (hn : u64Field v key = some n) : u64Field w key = some n := by
  obtain ⟨x, hx, hnat⟩ := Option.bind_eq_some_iff.mp hn
  obtain ⟨y, hy, hsame⟩ := get_of_same hv h hx
  refine Option.bind_eq_some_iff.mpr ⟨y, hy, ?_⟩
  cases x <;> cases y <;> simp_all [Value.Same, Value.asU64]

theorem same_trans {u : Value F} (hu : u.Distinct) (hv : v.Distinct) (hw : w.Distinct)
    (huv : Value.Same u v) (hvw : Value.Same v w) : Value.Same u w := by
  rw [Value.same_iff_reorder hu hv] at huv
  rw [Value.same_iff_reorder hv hw] at hvw
  rw [Value.same_iff_reorder hu hw, huv, hvw]

/-- Equal values show the same frame. -/
theorem Shows.of_same
    (h : Shows P v frame) (hv : v.Distinct) (hw : w.Distinct) (hsame : Value.Same v w) :
    Shows P w frame where
  t := strField_of_same hv hsame h.t
  lifecycle := strField_of_same hv hsame h.lifecycle
  path := strField_of_same hv hsame h.path
  change := by
    obtain ⟨x, hx, hchange⟩ := h.change
    obtain ⟨y, hy, hxy⟩ := get_of_same hv hsame hx
    refine ⟨y, hy, same_trans (P.toValue frame.change).property (distinct_get hv hx)
      (distinct_get hw hy) hchange hxy⟩
  frameSeq := u64Field_of_same hv hsame h.frameSeq
  frameTNs := strField_of_same hv hsame h.frameTNs
  formatVersion := u64Field_of_same hv hsame h.formatVersion
  checksum := strField_of_same hv hsame h.checksum

/-- A frame is read from any value that shows it. -/
theorem Shows.read (hP : P.Lawful)
    (h : Shows P v frame) (hv : v.Distinct) : frameFromValue P v = .ok frame := by
  obtain ⟨x, hx, hchange⟩ := h.change
  have hread := hP.fromValue_toValue frame.change x (distinct_get hv hx) hchange
  rw [frameFromValue, h.t, h.lifecycle, h.path, hx, h.frameSeq, h.frameTNs, h.formatVersion,
    h.checksum, Option.bind_some, ofName_name]
  dsimp only
  rw [hread]
  rfl

theorem get_of_strField {text : String} (h : strField v key = some text) :
    v.get key = some (.string text) := by
  obtain ⟨x, hx, hstr⟩ := Option.bind_eq_some_iff.mp h
  cases x <;> simp_all [Value.asStr]

theorem get_of_u64Field {n : Nat} (h : u64Field v key = some n) :
    v.get key = some (.ofNat n) := by
  obtain ⟨x, hx, hnat⟩ := Option.bind_eq_some_iff.mp h
  cases x with
  | number m =>
    cases m with
    | int m =>
      simp only [Value.asU64] at hnat
      split_ifs at hnat with hpos
      cases hnat
      rw [hx, Value.ofNat, Int.toNat_of_nonneg hpos]
    | float x => cases hnat
  | null | bool _ | string _ | array _ | object _ => cases hnat

theorem name_of_ofName {name : String} {lifecycle : ChangeLifecycle}
    (h : ChangeLifecycle.ofName name = some lifecycle) : name = lifecycle.name := by
  unfold ChangeLifecycle.ofName at h
  split_ifs at h with h1 h2 h3 <;> cases h
  · exact h1
  · exact h2
  · exact h3

/-- A value with the fields of a frame and no others is the value of the frame. -/
theorem Shows.same (h : Shows P w frame) (hdistinct : w.Distinct)
    (hrecord : ∃ record, w = .object record ∧ ∀ e ∈ record, e.1 ∈ walFields) :
    Value.Same (frame.toValue P) w := by
  obtain ⟨record, rfl, hknown⟩ := hrecord
  have hkeys := ((Value.all_object _ _).mp hdistinct).1
  obtain ⟨change, hchange, hsame⟩ := h.change
  have ht := get_of_strField h.t
  have hlifecycle := get_of_strField h.lifecycle
  have hpath := get_of_strField h.path
  have hseq := get_of_u64Field h.frameSeq
  have htime := get_of_strField h.frameTNs
  have hversion := get_of_u64Field h.formatVersion
  have hsum := get_of_strField h.checksum
  have hfound : ∀ key ∈ walFields, ∃ x, record.lookup key = some x := by
    simp only [walFields, forall_mem_cons]
    exact ⟨⟨_, ht⟩, ⟨_, hlifecycle⟩, ⟨_, hpath⟩, ⟨_, hchange⟩, ⟨_, hseq⟩, ⟨_, htime⟩,
      ⟨_, hversion⟩, ⟨_, hsum⟩, by simp⟩
  refine ⟨?_, (Value.sameEntries_iff _ _).mpr ?_⟩
  · -- The keys of the record are the fields of a frame, each once.
    have hsub : walFields ⊆ record.map (·.1) := by
      intro key hkey
      obtain ⟨x, hx⟩ := hfound key hkey
      exact mem_map_of_mem (f := (·.1)) ((lookup_eq_some_iff_mem hkeys).mp hx)
    have hsup : record.map (·.1) ⊆ walFields := by
      intro key hkey
      obtain ⟨e, he, rfl⟩ := mem_map.mp hkey
      exact hknown e he
    have hle := (subperm_of_subset hkeys hsup).length_le
    have hge := (subperm_of_subset (by decide) hsub).length_le
    unfold Value.keys at hle
    rw [length_map] at hle hge
    exact Nat.le_antisymm hge hle
  · simp only [WalFrame.body, WalFrameBody.entries, cons_append, nil_append,
      forall_mem_cons]
    exact ⟨⟨_, ht, rfl⟩, ⟨_, hlifecycle, rfl⟩, ⟨_, hpath, rfl⟩, ⟨_, hchange, hsame⟩,
      ⟨_, hseq, rfl⟩, ⟨_, htime, rfl⟩, ⟨_, hversion, rfl⟩, ⟨_, hsum, rfl⟩, by simp⟩

theorem frameFromValue_eq_ok
    (h : frameFromValue P v = .ok frame) : ∃ change, v.get "change" = some change ∧
      P.fromValue change = .ok frame.change ∧
        (Value.Same (P.toValue frame.change).val change → Shows P v frame) := by
  unfold frameFromValue at h
  split at h
  case h_2 => cases h
  case h_1 t lifecycle path change frameSeq frameTNs version sum ht hlife hp hc hs htns hv hsum =>
    cases hread : P.fromValue change with
    | error e =>
      rw [hread] at h
      cases h
    | ok x =>
      rw [hread] at h
      cases h
      refine ⟨change, hc, hread, fun hsame => ?_⟩
      refine ⟨ht, ?_, hp, ⟨change, hc, hsame⟩, hs, htns, hv, hsum⟩
      obtain ⟨name, hname, hof⟩ := Option.bind_eq_some_iff.mp hlife
      rw [hname, name_of_ofName hof]

/-! ### The value of a frame -/

theorem distinct_toValue (P : SerdePayload F T) (frame : WalFrame T) :
    (frame.toValue P).Distinct := by
  refine (Value.all_object _ _).mpr ⟨?_, ?_⟩
  · change (["t", "lifecycle", "path", "change", "frame_seq", "frame_t_ns", "format_version",
      "checksum"] : List String).Nodup
    decide
  · have hchange : (P.toValue frame.change).val.Distinct := (P.toValue frame.change).property
    simp only [WalFrame.body, WalFrameBody.entries, cons_append, nil_append,
      forall_mem_cons]
    exact ⟨trivial, trivial, trivial, hchange, trivial, trivial, trivial, trivial, by simp⟩

theorem distinct_body (P : SerdePayload F T) (body : WalFrameBody T) :
    (body.toValue P).Distinct := by
  refine (Value.all_object _ _).mpr ⟨?_, ?_⟩
  · change (["t", "lifecycle", "path", "change", "frame_seq", "frame_t_ns", "format_version"]
      : List String).Nodup
    decide
  · have hchange : (P.toValue body.change).val.Distinct := (P.toValue body.change).property
    simp only [WalFrameBody.entries, forall_mem_cons]
    exact ⟨trivial, trivial, trivial, hchange, trivial, trivial, trivial, by simp⟩

/-- The height and the nesting of a frame: one more than those of the payload. -/
theorem height_toValue (P : SerdePayload F T) (frame : WalFrame T) :
    (frame.toValue P).height = (P.toValue frame.change).val.height + 1 ∧
      (frame.body.toValue P).height = (P.toValue frame.change).val.height + 1 ∧
      (frame.toValue P).nesting = (P.toValue frame.change).val.nesting + 1 := by
  simp [WalFrame.toValue, WalFrameBody.toValue, WalFrameBody.entries, WalFrame.body, Value.height,
    Value.heightEntries, Value.nesting, Value.nestingEntries, Value.ofNat]

section Numbers

variable [Float64 F]

theorem safe_toValue (P : SerdePayload F T) (frame : WalFrame T) :
    ((frame.toValue P).Safe ↔ (frame.body.toValue P).Safe) ∧
      ((frame.body.toValue P).Safe → frame.frameSeq < 2 ^ 64 ∧ frame.formatVersion < 2 ^ 64) := by
  have hbody : (frame.body.toValue P).Safe ↔ (P.toValue frame.change).val.Safe ∧
      Number.Safe (F := F) (.int frame.frameSeq) ∧
        Number.Safe (F := F) (.int frame.formatVersion) := by
    simp [Value.Safe, WalFrameBody.toValue, WalFrameBody.entries, WalFrame.body, Value.ofNat,
      Value.All]
  have hframe : (frame.toValue P).Safe ↔ (P.toValue frame.change).val.Safe ∧
      Number.Safe (F := F) (.int frame.frameSeq) ∧
        Number.Safe (F := F) (.int frame.formatVersion) := by
    simp [Value.Safe, WalFrame.toValue, WalFrameBody.entries, WalFrame.body, Value.ofNat,
      Value.All]
  refine ⟨hframe.trans hbody.symm, fun h => ?_⟩
  obtain ⟨-, hseq, hversion⟩ := hbody.mp h
  simp only [Number.Safe, jsMaxSafeInteger] at hseq hversion
  omega

end Numbers

theorem integers_toValue
    (hchange : (P.toValue frame.change).val.Integers) (hseq : frame.frameSeq < 2 ^ 64)
    (hversion : frame.formatVersion < 2 ^ 64) :
    (frame.toValue P).Integers ∧ (frame.body.toValue P).Integers := by
  have hnat : ∀ n : Nat, n < 2 ^ 64 → (Value.ofNat n : Value F).Integers := by
    intro n hn
    exact ⟨by omega, by exact_mod_cast hn⟩
  constructor
  · refine (Value.all_object _ _).mpr ⟨trivial, ?_⟩
    simp only [WalFrame.body, WalFrameBody.entries, cons_append, nil_append,
      forall_mem_cons]
    exact ⟨trivial, trivial, trivial, hchange, hnat _ hseq, trivial, hnat _ hversion, trivial,
      by simp⟩
  · refine (Value.all_object _ _).mpr ⟨trivial, ?_⟩
    simp only [WalFrame.body, WalFrameBody.entries, forall_mem_cons]
    exact ⟨trivial, trivial, trivial, hchange, hnat _ hseq, trivial, hnat _ hversion, by simp⟩

end GraphRefly.Storage
