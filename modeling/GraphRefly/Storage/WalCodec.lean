import GraphRefly.Storage.WalChecks

/-!
# Frames There and Back

A frame that was made passes every check, so it can be written; and the bytes of a frame
are read as that frame, as far as the JSON library reads so deep and the payload has no
floating-point numbers, which are not printed in a way that tells them from integers.

The other way round, bytes are decoded to a payload by the payload's own reader, and a
reader may pass over what it does not know. The bytes come back if the change in them is
something that a payload is written as.

## Main definitions

* `Readable`: A payload that is read back.
* `FramesExact`: What is to hold of frames.

## Theorems

* `walFrameChecksum_eq_ok`, `encode_eq_ok`, `decode_eq_ok`: Results of the operations.
* `decode_encode`, `encode_decode`: Frames there and back.
* `walFrame_bound`: The checksum of a frame fits no other frame.
* `frames_exact`: Frames are made, encoded, decoded and checked as they should be.
-/

namespace GraphRefly.Storage

open List Json

variable {F T : Type}

/-! ### Checksums -/

theorem isHexDigit_hexDigit {n : Nat} (h : n < 16) : isHexDigit (hexDigit n) = true := by
  interval_cases n <;> rfl

theorem isSha256Hex_hexText (digest : Digest) : isSha256Hex (hexText digest) = true := by
  have hlen : (digest.val.flatMap hexByte).length = 64 := by
    have htwo : digest.val.map (fun b => (hexByte b).length) = digest.val.map fun _ => 2 :=
      map_congr_left fun b _ => rfl
    rw [length_flatMap, htwo, map_const', sum_replicate, digest.property]
    rfl
  have hall : ∀ c ∈ digest.val.flatMap hexByte, isHexDigit c = true := by
    intro c hc
    obtain ⟨b, -, hc⟩ := mem_flatMap.mp hc
    have hb := b.isLt
    simp only [hexByte, mem_cons, not_mem_nil, or_false] at hc
    rcases hc with rfl | rfl <;> exact isHexDigit_hexDigit (by omega)
  simp [isSha256Hex, hexText, hlen, all_eq_true.mpr hall]

theorem hexByte_inj {a b : Fin 256} (h : hexByte a = hexByte b) : a = b := by
  simp only [hexByte, List.cons.injEq, and_true] at h
  have ha := a.isLt
  have hb := b.isLt
  have hhigh := congrArg hexValue h.1
  have hlow := congrArg hexValue h.2
  rw [hexValue_hexDigit (by omega), hexValue_hexDigit (by omega)] at hhigh hlow
  omega

theorem hexText_inj {a b : Digest} (h : hexText a = hexText b) : a = b := by
  have hinj : ∀ as bs : List (Fin 256), as.flatMap hexByte = bs.flatMap hexByte → as = bs := by
    intro as
    induction as with
    | nil =>
      intro bs h
      cases bs with
      | nil => rfl
      | cons b bs => cases h
    | cons a as ih =>
      intro bs h
      cases bs with
      | nil => cases h
      | cons b bs =>
        rw [flatMap_cons, flatMap_cons] at h
        -- Every byte spells two digits.
        obtain ⟨hbyte, hrest⟩ := append_inj h rfl
        rw [hexByte_inj hbyte, ih bs hrest]
  exact Subtype.ext (hinj _ _ (String.ofList_inj.mp h))

theorem mapError_bind_eq_ok {α β : Type} {x : Except JsonCodecError α}
    {f : α → Except StorageError β} {b : β} :
    (x.mapError storageJsonError >>= f) = .ok b ↔ ∃ a, x = .ok a ∧ f a = .ok b := by
  cases x <;> simp [Except.mapError, bind, Except.bind]

theorem mapError_bind_eq_ok_unit {β : Type} {x : Except JsonCodecError Unit}
    {y : Except StorageError β} {b : β} :
    (x.mapError storageJsonError >>= fun _ => y) = .ok b ↔ x = .ok () ∧ y = .ok b := by
  cases x <;> simp [Except.mapError, bind, Except.bind]

section Codec

variable [Float64 F] {sha256 : ByteArray → Digest} {P : SerdePayload F T}

/-- A checksum is the hash of the bytes of a valid body. -/
theorem walFrameChecksum_eq_ok {body : WalFrameBody T} {sum : String} :
    walFrameChecksum sha256 P body = .ok sum ↔ body.Valid ∧
      ∃ bytes, strictCanonicalJsonBytes (body.toValue P) = .ok bytes ∧
        sum = sha256Hex sha256 bytes := by
  unfold walFrameChecksum
  rw [mapError_bind_eq_ok_unit, mapError_bind_eq_ok_unit, mapError_bind_eq_ok,
    assertWalFrameBody_eq_ok, assertWalFrameBodyValue_eq_ok]
  simp only [Except.ok.injEq]
  constructor
  · rintro ⟨hvalid, -, bytes, hbytes, hsum⟩
    exact ⟨hvalid, bytes, hbytes, hsum.symm⟩
  · rintro ⟨hvalid, bytes, hbytes, hsum⟩
    exact ⟨hvalid, hvalid.isBody P, bytes, hbytes, hsum.symm⟩

variable {frame : WalFrame T}

theorem walFrame_eq_ok {nowNs : Nat} {opts : WalFrameOptions T}
    (h : walFrame sha256 P nowNs opts = .ok frame) :
    walFrameChecksum sha256 P frame.body = .ok frame.checksum := by
  unfold walFrame at h
  cases htime : frameTime nowNs opts.frameTNs with
  | error e =>
    rw [htime] at h
    cases h
  | ok time =>
    cases hsum : walFrameChecksum sha256 P (.ofOptions opts time) with
    | error e =>
      simp only [htime, hsum, bind, Except.bind, reduceCtorEq] at h
    | ok sum =>
      simp only [htime, hsum, bind, Except.bind, Except.ok.injEq] at h
      subst h
      exact hsum

theorem verifyWalFrameChecksum_eq_true :
    verifyWalFrameChecksum sha256 P frame = .ok true ↔
      frame.Valid ∧ walFrameChecksum sha256 P frame.body = .ok frame.checksum := by
  unfold verifyWalFrameChecksum
  rw [mapError_bind_eq_ok_unit, assertWalFrame_eq_ok]
  refine and_congr_right fun _ => ?_
  cases walFrameChecksum sha256 P frame.body with
  | error e => simp [bind, Except.bind]
  | ok sum => simp [bind, Except.bind]

/-! ### Encoding and decoding -/

theorem WalFrame.Valid.isFrame (h : frame.Valid) (P : SerdePayload F T) :
    IsFrame (frame.toValue P) where
  body :=
    { record := by
        refine ⟨_, rfl, ?_⟩
        simp [WalFrame.body, WalFrameBody.entries, walFields]
      t := congrArg some h.body.t
      lifecycle := ⟨frame.lifecycle, ofName_name frame.lifecycle⟩
      path := ⟨frame.path, rfl, h.body.path⟩
      change := ⟨_, rfl⟩
      frameSeq := ⟨frame.frameSeq, Value.asU64_ofNat (F := F) frame.frameSeq⟩
      frameTNs := ⟨frame.frameTNs, rfl, h.body.frameTNs⟩
      formatVersion := (Value.asU64_ofNat (F := F) frame.formatVersion).trans
        (congrArg some h.body.formatVersion) }
  checksum := ⟨frame.checksum, rfl, h.checksum⟩

/-- The checks of the encoder are those of the typed frame and of the numbers. -/
theorem encode_eq_ok {bytes : ByteArray} :
    WalFrameCodec.encode P frame = .ok bytes ↔
      frame.Valid ∧ strictCanonicalJsonBytes (frame.toValue P) = .ok bytes := by
  unfold WalFrameCodec.encode
  have hvalue : assertWalFrameValue (frame.toValue P) = .ok () ↔ IsFrame (frame.toValue P) :=
    assertWalFrameValue_eq_ok
  cases htyped : assertWalFrame P frame with
  | error e =>
    have hinvalid : ¬ frame.Valid := by
      rw [← assertWalFrame_eq_ok (P := P), htyped]
      simp
    simp [bind, Except.bind, hinvalid]
  | ok u =>
    have hvalid := assertWalFrame_eq_ok.mp htyped
    rw [hvalue.mpr (hvalid.isFrame P)]
    simp [bind, Except.bind, hvalid]

theorem decode_eq_ok {lib : SerdeJson F} {bytes : ByteArray} :
    WalFrameCodec.decode P lib bytes = .ok frame ↔ ∃ w, strictJsonDecode lib bytes = .ok w ∧
      IsFrame w.val ∧ frameFromValue P w.val = .ok frame := by
  unfold WalFrameCodec.decode
  cases hdecode : strictJsonDecode lib bytes with
  | error e => simp [bind, Except.bind]
  | ok w =>
    have hcheck : assertWalFrameValue w.val = .ok () ↔ IsFrame w.val :=
      assertWalFrameValue_eq_ok
    cases hassert : assertWalFrameValue w.val with
    | error e =>
      rw [hassert] at hcheck
      have hno : ¬ IsFrame w.val := fun h => by
        cases hcheck.mpr h
      simp [bind, Except.bind, hassert, hno]
    | ok u =>
      have hyes := hcheck.mp hassert
      cases hread : frameFromValue P w.val with
      | error e => simp [bind, Except.bind, hassert, hread, Except.mapError]
      | ok frame' => simp [bind, Except.bind, hassert, hread, hyes, Except.mapError]

end Codec

/-! ### Frames there and back -/

theorem keys_of_same {es fs : List (String × Value F)} (hes : (Value.object es).Distinct)
    (hfs : (Value.object fs).Distinct) (h : Value.Same (.object es) (.object fs)) :
    ∀ e ∈ fs, e.1 ∈ es.map (·.1) := by
  have hkeys := ((Value.all_object _ _).mp hes).1
  have hsub : es.map (·.1) ⊆ fs.map (·.1) := by
    intro key hkey
    obtain ⟨e, he, rfl⟩ := mem_map.mp hkey
    obtain ⟨y, hy, -⟩ := (Value.sameEntries_iff es fs).mp h.2 e he
    exact mem_map_of_mem (f := (·.1))
      ((lookup_eq_some_iff_mem ((Value.all_object _ _).mp hfs).1).mp hy)
  -- No key of the second can be left over: there are as many on both sides.
  have hperm := (subperm_of_subset hkeys hsub).perm_of_length_le
    (by simpa [Value.keys] using h.1.ge)
  exact fun e he => hperm.symm.subset (mem_map_of_mem (f := (·.1)) he)

theorem IsFrame.of_same {v w : Value F} (h : IsFrame v) (hv : v.Distinct) (hw : w.Distinct)
    (hsame : Value.Same v w) : IsFrame w where
  body :=
    { record := by
        obtain ⟨es, rfl, hknown⟩ := h.body.record
        cases w with
        | object fs =>
          refine ⟨fs, rfl, fun e he => ?_⟩
          obtain ⟨e', he', heq⟩ := mem_map.mp (keys_of_same hv hw hsame e he)
          exact heq ▸ hknown e' he'
        | null | bool _ | number _ | string _ | array _ =>
          exact absurd hsame (by simp [Value.Same])
      t := strField_of_same hv hsame h.body.t
      lifecycle := by
        obtain ⟨lifecycle, hlifecycle⟩ := h.body.lifecycle
        obtain ⟨name, hname, hof⟩ := Option.bind_eq_some_iff.mp hlifecycle
        exact ⟨lifecycle, Option.bind_eq_some_iff.mpr ⟨name, strField_of_same hv hsame hname, hof⟩⟩
      path := by
        obtain ⟨path, hpath, hne⟩ := h.body.path
        exact ⟨path, strField_of_same hv hsame hpath, hne⟩
      change := by
        obtain ⟨change, hchange⟩ := h.body.change
        obtain ⟨change', hchange', -⟩ := get_of_same hv hsame hchange
        exact ⟨change', hchange'⟩
      frameSeq := by
        obtain ⟨seq, hseq⟩ := h.body.frameSeq
        exact ⟨seq, u64Field_of_same hv hsame hseq⟩
      frameTNs := by
        obtain ⟨time, htime, hdecimal⟩ := h.body.frameTNs
        exact ⟨time, strField_of_same hv hsame htime, hdecimal⟩
      formatVersion := u64Field_of_same hv hsame h.body.formatVersion }
  checksum := by
    obtain ⟨sum, hsum, hhex⟩ := h.checksum
    exact ⟨sum, strField_of_same hv hsame hsum, hhex⟩

theorem name_inj {a b : ChangeLifecycle} (h : a.name = b.name) : a = b := by
  have ha := ofName_name a
  rw [h, ofName_name b] at ha
  exact (Option.some.inj ha).symm

theorem body_inj {P : SerdePayload F T} (hP : P.Lawful) {a b : WalFrameBody T}
    (h : Value.Same (a.toValue P) (b.toValue P)) : a = b := by
  have hdistinct := distinct_body P a
  have hstr {key x y : String} (hx : strField (a.toValue P) key = some x)
      (hy : strField (b.toValue P) key = some y) : x = y :=
    Option.some.inj ((strField_of_same hdistinct h hx).symm.trans hy)
  have hnat {key : String} {x y : Nat} (hx : u64Field (a.toValue P) key = some x)
      (hy : u64Field (b.toValue P) key = some y) : x = y :=
    Option.some.inj ((u64Field_of_same hdistinct h hx).symm.trans hy)
  have hvalue (n : Nat) : (Value.ofNat n : Value F).asU64 = some n := Value.asU64_ofNat n
  have ht : a.t = b.t := @hstr "t" _ _ rfl rfl
  have hlifecycle : a.lifecycle = b.lifecycle := name_inj (@hstr "lifecycle" _ _ rfl rfl)
  have hpath : a.path = b.path := @hstr "path" _ _ rfl rfl
  have htime : a.frameTNs = b.frameTNs := @hstr "frame_t_ns" _ _ rfl rfl
  have hseq : a.frameSeq = b.frameSeq := @hnat "frame_seq" _ _ (hvalue _) (hvalue _)
  have hversion : a.formatVersion = b.formatVersion :=
    @hnat "format_version" _ _ (hvalue _) (hvalue _)
  have hget : (a.toValue P).get "change" = some (P.toValue a.change).val := rfl
  obtain ⟨change, hchange, hsame⟩ := get_of_same hdistinct h hget
  have hgiven : (P.toValue b.change).val = change := Option.some.inj hchange
  rw [← hgiven] at hsame
  -- A payload is what is read from its value.
  have hread := hP.fromValue_toValue a.change _ (P.toValue b.change).property hsame
  rw [hP.fromValue_toValue b.change _ (P.toValue b.change).property
    (same_refl (P.toValue b.change).property)] at hread
  have hpayload := Except.ok.inj hread
  cases a
  cases b
  simp_all only

/-- What a payload needs to be read back: integer numbers, and not so much nesting that the
    library stops at the frame around it. -/
structure Readable (P : SerdePayload F T) (change : T) : Prop where
  integers : (P.toValue change).val.Integers
  nesting : (P.toValue change).val.nesting + 1 < 128

/-- What is to hold of frames. -/
structure FramesExact [Float64 F] (sha256 : ByteArray → Digest) (P : SerdePayload F T)
    (lib : SerdeJson F) : Prop where
  /-- What is made is right, and can be written. -/
  made : ∀ nowNs opts frame, walFrame sha256 P nowNs opts = .ok frame →
    verifyWalFrameChecksum sha256 P frame = .ok true ∧ ∃ b, WalFrameCodec.encode P frame = .ok b
  /-- What is written is read. -/
  read : ∀ frame b, WalFrameCodec.encode P frame = .ok b → Readable P frame.change →
    WalFrameCodec.decode P lib b = .ok frame
  /-- What is read is written the same, if its change is what some payload is written as. -/
  written : ∀ frame b value change payload, WalFrameCodec.decode P lib b = .ok frame →
    strictJsonDecode lib b = .ok value → value.val.get "change" = some change →
    Value.Same (P.toValue payload).val change → WalFrameCodec.encode P frame = .ok b
  /-- A frame with the checksum of another is not right, unless the hash collides. -/
  bound : ∀ nowNs opts made frame, walFrame sha256 P nowNs opts = .ok made →
    frame.checksum = made.checksum → frame ≠ made →
    (P.toValue made.change).val.Integers → (P.toValue frame.change).val.Integers →
    (∀ b c, strictCanonicalJsonBytes (frame.body.toValue P) = .ok b →
      strictCanonicalJsonBytes (made.body.toValue P) = .ok c → sha256 b = sha256 c → b = c) →
    verifyWalFrameChecksum sha256 P frame ≠ .ok true
  /-- Keys are ordered as the numbers. -/
  ordered : ∀ pre m n, m ≤ u64Max → n ≤ u64Max →
    (walFrameKey pre m < walFrameKey pre n ↔ m < n)

section Exact

variable [Float64 F] {sha256 : ByteArray → Digest} {P : SerdePayload F T}

variable {frame : WalFrame T}

theorem encode_of_body (hvalid : frame.Valid) {bytes : ByteArray}
    (h : strictCanonicalJsonBytes (frame.body.toValue P) = .ok bytes) :
    ∃ b, WalFrameCodec.encode P frame = .ok b := by
  obtain ⟨hheight, hbody, -⟩ := height_toValue P frame
  obtain ⟨⟨hlow, hsafe⟩, -⟩ := strictCanonicalJsonBytes_eq_ok.mp h
  refine ⟨_, encode_eq_ok.mpr ⟨hvalid, strictCanonicalJsonBytes_eq_ok.mpr ⟨⟨?_, ?_⟩, rfl⟩⟩⟩
  · rw [hheight, ← hbody]
    exact hlow
  · exact (safe_toValue P frame).1.mpr hsafe

theorem walFrame_verified {nowNs : Nat} {opts : WalFrameOptions T}
    (h : walFrame sha256 P nowNs opts = .ok frame) : frame.Valid ∧
      ∃ bytes, strictCanonicalJsonBytes (frame.body.toValue P) = .ok bytes ∧
        frame.checksum = sha256Hex sha256 bytes := by
  obtain ⟨hvalid, bytes, hbytes, hsum⟩ := walFrameChecksum_eq_ok.mp (walFrame_eq_ok h)
  refine ⟨⟨hvalid, ?_⟩, bytes, hbytes, hsum⟩
  rw [hsum]
  exact isSha256Hex_hexText _

/-- What is written is read. -/
theorem decode_encode {lib : SerdeJson F} (hlib : lib.Lawful) (hP : P.Lawful) {b : ByteArray}
    (h : WalFrameCodec.encode P frame = .ok b)
    (hchange : Readable P frame.change) : WalFrameCodec.decode P lib b = .ok frame := by
  obtain ⟨hvalid, hbytes⟩ := encode_eq_ok.mp h
  have hsafe := (strictCanonicalJsonBytes_eq_ok.mp hbytes).1.2
  obtain ⟨hseq, hversion⟩ := (safe_toValue P frame).2 ((safe_toValue P frame).1.mp hsafe)
  have hintegers := (integers_toValue hchange.integers hseq hversion).1
  have hdistinct := distinct_toValue P frame
  have hnesting : (frame.toValue P).nesting < 128 := by
    rw [(height_toValue P frame).2.2]
    exact hchange.nesting
  obtain ⟨w, hw, hsame⟩ := strictJsonDecode_shallow hlib (v := ⟨_, hdistinct⟩) hintegers hbytes
    hnesting
  refine decode_eq_ok.mpr ⟨w, hw, (hvalid.isFrame P).of_same hdistinct w.property hsame, ?_⟩
  exact ((shows_toValue P frame).of_same hdistinct w.property hsame).read hP w.property

/-- What is read is written the same. -/
theorem encode_decode {lib : SerdeJson F} (hP : P.Lawful) {b : ByteArray}
    {value : JsonValue F} {change : Value F} {payload : T}
    (h : WalFrameCodec.decode P lib b = .ok frame) (hvalue : strictJsonDecode lib b = .ok value)
    (hget : value.val.get "change" = some change)
    (hpayload : Value.Same (P.toValue payload).val change) :
    WalFrameCodec.encode P frame = .ok b := by
  obtain ⟨w, hw, hframe, hread⟩ := decode_eq_ok.mp h
  rw [hvalue] at hw
  cases hw
  obtain ⟨change', hget', hfrom, hshows⟩ := frameFromValue_eq_ok hread
  rw [hget] at hget'
  cases hget'
  -- The payload that is read is the one the change was written from.
  have hsame := hP.fromValue_toValue payload change (distinct_get value.property hget) hpayload
  rw [hfrom] at hsame
  rw [← Except.ok.inj hsame] at hpayload
  have hshown := hshows hpayload
  have hequal := hshown.same value.property hframe.body.record
  refine encode_eq_ok.mpr ⟨?_, ?_⟩
  · obtain ⟨path, hpath, hne⟩ := hframe.body.path
    obtain ⟨time, htime, hdecimal⟩ := hframe.body.frameTNs
    obtain ⟨sum, hsum, hhex⟩ := hframe.checksum
    rw [hshown.path] at hpath
    rw [hshown.frameTNs] at htime
    rw [hshown.checksum] at hsum
    cases hpath
    cases htime
    cases hsum
    exact ⟨⟨Option.some.inj (hshown.t.symm.trans hframe.body.t), hne, hdecimal,
      Option.some.inj (hshown.formatVersion.symm.trans hframe.body.formatVersion)⟩, hhex⟩
  · rw [Value.same_iff_reorder (distinct_toValue P frame) value.property] at hequal
    exact strictCanonicalJsonBytes_congr hequal.symm (strictJsonDecode_canonical hvalue)

/-- The checksum of a frame fits no other frame. -/
theorem walFrame_bound (hP : P.Lawful) {nowNs : Nat} {opts : WalFrameOptions T}
    {made : WalFrame T} (h : walFrame sha256 P nowNs opts = .ok made)
    (hsum : frame.checksum = made.checksum) (hmade : (P.toValue made.change).val.Integers)
    (hframe : (P.toValue frame.change).val.Integers)
    (hhash : ∀ b c, strictCanonicalJsonBytes (frame.body.toValue P) = .ok b →
      strictCanonicalJsonBytes (made.body.toValue P) = .ok c → sha256 b = sha256 c → b = c)
    (hverify : verifyWalFrameChecksum sha256 P frame = .ok true) : frame = made := by
  obtain ⟨-, c, hc, hsumc⟩ := walFrame_verified h
  obtain ⟨-, b, hb, hsumb⟩ := walFrameChecksum_eq_ok.mp
    (verifyWalFrameChecksum_eq_true.mp hverify).2
  rw [hsumb, hsumc] at hsum
  have hbytes : b = c := hhash b c hb hc (hexText_inj hsum)
  obtain ⟨⟨-, hsafeb⟩, hbtext⟩ := strictCanonicalJsonBytes_eq_ok.mp hb
  obtain ⟨⟨-, hsafec⟩, hctext⟩ := strictCanonicalJsonBytes_eq_ok.mp hc
  rw [hbtext, hctext] at hbytes
  have htext := String.ofList_inj.mp (String.toByteArray_inj.mp hbytes)
  obtain ⟨hfseq, hfversion⟩ := (safe_toValue P frame).2 hsafeb
  obtain ⟨hmseq, hmversion⟩ := (safe_toValue P made).2 hsafec
  have hsame := (canonicalJson_eq_iff (distinct_body P frame.body) (distinct_body P made.body)
    (integers_toValue hframe hfseq hfversion).2 (integers_toValue hmade hmseq hmversion).2).mp htext
  have hbody := body_inj hP hsame
  have hsums : frame.checksum = made.checksum := by rw [hsumb, hsumc, hsum]
  cases frame
  cases made
  simp_all [WalFrame.body]

/-- Frames are made, written, read and checked as they should be. -/
theorem frames_exact {lib : SerdeJson F} (hlib : lib.Lawful) (hP : P.Lawful) :
    FramesExact sha256 P lib where
  made nowNs opts frame h := by
    obtain ⟨hvalid, bytes, hbytes, hsum⟩ := walFrame_verified h
    exact ⟨verifyWalFrameChecksum_eq_true.mpr ⟨hvalid, walFrame_eq_ok h⟩,
      encode_of_body hvalid hbytes⟩
  read frame b h hchange := decode_encode hlib hP h hchange
  written frame b value change payload h hvalue hget hpayload :=
    encode_decode hP h hvalue hget hpayload
  bound nowNs opts made frame h hsum hne hmade hframe hhash hverify :=
    hne (walFrame_bound hP h hsum hmade hframe hhash hverify)
  ordered pre m n hm hn := appendLogKey_lt_iff pre hm hn

end Exact

/-! ### Records that grow -/

/-- Numbers as payloads. -/
def naturals : SerdePayload Empty Nat where
  toValue n := ⟨.ofNat n, trivial⟩
  fromValue v := match v.asU64 with
    | some n => .ok n
    | none => .error "invalid type"

theorem naturals_lawful : naturals.Lawful where
  fromValue_toValue n w _ h := by
    have hw : w = .ofNat n := by
      cases w <;> simp_all [naturals, Value.Same, Value.ofNat]
    rw [hw]
    simp [naturals]

theorem frames_exact_naturals : FramesExact (fun bytes => ⟨List.replicate 32
    (Fin.ofNat 256 bytes.size), length_replicate⟩) naturals (readerLibrary Empty) :=
  frames_exact readerLibrary_lawful naturals_lawful

/-- A record whose reader passes over what it does not know. -/
def recordOf (fields : List (String × Value Empty)) (h : (Value.object fields).Distinct) :
    SerdePayload Empty Unit where
  toValue _ := ⟨.object fields, h⟩
  fromValue
    | .object _ => .ok ()
    | _ => .error "invalid type"

theorem recordOf_lawful (fields : List (String × Value Empty))
    (h : (Value.object fields).Distinct) : (recordOf fields h).Lawful where
  fromValue_toValue x w _ hsame := by
    cases w with
    | object es => rfl
    | null | bool _ | number _ | string _ | array _ => exact hsame.elim

/-- A record without fields, and the same record with a field added later. -/
def oldRecord : SerdePayload Empty Unit := recordOf [] (by decide)

def newRecord : SerdePayload Empty Unit := recordOf [("added", .null)] (by decide)

def recordFrame : WalFrame Unit :=
  { t := "c"
    lifecycle := .data
    path := "records"
    change := ()
    frameSeq := 0
    frameTNs := "0"
    formatVersion := 1
    checksum := String.ofList (List.replicate 64 '0') }

def newRecordBytes : ByteArray :=
  (String.ofList (canonicalJson (recordFrame.toValue newRecord))).toUTF8

/-- A frame of the newer record is read as one of the older, and not written the same. -/
theorem newer_record_shrinks : oldRecord.Lawful ∧ (readerLibrary Empty).Lawful ∧
    WalFrameCodec.decode oldRecord (readerLibrary Empty) newRecordBytes = .ok recordFrame ∧
      WalFrameCodec.encode oldRecord recordFrame ≠ .ok newRecordBytes := by
  refine ⟨recordOf_lawful _ _, readerLibrary_lawful, ?_, ?_⟩
  · have hsafe : (recordFrame.toValue newRecord).Safe := by
      simp [recordFrame, newRecord, recordOf, Value.Safe, WalFrame.toValue, WalFrameBody.entries,
        WalFrame.body, Value.ofNat, Value.All, Value.AllEntries, Number.Safe, jsMaxSafeInteger]
    have hencode : WalFrameCodec.encode newRecord recordFrame = .ok newRecordBytes :=
      encode_eq_ok.mpr ⟨⟨⟨rfl, by decide, by decide, rfl⟩, by decide⟩,
        strictCanonicalJsonBytes_eq_ok.mpr ⟨⟨by decide, hsafe⟩, rfl⟩⟩
    have hread : Readable newRecord recordFrame.change := by
      refine ⟨?_, by decide⟩
      simp [newRecord, recordOf, Value.Integers, Value.All, Value.AllEntries]
    have hdecode := decode_encode readerLibrary_lawful (recordOf_lawful _ _) hencode hread
    obtain ⟨w, hw, hframe, hvalue⟩ := decode_eq_ok.mp hdecode
    -- The reader of the older record is the same.
    have hfrom : oldRecord.fromValue = newRecord.fromValue := rfl
    refine decode_eq_ok.mpr ⟨w, hw, hframe, ?_⟩
    unfold frameFromValue at hvalue ⊢
    rw [hfrom]
    exact hvalue
  · intro h
    have hbytes := (strictCanonicalJsonBytes_eq_ok.mp (encode_eq_ok.mp h).2).2
    have htext := String.ofList_inj.mp (String.toByteArray_inj.mp hbytes)
    have hlen := congrArg List.length htext
    revert hlen
    decide +kernel

end GraphRefly.Storage
