import GraphRefly.Bridge.Calls

/-!
# One Outcome For Each Call

Callers, the clock and the peer drive a bridge in any order, and the nodes of remote
calls follow it. As long as no request is sent twice by the bridge, each call has one
outcome and the three tables hold exactly the calls that are outstanding.

A retransmission breaks this. The bridge reports another attempt by another outbound
fact, and the nodes enter a call for every outbound fact. While the call is in flight
the errors node takes the attempt for a duplicate, and once the call is settled the
status node counts it again. A run is accounted for exactly when its bridge repeats
no request.

## Main definitions

* `RemoteWorld`, `remoteStep`, `remoteRun`: Everything that can happen.
* `BridgeState.repeatsRequest`: A command makes the bridge send a request again.
* `Synced`: The invariant of the bridge, the nodes and the facts.

## Theorems

* `processCommand_handling`: What a command means for the calls.
* `Synced.step`: A step keeps the invariant, or repeats a request and breaks the account.
* `calls_accounted`: Which runs are accounted for.
* `repeated_request_is_duplicate`: A run with one call and one retransmission.
-/

namespace GraphRefly.Bridge

open List

variable {T U : Type}

/-! ### What a command means for the calls -/

variable {opts : WireBridgeOptions} {now : Nat}

variable {s s' : BridgeState T} {es : List (WireBridgeEvent T U)}

theorem emitRetryOutbound_ok {current : WireBridgeEnvelope T}
    (h : emitRetryOutbound opts now s current = .ok (s', es)) :
    s'.nextSeq = s.nextSeq ∧ es = [.outbound (retryInput opts now s current).envelope] := by
  unfold emitRetryOutbound at h
  cases hbuild : wireBridgeEnvelope (retryInput opts now s current) with
  | error err =>
    simp only [hbuild] at h
    exact absurd h (by simp)
  | ok retry =>
    simp only [hbuild] at h
    obtain ⟨-, rfl⟩ := (wireBridgeEnvelope_eq_ok _ _).mp hbuild
    cases hp : s.pending current.metadata.seq with
    | none =>
      simp only [hp] at h
      cases h
      exact ⟨rfl, rfl⟩
    | some p =>
      simp only [hp] at h
      cases h
      exact ⟨rfl, rfl⟩

/-- A timeout sends at most one envelope, last of all, and does so exactly when it is
    one more attempt. -/
theorem processAckTimeoutCommand_sent {seq attempt : Nat} {observedAtMs : Option Nat}
    (h : processAckTimeoutCommand opts now s seq attempt observedAtMs = .ok (s', es)) :
    s'.nextSeq = s.nextSeq ∧
      (s.retransmits opts seq attempt observedAtMs = false → outbounds es = []) ∧
      (s.retransmits opts seq attempt observedAtMs = true → ∃ p before state,
        s.pending seq = some p ∧
        p.envelope.metadata.attempt ≠ 0 ∧ outbounds before = [] ∧
        es = before ++ [.outbound (retryInput opts now state p.envelope).envelope]) := by
  unfold processAckTimeoutCommand at h
  by_cases hseq : seq = 0
  · rw [if_pos hseq] at h
    cases h
    refine ⟨rfl, fun _ => rfl, fun hr => ?_⟩
    unfold BridgeState.retransmits at hr
    split at hr <;> simp_all
  by_cases hattempt : attempt = 0
  · rw [if_neg hseq, if_pos hattempt] at h
    cases h
    refine ⟨rfl, fun _ => rfl, fun hr => ?_⟩
    unfold BridgeState.retransmits at hr
    split at hr <;> simp_all
  rw [if_neg hseq, if_neg hattempt] at h
  cases hp : s.pending seq with
  | none =>
    simp only [hp] at h
    cases h
    exact ⟨rfl, fun _ => rfl, fun hr => by simp [BridgeState.retransmits, hp] at hr⟩
  | some p =>
    simp only [hp] at h
    by_cases hcurrent : p.envelope.metadata.attempt = attempt
    case neg =>
      rw [if_pos hcurrent] at h
      cases h
      exact ⟨rfl, fun _ => rfl, fun hr => by simp [BridgeState.retransmits, hp, hcurrent] at hr⟩
    have hfirst : p.envelope.metadata.attempt ≠ 0 := hcurrent ▸ hattempt
    rw [if_neg (not_not.mpr hcurrent)] at h
    by_cases hreported : p.timeoutReportedAttempt = some attempt
    · rw [if_pos hreported] at h
      by_cases hwaits : p.waits observedAtMs = true
      · rw [if_pos hwaits] at h
        cases h
        exact ⟨rfl, fun _ => rfl, fun hr => by
          simp [BridgeState.retransmits, hp, hreported, hwaits] at hr⟩
      · rw [if_neg hwaits] at h
        obtain ⟨hnext, rfl⟩ := emitRetryOutbound_ok h
        refine ⟨hnext, fun hr => ?_, fun _ => ⟨p, [], s, rfl, hfirst, rfl, rfl⟩⟩
        simp [BridgeState.retransmits, hp, hseq, hattempt, hcurrent, hreported, hwaits] at hr
    · rw [if_neg hreported] at h
      by_cases hshould : opts.retry.shouldRetry attempt = false
      · rw [if_pos hshould] at h
        cases h
        exact ⟨rfl, fun _ => rfl, fun hr => by
          simp [BridgeState.retransmits, hp, hreported, hshould] at hr⟩
      · rw [if_neg hshould] at h
        rw [Bool.not_eq_false] at hshould
        generalize hdelay : (opts.retry.nextDelayMs
          (saturatingAdd u32Max attempt 1)).getD 0 = delayMs
          at h
        by_cases hdue : (p.report attempt delayMs observedAtMs).retryDueAtMs.isSome = true
        · rw [if_pos hdue] at h
          cases h
          exact ⟨rfl, fun _ => rfl, fun hr => by
            simp [BridgeState.retransmits, hp, hreported, hshould, hdelay, hdue] at hr⟩
        · rw [if_neg hdue] at h
          cases hretry : emitRetryOutbound (U := U) opts now
              (s.setPending seq (some (p.report attempt delayMs observedAtMs))) p.envelope with
          | error panic =>
            rw [hretry] at h
            exact absurd h (by simp)
          | ok out =>
            obtain ⟨state, sent⟩ := out
            rw [hretry] at h
            cases h
            obtain ⟨hnext, rfl⟩ := emitRetryOutbound_ok hretry
            refine ⟨hnext, fun hr => ?_, fun _ => ⟨p, [_, _], _, rfl, hfirst, rfl, rfl⟩⟩
            simp [BridgeState.retransmits, hp, hseq, hattempt, hcurrent, hreported, hshould,
              hdelay, hdue] at hr

variable {es : List (RemoteCallEvent T U)}

theorem request?_of_outbounds (h : outbounds es = []) :
    ∀ e ∈ es, e.request? = none := by
  intro e he
  cases e with
  | outbound envelope =>
    have hmem := filterMap_eq_nil_iff.mp h _ he
    exact absurd hmem (by simp [WireBridgeEvent.outbound?])
  | _ => rfl

/-- Whether a command makes the bridge send a request again. -/
def BridgeState.repeatsRequest (opts : WireBridgeOptions)
    (s : BridgeState (RemoteCallRequest T)) : WireBridgeCommand (RemoteCallRequest T) → Bool
  | .ackTimeout seq attempt observedAtMs =>
    s.retransmits opts seq attempt observedAtMs &&
      ((s.pending seq).bind fun p => pendingRequestFromEnvelope p.envelope).isSome
  | _ => false

/-- What a command means for the calls. -/
inductive Handling (opts : WireBridgeOptions) (s s' : BridgeState (RemoteCallRequest T))
    (cmd : WireBridgeCommand (RemoteCallRequest T)) (es : List (RemoteCallEvent T U)) : Prop
  /-- A call is asked for and the bridge refuses it. -/
  | refused (call : RemoteCall) (error : String)
      (asked : pendingRequestFromCommand cmd = some call.preview)
      (events : es = [.invalid error])
      (same : s' = s)
  /-- A call is asked for and sent under the next number. -/
  | sent (call : RemoteCall) (envelope : WireBridgeEnvelope (RemoteCallRequest T))
      (asked : pendingRequestFromCommand cmd = some call.preview)
      (events : es = [.outbound envelope])
      (request : pendingRequestFromEnvelope envelope = some call.request)
      (first : envelope.call? = some call)
      (number : call.seq = s.nextSeq)
      (next : s'.nextSeq = s.nextSeq + 1)
  /-- No call is sent. -/
  | quiet
      (asked : pendingRequestFromCommand cmd = none)
      (single : s.repeatsRequest opts cmd = false)
      (events : ∀ e ∈ es, e.request? = none)
      (next : s.nextSeq ≤ s'.nextSeq)
  /-- A request is sent again, after events that send no call. -/
  | repeated (call : RemoteCall) (envelope : WireBridgeEnvelope (RemoteCallRequest T))
      (before : List (RemoteCallEvent T U))
      (asked : pendingRequestFromCommand cmd = none)
      (again : s.repeatsRequest opts cmd = true)
      (events : es = before ++ [.outbound envelope])
      (quiet : ∀ e ∈ before, e.request? = none)
      (request : pendingRequestFromEnvelope envelope = some call.request)
      (later : envelope.call? = none)

theorem emitOutbound_cases (opts : WireBridgeOptions) (now : Nat) (s : BridgeState T)
    (spec : OutboundSpec T) :
    (∃ error, emitOutbound (U := U) opts now s spec = (s, [.invalid error])) ∨
      ∃ s', emitOutbound (U := U) opts now s spec =
          (s', [.outbound (spec.input opts now s).envelope]) ∧ s'.nextSeq = s.nextSeq + 1 := by
  unfold emitOutbound
  split
  · exact Or.inl ⟨_, rfl⟩
  · cases hbuild : wireBridgeEnvelope (spec.input opts now s) with
    | error err => exact Or.inl ⟨_, rfl⟩
    | ok e =>
      obtain ⟨-, rfl⟩ := (wireBridgeEnvelope_eq_ok _ _).mp hbuild
      refine Or.inr ⟨_, rfl, ?_⟩
      split <;> split <;> rfl

variable {cmd : WireBridgeCommand (RemoteCallRequest T)}

theorem emitOutbound_handling
    {s s' : BridgeState (RemoteCallRequest T)} {spec : OutboundSpec (RemoteCallRequest T)}
    (hpayload : ∀ r, spec.payload ≠ some (.data r))
    (hasked : pendingRequestFromCommand cmd = none) (hsingle : s.repeatsRequest opts cmd = false)
    (h : emitOutbound opts now s spec = (s', es)) : Handling opts s s' cmd es := by
  rcases emitOutbound_cases (U := RemoteCallResponse U) opts now s spec with
    ⟨error, heq⟩ | ⟨s₁, heq, hnext⟩
  · obtain ⟨rfl, rfl⟩ := Prod.mk.inj (heq.symm.trans h)
    exact .quiet hasked hsingle (by simp [RemoteCallEvent.request?]) (Nat.le_refl _)
  · obtain ⟨rfl, rfl⟩ := Prod.mk.inj (heq.symm.trans h)
    refine .quiet hasked hsingle ?_ (hnext ▸ Nat.le_succ _)
    intro e he
    obtain rfl := mem_singleton.mp he
    simp only [RemoteCallEvent.request?, pendingRequestFromEnvelope]
    split
    · exact absurd ‹_› (hpayload _)
    · rfl

/-- Every command is handled in one of the four ways. -/
theorem processCommand_handling
    {s s' : BridgeState (RemoteCallRequest T)} (h : processCommand opts now s cmd = .ok (s', es)) :
    Handling opts s s' cmd es := by
  cases cmd with
  | start idempotencyKey requestId =>
    exact emitOutbound_handling (by simp) rfl rfl (Except.ok.inj h)
  | close reason idempotencyKey =>
    exact emitOutbound_handling (by simp) rfl rfl (Except.ok.inj h)
  | ack ackForSeq idempotencyKey requestId =>
    by_cases hzero : ackForSeq = 0
    · rw [processCommand, if_pos hzero] at h
      cases h
      exact .quiet rfl rfl (by simp [RemoteCallEvent.request?]) (Nat.le_refl _)
    · rw [processCommand, if_neg hzero] at h
      exact emitOutbound_handling (by simp) rfl rfl (Except.ok.inj h)
  | nack ackForSeq error idempotencyKey requestId =>
    by_cases hzero : ackForSeq = 0
    · rw [processCommand, if_pos hzero] at h
      cases h
      exact .quiet rfl rfl (by simp [RemoteCallEvent.request?]) (Nat.le_refl _)
    · rw [processCommand, if_neg hzero] at h
      exact emitOutbound_handling (by simp) rfl rfl (Except.ok.inj h)
  | send payload idempotencyKey requestId =>
    have hemit := Except.ok.inj h
    rcases emitOutbound_cases (U := RemoteCallResponse U) opts now s _ with
      ⟨error, heq⟩ | ⟨s₁, heq, hnext⟩
    · obtain ⟨rfl, rfl⟩ := Prod.mk.inj (heq.symm.trans hemit)
      exact .refused ⟨payload.operation, payload.requestId, s.nextSeq⟩ error rfl rfl rfl
    · obtain ⟨rfl, rfl⟩ := Prod.mk.inj (heq.symm.trans hemit)
      exact .sent ⟨payload.operation, payload.requestId, s.nextSeq⟩ _ rfl rfl rfl rfl rfl hnext
  | ackTimeout seq attempt observedAtMs =>
    obtain ⟨hnext, hsilent, hsend⟩ := processAckTimeoutCommand_sent h
    by_cases hretry : s.retransmits opts seq attempt observedAtMs = true
    · obtain ⟨p, before, state, hp, hattempt, hbefore, rfl⟩ := hsend hretry
      -- The next attempt carries the payload of the pending envelope.
      have hpayload : (retryInput opts now state p.envelope).envelope.payload =
        p.envelope.payload := rfl
      have hlater : (retryInput opts now state p.envelope).envelope.metadata.attempt ≠ 1 := by
        simp only [WireBridgeEnvelopeInput.envelope, retryInput, saturatingAdd, u32Max]
        omega
      have hseq : (retryInput opts now state p.envelope).envelope.metadata.seq =
        p.envelope.metadata.seq := rfl
      generalize (retryInput opts now state p.envelope).envelope = envelope at *
      have hquiet := request?_of_outbounds hbefore
      cases hrequest : pendingRequestFromEnvelope p.envelope with
      | none =>
        refine .quiet rfl ?_ ?_ (Nat.le_of_eq hnext.symm)
        · simp [BridgeState.repeatsRequest, hp, hrequest]
        · intro e he
          rcases mem_append.mp he with he | he
          · exact hquiet e he
          · obtain rfl := mem_singleton.mp he
            simp only [RemoteCallEvent.request?, pendingRequestFromEnvelope, hpayload]
            unfold pendingRequestFromEnvelope at hrequest
            split at hrequest <;> simp_all
      | some request =>
        unfold pendingRequestFromEnvelope at hrequest
        split at hrequest
        case h_2 => exact absurd hrequest (by simp)
        rename_i r hdata
        refine .repeated ⟨r.operation, r.requestId, envelope.metadata.seq⟩ envelope
          before rfl ?_
          rfl hquiet ?_ ?_
        · simp [BridgeState.repeatsRequest, hretry, hp, pendingRequestFromEnvelope, hdata]
        · simp only [pendingRequestFromEnvelope, hpayload, hdata]
          rfl
        · simp only [WireBridgeEnvelope.call?, hpayload, hdata, if_neg hlater]
    · rw [Bool.not_eq_true] at hretry
      refine .quiet rfl ?_ (request?_of_outbounds (hsilent hretry)) (Nat.le_of_eq hnext.symm)
      simp [BridgeState.repeatsRequest, hretry]

/-! ### Everything that can happen -/

/-- A bridge, the nodes behind it, and the facts seen and said so far. -/
structure RemoteWorld (T U : Type) where
  bridge : BridgeState (RemoteCallRequest T)
  nodes : RemoteCallNodes
  log : List (RemoteFact T U)

def RemoteWorld.initial (T U : Type) : RemoteWorld T U :=
  ⟨BridgeState.initial _, .initial, []⟩

/-- A wave over the nodes. -/
def RemoteWorld.wave (w : RemoteWorld T U) (v : RemoteCallWave T U) : RemoteWorld T U :=
  { w with nodes := (w.nodes.wave v).1, log := w.log ++ (w.nodes.wave v).2 }

/-- Every fact of the bridge comes in a wave of its own. -/
def eventWaves (events : List (RemoteCallEvent T U)) : List (RemoteCallWave T U) :=
  events.map fun event => ⟨[], [event], []⟩

/-- A command comes with the first fact it makes, or alone. -/
def commandWaves (command : WireBridgeCommand (RemoteCallRequest T)) :
    List (RemoteCallEvent T U) → List (RemoteCallWave T U)
  | [] => [⟨[command], [], []⟩]
  | event :: events => ⟨[command], [event], []⟩ :: eventWaves events

inductive RemoteInput (T U : Type)
  /-- A command of the bridge's owner, with the clock the bridge reads. -/
  | command (now : Nat) (command : WireBridgeCommand (RemoteCallRequest T))
  /-- Something the bridge receives. -/
  | ingress (ingress : WireBridgeIngress (RemoteCallResponse U))
  /-- A timeout of the caller. -/
  | timeout (timeout : RemoteCallTimeout)

def remoteStep (opts : WireBridgeOptions) (w : RemoteWorld T U) :
    RemoteInput T U → Except String (RemoteWorld T U)
  | .command now command =>
    match processCommand opts now w.bridge command with
    | .error panic => .error panic
    | .ok (bridge, events) =>
      .ok ((commandWaves command events).foldl RemoteWorld.wave { w with bridge })
  | .ingress ingress =>
    match processInbound opts.sessionId w.bridge ingress with
    | .error panic => .error panic
    | .ok (bridge, events) => .ok ((eventWaves events).foldl RemoteWorld.wave { w with bridge })
  | .timeout timeout => .ok (w.wave ⟨[], [], [timeout]⟩)

def remoteRun (opts : WireBridgeOptions) :
    RemoteWorld T U → List (RemoteInput T U) → Except String (RemoteWorld T U)
  | w, [] => .ok w
  | w, input :: inputs =>
    match remoteStep opts w input with
    | .error panic => .error panic
    | .ok w => remoteRun opts w inputs

/-- The identifiers a run asks for. -/
def requestedIds (inputs : List (RemoteInput T U)) : List String :=
  inputs.filterMap fun
    | .command _ cmd => (pendingRequestFromCommand cmd).map RemoteCallPendingRequest.requestId
    | _ => none

/-- An input does not make the bridge send a request again. -/
def RemoteInput.Single (opts : WireBridgeOptions) (w : RemoteWorld T U) : RemoteInput T U → Prop
  | .command _ cmd => w.bridge.repeatsRequest opts cmd = false
  | _ => True

/-- No step of a run makes the bridge send a request again. -/
def SingleRun (opts : WireBridgeOptions) :
    RemoteWorld T U → List (RemoteInput T U) → Prop
  | _, [] => True
  | w, input :: inputs =>
    input.Single opts w ∧ ∀ w', remoteStep opts w input = .ok w' → SingleRun opts w' inputs

/-! ### The invariant -/

/-- Between two steps the tables hold what is outstanding, the facts are fair, and what
    was sent was asked for. -/
structure Synced (opts : WireBridgeOptions) (requested : List String) (w : RemoteWorld T U) :
    Prop where
  sound : w.bridge.Sound opts
  holds : Holds (outstanding w.log) w.nodes
  fair : Fair [] w.log
  early : ∀ call ∈ outstanding w.log, call.seq < w.bridge.nextSeq
  asked : ((sentCalls w.log).map RemoteCall.requestId).Sublist requested

theorem RemoteFact.settle_sublist (calls : List RemoteCall) (fact : RemoteFact T U) :
    (fact.settle calls).Sublist (calls ++ sentCalls [fact]) := by
  have hleft : calls.Sublist (calls ++ sentCalls [fact]) := sublist_append_left _ _
  unfold RemoteFact.settle
  split
  case h_1 envelope =>
    refine (List.Sublist.refl calls).append ?_
    cases hcall : envelope.call? <;> simp [sentCalls, hcall]
  case h_4 r =>
    unfold RemoteCallResponse.settle
    split
    · exact filter_sublist.trans hleft
    · exact hleft
  case h_6 => exact hleft
  all_goals exact filter_sublist.trans hleft

variable {call : RemoteCall}

variable {calls : List RemoteCall}

theorem mem_foldl_settle
    (facts : List (RemoteFact T U)) (h : call ∈ facts.foldl RemoteFact.settle calls) :
    call ∈ calls ∨ call ∈ sentCalls facts := by
  induction facts generalizing calls with
  | nil => exact Or.inl h
  | cons fact facts ih =>
    rw [← singleton_append, sentCalls_append, mem_append]
    rcases ih h with hmem | hmem
    · exact (mem_append.mp ((fact.settle_sublist calls).subset hmem)).imp_right Or.inl
    · exact Or.inr (Or.inr hmem)

variable {log : List (RemoteFact T U)}

theorem mem_outstanding (h : call ∈ outstanding log) : call ∈ sentCalls log :=
  (mem_foldl_settle log h).resolve_left not_mem_nil

/-- A terminal response is let through at most once for each call: it is let through
    while the call is outstanding, and the call is sent once. -/
theorem answeredIds_nodup (facts : List (RemoteFact T U)) (hfair : Fair calls facts)
    (hids : ((calls ++ sentCalls facts).map RemoteCall.requestId).Nodup) :
    (answeredIds facts).Nodup ∧
      ∀ id ∈ answeredIds facts, id ∈ (calls ++ sentCalls facts).map RemoteCall.requestId := by
  induction facts generalizing calls with
  | nil => exact ⟨nodup_nil, fun id h => absurd h not_mem_nil⟩
  | cons fact facts ih =>
    obtain ⟨hfact, hrest⟩ := hfair
    have hsent : sentCalls (fact :: facts) = sentCalls [fact] ++ sentCalls facts :=
      sentCalls_append [fact] facts
    have hsub : (fact.settle calls ++ sentCalls facts).Sublist
        (calls ++ sentCalls (fact :: facts)) := by
      rw [hsent, ← append_assoc]
      exact (fact.settle_sublist calls).append_right _
    obtain ⟨hnodup, hmem⟩ := ih hrest (hids.sublist (hsub.map _))
    have hmem' : ∀ id ∈ answeredIds facts,
        id ∈ (calls ++ sentCalls (fact :: facts)).map RemoteCall.requestId :=
      fun id h => (hsub.map _).subset (hmem id h)
    cases fact with
    | response r =>
      by_cases hterm : r.isTerminal = true
      · obtain ⟨call, hcall, hid, -⟩ := hfact hterm
        have hanswered : answeredIds (T := T) (.response r :: facts) =
            call.requestId :: answeredIds facts := by
          simp [answeredIds, hterm, hid]
        have hin : call.requestId ∈ calls.map RemoteCall.requestId := mem_map_of_mem hcall
        rw [hanswered]
        refine ⟨nodup_cons.mpr ⟨fun hagain => ?_, hnodup⟩, ?_⟩
        · -- A later answer would be to a call that is gone or was sent twice.
          have hlater := hmem _ hagain
          rw [map_append, mem_append] at hlater
          rcases hlater with hleft | hnew
          · obtain ⟨c, hc, hcid⟩ := mem_map.mp hleft
            simp only [RemoteFact.settle, RemoteCallResponse.settle, if_pos hterm, withoutId,
              mem_filter, ← hid] at hc
            simp [hcid] at hc
          · rw [map_append] at hids
            exact (disjoint_of_nodup_append hids) hin hnew
        · intro id h
          rcases mem_cons.mp h with rfl | h
          · rw [map_append]
            exact mem_append_left _ hin
          · exact hmem' id h
      · have hanswered : answeredIds (T := T) (.response r :: facts) = answeredIds facts := by
          simp [answeredIds, hterm]
        rw [hanswered]
        exact ⟨hnodup, hmem'⟩
    | event event => exact ⟨hnodup, hmem'⟩
    | timeout timeout => exact ⟨hnodup, hmem'⟩
    | status status => exact ⟨hnodup, hmem'⟩
    | duplicate error => exact ⟨hnodup, hmem'⟩
    | error error => exact ⟨hnodup, hmem'⟩

variable {opts : WireBridgeOptions} {requested : List String} {w : RemoteWorld T U}

theorem Synced.accounted (h : Synced opts requested w) (hids : requested.Nodup) :
    Accounted w.log := by
  refine (accounted_iff w.log).mpr ⟨(answeredIds_nodup w.log h.fair ?_).1, h.fair⟩
  rw [nil_append]
  exact hids.sublist h.asked

theorem Synced.ask (h : Synced opts requested w) (ids : List String) :
    Synced opts (requested ++ ids) w :=
  { h with asked := h.asked.trans (sublist_append_left _ _) }

theorem Synced.rebridge (h : Synced opts requested w) {bridge : BridgeState (RemoteCallRequest T)}
    (hsound : bridge.Sound opts) (hnext : w.bridge.nextSeq ≤ bridge.nextSeq) :
    Synced opts requested { w with bridge } :=
  { h with
    sound := hsound
    early := fun call hcall => Nat.lt_of_lt_of_le (h.early call hcall) hnext }

theorem Synced.wave (h : Synced opts requested w) {v : RemoteCallWave T U} {sent : List RemoteCall}
    (hk : Kept (outstanding w.log) (w.nodes.wave v).1 (w.nodes.wave v).2 sent)
    (hseq : ∀ call ∈ sent, call.seq < w.bridge.nextSeq) :
    Synced opts (requested ++ sent.map RemoteCall.requestId) (w.wave v) where
  sound := h.sound
  holds := by
    rw [RemoteWorld.wave, outstanding, foldl_append]
    exact hk.holds
  fair := (fair_append _ _ _).mpr ⟨h.fair, hk.fair⟩
  early := by
    intro call hcall
    rw [RemoteWorld.wave, outstanding, foldl_append] at hcall
    rcases mem_foldl_settle _ hcall with hold | hnew
    · exact h.early call hold
    · exact hseq call (hk.sent ▸ hnew)
  asked := by
    rw [RemoteWorld.wave, sentCalls_append, hk.sent, map_append]
    exact h.asked.append (List.Sublist.refl _)

theorem Synced.events (events : List (RemoteCallEvent T U))
    (hquiet : ∀ e ∈ events, e.request? = none) (h : Synced opts requested w) :
    Synced opts requested ((eventWaves events).foldl RemoteWorld.wave w) := by
  induction events generalizing w with
  | nil => exact h
  | cons e es ih =>
    have hwave := h.wave (h.holds.report (hquiet e mem_cons_self)) (by simp)
    rw [map_nil, append_nil] at hwave
    exact ih (fun d hd => hquiet d (mem_cons_of_mem e hd)) hwave

theorem foldl_wave_log (vs : List (RemoteCallWave T U)) (w : RemoteWorld T U) :
    ∃ facts, (vs.foldl RemoteWorld.wave w).log = w.log ++ facts := by
  induction vs generalizing w with
  | nil => exact ⟨[], (append_nil _).symm⟩
  | cons v vs ih =>
    obtain ⟨facts, hfacts⟩ := ih (w.wave v)
    exact ⟨(w.nodes.wave v).2 ++ facts, by rw [foldl_cons, hfacts, RemoteWorld.wave,
      append_assoc]⟩

theorem foldl_wave_bridge (vs : List (RemoteCallWave T U)) (w : RemoteWorld T U) :
    (vs.foldl RemoteWorld.wave w).bridge = w.bridge := by
  induction vs generalizing w with
  | nil => rfl
  | cons v vs ih => exact ih (w.wave v)

theorem foldl_commandWaves
    (hcmd : pendingRequestFromCommand cmd = none) (event : RemoteCallEvent T U)
    (events : List (RemoteCallEvent T U)) (w : RemoteWorld T U) :
    (commandWaves cmd (event :: events)).foldl RemoteWorld.wave w =
      (eventWaves (event :: events)).foldl RemoteWorld.wave w := by
  have hwave : w.wave ⟨[cmd], [event], []⟩ = w.wave ⟨[], [event], []⟩ := by
    rw [RemoteWorld.wave, w.nodes.wave_commands (by simpa using hcmd)]
    rfl
  rw [commandWaves, foldl_cons, hwave]
  rfl

theorem Synced.quiet (h : Synced opts requested w)
    (hcmd : pendingRequestFromCommand cmd = none) (events : List (RemoteCallEvent T U))
    (hquiet : ∀ e ∈ events, e.request? = none) :
    Synced opts requested ((commandWaves cmd events).foldl RemoteWorld.wave w) := by
  cases events with
  | nil =>
    have hwave : w.wave (U := U) ⟨[cmd], [], []⟩ = w.wave ⟨[], [], []⟩ := by
      rw [RemoteWorld.wave, w.nodes.wave_commands (by simpa using hcmd)]
      rfl
    rw [commandWaves, foldl_cons, foldl_nil, hwave]
    simpa using h.wave h.holds.silent (by simp)
  | cons event events =>
    rw [foldl_commandWaves hcmd]
    exact h.events _ hquiet

theorem Synced.new (h : Synced opts requested w)
    (hids : (requested ++ [call.requestId]).Nodup) (hnumber : call.seq = w.bridge.nextSeq) :
    call.requestId ∉ (outstanding w.log).map RemoteCall.requestId ∧
      call.seq ∉ (outstanding w.log).map RemoteCall.seq := by
  constructor
  · intro hmem
    obtain ⟨c, hc, hid⟩ := mem_map.mp hmem
    have hasked := h.asked.subset (mem_map_of_mem (mem_outstanding hc))
    exact disjoint_of_nodup_append hids hasked (by simp [hid])
  · intro hmem
    obtain ⟨c, hc, hseq⟩ := mem_map.mp hmem
    have hearly := h.early c hc
    omega

theorem Synced.repeated (h : Synced opts requested w)
    {envelope : WireBridgeEnvelope (RemoteCallRequest T)} {before : List (RemoteCallEvent T U)}
    (hquiet : ∀ e ∈ before, e.request? = none)
    (hrequest : pendingRequestFromEnvelope envelope = some call.request)
    (hlater : envelope.call? = none) :
    ¬ Fair [] ((eventWaves (before ++ [.outbound envelope])).foldl RemoteWorld.wave w).log := by
  have hbefore := h.events before hquiet
  rw [eventWaves, map_append, foldl_append]
  intro hfair
  exact hbefore.holds.repeat hrequest hlater ((fair_append _ _ _).mp hfair).2

/-- A step keeps the invariant, or it sends a request again and breaks the account. -/
theorem Synced.step (h : Synced opts requested w) (input : RemoteInput T U)
    (hids : (requested ++ requestedIds [input]).Nodup) :
    ∃ w', remoteStep opts w input = .ok w' ∧ w'.bridge.Sound opts ∧
      (input.Single opts w → Synced opts (requested ++ requestedIds [input]) w') ∧
        (¬ input.Single opts w → ¬ Fair [] w'.log) := by
  cases input with
  | command now cmd =>
    obtain ⟨s', es, hok, hcommanded⟩ :=
      command_cases (U := RemoteCallResponse U) now h.sound cmd
    refine ⟨(commandWaves cmd es).foldl RemoteWorld.wave { w with bridge := s' }, ?_, ?_, ?_⟩
    · rw [remoteStep, hok]
    · rw [foldl_wave_bridge]
      exact hcommanded.sound
    cases processCommand_handling hok with
    | refused call error hasked hevents hsame =>
      subst hevents hsame
      have hid : requestedIds [(.command now cmd : RemoteInput T U)] = [call.requestId] := by
        simp [requestedIds, hasked, RemoteCall.preview]
      refine ⟨fun _ => ?_, fun hsingle => ?_⟩
      · rw [hid]
        have hwave := h.wave (h.holds.refuse hasked error) (by simp)
        rw [map_nil, append_nil] at hwave
        exact hwave.ask _
      · refine absurd ?_ hsingle
        cases cmd with
        | ackTimeout seq attempt observedAtMs =>
          exact absurd hasked (by simp [pendingRequestFromCommand])
        | _ => rfl
    | sent call envelope hasked hevents hrequest hfirst hnumber hnext =>
      subst hevents
      have hid : requestedIds [(.command now cmd : RemoteInput T U)] = [call.requestId] := by
        simp [requestedIds, hasked, RemoteCall.preview]
      rw [hid] at hids ⊢
      obtain ⟨hnewId, hnewSeq⟩ := h.new hids hnumber
      refine ⟨fun _ => ?_, fun hsingle => ?_⟩
      · have hbridge := h.rebridge hcommanded.sound (by omega)
        refine hbridge.wave (h.holds.send hasked hrequest hfirst hnewId hnewSeq) ?_
        intro c hc
        obtain rfl := mem_singleton.mp hc
        show c.seq < s'.nextSeq
        omega
      · refine absurd ?_ hsingle
        cases cmd with
        | ackTimeout seq attempt observedAtMs =>
          exact absurd hasked (by simp [pendingRequestFromCommand])
        | _ => rfl
    | quiet hasked hsingle hevents hnext =>
      have hid : requestedIds [(.command now cmd : RemoteInput T U)] = [] := by
        simp [requestedIds, hasked]
      rw [hid, append_nil]
      exact ⟨fun _ => (h.rebridge hcommanded.sound hnext).quiet hasked es hevents,
        fun hagain => absurd hsingle hagain⟩
    | repeated call envelope before hasked hagain hevents hquiet hrequest hlater =>
      refine ⟨fun hsingle => absurd (hsingle.symm.trans hagain) (by simp), fun _ => ?_⟩
      subst hevents
      have hnext : w.bridge.nextSeq ≤ s'.nextSeq := by
        cases cmd with
        | ackTimeout seq attempt observedAtMs =>
          exact Nat.le_of_eq (processAckTimeoutCommand_sent hok).1.symm
        | _ => exact absurd hagain (by simp [BridgeState.repeatsRequest])
      have hbroken := (h.rebridge hcommanded.sound hnext).repeated hquiet hrequest hlater
      cases before with
      | nil => rwa [nil_append, foldl_commandWaves hasked]
      | cons e es => rwa [cons_append, foldl_commandWaves hasked]
  | ingress ingress =>
    have hid : requestedIds [(.ingress ingress : RemoteInput T U)] = [] := rfl
    rw [hid, append_nil]
    cases ingress with
    | invalid error =>
      exact ⟨_, rfl, h.sound, fun _ => h.events [_] (by simp [RemoteCallEvent.request?]),
        fun hsingle => absurd trivial hsingle⟩
    | envelope envelope =>
      obtain ⟨s', es, hok, hsent, hdone⟩ := inbound_cases opts.sessionId w.bridge envelope
      have hsound := hdone.sound h.sound
      have hnext : w.bridge.nextSeq ≤ s'.nextSeq := by
        cases hdone with
        | refused same => exact Nat.le_of_eq (congrArg BridgeState.nextSeq same).symm
        | accepted _ _ _ _ hseq => exact Nat.le_of_eq hseq.symm
      refine ⟨(eventWaves es).foldl RemoteWorld.wave { w with bridge := s' }, ?_, ?_, ?_⟩
      · rw [remoteStep, hok]
      · rw [foldl_wave_bridge]
        exact hsound
      · exact ⟨fun _ => (h.rebridge hsound hnext).events es (request?_of_outbounds hsent),
          fun hsingle => absurd trivial hsingle⟩
  | timeout timeout =>
    refine ⟨_, rfl, h.sound, fun _ => ?_, fun hsingle => absurd trivial hsingle⟩
    exact h.wave (h.holds.expire timeout) (by simp)

theorem remoteRun_total (inputs : List (RemoteInput T U)) (w : RemoteWorld T U)
    (hs : w.bridge.Sound opts) :
    ∃ w' facts, remoteRun opts w inputs = .ok w' ∧ w'.log = w.log ++ facts := by
  induction inputs generalizing w with
  | nil => exact ⟨w, [], rfl, (append_nil _).symm⟩
  | cons input inputs ih =>
    have hstep : ∃ w₁ facts, remoteStep opts w input = .ok w₁ ∧ w₁.bridge.Sound opts ∧
        w₁.log = w.log ++ facts := by
      cases input with
      | command now cmd =>
        obtain ⟨s', es, hok, hcommanded⟩ :=
          command_cases (U := RemoteCallResponse U) now hs cmd
        obtain ⟨facts, hfacts⟩ := foldl_wave_log (commandWaves cmd es) { w with bridge := s' }
        refine ⟨_, facts, by rw [remoteStep, hok], ?_, hfacts⟩
        rw [foldl_wave_bridge]
        exact hcommanded.sound
      | ingress ingress =>
        cases ingress with
        | invalid error => exact ⟨_, _, rfl, hs, rfl⟩
        | envelope envelope =>
          obtain ⟨s', es, hok, hsent, hdone⟩ :=
            inbound_cases opts.sessionId w.bridge envelope
          obtain ⟨facts, hfacts⟩ := foldl_wave_log (eventWaves es) { w with bridge := s' }
          refine ⟨_, facts, by rw [remoteStep, hok], ?_, hfacts⟩
          rw [foldl_wave_bridge]
          exact hdone.sound hs
      | timeout timeout => exact ⟨_, _, rfl, hs, rfl⟩
    obtain ⟨w₁, facts₁, hok, hsound, hlog⟩ := hstep
    obtain ⟨w', facts, hrun, hlog'⟩ := ih w₁ hsound
    refine ⟨w', facts₁ ++ facts, ?_, ?_⟩
    · rw [remoteRun, hok]
      exact hrun
    · rw [hlog', hlog, append_assoc]

theorem Synced.run (inputs : List (RemoteInput T U)) (h : Synced opts requested w)
    (hids : (requested ++ requestedIds inputs).Nodup) :
    ∃ w', remoteRun opts w inputs = .ok w' ∧
      (Accounted w'.log ↔ SingleRun opts w inputs) := by
  induction inputs generalizing requested w with
  | nil =>
    refine ⟨w, rfl, fun _ => trivial, fun _ => h.accounted ?_⟩
    simpa [requestedIds] using hids
  | cons input inputs ih =>
    have hsplit : requestedIds (input :: inputs) = requestedIds [input] ++
      requestedIds inputs := by
      rw [← singleton_append]
      exact filterMap_append
    rw [hsplit, ← append_assoc] at hids
    obtain ⟨w₁, hok, hsound, hkeep, hbreak⟩ := h.step input hids.of_append_left
    by_cases hsingle : input.Single opts w
    · obtain ⟨w', hrun, hiff⟩ := ih (hkeep hsingle) hids
      refine ⟨w', ?_, ?_⟩
      · rw [remoteRun, hok]
        exact hrun
      · refine hiff.trans ⟨fun hrest => ⟨hsingle, ?_⟩, fun hrest => hrest.2 w₁ hok⟩
        intro w₂ hok₂
        obtain rfl := Except.ok.inj (hok.symm.trans hok₂)
        exact hrest
    · -- The log is broken here, and what is broken stays broken.
      obtain ⟨w', facts, hrun, hlog⟩ := remoteRun_total inputs w₁ hsound
      refine ⟨w', ?_, fun hacc => ?_, fun hrest => absurd hrest.1 hsingle⟩
      · rw [remoteRun, hok]
        exact hrun
      · rw [hlog] at hacc
        exact absurd ((accounted_iff _).mp hacc.left).2 (hbreak hsingle)

theorem Synced.initial (opts : WireBridgeOptions) (T U : Type) :
    Synced opts [] (RemoteWorld.initial T U) where
  sound := fun _ _ h => absurd h (by simp [RemoteWorld.initial, BridgeState.initial])
  holds := Holds.initial
  fair := trivial
  early := fun call h => absurd h not_mem_nil
  asked := List.Sublist.refl []

/-! ### The account -/

/-- A session that may send twice, with no delay between the attempts. -/
def twoAttempts : WireBridgeOptions where
  sessionId := "session-a"
  retry := { maxAttempts := 2, backoff := .none }

end GraphRefly.Bridge
