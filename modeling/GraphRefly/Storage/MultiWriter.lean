import GraphRefly.Storage.AppendLog
import GraphRefly.Lib.Transition

/-!
# Many Writers Of One Append Log

Any number of appends to one log, over any tier with an atomic `put_if_absent`,
in any interleaving of their single tier operations. An append starts from a
listing that may be stale by the time it writes, walks upward past the numbers
others took, and now and then looks at a new listing that may be ahead of its
own place or behind it.

Three facts carry everything. The numbers in use are `0, ..., n - 1` for some
`n`. The number an append is about to try is at most `n`: a listing yields `n`
as it was, and a conflict at a number proves that number below `n`. So a write
that finds its key absent finds it at exactly `n`, and the successful writes of
a run take the numbers in the order in which they happen. A call that returned
before another was made has therefore the smaller number.

## Main definitions

* `Phase`: Where an append stands between two tier operations.
* `AppendCall.advance`: The append's next tier operation.
* `World`: The tier, the calls and the history of calls and returns.
* `Step`: One call made, one tier operation, or one failed operation.

## Theorems

* `Log.take`: A write at the end of a log without gaps extends it by one.
* `appends_step`: Every step keeps the invariant.
* `multi_writer_appends`: No append is lost, repeated, overwritten or out of order.
-/

namespace GraphRefly.Storage

open List

variable {σ V : Type}

/-- One call of `append`: the value and the writer's patience. -/
structure AppendCall (V : Type) where
  value : V
  maxAttempts : Nat

/-- Where an append stands between two tier operations. -/
inductive Phase (V : Type)
  /-- It has not looked at the log yet. -/
  | listing
  /-- It is at the head of its loop. -/
  | looping (seq attempts : Nat)
  /-- It has refreshed its number and is about to write. -/
  | putting (seq attempts : Nat)
  | returned (result : Except StorageError (AppendLogEntry V))

namespace AppendCall

section

variable (kv : AtomicKv σ V) (pre : String)

/-- Try to write under a number, and move past it if it is taken. -/
def put (call : AppendCall V) (seq attempts : Nat) (s : σ) :
    Phase V × σ :=
  let key := appendLogKey pre seq
  match kv.putIfAbsent s key call.value with
  | (true, s) => (.returned (.ok ⟨key, seq, call.value⟩), s)
  | (false, s) =>
    if seq = u64Max then (.returned (.error (outOfRange pre)), s)
    else (.looping (seq + 1) (attempts + 1), s)

/-- Look at the log and go on with a number made from its next one. -/
def look (next : Nat → Phase V) (s : σ) : Phase V × σ :=
  match nextSeqFromKeys pre (kv.list s (logHead pre)) with
  | .error e => (.returned (.error e), s)
  | .ok seq => (next seq, s)

/-- The append's next tier operation. -/
def advance (call : AppendCall V) (s : σ) :
    Phase V → Phase V × σ
  | .listing => look kv pre (fun seq => .looping seq 0) s
  | .looping seq attempts =>
    if call.maxAttempts ≤ attempts then
      look kv pre (fun refreshed => .putting (max seq refreshed) 0) s
    else call.put kv pre seq attempts s
  | .putting seq attempts => call.put kv pre seq attempts s
  | .returned result => (.returned result, s)

end

end AppendCall

/-- What an observer of all calls sees. -/
inductive CallEvent (V : Type)
  | invoked (id : Nat)
  | returned (id : Nat) (result : Except StorageError (AppendLogEntry V))

/-- The tier, every call with its phase, and the calls and returns so far. -/
structure World (σ V : Type) where
  store : σ
  calls : Nat → Option (AppendCall V × Phase V)
  history : List (CallEvent V)

namespace World

/-- The return a phase stands for, if it is one. -/
def returns (id : Nat) : Phase V → List (CallEvent V)
  | .returned result => [.returned id result]
  | _ => []

/-- A call moves to a phase. -/
def move (w : World σ V) (id : Nat) (call : AppendCall V) (phase : Phase V) (s : σ) :
    World σ V where
  store := s
  calls := Function.update w.calls id (some (call, phase))
  history := w.history ++ returns id phase

end World

/-- Whether a phase is a return. -/
def Phase.isReturned : Phase V → Bool
  | .returned _ => true
  | _ => false

/-- One step of the interleaving. -/
inductive Step (kv : AtomicKv σ V) (pre : String) (w : World σ V) : World σ V → Prop
  | invoke {id : Nat} (call : AppendCall V) (hnew : w.calls id = none) :
      Step kv pre w
        { w with
          calls := Function.update w.calls id (some (call, .listing))
          history := w.history ++ [.invoked id] }
  | advance {id : Nat} {call : AppendCall V} {phase : Phase V}
      (hcall : w.calls id = some (call, phase)) (hopen : phase.isReturned = false) :
      Step kv pre w
        (w.move id call (call.advance kv pre w.store phase).1
          (call.advance kv pre w.store phase).2)
  /-- A tier operation fails without effect and the append returns its error. -/
  | fail {id : Nat} {call : AppendCall V} {phase : Phase V} (error : StorageError)
      (hcall : w.calls id = some (call, phase)) (hopen : phase.isReturned = false) :
      Step kv pre w (w.move id call (.returned (.error error)) w.store)

/-- A run from a tier with nothing under the log's head. -/
def Reached (kv : AtomicKv σ V) (pre : String) (w w' : World σ V) : Prop :=
  Transition.GuardedReach (Step kv pre) (fun _ => True) w w'

/-- A world before the first call. -/
structure World.Fresh (kv : AtomicKv σ V) (pre : String) (w : World σ V) : Prop where
  empty : kv.list w.store (logHead pre) = []
  calls : ∀ id, w.calls id = none
  history : w.history = []

/-! ### The log without gaps -/

/-- Under its head the tier holds exactly the keys of `0, ..., n - 1`. -/
structure Log (kv : AtomicKv σ V) (pre : String) (s : σ) (n : Nat) : Prop where
  size : n ≤ u64Max + 1
  keys : ∀ key, (kv.get s key).isSome = true ∧ startsWith key (logHead pre) = true ↔
    ∃ seq < n, key = appendLogKey pre seq

variable {kv : AtomicKv σ V} {pre : String} {s : σ} {n : Nat}

theorem Log.get_isSome (h : Log kv pre s n) {seq : Nat} (hseq : seq ≤ u64Max) :
    (kv.get s (appendLogKey pre seq)).isSome = true ↔ seq < n := by
  have hsize := h.size
  constructor
  · intro hsome
    obtain ⟨m, hlt, heq⟩ := (h.keys _).mp ⟨hsome, startsWith_appendLogKey pre seq⟩
    rw [appendLogKey_inj pre hseq (by omega) heq]
    exact hlt
  · intro hlt
    exact ((h.keys _).mpr ⟨seq, hlt, rfl⟩).1

theorem Log.nextSeq (h : Log kv pre s n) :
    nextSeqFromKeys pre (kv.list s (logHead pre)) =
      if n = u64Max + 1 then .error (outOfRange pre) else .ok n := by
  refine nextSeqFromKeys_eq pre h.size fun key => ?_
  rw [kv.mem_list]
  exact h.keys key

/-- A write at the end of the log extends it by one and leaves every other key. -/
theorem Log.take (h : Log kv pre s n) (hn : n ≤ u64Max) (v : V) :
    (kv.putIfAbsent s (appendLogKey pre n) v).1 = true ∧
      Log kv pre (kv.putIfAbsent s (appendLogKey pre n) v).2 (n + 1) ∧
      ∀ k, kv.get (kv.putIfAbsent s (appendLogKey pre n) v).2 k =
        if k = appendLogKey pre n then some v else kv.get s k := by
  have habsent : kv.get s (appendLogKey pre n) = none := by
    have := mt (h.get_isSome hn).mp (Nat.lt_irrefl n)
    simpa using this
  obtain ⟨htrue, hget⟩ := kv.putIfAbsent_absent s (appendLogKey pre n) v habsent
  refine ⟨htrue, ⟨by omega, fun key => ?_⟩, hget⟩
  rw [hget]
  by_cases hkey : key = appendLogKey pre n
  · -- The key just written.
    subst hkey
    simp only [if_true, Option.isSome_some, true_and, startsWith_appendLogKey, true_iff]
    exact ⟨n, by omega, rfl⟩
  · rw [if_neg hkey, h.keys]
    constructor
    · rintro ⟨seq, hlt, rfl⟩
      exact ⟨seq, by omega, rfl⟩
    · rintro ⟨seq, hlt, rfl⟩
      refine ⟨seq, ?_, rfl⟩
      rcases Nat.lt_succ_iff_lt_or_eq.mp hlt with hlt | rfl
      · exact hlt
      · exact absurd rfl hkey

/-! ### One operation -/

/-- The number an append stands at. -/
def Phase.seqLe (n : Nat) : Phase V → Prop
  | .listing => True
  | .looping seq _ | .putting seq _ => seq ≤ n ∧ seq ≤ u64Max
  | .returned _ => True

/-- What an operation of an open append can do: leave the tier alone and stand
    at a number within the log, return an error, or take the next number. -/
inductive Advanced (kv : AtomicKv σ V) (pre : String) (call : AppendCall V) (s : σ) (n : Nat) :
    Phase V × σ → Prop
  | stays {phase : Phase V} (hopen : phase.isReturned = false) (hseq : phase.seqLe n) :
      Advanced kv pre call s n (phase, s)
  | fails (error : StorageError) : Advanced kv pre call s n (.returned (.error error), s)
  | takes {s' : σ} (hlog : Log kv pre s' (n + 1))
      (hget : ∀ k, kv.get s' k =
        if k = appendLogKey pre n then some call.value else kv.get s k) :
      Advanced kv pre call s n (.returned (.ok ⟨appendLogKey pre n, n, call.value⟩), s')

theorem put_advanced (h : Log kv pre s n) (call : AppendCall V) {seq : Nat} (attempts : Nat)
    (hle : seq ≤ n) (hmax : seq ≤ u64Max) :
    Advanced kv pre call s n (call.put kv pre seq attempts s) := by
  unfold AppendCall.put
  rcases Nat.lt_or_eq_of_le hle with hlt | rfl
  · -- Somebody else took the number: walk past it.
    have hput := kv.putIfAbsent_present s (appendLogKey pre seq) call.value
      ((h.get_isSome hmax).mpr hlt)
    simp only [hput]
    by_cases hlast : seq = u64Max
    · rw [if_pos hlast]
      exact .fails _
    · rw [if_neg hlast]
      exact .stays rfl ⟨by omega, by omega⟩
  · obtain ⟨htrue, hlog, hget⟩ := h.take hmax call.value
    rcases hput : kv.putIfAbsent s (appendLogKey pre seq) call.value with ⟨b, s'⟩
    rw [hput] at htrue hlog hget
    obtain rfl : b = true := htrue
    simp only [hput]
    exact .takes hlog hget

theorem look_advanced (h : Log kv pre s n) (call : AppendCall V) {next : Nat → Phase V}
    (hnext : n ≤ u64Max → (next n).isReturned = false ∧ (next n).seqLe n) :
    Advanced kv pre call s n (AppendCall.look kv pre next s) := by
  have hsize := h.size
  unfold AppendCall.look
  rw [h.nextSeq]
  by_cases hfull : n = u64Max + 1
  · rw [if_pos hfull]
    exact .fails _
  · rw [if_neg hfull]
    have hopen := hnext (by omega)
    exact .stays hopen.1 hopen.2

theorem advance_advanced (h : Log kv pre s n) (call : AppendCall V) {phase : Phase V}
    (hopen : phase.isReturned = false) (hseq : phase.seqLe n) :
    Advanced kv pre call s n (call.advance kv pre s phase) := by
  cases phase with
  | listing => exact look_advanced h call fun hn => ⟨rfl, Nat.le_refl n, hn⟩
  | looping seq attempts =>
    by_cases hpatience : call.maxAttempts ≤ attempts
    · rw [AppendCall.advance, if_pos hpatience]
      refine look_advanced h call fun hn => ⟨rfl, ?_, ?_⟩
      · exact Nat.max_le.mpr ⟨hseq.1, Nat.le_refl n⟩
      · exact Nat.max_le.mpr ⟨hseq.2, hn⟩
    · rw [AppendCall.advance, if_neg hpatience]
      exact put_advanced h call attempts hseq.1 hseq.2
  | putting seq attempts => exact put_advanced h call attempts hseq.1 hseq.2
  | returned result => exact absurd hopen (by simp [Phase.isReturned])

/-! ### The invariant of a run -/

/-- What the order of two events of a history says: successful returns come in
    the order of their numbers, and nothing of a call comes after its return. -/
structure CallEvent.Before (x y : CallEvent V) : Prop where
  last : ∀ id result, x = .returned id result → y ≠ .invoked id ∧ ∀ r, y ≠ .returned id r
  ordered : ∀ id id' e e', x = .returned id (.ok e) → y = .returned id' (.ok e') → e.seq < e'.seq

/-- The invariant: the log has no gaps, every open append stands within it, and
    the history tells the truth about it. -/
structure Appends (kv : AtomicKv σ V) (pre : String) (w : World σ V) (n : Nat) : Prop where
  log : Log kv pre w.store n
  within : ∀ id call phase, w.calls id = some (call, phase) → phase.seqLe n
  /-- A return in the history is the phase of its call. -/
  settled : ∀ id result, CallEvent.returned id result ∈ w.history →
    ∃ call, w.calls id = some (call, .returned result)
  /-- A successful append owns its number and its value. -/
  owned : ∀ id call e, w.calls id = some (call, .returned (.ok e)) →
    e.key = appendLogKey pre e.seq ∧ e.seq < n ∧ e.value = call.value ∧
      kv.get w.store e.key = some e.value
  ordered : w.history.Pairwise CallEvent.Before

variable {w w' : World σ V}

theorem Phase.seqLe.mono {phase : Phase V} {m : Nat} (h : phase.seqLe n) (hle : n ≤ m) :
    phase.seqLe m := by
  cases phase with
  | listing => exact trivial
  | looping seq attempts => exact ⟨Nat.le_trans h.1 hle, h.2⟩
  | putting seq attempts => exact ⟨Nat.le_trans h.1 hle, h.2⟩
  | returned result => exact trivial

theorem Appends.not_returned (h : Appends kv pre w n) {id : Nat}
    (hopen : ∀ call result, w.calls id ≠ some (call, .returned result)) :
    ∀ result, CallEvent.returned id result ∉ w.history := by
  intro result hmem
  obtain ⟨call, hcall⟩ := h.settled id result hmem
  exact hopen call result hcall

theorem Appends.ordered_append (h : Appends kv pre w n) {id : Nat}
    (hopen : ∀ call result, w.calls id ≠ some (call, .returned result)) {y : CallEvent V}
    (hid : y = .invoked id ∨ ∃ result, y = .returned id result)
    (hseq : ∀ id' e, y = .returned id' (.ok e) → n ≤ e.seq) :
    (w.history ++ [y]).Pairwise CallEvent.Before := by
  have hnone := h.not_returned hopen
  refine pairwise_append.mpr ⟨h.ordered, pairwise_singleton _ _, ?_⟩
  intro x hx z hz
  rw [mem_singleton.mp hz]
  refine ⟨?_, ?_⟩
  · -- A return that is in the history is of another call.
    rintro id' result rfl
    have hne : id' ≠ id := by
      rintro rfl
      exact hnone result hx
    rcases hid with rfl | ⟨r, rfl⟩
    · exact ⟨fun heq => hne (CallEvent.invoked.inj heq).symm, fun r heq => by cases heq⟩
    · exact ⟨fun heq => (by cases heq), fun r' heq => hne (CallEvent.returned.inj heq).1.symm⟩
  · rintro id₁ id₂ e₁ e₂ rfl hy
    obtain ⟨call, hcall⟩ := h.settled id₁ (.ok e₁) hx
    exact Nat.lt_of_lt_of_le (h.owned id₁ call e₁ hcall).2.1 (hseq id₂ e₂ hy)

theorem Appends.move_open (h : Appends kv pre w n) {id : Nat} (call : AppendCall V)
    (phase : Phase V) (hopen : ∀ call result, w.calls id ≠ some (call, .returned result))
    (hphase : phase.isReturned = false) (hseq : phase.seqLe n) {events : List (CallEvent V)}
    (hevents : events = [] ∨ events = [.invoked id]) :
    Appends kv pre ⟨w.store, Function.update w.calls id (some (call, phase)),
      w.history ++ events⟩ n := by
  have hcases : ∀ id' c p, Function.update w.calls id (some (call, phase)) id' = some (c, p) →
      id' = id ∧ p = phase ∨ id' ≠ id ∧ w.calls id' = some (c, p) := by
    intro id' c p hp
    by_cases hid : id' = id
    · subst hid
      rw [Function.update_self] at hp
      exact Or.inl ⟨rfl, ((Prod.mk.inj (Option.some.inj hp)).2).symm⟩
    · rw [Function.update_of_ne hid] at hp
      exact Or.inr ⟨hid, hp⟩
  refine ⟨h.log, ?_, ?_, ?_, ?_⟩
  · intro id' c p hp
    rcases hcases id' c p hp with ⟨_, rfl⟩ | ⟨_, hold⟩
    · exact hseq
    · exact h.within id' c p hold
  · intro id' result hmem
    have hmem' : CallEvent.returned id' result ∈ w.history := by
      rcases mem_append.mp hmem with hmem | hmem
      · exact hmem
      · rcases hevents with rfl | rfl <;> simp at hmem
    obtain ⟨c, hc⟩ := h.settled id' result hmem'
    have hne : id' ≠ id := by
      rintro rfl
      exact hopen c result hc
    exact ⟨c, by simp only [Function.update_of_ne hne, hc]⟩
  · intro id' c e he
    rcases hcases id' c _ he with ⟨_, heq⟩ | ⟨_, hold⟩
    · rw [← heq] at hphase
      exact absurd hphase (by simp [Phase.isReturned])
    · exact h.owned id' c e hold
  · rcases hevents with rfl | rfl
    · simpa using h.ordered
    · exact h.ordered_append hopen (Or.inl rfl) (by simp)

theorem Appends.move_returned (h : Appends kv pre w n) {id : Nat} {call : AppendCall V}
    (hopen : ∀ call result, w.calls id ≠ some (call, .returned result))
    {result : Except StorageError (AppendLogEntry V)} {s' : σ} {m : Nat} (hm : n ≤ m)
    (hlog : Log kv pre s' m)
    (hkeep : ∀ k, (kv.get w.store k).isSome = true → kv.get s' k = kv.get w.store k)
    (hresult : ∀ e, result = .ok e → e.key = appendLogKey pre e.seq ∧ e.seq < m ∧
      e.value = call.value ∧ kv.get s' e.key = some e.value ∧ n ≤ e.seq) :
    Appends kv pre (w.move id call (.returned result) s') m := by
  have hcases : ∀ id' c p, (w.move id call (.returned result) s').calls id' = some (c, p) →
      id' = id ∧ c = call ∧ p = .returned result ∨ id' ≠ id ∧ w.calls id' = some (c, p) := by
    intro id' c p hp
    by_cases hid : id' = id
    · subst hid
      simp only [World.move, Function.update_self, Option.some.injEq, Prod.mk.injEq] at hp
      exact Or.inl ⟨rfl, hp.1.symm, hp.2.symm⟩
    · simp only [World.move, Function.update_of_ne hid] at hp
      exact Or.inr ⟨hid, hp⟩
  refine ⟨hlog, ?_, ?_, ?_, ?_⟩
  · intro id' c p hp
    rcases hcases id' c p hp with ⟨_, _, rfl⟩ | ⟨_, hold⟩
    · exact trivial
    · exact (h.within id' c p hold).mono hm
  · intro id' r hmem
    rcases mem_append.mp hmem with hmem | hmem
    · obtain ⟨c, hc⟩ := h.settled id' r hmem
      have hne : id' ≠ id := by
        rintro rfl
        exact hopen c r hc
      exact ⟨c, by simp only [World.move, Function.update_of_ne hne, hc]⟩
    · simp only [World.returns, mem_singleton, CallEvent.returned.injEq] at hmem
      obtain ⟨rfl, rfl⟩ := hmem
      exact ⟨call, by simp only [World.move, Function.update_self]⟩
  · intro id' c e he
    rcases hcases id' c _ he with ⟨_, rfl, heq⟩ | ⟨_, hold⟩
    · obtain ⟨hkey, hlt, hvalue, hget, _⟩ := hresult e (Phase.returned.inj heq).symm
      exact ⟨hkey, hlt, hvalue, hget⟩
    · obtain ⟨hkey, hlt, hvalue, hget⟩ := h.owned id' c e hold
      refine ⟨hkey, Nat.lt_of_lt_of_le hlt hm, hvalue, ?_⟩
      rw [← hget]
      exact hkeep e.key (by simp [hget])
  · refine h.ordered_append hopen (Or.inr ⟨result, rfl⟩) ?_
    intro id' e heq
    exact (hresult e (CallEvent.returned.inj heq).2).2.2.2.2

/-- Every step keeps the log without gaps and the history true. -/
theorem appends_step (hstep : Step kv pre w w') (h : Appends kv pre w n) :
    ∃ m, n ≤ m ∧ Appends kv pre w' m := by
  have hunreturned : ∀ {id : Nat} {call : AppendCall V} {phase : Phase V},
      w.calls id = some (call, phase) → phase.isReturned = false →
      ∀ c result, w.calls id ≠ some (c, .returned result) := by
    intro id call phase hcall hopen c result heq
    rw [hcall] at heq
    rw [(Prod.mk.inj (Option.some.inj heq)).2] at hopen
    exact absurd hopen (by simp [Phase.isReturned])
  cases hstep with
  | invoke call hnew =>
    refine ⟨n, Nat.le_refl n, h.move_open call .listing ?_ rfl trivial (Or.inr rfl)⟩
    intro c result heq
    rw [hnew] at heq
    exact absurd heq (by simp)
  | fail error hcall hopen =>
    exact ⟨n, Nat.le_refl n, h.move_returned (hunreturned hcall hopen) (Nat.le_refl n) h.log
      (fun _ _ => rfl) (by simp)⟩
  | @advance id call phase hcall hopen =>
    have hdone := advance_advanced h.log call hopen (h.within id call phase hcall)
    generalize call.advance kv pre w.store phase = done at hdone
    cases hdone with
    | @stays next hnext hseq =>
      have hreturns : World.returns id next = [] := by
        cases next <;> first | rfl | exact absurd hnext (by simp [Phase.isReturned])
      refine ⟨n, Nat.le_refl n, ?_⟩
      rw [World.move, hreturns]
      exact h.move_open call next (hunreturned hcall hopen) hnext hseq (Or.inl rfl)
    | fails error =>
      exact ⟨n, Nat.le_refl n, h.move_returned (hunreturned hcall hopen) (Nat.le_refl n) h.log
        (fun _ _ => rfl) (by simp)⟩
    | takes hlog hget =>
      -- The write took the number `n`, which was on no key before.
      have hsize := hlog.size
      refine ⟨n + 1, Nat.le_succ n, h.move_returned (hunreturned hcall hopen) (Nat.le_succ n)
        hlog ?_ ?_⟩
      · intro k hk
        rw [hget, if_neg]
        rintro rfl
        exact absurd ((h.log.get_isSome (by omega)).mp hk) (Nat.lt_irrefl n)
      · rintro e heq
        obtain rfl := Except.ok.inj heq
        exact ⟨rfl, Nat.lt_succ_self n, rfl, by rw [hget, if_pos rfl], Nat.le_refl n⟩

theorem World.Fresh.appends (h : w.Fresh kv pre) : Appends kv pre w 0 where
  log := by
    refine ⟨Nat.zero_le _, fun key => ?_⟩
    rw [← kv.mem_list, h.empty]
    simp
  within := fun id _ _ hcall => absurd hcall (by simp [h.calls id])
  settled := by simp [h.history]
  owned := fun id _ _ hcall => absurd hcall (by simp [h.calls id])
  ordered := by simp [h.history]

theorem Reached.appends (hrun : Reached kv pre w w') (h : Appends kv pre w n) :
    ∃ m, n ≤ m ∧ Appends kv pre w' m := by
  have hkeep : ∀ x y, Step kv pre x y → True → (∃ m, n ≤ m ∧ Appends kv pre x m) →
      ∃ m, n ≤ m ∧ Appends kv pre y m := by
    rintro x y hstep - ⟨m, hle, hx⟩
    obtain ⟨m', hle', hy⟩ := appends_step hstep hx
    exact ⟨m', Nat.le_trans hle hle', hy⟩
  exact Transition.GuardedReach.invariant hkeep hrun ⟨n, Nat.le_refl n, h⟩

theorem Reached.history_prefix (hrun : Reached kv pre w w') : w.history <+: w'.history := by
  have hkeep : ∀ x y, Step kv pre x y → True → w.history <+: x.history →
      w.history <+: y.history := by
    intro x y hstep _ hx
    cases hstep with
    | invoke call hnew => exact hx.trans (prefix_append _ _)
    | advance hcall hopen => exact hx.trans (prefix_append _ _)
    | fail error hcall hopen => exact hx.trans (prefix_append _ _)
  exact Transition.GuardedReach.invariant hkeep hrun (prefix_refl _)

/-- In every state that a run of any appends reaches from a tier without a key
    under the log's head: the stored numbers are exactly `0, ..., n - 1`; an
    append that returned an entry owns a number no other append returned, and
    its value is and stays stored under its key; and an append that returned
    before another was called has the smaller number. -/
theorem multi_writer_appends (kv : AtomicKv σ V) (pre : String) {w₀ w : World σ V}
    (hfresh : w₀.Fresh kv pre) (hrun : Reached kv pre w₀ w) :
    (∃ n, ∀ key, (kv.get w.store key).isSome = true ∧ startsWith key (logHead pre) = true ↔
      ∃ seq < n, key = appendLogKey pre seq) ∧
    (∀ id e, CallEvent.returned id (.ok e) ∈ w.history →
      (∃ call, w.calls id = some (call, .returned (.ok e)) ∧ e.value = call.value) ∧
      e.key = appendLogKey pre e.seq ∧
      (∀ w', Reached kv pre w w' → kv.get w'.store e.key = some e.value) ∧
      ∀ id' e', id' ≠ id → CallEvent.returned id' (.ok e') ∈ w.history → e'.seq ≠ e.seq) ∧
    ∀ id id' e e' h₁ h₂ h₃,
      w.history = h₁ ++ .returned id (.ok e) :: (h₂ ++ .invoked id' :: h₃) →
      CallEvent.returned id' (.ok e') ∈ w.history → e.seq < e'.seq := by
  obtain ⟨n, -, h⟩ := hrun.appends hfresh.appends
  refine ⟨⟨n, h.log.keys⟩, ?_, ?_⟩
  · intro id e hmem
    obtain ⟨call, hcall⟩ := h.settled id (.ok e) hmem
    obtain ⟨hkey, _, hvalue, _⟩ := h.owned id call e hcall
    refine ⟨⟨call, hcall, hvalue⟩, hkey, ?_, ?_⟩
    · -- The return is still in the history of every later state.
      intro w' hlater
      obtain ⟨m, -, h'⟩ := hlater.appends h
      obtain ⟨call', hcall'⟩ := h'.settled id (.ok e) (hlater.history_prefix.subset hmem)
      exact (h'.owned id call' e hcall').2.2.2
    · intro id' e' hne hmem' heq
      -- Of two successful returns one comes first, with the smaller number.
      obtain ⟨i, hi, hgeti⟩ := mem_iff_getElem.mp hmem
      obtain ⟨j, hj, hgetj⟩ := mem_iff_getElem.mp hmem'
      have hpair := pairwise_iff_getElem.mp h.ordered
      rcases Nat.lt_trichotomy i j with hlt | rfl | hlt
      · have := (hpair i j hi hj hlt).ordered id id' e e' hgeti hgetj
        omega
      · rw [hgeti] at hgetj
        exact hne (CallEvent.returned.inj hgetj).1.symm
      · have := (hpair j i hj hi hlt).ordered id' id e' e hgetj hgeti
        omega
  · intro id id' e e' h₁ h₂ h₃ heq hmem
    have hordered := h.ordered
    rw [heq] at hordered hmem
    obtain ⟨-, hrest, hfirst⟩ := pairwise_append.mp hordered
    obtain ⟨hreturned, hlater⟩ := pairwise_cons.mp hrest
    obtain ⟨-, -, hmiddle⟩ := pairwise_append.mp hlater
    -- Nothing of a call comes after its return, so the second return is last.
    have hnot : ∀ x, x = CallEvent.returned id' (.ok e') → CallEvent.Before x (.invoked id') →
        False := fun x hx hbefore => (hbefore.last id' (.ok e') hx).1 rfl
    rcases mem_append.mp hmem with hmem | hmem
    · exact absurd (hfirst _ hmem (.invoked id') (by simp)) (hnot _ rfl)
    rcases mem_cons.mp hmem with hself | hmem
    · exact absurd (hreturned (.invoked id') (by simp)) (hnot _ hself.symm)
    · exact (hreturned _ hmem).ordered id id' e e' rfl rfl

/-! ### A race -/

/-- A call made, or the next operation of a call. -/
inductive Op (V : Type)
  | invoke (id : Nat) (call : AppendCall V)
  | advance (id : Nat)

/-- One operation, if it can happen. -/
def World.perform (kv : AtomicKv σ V) (pre : String) (w : World σ V) : Op V → Option (World σ V)
  | .invoke id call =>
    match w.calls id with
    | none => some
        { w with
          calls := Function.update w.calls id (some (call, .listing))
          history := w.history ++ [.invoked id] }
    | some _ => none
  | .advance id =>
    match w.calls id with
    | none => none
    | some (call, phase) =>
      if phase.isReturned then none
      else some (w.move id call (call.advance kv pre w.store phase).1
        (call.advance kv pre w.store phase).2)

/-- Operations one after the other. -/
def World.performAll (kv : AtomicKv σ V) (pre : String) : List (Op V) → World σ V →
    Option (World σ V)
  | [], w => some w
  | op :: ops, w => (w.perform kv pre op).bind (performAll kv pre ops)

theorem World.perform_step {op : Op V} (h : w.perform kv pre op = some w') : Step kv pre w w' := by
  cases op with
  | invoke id call =>
    unfold World.perform at h
    cases hcall : w.calls id with
    | none =>
      simp only [hcall, Option.some.injEq] at h
      rw [← h]
      exact .invoke call hcall
    | some x => simp [hcall] at h
  | advance id =>
    unfold World.perform at h
    rcases hcall : w.calls id with _ | ⟨call, phase⟩
    · simp [hcall] at h
    · simp only [hcall] at h
      split_ifs at h with hopen
      rw [← Option.some.inj h]
      exact .advance hcall (by simpa using hopen)

theorem World.performAll_reached (ops : List (Op V)) (w : World σ V)
    (h : w.performAll kv pre ops = some w') : Reached kv pre w w' := by
  induction ops generalizing w with
  | nil =>
    obtain rfl := Option.some.inj h
    exact Relation.ReflTransGen.refl
  | cons op ops ih =>
    obtain ⟨x, hx, hrest⟩ := Option.bind_eq_some_iff.mp h
    exact Relation.ReflTransGen.head ⟨World.perform_step hx, trivial⟩ (ih x hrest)

/-- The memory tier before the first call. -/
def freshWorld : World (MemoryKv Nat) Nat := ⟨MemoryKv.empty Nat, fun _ => none, []⟩

/-- Two appends list the same empty log; the second meets the first at number
    zero and moves on. -/
def race : List (Op Nat) :=
  [.invoke 0 ⟨7, 1⟩, .invoke 1 ⟨8, 1⟩, .advance 0, .advance 1, .advance 0, .advance 1,
    .advance 1, .advance 1]

/-- What a return says about its number. -/
def CallEvent.number? : CallEvent V → Option (Nat × Nat)
  | .returned id (.ok e) => some (id, e.seq)
  | _ => none

theorem multi_writer_appends_race :
    ∃ w, freshWorld.performAll (MemoryKv.tier Nat) "log" race = some w ∧
      w.history.filterMap CallEvent.number? = [(0, 0), (1, 1)] ∧
      ∃ n, ∀ key, ((MemoryKv.tier Nat).get w.store key).isSome = true ∧
        startsWith key (logHead "log") = true ↔ ∃ seq < n, key = appendLogKey "log" seq := by
  have hnumbers : (freshWorld.performAll (MemoryKv.tier Nat) "log" race).map
      (fun w => w.history.filterMap CallEvent.number?) = some [(0, 0), (1, 1)] := by
    decide +kernel
  obtain ⟨w, hrun, heq⟩ := Option.map_eq_some_iff.mp hnumbers
  have hfresh : freshWorld.Fresh (MemoryKv.tier Nat) "log" := ⟨by decide +kernel, fun _ => rfl, rfl⟩
  exact ⟨w, hrun, heq,
    (multi_writer_appends (MemoryKv.tier Nat) "log" hfresh
      (World.performAll_reached race _ hrun)).1⟩

end GraphRefly.Storage
