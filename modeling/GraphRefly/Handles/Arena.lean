import GraphRefly.Handles.Pool

/-!
# The Slots of a Graph's Arena

An arena keeps the nodes of a graph in slots. A node is addressed by a key, the number of its
slot and the generation of the slot, which is raised when the slot is used again; the arena
stops when a generation would pass the largest `u64`. A slot is emptied only while nothing pins
it. It is put on the list of free slots after the node's cleanup has run, and this is code of
the user that may use the arena itself.

## Main definitions

* `GraphCore` with `alloc`, `keyFor`, `pinLiveKey`, `releasePin`, `takeLive`: The arena.
* `freeSlotIfUnreferenced`, `releaseRuntimeForGraph`: The two ways a slot is emptied.
* `GraphCore.Run`: The arenas that calls reach, with the slots whose cleanup is under way.

## Theorems

* `GraphCore.Sound.alloc`, `GraphCore.Sound.take`: What one call preserves.
* `handles_never_alias`: Handles and keys find what they were returned for, or nothing.
-/

namespace GraphRefly.Handles

open Lib Ticket

variable {T : Type}

structure NodeKey where
  id : Nat
  generation : Nat
  deriving DecidableEq

/-- The nodes of a graph; the last freed slot comes first. -/
structure GraphCore (T : Type) where
  slots : List (Option T)
  generations : List Nat
  pins : List Nat
  free : List Nat

namespace GraphCore

def new : GraphCore T := ⟨[], [], [], []⟩

section

variable (g : GraphCore T)

/-- The arena with a node in a slot, and the slot's number; none where the code stops. -/
def alloc (inner : T) : Option (GraphCore T × Nat) :=
  match g.free with
  | id :: free =>
    match g.generations[id]? with
    | some generation =>
      if generation + 1 < 2 ^ 64 then
        some (⟨g.slots.set id (some inner), g.generations.set id (generation + 1),
          g.pins.set id 0, free⟩, id)
      else none
    | none => none
  | [] => some (⟨g.slots ++ [some inner], g.generations ++ [0], g.pins ++ [0], []⟩,
      g.slots.length)

def keyFor (id : Nat) : Option NodeKey :=
  g.generations[id]?.map fun generation => ⟨id, generation⟩

def isLive (id : Nat) : Bool := g.slots[id]?.join.isSome

def isLiveKey (key : NodeKey) : Bool :=
  g.generations[key.id]? == some key.generation && g.isLive key.id

/-- Whether the key could be pinned; none where the count passes the largest `usize`. -/
def pinLiveKey (key : NodeKey) : Option (GraphCore T × Bool) :=
  if !g.isLiveKey key then some (g, false)
  else
    match g.pins[key.id]? with
    | some pin =>
      if pin + 1 < 2 ^ 64 then some ({ g with pins := g.pins.set key.id (pin + 1) }, true)
      else none
    | none => none

def releasePin (key : NodeKey) : GraphCore T :=
  if g.generations[key.id]? ≠ some key.generation then g
  else
    match g.pins[key.id]? with
    | some pin => if pin > 0 then { g with pins := g.pins.set key.id (pin - 1) } else g
    | none => g

def pinCount (key : NodeKey) : Nat :=
  if g.generations[key.id]? ≠ some key.generation then 0 else g.pins[key.id]?.getD 0

def takeLive (key : NodeKey) : Option (GraphCore T × T) :=
  if !g.isLiveKey key then none
  else g.slots[key.id]?.join.map fun inner => ({ g with slots := g.slots.set key.id none }, inner)

/-- The end of the last reference to a node, up to its cleanup. -/
def freeSlotIfUnreferenced (key : NodeKey) (refs : Nat) :
    Option (GraphCore T × T) :=
  if refs ≠ 0 then none
  else if g.pinCount key ≠ 0 then none
  else g.takeLive key

/-- The release of a node by its graph, up to its cleanup. -/
def releaseRuntimeForGraph (key : NodeKey) (quiescent : Bool) :
    Option (GraphCore T × T) :=
  if !quiescent then none
  else if g.pinCount key ≠ 0 then none
  else g.takeLive key

end

/-! ### Runs -/

/-- An arena that calls reach, the slots whose cleanup is under way, and the keys that were
returned and ended. -/
inductive Run : GraphCore T → List Nat → List (Ticket NodeKey T) → Prop
  | new : Run new [] []
  | alloc {g g' : GraphCore T} {taken : List Nat} {history : List (Ticket NodeKey T)} {id : Nat}
      {key : NodeKey} (inner : T) : Run g taken history → g.alloc inner = some (g', id) →
      g'.keyFor id = some key → Run g' taken (history ++ [.issue key inner])
  | pin {g g' : GraphCore T} {taken : List Nat} {history : List (Ticket NodeKey T)} {live : Bool}
      (key : NodeKey) : Run g taken history → g.pinLiveKey key = some (g', live) →
      Run g' taken history
  | releasePin {g : GraphCore T} {taken : List Nat} {history : List (Ticket NodeKey T)}
      (key : NodeKey) : Run g taken history → Run (g.releasePin key) taken history
  | drop {g g' : GraphCore T} {taken : List Nat} {history : List (Ticket NodeKey T)} {inner : T}
      (key : NodeKey) (refs : Nat) : Run g taken history →
      g.freeSlotIfUnreferenced key refs = some (g', inner) →
      Run g' (key.id :: taken) (history ++ [.revoke key])
  | release {g g' : GraphCore T} {taken : List Nat} {history : List (Ticket NodeKey T)}
      {inner : T} (key : NodeKey) (quiescent : Bool) : Run g taken history →
      g.releaseRuntimeForGraph key quiescent = some (g', inner) →
      Run g' (key.id :: taken) (history ++ [.revoke key])
  | free {g : GraphCore T} {taken : List Nat} {history : List (Ticket NodeKey T)} {id : Nat} :
      Run g taken history → id ∈ taken →
      Run { g with free := id :: g.free } (taken.erase id) history

variable {g g' : GraphCore T} {taken : List Nat} {history : List (Ticket NodeKey T)}
  {key : NodeKey} {inner : T}

/-- The node in a slot, if the key is the slot's. -/
def lookup (g : GraphCore T) (key : NodeKey) : Option T :=
  if g.generations[key.id]? = some key.generation then g.slots[key.id]?.join else none

theorem isLiveKey_iff : g.isLiveKey key = true ↔ ∃ inner, g.lookup key = some inner := by
  by_cases hgen : g.generations[key.id]? = some key.generation
  · simp [isLiveKey, isLive, lookup, hgen, Option.isSome_iff_exists]
  · simp [isLiveKey, lookup, hgen]

/-- What holds of an arena and its history. -/
structure Sound (g : GraphCore T) (taken : List Nat) (history : List (Ticket NodeKey T)) :
    Prop where
  unmixed : Unmixed history
  lookup_iff : ∀ key inner, g.lookup key = some inner ↔ Current history key inner
  generations_length : g.generations.length = g.slots.length
  pins_length : g.pins.length = g.slots.length
  idle_nodup : (g.free ++ taken).Nodup
  idle : ∀ id ∈ g.free ++ taken, g.slots[id]? = some none ∧ g.pins[id]? = some 0
  issued_le : ∀ key, Issued history key → ∃ generation,
    g.generations[key.id]? = some generation ∧ key.generation ≤ generation

theorem Sound.new : Sound (T := T) new [] [] where
  unmixed := .nil
  lookup_iff key inner := by simp [lookup, GraphCore.new, not_current_nil]
  generations_length := rfl
  pins_length := rfl
  idle_nodup := List.nodup_nil
  idle id hid := absurd hid List.not_mem_nil
  issued_le key h := by simp [Issued] at h

theorem lookup_eq_some : g.lookup key = some inner ↔
    g.generations[key.id]? = some key.generation ∧ g.slots[key.id]? = some (some inner) := by
  by_cases hgen : g.generations[key.id]? = some key.generation
  · simp [lookup, hgen, Option.join_eq_some_iff]
  · simp [lookup, hgen]

/-- A slot that is empty is nobody's. -/
theorem Sound.not_current (h : Sound g taken history) (hslot : g.slots[key.id]? = some none) :
    ¬Current history key inner := by
  rw [← h.lookup_iff, lookup_eq_some, hslot]
  simp

theorem Sound.reuse (h : Sound g taken history) {id generation : Nat} {free : List Nat}
    (hfree : g.free = id :: free) (hgen : g.generations[id]? = some generation) :
    Sound ⟨g.slots.set id (some inner), g.generations.set id (generation + 1),
      g.pins.set id 0, free⟩ taken (history ++ [.issue ⟨id, generation + 1⟩ inner]) := by
  have hnodup := h.idle_nodup
  rw [hfree, List.cons_append, List.nodup_cons] at hnodup
  obtain ⟨hempty, -⟩ := h.idle id (by simp [hfree])
  have hlt := (List.getElem?_eq_some_iff.mp hempty).1
  have hltgen := (List.getElem?_eq_some_iff.mp hgen).1
  have hnew : ¬Issued history ⟨id, generation + 1⟩ := by
    intro hissued
    obtain ⟨current, hsame, hle⟩ := h.issued_le _ hissued
    rw [hgen, Option.some.injEq] at hsame
    simp only at hle
    omega
  refine ⟨h.unmixed.issue hnew, ?_, by simp [h.generations_length], by simp [h.pins_length],
    hnodup.2, ?_, ?_⟩
  · intro key inner'
    rw [lookup_eq_some, current_issue]
    by_cases hid : key.id = id
    · have hnone : ¬Current history key inner' := h.not_current (by rw [hid]; exact hempty)
      obtain ⟨n, current⟩ := key
      simp only at hid
      subst hid
      simp [hnone, hlt, hltgen, eq_comm]
    · have hne : id ≠ key.id := fun hsame => hid hsame.symm
      rw [List.getElem?_set_ne hne, List.getElem?_set_ne hne, ← lookup_eq_some, h.lookup_iff]
      have hkey : key ≠ ⟨id, generation + 1⟩ := fun hsame => hid (congrArg NodeKey.id hsame)
      simp [hkey]
  · intro n hn
    have hne : id ≠ n := fun hsame => hnodup.1 (hsame ▸ hn)
    rw [List.getElem?_set_ne hne, List.getElem?_set_ne hne]
    exact h.idle n (by rw [hfree]; exact List.mem_cons_of_mem _ hn)
  · intro key hissued
    by_cases hid : key.id = id
    · refine ⟨generation + 1, by simp [hid, hltgen], ?_⟩
      rcases issued_issue.mp hissued with hold | hsame
      · obtain ⟨current, hcur, hle⟩ := h.issued_le key hold
        rw [hid, hgen, Option.some.injEq] at hcur
        omega
      · exact Nat.le_of_eq (congrArg NodeKey.generation hsame)
    · rcases issued_issue.mp hissued with hold | hsame
      · rw [List.getElem?_set_ne (fun hsame => hid hsame.symm)]
        exact h.issued_le key hold
      · exact absurd (congrArg NodeKey.id hsame) hid

theorem Sound.extend (h : Sound g taken history) (hfree : g.free = []) :
    Sound ⟨g.slots ++ [some inner], g.generations ++ [0], g.pins ++ [0], []⟩ taken
      (history ++ [.issue ⟨g.slots.length, 0⟩ inner]) := by
  have hfresh : ∀ current, ¬Issued history ⟨g.slots.length, current⟩ := by
    intro current hissued
    obtain ⟨generation, hgen, -⟩ := h.issued_le _ hissued
    have hlt := (List.getElem?_eq_some_iff.mp hgen).1
    rw [h.generations_length] at hlt
    exact Nat.lt_irrefl _ hlt
  refine ⟨h.unmixed.issue (hfresh 0), ?_, by simp [h.generations_length],
    by simp [h.pins_length], by simpa [hfree] using h.idle_nodup, ?_, ?_⟩
  · intro key inner'
    rw [lookup_eq_some, current_issue, ← h.lookup_iff, lookup_eq_some]
    obtain ⟨n, current⟩ := key
    have hlen := h.generations_length
    simp only [List.getElem?_append, hlen]
    by_cases hlt : n < g.slots.length
    · have hne : n ≠ g.slots.length := by omega
      simp [hlt, hne]
    · by_cases hsame : n = g.slots.length
      · subst hsame
        simp [eq_comm]
      · have hbeyond : n - g.slots.length ≠ 0 := by omega
        simp [hlt, hsame, hbeyond]
  · intro n hn
    obtain ⟨hslot, hpin⟩ := h.idle n (by simpa [hfree] using hn)
    have hlt := (List.getElem?_eq_some_iff.mp hslot).1
    rw [List.getElem?_append_left hlt, List.getElem?_append_left (by rw [h.pins_length]; exact hlt)]
    exact ⟨hslot, hpin⟩
  · intro key hissued
    rcases issued_issue.mp hissued with hold | rfl
    · obtain ⟨generation, hgen, hle⟩ := h.issued_le key hold
      have hlt := (List.getElem?_eq_some_iff.mp hgen).1
      exact ⟨generation, by rw [List.getElem?_append_left hlt]; exact hgen, hle⟩
    · exact ⟨0, by simp [← h.generations_length], Nat.le_refl 0⟩

theorem Sound.alloc (h : Sound g taken history) {id : Nat}
    (halloc : g.alloc inner = some (g', id)) (hkey : g'.keyFor id = some key) :
    Sound g' taken (history ++ [.issue key inner]) := by
  cases hfree : g.free with
  | nil =>
    simp only [GraphCore.alloc, hfree, Option.some.injEq, Prod.mk.injEq] at halloc
    obtain ⟨rfl, rfl⟩ := halloc
    have hfirst : key = ⟨g.slots.length, 0⟩ := by
      simpa [keyFor, ← h.generations_length, eq_comm] using hkey
    rw [hfirst]
    exact h.extend hfree
  | cons n free =>
    cases hgen : g.generations[n]? with
    | none => simp [GraphCore.alloc, hfree, hgen] at halloc
    | some generation =>
      have hlt := (List.getElem?_eq_some_iff.mp hgen).1
      by_cases hbound : generation + 1 < 2 ^ 64
      · simp only [GraphCore.alloc, hfree, hgen, if_pos hbound, Option.some.injEq,
          Prod.mk.injEq] at halloc
        obtain ⟨rfl, rfl⟩ := halloc
        have hnext : key = ⟨n, generation + 1⟩ := by
          simpa [keyFor, hlt, eq_comm] using hkey
        rw [hnext]
        exact h.reuse hfree hgen
      · simp only [GraphCore.alloc, hfree, hgen, if_neg hbound] at halloc
        cases halloc

/-- An unpinned slot is emptied. -/
theorem Sound.take (h : Sound g taken history) (hpin : g.pinCount key = 0)
    (htake : g.takeLive key = some (g', inner)) :
    Sound g' (key.id :: taken) (history ++ [.revoke key]) := by
  cases hlive : g.isLiveKey key with
  | false => simp [takeLive, hlive] at htake
  | true =>
    obtain ⟨held, hlookup⟩ := isLiveKey_iff.mp hlive
    obtain ⟨hgen, hslot⟩ := lookup_eq_some.mp hlookup
    have hlt := (List.getElem?_eq_some_iff.mp hslot).1
    simp only [takeLive, hlive, hslot, Bool.not_true, Bool.false_eq_true, if_false,
      Option.join_some, Option.map_some, Option.some.injEq, Prod.mk.injEq] at htake
    obtain ⟨rfl, rfl⟩ := htake
    have hidle : key.id ∉ g.free ++ taken := by
      intro hmem
      have hempty := (h.idle _ hmem).1
      rw [hslot] at hempty
      cases hempty
    have hzero : g.pins[key.id]? = some 0 := by
      have hltpin : key.id < g.pins.length := by rw [h.pins_length]; exact hlt
      rw [pinCount, if_neg (by simp [hgen]), List.getElem?_eq_getElem hltpin] at hpin
      rw [List.getElem?_eq_getElem hltpin]
      exact congrArg some hpin
    refine ⟨h.unmixed.revoke, ?_, by simp [h.generations_length], by simp [h.pins_length],
      (List.perm_middle.nodup_iff).mpr (List.nodup_cons.mpr ⟨hidle, h.idle_nodup⟩), ?_, ?_⟩
    · intro other inner'
      rw [lookup_eq_some, current_revoke, ← h.lookup_iff, lookup_eq_some]
      by_cases hid : other.id = key.id
      · obtain ⟨n, current⟩ := other
        obtain ⟨m, generation⟩ := key
        simp only at hid hgen hlt ⊢
        subst hid
        simp only [List.getElem?_set_self hlt, Option.some.injEq, reduceCtorEq, and_false,
          false_iff]
        rintro ⟨⟨hother, -⟩, hne⟩
        rw [hgen, Option.some.injEq] at hother
        exact hne (by rw [hother])
      · have hne : other ≠ key := fun hsame => hid (congrArg NodeKey.id hsame)
        rw [List.getElem?_set_ne (fun hsame => hid hsame.symm)]
        simp [hne]
    · intro n hn
      by_cases hsame : n = key.id
      · rw [hsame, List.getElem?_set_self hlt]
        exact ⟨rfl, hzero⟩
      · rw [List.getElem?_set_ne (fun heq => hsame heq.symm)]
        refine h.idle n ?_
        simpa [hsame] using hn
    · exact fun other hissued => h.issued_le other (issued_revoke.mp hissued)

/-- Counting pins of slots that are not idle changes nothing else. -/
theorem Sound.setPins (h : Sound g taken history) (pins : List Nat)
    (hlen : pins.length = g.pins.length)
    (hidle : ∀ id ∈ g.free ++ taken, pins[id]? = some 0) :
    Sound { g with pins := pins } taken history where
  unmixed := h.unmixed
  lookup_iff := h.lookup_iff
  generations_length := h.generations_length
  pins_length := hlen.trans h.pins_length
  idle_nodup := h.idle_nodup
  idle id hid := ⟨(h.idle id hid).1, hidle id hid⟩
  issued_le := h.issued_le

theorem Sound.pin (h : Sound g taken history) {live : Bool}
    (hpin : g.pinLiveKey key = some (g', live)) : Sound g' taken history := by
  cases hlive : g.isLiveKey key with
  | false =>
    simp only [pinLiveKey, hlive, Bool.not_false, if_true, Option.some.injEq,
      Prod.mk.injEq] at hpin
    exact hpin.1 ▸ h
  | true =>
    obtain ⟨held, hlookup⟩ := isLiveKey_iff.mp hlive
    obtain ⟨-, hslot⟩ := lookup_eq_some.mp hlookup
    cases hcount : g.pins[key.id]? with
    | none => simp [pinLiveKey, hlive, hcount] at hpin
    | some pin =>
      by_cases hbound : pin + 1 < 2 ^ 64
      · simp only [pinLiveKey, hlive, hcount, if_pos hbound, Bool.not_true, Bool.false_eq_true,
          if_false, Option.some.injEq, Prod.mk.injEq] at hpin
        obtain ⟨rfl, -⟩ := hpin
        refine h.setPins _ (by simp) fun id hid => ?_
        have hne : key.id ≠ id := by
          rintro rfl
          have hempty := (h.idle _ hid).1
          rw [hslot] at hempty
          cases hempty
        rw [List.getElem?_set_ne hne]
        exact (h.idle id hid).2
      · simp only [pinLiveKey, hlive, hcount, if_neg hbound] at hpin
        cases hpin

theorem Sound.releasePin (h : Sound g taken history) : Sound (g.releasePin key) taken history := by
  unfold GraphCore.releasePin
  split_ifs
  · exact h
  · cases hcount : g.pins[key.id]? with
    | none => exact h
    | some pin =>
      by_cases hpos : pin > 0
      · simp only [if_pos hpos]
        refine h.setPins _ (by simp) fun id hid => ?_
        have hne : key.id ≠ id := by
          rintro rfl
          have hzero := (h.idle _ hid).2
          rw [hcount, Option.some.injEq] at hzero
          omega
        rw [List.getElem?_set_ne hne]
        exact (h.idle id hid).2
      · simp only [if_neg hpos]
        exact h

/-- A slot whose cleanup has run is put on the list of free slots. -/
theorem Sound.free (h : Sound g taken history) {id : Nat} (hid : id ∈ taken) :
    Sound { g with free := id :: g.free } (taken.erase id) history := by
  have hperm : (id :: g.free ++ taken.erase id).Perm (g.free ++ taken) :=
    (List.perm_middle.symm.trans ((List.perm_cons_erase hid).symm.append_left g.free))
  exact ⟨h.unmixed, h.lookup_iff, h.generations_length, h.pins_length,
    hperm.nodup_iff.mpr h.idle_nodup, fun n hn => h.idle n (hperm.mem_iff.mp hn), h.issued_le⟩

theorem take_of_drop {refs : Nat} (h : g.freeSlotIfUnreferenced key refs = some (g', inner)) :
    g.pinCount key = 0 ∧ g.takeLive key = some (g', inner) := by
  unfold freeSlotIfUnreferenced at h
  split_ifs at h with hrefs hpin
  exact ⟨by omega, h⟩

theorem take_of_release {quiescent : Bool}
    (h : g.releaseRuntimeForGraph key quiescent = some (g', inner)) :
    g.pinCount key = 0 ∧ g.takeLive key = some (g', inner) := by
  unfold releaseRuntimeForGraph at h
  split_ifs at h with hquiet hpin
  exact ⟨by omega, h⟩

theorem Run.sound (h : Run g taken history) : Sound g taken history := by
  induction h with
  | new => exact .new
  | alloc inner _ halloc hkey ih => exact ih.alloc halloc hkey
  | pin key _ hpin ih => exact ih.pin hpin
  | releasePin key _ ih => exact ih.releasePin
  | drop key refs _ hdrop ih => exact ih.take (take_of_drop hdrop).1 (take_of_drop hdrop).2
  | release key quiescent _ hrelease ih =>
    exact ih.take (take_of_release hrelease).1 (take_of_release hrelease).2
  | free _ hid ih => exact ih.free hid

end GraphCore

/-- While no counter of a pool wraps, a handle finds the function it was returned for until this
is unregistered, and nothing afterwards; the freed slots are distinct and empty. The keys of an
arena do the same without a condition, and an idle slot, or one about to be emptied, is not
pinned. -/
theorem handles_never_alias {F T : Type} :
    (∀ (p : Pool F) (history : List (Ticket (UInt32 × UInt32) F)),
      Pool.Run (fun p call => ¬p.Wraps call) p history →
      (∀ id generation f,
        p.get id generation = some f ↔ Current history (id, generation) f) ∧
      (∀ id generation, Spent history (id, generation) → p.get id generation = none) ∧
      p.free.Nodup ∧ (∀ id ∈ p.free, ∃ generation, p.slots[id.toNat]? = some ⟨none, generation⟩) ∧
      ∀ f, p.register f ≠ none) ∧
    ∀ (g : GraphCore T) (taken : List Nat) (history : List (Ticket NodeKey T)),
      GraphCore.Run g taken history →
      (∀ key, g.isLiveKey key = true ↔ ∃ inner, Current history key inner) ∧
      (∀ key, Spent history key → g.isLiveKey key = false) ∧
      (g.free ++ taken).Nodup ∧
      (∀ id ∈ g.free ++ taken, g.isLive id = false ∧ g.pins[id]? = some 0) ∧
      ∀ key g' inner, (∃ refs, g.freeSlotIfUnreferenced key refs = some (g', inner)) ∨
        (∃ quiescent, g.releaseRuntimeForGraph key quiescent = some (g', inner)) →
        g.pinCount key = 0 := by
  refine ⟨fun p history hrun => ?_, fun g taken history hrun => ?_⟩
  · have h := hrun.sound
    refine ⟨h.get_iff, fun id generation hspent => ?_, h.free_nodup, h.free_empty,
      fun f => h.register_ne_none⟩
    rw [Option.eq_none_iff_forall_not_mem]
    exact fun f hf => h.unmixed.not_spent _ f ((h.get_iff id generation f).mp hf) hspent
  · have h := hrun.sound
    have hlive : ∀ key, g.isLiveKey key = true ↔ ∃ inner, Current history key inner := fun key => by
      simp only [GraphCore.isLiveKey_iff, h.lookup_iff]
    refine ⟨hlive, fun key hspent => ?_, h.idle_nodup, fun id hid => ?_, ?_⟩
    · rw [← Bool.not_eq_true, hlive]
      rintro ⟨inner, hcur⟩
      exact h.unmixed.not_spent key inner hcur hspent
    · have hidle := h.idle id hid
      exact ⟨by simp [GraphCore.isLive, hidle.1], hidle.2⟩
    · rintro key g' inner (⟨refs, hdrop⟩ | ⟨quiescent, hrelease⟩)
      · exact (GraphCore.take_of_drop hdrop).1
      · exact (GraphCore.take_of_release hrelease).1

/-- A function is registered, and a node is allocated. -/
theorem handles_never_alias_first :
    ((⟨[⟨some true, 0⟩], []⟩ : Pool Bool).get 0 0 = some true ↔
      Current [.issue ((0 : UInt32), (0 : UInt32)) true] (0, 0) true) ∧
    ((⟨[some true], [0], [0], []⟩ : GraphCore Bool).isLiveKey ⟨0, 0⟩ = true ↔
      ∃ inner, Current [.issue (⟨0, 0⟩ : NodeKey) true] ⟨0, 0⟩ inner) := by
  have hpool : Pool.Run (fun (p : Pool Bool) call => ¬p.Wraps call) _ _ :=
    .register true .new (by simp [Pool.Wraps, Pool.new]) rfl
  have harena := GraphCore.Run.alloc true .new rfl rfl
  exact ⟨(handles_never_alias (T := Bool)).1 _ _ hpool |>.1 0 0 true,
    (handles_never_alias (F := Bool)).2 _ _ _ harena |>.1 ⟨0, 0⟩⟩

end GraphRefly.Handles
