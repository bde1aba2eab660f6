import GraphRefly.Storage.Versioned

/-!
# Reading through Tiers

A lookup that asks one tier after another and stops at the first that has the key. When
none has it a loader is asked. What was found is then written to the tiers before, so
that the next lookup finds it there. A versioned tier is read together with a generation,
and the write to it is conditional on that generation.

Other clients work on the same tiers. What they do between two calls of the lookup is a
list of operations, and the log of a lookup holds theirs and its own in their order. The
state of all tiers together is the world, and every operation is a step of it.

## Main definitions

* `Tier`, `System`: A tier, and the world it is part of.
* `PromotionPolicy`, `buildPromotionTargets`: The tiers to write to.
* `tieredReadThrough`: The lookup, with its log.
-/

namespace GraphRefly.Storage

variable {W Op V : Type}

/-! ### Tiers -/

/-- A key-value tier. Its reads look at the world and may fail; its writes are operations. -/
structure Tier (W Op V : Type) where
  supportsVersioned : Bool
  get : W → String → Except StorageError (Option V)
  getVersioned : W → String → Except StorageError (KvVersionedRead V)
  set : String → V → Op
  setIfMatch : String → V → KvGeneration → Op

/-- What an operation does to the world, and what it answers. -/
structure System (W Op : Type) where
  step : W → Op → W
  answer : W → Op → Except StorageError Bool

/-! ### Facts and options -/

structure ReadThroughLookupTier where
  index : Int
  name : Option String
  deriving DecidableEq

inductive ReadThroughOutcome
  | hit
  | miss
  | error
  deriving DecidableEq

structure ReadThroughLookupFact (V : Type) where
  outcome : ReadThroughOutcome
  key : String
  tier : ReadThroughLookupTier
  value : Option V
  generation : Option KvGeneration
  error : Option StorageError

structure ReadThroughPromotionFact where
  tier : ReadThroughLookupTier
  ok : Bool
  error : Option StorageError

inductive TieredReadThroughStatus
  | hit
  | miss
  | error
  deriving DecidableEq

structure TieredReadThroughResult (V : Type) where
  status : TieredReadThroughStatus
  key : String
  value : Option V
  hitTier : Option ReadThroughLookupTier
  facts : List (ReadThroughLookupFact V)
  promotions : List ReadThroughPromotionFact

inductive PromotionPolicy
  | allEarlier
  | disabled
  | indices (indices : List Nat)

/-- The options of a lookup. The callbacks for misses and errors are told and cannot answer. -/
structure TieredReadThroughOptions (W Op V : Type) where
  key : String
  tiers : List (Tier W Op V)
  tierNames : List String
  load : Option (W → String → Except StorageError (Option V))
  promoteTo : PromotionPolicy

/-! ### The log -/

/-- What happened to the world, and who did it. -/
inductive Doing (Op : Type)
  | others (op : Op)
  | own (tier : Nat) (op : Op)

def Doing.op : Doing Op → Op
  | .others op => op
  | .own _ op => op

/-- The world after what a log says. -/
def worldAfter (sys : System W Op) (w : W) (log : List (Doing Op)) : W :=
  (log.map Doing.op).foldl sys.step w

/-- The calls made so far, and the log. -/
structure Session (Op : Type) where
  calls : Nat
  log : List (Doing Op)

/-- The next call: before it, the others have their turn. -/
def Session.turn (others : Nat → List Op) (s : Session Op) : Session Op :=
  { calls := s.calls + 1
    log := s.log ++ (others s.calls).map .others }

/-- An operation of the lookup itself on one of its tiers. -/
def Session.perform (s : Session Op) (tier : Nat) (op : Op) : Session Op :=
  { s with log := s.log ++ [.own tier op] }

/-! ### Lookup -/

def lookupTier (index : Int) (tierNames : List String) : ReadThroughLookupTier :=
  { index
    name := tierNames[(max index 0).toNat]? }

/-- Read a tier, with a generation if it has versions. -/
def readTier (tier : Tier W Op V) (w : W) (key : String) :
    Except StorageError (Option V × Option KvGeneration) :=
  if tier.supportsVersioned then
    (tier.getVersioned w key).map fun
      | .hit value generation => (some value, some generation)
      | .miss generation => (none, some generation)
  else (tier.get w key).map fun found => (found, none)

/-- The fact of a read. -/
def lookupFact (key : String) (tier : ReadThroughLookupTier) :
    Except StorageError (Option V × Option KvGeneration) → ReadThroughLookupFact V
  | .ok (some found, generation) => ⟨.hit, key, tier, some found, generation, none⟩
  | .ok (none, generation) => ⟨.miss, key, tier, none, generation, none⟩
  | .error error => ⟨.error, key, tier, none, none, some error⟩

/-- A lookup under way. -/
structure Lookup (Op V : Type) where
  session : Session Op
  facts : List (ReadThroughLookupFact V)
  hitTier : Option ReadThroughLookupTier
  value : Option V

def Lookup.start : Lookup Op V := ⟨⟨0, []⟩, [], none, none⟩

/-- A read that has been answered. -/
def Lookup.note (l : Lookup Op V) (session : Session Op) (key : String)
    (tier : ReadThroughLookupTier)
    (read : Except StorageError (Option V × Option KvGeneration)) : Lookup Op V :=
  { l with
    session := session
    facts := l.facts ++ [lookupFact key tier read] }

section Lookups

variable (sys : System W Op) (others : Nat → List Op) (opts : TieredReadThroughOptions W Op V)
  (w : W)

def readTiers : List (Tier W Op V) → Nat → Lookup Op V → Lookup Op V
  | [], _, l => l
  | tier :: tiers, index, l =>
    let session := l.session.turn others
    let info := lookupTier index opts.tierNames
    let read := readTier tier (worldAfter sys w session.log) opts.key
    match read with
    | .ok (some found, _) =>
      { l.note session opts.key info read with
        hitTier := some info
        value := some found }
    | _ => readTiers tiers (index + 1) (l.note session opts.key info read)

def loaderTier : ReadThroughLookupTier := ⟨-1, some "load"⟩

/-- Ask the loader, if there is one and nothing was found. -/
def runLoader (l : Lookup Op V) : Lookup Op V :=
  match l.hitTier, opts.load with
  | none, some load =>
    let session := l.session.turn others
    let read := (load (worldAfter sys w session.log) opts.key).map fun found =>
      (found, (none : Option KvGeneration))
    match read with
    | .ok (some loaded, _) =>
      { l.note session opts.key loaderTier read with
        hitTier := some loaderTier
        value := some loaded }
    | _ => l.note session opts.key loaderTier read
  | _, _ => l

/-! ### Promotion -/

def generationForTier (facts : List (ReadThroughLookupFact V)) (index : Nat) :
    Option KvGeneration :=
  (facts.find? fun fact => decide (fact.tier.index = (index : Int))).bind (·.generation)

def buildPromotionTargets (tierCount hitIndex : Nat) (promoteTo : PromotionPolicy) : List Nat :=
  if tierCount = 0 then []
  else
    let maxPromote := min hitIndex tierCount
    match promoteTo with
    | .disabled => []
    | .allEarlier => List.range maxPromote
    | .indices indices => indices.foldl (fun out index =>
      if index < tierCount ∧ index < maxPromote ∧ index ∉ out then out ++ [index] else out) []

/-- The operation that promotes a value to a tier, if there is one. -/
def promotionOp (facts : List (ReadThroughLookupFact V)) (found : V) (index : Nat)
    (tier : Tier W Op V) : Option Op :=
  if tier.supportsVersioned then
    (generationForTier facts index).map fun generation =>
      tier.setIfMatch opts.key found generation
  else some (tier.set opts.key found)

def unobserved : StorageError :=
  .backend "tiered_read_through: versioned promotion target was not observed with a generation"

/-- What the answer to a promotion is reported as. -/
def promotionFact (tier : ReadThroughLookupTier) :
    Except StorageError Bool → ReadThroughPromotionFact
  | .ok ok => ⟨tier, ok, none⟩
  | .error error => ⟨tier, false, some error⟩

/-- The answer of a write. A plain write has none but success. -/
def promotionAnswer (tier : Tier W Op V) (answer : Except StorageError Bool) :
    Except StorageError Bool :=
  if tier.supportsVersioned then answer else answer.map fun _ => true

/-- Write to the targets, one after another. -/
def promoteAll (facts : List (ReadThroughLookupFact V)) (found : V) :
    List Nat → Session Op × List ReadThroughPromotionFact →
      Session Op × List ReadThroughPromotionFact
  | [], done => done
  | index :: targets, done =>
    match opts.tiers[index]? with
    | none => done
    | some tier =>
      let info := lookupTier index opts.tierNames
      match promotionOp opts facts found index tier with
      | none =>
        promoteAll facts found targets
          (done.1, done.2 ++ [promotionFact info (.error unobserved)])
      | some op =>
        let session := done.1.turn others
        let answer := promotionAnswer tier (sys.answer (worldAfter sys w session.log) op)
        promoteAll facts found targets
          (session.perform index op, done.2 ++ [promotionFact info answer])

/-- The position in front of which a value is promoted: that of the tier it was found in, or the
    end for the loader. -/
def sourceIndex (source : ReadThroughLookupTier) : Nat :=
  if source.index < 0 then opts.tiers.length else source.index.toNat

def statusOf (l : Lookup Op V) : TieredReadThroughStatus :=
  if l.hitTier.isSome ∧ l.value.isSome then .hit
  else if l.facts.any fun fact => decide (fact.outcome = .error) then .error
  else .miss

/-- What a lookup that has found something writes. -/
def promoted (l : Lookup Op V) : Session Op × List ReadThroughPromotionFact :=
  match l.value, l.hitTier with
  | some found, some source =>
    promoteAll sys others opts w l.facts found
      (buildPromotionTargets opts.tiers.length (sourceIndex opts source) opts.promoteTo)
      (l.session, [])
  | _, _ => (l.session, [])

/-- The lookup, with the log of what happened meanwhile. -/
def tieredReadThrough : TieredReadThroughResult V × List (Doing Op) :=
  let l := runLoader sys others opts w (readTiers sys others opts w opts.tiers 0 .start)
  ({ status := statusOf l
     key := opts.key
     value := l.value
     hitTier := l.hitTier
     facts := l.facts
     promotions := (promoted sys others opts w l).2 }, (promoted sys others opts w l).1.log)

end Lookups

end GraphRefly.Storage
