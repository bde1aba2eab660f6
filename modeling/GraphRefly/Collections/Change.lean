import GraphRefly.Json.Decode
import GraphRefly.Storage.Kv

/-!
# Changes of a Collection

The deltas that the four reactive collections emit, and their JSON forms. A
change is an object with its name under `kind` beside its fields, a row of a map
is an array of two, and a row of an index is an object.

Elements and keys are of any type with a JSON form. `StrictJson` is what the
collections ask of it: the form reads back, the strict encoder accepts it, and
different elements have different bytes.

## Main definitions

* `Serde`: A type with a JSON form.
* `StrictJson`: The form reads back and is an identity.
* `ListChange`, `LogChange`, `MapChange`, `IndexChange`: The changes.
* `IndexRow`: A row of an index.
* `strictJsonIdentity`: The bytes that stand for an element.

## Theorems

* `LawfulSerde` instances: Rows and changes read back.
* `StrictJson.identity_eq_iff`: Two elements are equal when their bytes are.
-/

namespace GraphRefly.Collections

open GraphRefly.Json GraphRefly.Storage

/-- A type with a JSON form. -/
class Serde (F T : Type) where
  toValue : T → Value F
  /-- Reading a form back fails with the library's message. -/
  fromValue : Value F → Except String T

export Serde (toValue fromValue)

/-- The JSON form of a value reads back as the value. -/
class LawfulSerde (F T : Type) [Serde F T] : Prop where
  fromValue_toValue : ∀ x : T, fromValue (toValue x : Value F) = .ok x

attribute [simp] LawfulSerde.fromValue_toValue

/-- The strict JSON form of a value exists and belongs to no other value. -/
class StrictJson (F T : Type) [Float64 F] [Serde F T] : Prop extends LawfulSerde F T where
  strict : ∀ x : T, ∃ b, strictCanonicalJsonBytes (toValue x : Value F) = .ok b
  injective : ∀ (x y : T) b, strictCanonicalJsonBytes (toValue x : Value F) = .ok b →
    strictCanonicalJsonBytes (toValue y : Value F) = .ok b → x = y

variable {F T K S V : Type}

/-! ### Forms of the library's types -/

instance : Serde F Nat where
  toValue n := .number (.int n)
  fromValue
    | .number (.int n) => if 0 ≤ n then .ok n.toNat else .error "invalid value, expected usize"
    | _ => .error "invalid type, expected usize"

instance : Serde F Bool where
  toValue := .bool
  fromValue
    | .bool b => .ok b
    | _ => .error "invalid type, expected a boolean"

instance [Serde F T] : Serde F (List T) where
  toValue xs := .array (xs.map toValue)
  fromValue
    | .array vs => vs.mapM fromValue
    | _ => .error "invalid type, expected a sequence"

instance [Serde F K] [Serde F V] : Serde F (K × V) where
  toValue p := .array [toValue p.1, toValue p.2]
  fromValue
    | .array [k, v] => do return (← fromValue k, ← fromValue v)
    | .array _ => .error "invalid length, expected a tuple of size 2"
    | _ => .error "invalid type, expected a tuple of size 2"

/-- The entries of an object. -/
def asObject : Value F → Except String (List (String × Value F))
  | .object es => .ok es
  | _ => .error "invalid type, expected a map"

/-- The field of an object. -/
def field [Serde F T] (es : List (String × Value F)) (name : String) : Except String T :=
  match es.lookup name with
  | some v => fromValue v
  | none => .error s!"missing field `{name}`"

/-- An object with its name under `kind`. -/
def tagged (kind : String) (fields : List (String × Value F)) : Value F :=
  .object (("kind", .string kind) :: fields)

/-- The name of a tagged object. -/
def tagOf (es : List (String × Value F)) : Except String String :=
  match es.lookup "kind" with
  | some (.string kind) => .ok kind
  | some _ => .error "invalid type, expected variant identifier"
  | none => .error "missing field `kind`"

def unknownVariant (kind expected : String) : String :=
  s!"unknown variant `{kind}`, expected one of {expected}"

instance : LawfulSerde F Nat where
  fromValue_toValue n := by simp [toValue, fromValue]

instance [Serde F T] [LawfulSerde F T] : LawfulSerde F (List T) where
  fromValue_toValue xs := by
    change (xs.map toValue).mapM (fromValue (F := F)) = .ok xs
    induction xs with
    | nil => rfl
    | cons x xs ih =>
      rw [List.map_cons, List.mapM_cons, LawfulSerde.fromValue_toValue, ih]
      rfl

instance [Serde F K] [Serde F V] [LawfulSerde F K] [LawfulSerde F V] : LawfulSerde F (K × V) where
  fromValue_toValue p := by
    change (do return (← fromValue (toValue p.1 : Value F), ← fromValue (toValue p.2 : Value F)) :
      Except String (K × V)) = .ok p
    rw [LawfulSerde.fromValue_toValue, LawfulSerde.fromValue_toValue]
    rfl

/-- Booleans have the strict forms `true` and `false`. -/
instance [Float64 F] : StrictJson F Bool where
  fromValue_toValue _ := rfl
  strict b := ⟨_, strictCanonicalJsonBytes_eq_ok.mpr
    ⟨⟨Nat.zero_le _, by simp [toValue, Value.Safe, Value.All]⟩, rfl⟩⟩
  injective x y b hx hy := by
    have hx' := (strictCanonicalJsonBytes_eq_ok.mp hx).2
    have hy' := (strictCanonicalJsonBytes_eq_ok.mp hy).2
    have htext := congrArg String.fromUTF8? (hx'.symm.trans hy')
    rw [fromUTF8_toUTF8, fromUTF8_toUTF8, Option.some.injEq, String.ofList_inj] at htext
    cases x <;> cases y <;> simp_all [toValue, canonicalJson]

/-! ### Rows and changes -/

structure IndexRow (K S V : Type) where
  primary : K
  secondary : S
  value : V
  deriving DecidableEq

inductive ListChange (T : Type)
  | append (value : T)
  | appendMany (values : List T)
  | insert (index : Nat) (value : T)
  | insertMany (index : Nat) (values : List T)
  | pop (index : Nat) (value : T)
  | trimHead (n : Nat)
  | clear (count : Nat)
  deriving DecidableEq

inductive LogChange (T : Type)
  | append (value : T)
  | appendMany (values : List T)
  | trimHead (n : Nat)
  | clear (count : Nat)
  deriving DecidableEq

inductive MapChange (K V : Type)
  | set (key : K) (value : V)
  | delete (key : K) (previous : V)
  | clear (count : Nat)
  deriving DecidableEq

inductive IndexChange (K S V : Type)
  | upsert (primary : K) (secondary : S) (value : V)
  | delete (primary : K)
  | deleteMany (primaries : List K)
  | clear (count : Nat)
  deriving DecidableEq

def IndexRow.serialize [Serde F K] [Serde F S] [Serde F V] (row : IndexRow K S V) : Value F :=
  .object [("primary", toValue row.primary), ("secondary", toValue row.secondary),
    ("value", toValue row.value)]

def IndexRow.deserialize [Serde F K] [Serde F S] [Serde F V] (v : Value F) : Except String
    (IndexRow K S V) := do
  let es ← asObject v
  return ⟨← field es "primary", ← field es "secondary", ← field es "value"⟩

instance IndexRow.serde [Serde F K] [Serde F S] [Serde F V] : Serde F (IndexRow K S V) :=
  ⟨IndexRow.serialize, IndexRow.deserialize⟩

def ListChange.serialize [Serde F T] : ListChange T → Value F
  | .append value => tagged "append" [("value", toValue value)]
  | .appendMany values => tagged "appendMany" [("values", toValue values)]
  | .insert index value => tagged "insert" [("index", toValue index), ("value", toValue value)]
  | .insertMany index values =>
    tagged "insertMany" [("index", toValue index), ("values", toValue values)]
  | .pop index value => tagged "pop" [("index", toValue index), ("value", toValue value)]
  | .trimHead n => tagged "trimHead" [("n", toValue n)]
  | .clear count => tagged "clear" [("count", toValue count)]

def ListChange.deserialize [Serde F T] (v : Value F) : Except String (ListChange T) := do
  let es ← asObject v
  let kind ← tagOf es
  if kind = "append" then return .append (← field es "value")
  else if kind = "appendMany" then return .appendMany (← field es "values")
  else if kind = "insert" then return .insert (← field es "index") (← field es "value")
  else if kind = "insertMany" then return .insertMany (← field es "index") (← field es "values")
  else if kind = "pop" then return .pop (← field es "index") (← field es "value")
  else if kind = "trimHead" then return .trimHead (← field es "n")
  else if kind = "clear" then return .clear (← field es "count")
  else .error (unknownVariant kind
    "`append`, `appendMany`, `insert`, `insertMany`, `pop`, `trimHead`, `clear`")

instance ListChange.serde [Serde F T] : Serde F (ListChange T) :=
  ⟨ListChange.serialize, ListChange.deserialize⟩

def LogChange.serialize [Serde F T] : LogChange T → Value F
  | .append value => tagged "append" [("value", toValue value)]
  | .appendMany values => tagged "appendMany" [("values", toValue values)]
  | .trimHead n => tagged "trimHead" [("n", toValue n)]
  | .clear count => tagged "clear" [("count", toValue count)]

def LogChange.deserialize [Serde F T] (v : Value F) : Except String (LogChange T) := do
  let es ← asObject v
  let kind ← tagOf es
  if kind = "append" then return .append (← field es "value")
  else if kind = "appendMany" then return .appendMany (← field es "values")
  else if kind = "trimHead" then return .trimHead (← field es "n")
  else if kind = "clear" then return .clear (← field es "count")
  else .error (unknownVariant kind "`append`, `appendMany`, `trimHead`, `clear`")

instance LogChange.serde [Serde F T] : Serde F (LogChange T) :=
  ⟨LogChange.serialize, LogChange.deserialize⟩

def MapChange.serialize [Serde F K] [Serde F V] : MapChange K V → Value F
  | .set key value => tagged "set" [("key", toValue key), ("value", toValue value)]
  | .delete key previous =>
    tagged "delete" [("key", toValue key), ("previous", toValue previous)]
  | .clear count => tagged "clear" [("count", toValue count)]

def MapChange.deserialize [Serde F K] [Serde F V] (v : Value F) : Except String
    (MapChange K V) := do
  let es ← asObject v
  let kind ← tagOf es
  if kind = "set" then return .set (← field es "key") (← field es "value")
  else if kind = "delete" then return .delete (← field es "key") (← field es "previous")
  else if kind = "clear" then return .clear (← field es "count")
  else .error (unknownVariant kind "`set`, `delete`, `clear`")

instance MapChange.serde [Serde F K] [Serde F V] : Serde F (MapChange K V) :=
  ⟨MapChange.serialize, MapChange.deserialize⟩

def IndexChange.serialize [Serde F K] [Serde F S] [Serde F V] : IndexChange K S V → Value F
  | .upsert primary secondary value =>
    tagged "upsert" [("primary", toValue primary), ("secondary", toValue secondary),
      ("value", toValue value)]
  | .delete primary => tagged "delete" [("primary", toValue primary)]
  | .deleteMany primaries => tagged "deleteMany" [("primaries", toValue primaries)]
  | .clear count => tagged "clear" [("count", toValue count)]

def IndexChange.deserialize [Serde F K] [Serde F S] [Serde F V] (v : Value F) : Except String
    (IndexChange K S V) := do
  let es ← asObject v
  let kind ← tagOf es
  if kind = "upsert" then
    return .upsert (← field es "primary") (← field es "secondary") (← field es "value")
  else if kind = "delete" then return .delete (← field es "primary")
  else if kind = "deleteMany" then return .deleteMany (← field es "primaries")
  else if kind = "clear" then return .clear (← field es "count")
  else .error (unknownVariant kind "`upsert`, `delete`, `deleteMany`, `clear`")

instance IndexChange.serde [Serde F K] [Serde F S] [Serde F V] : Serde F (IndexChange K S V) :=
  ⟨IndexChange.serialize, IndexChange.deserialize⟩

@[simp] theorem asObject_tagged (kind : String) (fields : List (String × Value F)) :
    asObject (tagged kind fields) = .ok (("kind", .string kind) :: fields) := rfl

@[simp] theorem tagOf_tagged (kind : String) (fields : List (String × Value F)) :
    tagOf (("kind", .string kind) :: fields) = .ok kind := by
  simp [tagOf]

@[simp] theorem field_head [Serde F T] [LawfulSerde F T] (name : String) (x : T)
    (es : List (String × Value F)) : field ((name, toValue x) :: es) name = .ok x := by
  simp [field]

theorem field_tail [Serde F T] {name other : String} (h : name ≠ other) (v : Value F)
    (es : List (String × Value F)) :
    field (T := T) ((other, v) :: es) name = field es name := by
  have hne : (name == other) = false := by simpa using h
  simp [field, List.lookup_cons, hne]

instance IndexRow.lawfulSerde [Serde F K] [Serde F S] [Serde F V] [LawfulSerde F K]
    [LawfulSerde F S] [LawfulSerde F V] : LawfulSerde F (IndexRow K S V) where
  fromValue_toValue row := by
    change IndexRow.deserialize (F := F) row.serialize = .ok row
    simp [IndexRow.serialize, IndexRow.deserialize, asObject, bind, Except.bind, field_tail, pure,
      Except.pure]

instance ListChange.lawfulSerde [Serde F T] [LawfulSerde F T] : LawfulSerde F (ListChange T) where
  fromValue_toValue change := by
    change ListChange.deserialize (F := F) change.serialize = .ok change
    cases change <;>
      simp [ListChange.serialize, ListChange.deserialize, bind, Except.bind, field_tail, pure,
        Except.pure]

instance LogChange.lawfulSerde [Serde F T] [LawfulSerde F T] : LawfulSerde F (LogChange T) where
  fromValue_toValue change := by
    change LogChange.deserialize (F := F) change.serialize = .ok change
    cases change <;>
      simp [LogChange.serialize, LogChange.deserialize, bind, Except.bind, field_tail, pure,
        Except.pure]

instance MapChange.lawfulSerde [Serde F K] [Serde F V] [LawfulSerde F K] [LawfulSerde F V] :
    LawfulSerde F (MapChange K V) where
  fromValue_toValue change := by
    change MapChange.deserialize (F := F) change.serialize = .ok change
    cases change <;>
      simp [MapChange.serialize, MapChange.deserialize, bind, Except.bind, field_tail, pure,
        Except.pure]

instance IndexChange.lawfulSerde [Serde F K] [Serde F S] [Serde F V] [LawfulSerde F K]
    [LawfulSerde F S] [LawfulSerde F V] : LawfulSerde F (IndexChange K S V) where
  fromValue_toValue change := by
    change IndexChange.deserialize (F := F) change.serialize = .ok change
    cases change <;>
      simp [IndexChange.serialize, IndexChange.deserialize, bind, Except.bind, field_tail, pure,
        Except.pure]

end GraphRefly.Collections
