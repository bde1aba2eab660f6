import GraphRefly.Json.Value

/-!
# Reading JSON Values

The accessors a program reads an untyped value with. Each is none where the value is
not of the kind that is asked for.

## Main definitions

* `Value.get`, `asU64`, `asStr`, `asArray`: The accessors.
* `Value.ofNat`, `Value.ofStrings`: What they read back.
-/

namespace GraphRefly.Json.Value

variable {F : Type}

/-- The entry of an object under a key. -/
def get : Value F → String → Option (Value F)
  | .object entries, key => entries.lookup key
  | _, _ => none

def asU64 : Value F → Option Nat
  | .number (.int n) => if 0 ≤ n then some n.toNat else none
  | _ => none

def asStr : Value F → Option String
  | .string s => some s
  | _ => none

def asArray : Value F → Option (List (Value F))
  | .array values => some values
  | _ => none

/-- An unsigned number as a value. -/
def ofNat (n : Nat) : Value F := .number (.int n)

section

variable (items : List String)

/-- A list of strings as a value. -/
def ofStrings : Value F := .array (items.map .string)

@[simp] theorem asU64_ofNat (n : Nat) : (ofNat n : Value F).asU64 = some n := by
  simp [ofNat, asU64]

@[simp] theorem filterMap_asStr : (items.map Value.string).filterMap (asStr (F := F)) = items := by
  induction items with
  | nil => rfl
  | cons item items ih => rw [List.map_cons, List.filterMap_cons, ih]; rfl

@[simp] theorem mapM_asStr : (items.map Value.string).mapM (asStr (F := F)) = some items := by
  induction items with
  | nil => rfl
  | cons item items ih =>
    rw [List.map_cons, List.mapM_cons, ih]
    rfl

end

end GraphRefly.Json.Value
