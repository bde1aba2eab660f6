import GraphRefly.Json.Text
import Mathlib.Data.List.Sort
import Mathlib.Algebra.Group.Int.Defs

/-!
# JSON Values

JSON values as the serializer's library holds them. An object is a list of
entries. What the library guarantees about it is a predicate on the value:
`Distinct` says that no key occurs twice in an object, which is all that a map
promises whatever order it iterates in.

Floating-point numbers are opaque. The encoder asks a float a handful of
questions and prints it; `Float64` names these questions, and no theorem about
values with integer numbers depends on the answers.

## Main definitions

* `Value`: A JSON value.
* `Value.Distinct`: Every object has distinct keys.
* `Value.Same`: Equality of values, with objects compared as maps.
* `Value.nesting`: How deep the containers nest.
* `Value.height`: How deep the value reaches below its root.
* `Value.reorder`: Rearranging the entries of every object.

## Theorems

* `Value.induction`: Induction over a value and all that it contains.
* `Value.sameEntries_iff`: When the entries of one object are all in another.
-/

namespace GraphRefly.Json

/-- What the encoder asks of a floating-point number. -/
class Float64 (F : Type) where
  /-- The library's own rendering. -/
  display : F → String
  /-- The rendering without decimals. -/
  displayInteger : F → String
  isZero : F → Bool
  isFinite : F → Bool
  hasNoFraction : F → Bool
  isSubnormal : F → Bool
  /-- Whether the magnitude is above the largest safe integer. -/
  exceedsSafeInteger : F → Bool

/-- A number of the library: a 64-bit integer or a float. -/
inductive Number (F : Type)
  | int (n : Int)
  | float (x : F)
  deriving DecidableEq

inductive Value (F : Type)
  | null
  | bool (b : Bool)
  | number (n : Number F)
  | string (s : String)
  | array (values : List (Value F))
  | object (entries : List (String × Value F))

namespace Value

variable {F : Type}

theorem induction {P : Value F → Prop} (null : P .null) (bool : ∀ b, P (.bool b))
    (number : ∀ n, P (.number n)) (string : ∀ s, P (.string s))
    (array : ∀ values, (∀ v ∈ values, P v) → P (.array values))
    (object : ∀ entries, (∀ e ∈ entries, P e.2) → P (.object entries)) : ∀ v, P v := by
  refine @Value.rec F P (fun values => ∀ v ∈ values, P v) (fun entries => ∀ e ∈ entries, P e.2)
    (fun e => P e.2) null bool number string array object ?_ ?_ ?_ ?_ (fun _ _ h => h)
  · simp
  · intro head tail hhead htail v hv
    rcases List.mem_cons.mp hv with rfl | hv
    · exact hhead
    · exact htail v hv
  · simp
  · intro head tail hhead htail e he
    rcases List.mem_cons.mp he with rfl | he
    · exact hhead
    · exact htail e he

/-! ### Properties of every part of a value -/

mutual

/-- A property of a value and of everything it contains. -/
def All (p : Value F → Prop) : Value F → Prop
  | .null => p .null
  | .bool b => p (.bool b)
  | .number n => p (.number n)
  | .string s => p (.string s)
  | .array values => p (.array values) ∧ AllValues p values
  | .object entries => p (.object entries) ∧ AllEntries p entries

def AllValues (p : Value F → Prop) : List (Value F) → Prop
  | [] => True
  | v :: vs => All p v ∧ AllValues p vs

def AllEntries (p : Value F → Prop) : List (String × Value F) → Prop
  | [] => True
  | (_, v) :: es => All p v ∧ AllEntries p es

end

section

variable (p : Value F → Prop)

theorem allValues_iff (vs : List (Value F)) :
    AllValues p vs ↔ ∀ v ∈ vs, All p v := by
  induction vs with
  | nil => simp [AllValues]
  | cons v vs ih => simp [AllValues, ih]

theorem allEntries_iff (es : List (String × Value F)) :
    AllEntries p es ↔ ∀ e ∈ es, All p e.2 := by
  induction es with
  | nil => simp [AllEntries]
  | cons e es ih =>
    obtain ⟨k, v⟩ := e
    simp only [AllEntries, ih, List.forall_mem_cons]

@[simp] theorem all_array (vs : List (Value F)) :
    All p (.array vs) ↔ p (.array vs) ∧ ∀ v ∈ vs, All p v := by
  rw [All, allValues_iff]

@[simp] theorem all_object (es : List (String × Value F)) :
    All p (.object es) ↔ p (.object es) ∧ ∀ e ∈ es, All p e.2 := by
  rw [All, allEntries_iff]

end

/-- The keys of an object's entries. -/
def keys (entries : List (String × Value F)) : List String := entries.map (·.1)

/-- Every object has distinct keys. -/
def Distinct : Value F → Prop :=
  All fun
    | .object es => (keys es).Nodup
    | _ => True

/-- Every number is an integer that the library can hold as one. -/
def Integers : Value F → Prop :=
  All fun
    | .number (.int n) => -2 ^ 63 ≤ n ∧ n < 2 ^ 64
    | .number (.float _) => False
    | _ => True

/-! ### Depth -/

mutual

/-- How deep the containers nest: a scalar nests nothing. -/
def nesting : Value F → Nat
  | .null | .bool _ | .number _ | .string _ => 0
  | .array vs => nestingValues vs + 1
  | .object es => nestingEntries es + 1

def nestingValues : List (Value F) → Nat
  | [] => 0
  | v :: vs => max (nesting v) (nestingValues vs)

def nestingEntries : List (String × Value F) → Nat
  | [] => 0
  | (_, v) :: es => max (nesting v) (nestingEntries es)

end

mutual

/-- How deep the value reaches below its root: an empty container reaches no
    deeper than a scalar. -/
def height : Value F → Nat
  | .null | .bool _ | .number _ | .string _ => 0
  | .array vs => heightValues vs
  | .object es => heightEntries es

/-- The height over a list of parts, each one level down. -/
def heightValues : List (Value F) → Nat
  | [] => 0
  | v :: vs => max (height v + 1) (heightValues vs)

def heightEntries : List (String × Value F) → Nat
  | [] => 0
  | (_, v) :: es => max (height v + 1) (heightEntries es)

end

variable {vs : List (Value F)} {k : Nat}

theorem nestingValues_le_iff :
    nestingValues vs ≤ k ↔ ∀ v ∈ vs, nesting v ≤ k := by
  induction vs with
  | nil => simp [nestingValues]
  | cons v vs ih => simp [nestingValues, ih]

variable {es : List (String × Value F)}

theorem nestingEntries_le_iff :
    nestingEntries es ≤ k ↔ ∀ e ∈ es, nesting e.2 ≤ k := by
  induction es with
  | nil => simp [nestingEntries]
  | cons e es ih =>
    obtain ⟨key, v⟩ := e
    simp only [nestingEntries, Nat.max_le, ih, List.forall_mem_cons]

theorem heightValues_le_iff :
    heightValues vs ≤ k ↔ ∀ v ∈ vs, height v + 1 ≤ k := by
  induction vs with
  | nil => simp [heightValues]
  | cons v vs ih => simp [heightValues, ih]

theorem heightEntries_le_iff :
    heightEntries es ≤ k ↔ ∀ e ∈ es, height e.2 + 1 ≤ k := by
  induction es with
  | nil => simp [heightEntries]
  | cons e es ih =>
    obtain ⟨key, v⟩ := e
    simp only [heightEntries, Nat.max_le, ih, List.forall_mem_cons]

/-! ### Equality of values -/

mutual

/-- Equality of values. Two objects are equal when they have as many entries
    and every entry of the first is under its key in the second. -/
def Same : Value F → Value F → Prop
  | .array vs, .array ws => SameValues vs ws
  | .object es, .object fs => es.length = fs.length ∧ SameEntries es fs
  | .null, .null => True
  | .bool b, .bool c => b = c
  | .number m, .number n => m = n
  | .string s, .string t => s = t
  | _, _ => False

def SameValues : List (Value F) → List (Value F) → Prop
  | [], [] => True
  | v :: vs, w :: ws => Same v w ∧ SameValues vs ws
  | _, _ => False

def SameEntries : List (String × Value F) → List (String × Value F) → Prop
  | [], _ => True
  | (k, v) :: es, fs => (∃ w, fs.lookup k = some w ∧ Same v w) ∧ SameEntries es fs

end

theorem sameEntries_iff (es fs : List (String × Value F)) :
    SameEntries es fs ↔ ∀ e ∈ es, ∃ w, fs.lookup e.1 = some w ∧ Same e.2 w := by
  induction es with
  | nil => simp [SameEntries]
  | cons e es ih =>
    obtain ⟨k, v⟩ := e
    simp only [SameEntries, ih, List.forall_mem_cons]

/-! ### Reordering objects -/

mutual

/-- Rearrange the entries of every object, from the inside out. -/
def reorder (f : List (String × Value F) → List (String × Value F)) : Value F → Value F
  | .null => .null
  | .bool b => .bool b
  | .number n => .number n
  | .string s => .string s
  | .array vs => .array (reorderValues f vs)
  | .object es => .object (f (reorderEntries f es))

def reorderValues (f : List (String × Value F) → List (String × Value F)) :
    List (Value F) → List (Value F)
  | [] => []
  | v :: vs => reorder f v :: reorderValues f vs

def reorderEntries (f : List (String × Value F) → List (String × Value F)) :
    List (String × Value F) → List (String × Value F)
  | [] => []
  | (k, v) :: es => (k, reorder f v) :: reorderEntries f es

end

@[simp] theorem reorder_array (f : List (String × Value F) → List (String × Value F))
    (vs : List (Value F)) : reorder f (.array vs) = .array (vs.map (reorder f)) := by
  have hvalues : ∀ vs, reorderValues f vs = vs.map (reorder f) := by
    intro vs
    induction vs with
    | nil => rfl
    | cons v vs ih => simp [reorderValues, ih]
  rw [reorder, hvalues]

@[simp] theorem reorder_object (f : List (String × Value F) → List (String × Value F))
    (es : List (String × Value F)) :
    reorder f (.object es) = .object (f (es.map fun e => (e.1, reorder f e.2))) := by
  have hentries : ∀ es, reorderEntries f es = es.map fun e => (e.1, reorder f e.2) := by
    intro es
    induction es with
    | nil => rfl
    | cons e es ih =>
      obtain ⟨k, v⟩ := e
      simp [reorderEntries, ih]
  rw [reorder, hentries]

end Value

end GraphRefly.Json
