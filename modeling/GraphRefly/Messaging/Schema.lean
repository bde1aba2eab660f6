import GraphRefly.Json.Value
import Mathlib.Data.List.Perm.Subperm

/-!
# JSON Schemas

Checking a value against a schema. A reference leads from a schema to a definition of the root
schema without going down in the value, so a schema may refer to itself. The references followed
at a place of the value are kept, and one that is met again there is an error. At one place there
are at most as many references as definitions, and everything else goes down in the value, so the
check ends.

A place is known by its path, and two places can have one path when a key has dots in it. The
references kept are those of the places above, whose paths are shorter.

## Main definitions

* `validateJsonSchema`: The check, with as much fuel as it is given.
* `Satisfies`: A value satisfies a schema, by a finite derivation.
* `Part`: A schema and a value that a schema and a value have below them.
* `Settles`: Two checks end alike, and well just when a condition holds.

## Theorems

* `inner_settles`: Enough fuel settles whether a value satisfies a schema.
* `json_schema_exact`: The check ends, and succeeds just when there is a derivation.
-/

namespace GraphRefly.Messaging

open List GraphRefly.Json

variable {F : Type}

/-! ### Equality of values -/

mutual

/-- Equality of values, computed. -/
def sameValue [DecidableEq F] : Value F → Value F → Bool
  | .array vs, .array ws => sameItems vs ws
  | .object es, .object fs => es.length == fs.length && sameMembers es fs
  | .null, .null => true
  | .bool b, .bool c => b == c
  | .number m, .number n => m == n
  | .string s, .string t => s == t
  | _, _ => false

def sameItems [DecidableEq F] : List (Value F) → List (Value F) → Bool
  | [], [] => true
  | v :: vs, w :: ws => sameValue v w && sameItems vs ws
  | _, _ => false

def sameMembers [DecidableEq F] : List (String × Value F) → List (String × Value F) → Bool
  | [], _ => true
  | (k, v) :: es, fs => (match fs.lookup k with
    | some w => sameValue v w
    | none => false) && sameMembers es fs

end

theorem sameValue_iff [DecidableEq F] (v w : Value F) : sameValue v w = true ↔ v.Same w := by
  induction v using Value.induction generalizing w with
  | null | bool _ | number _ | string _ => cases w <;> simp [sameValue, Value.Same]
  | array vs ih =>
    have hitems (ws : List (Value F)) : sameItems vs ws = true ↔ Value.SameValues vs ws := by
      induction vs generalizing ws with
      | nil => cases ws <;> simp [sameItems, Value.SameValues]
      | cons v vs ihvs =>
        have htail := ihvs fun u hu => ih u (mem_cons_of_mem v hu)
        cases ws <;> simp [sameItems, Value.SameValues, ih v mem_cons_self, htail]
    cases w <;> simp [sameValue, Value.Same, hitems]
  | object es ih =>
    have hmembers (fs : List (String × Value F)) :
        sameMembers es fs = true ↔ Value.SameEntries es fs := by
      induction es with
      | nil => simp [sameMembers, Value.SameEntries]
      | cons e es ihes =>
        have htail := ihes fun d hd => ih d (mem_cons_of_mem e hd)
        rw [sameMembers, Value.SameEntries, Bool.and_eq_true, htail]
        cases fs.lookup e.1 <;> simp [ih e mem_cons_self]
    cases w <;> simp [sameValue, Value.Same, hmembers]

/-! ### Schemas -/

inductive JsonSchemaType
  | string
  | number
  | integer
  | boolean
  | object
  | array
  | null

inductive JsonSchemaTypeSpec
  | single (expected : JsonSchemaType)
  | anyOf (expected : List JsonSchemaType)

inductive JsonSchemaAdditionalProperties (S : Type)
  | bool (allowed : Bool)
  | schema (schema : S)

inductive JsonSchemaItems (S : Type)
  | schema (schema : S)
  | tuple (schemas : List S)

structure JsonSchema (F : Type) where
  schemaType : Option JsonSchemaTypeSpec := none
  properties : Option (List (String × JsonSchema F)) := none
  required : Option (List String) := none
  additionalProperties : Option (JsonSchemaAdditionalProperties (JsonSchema F)) := none
  items : Option (JsonSchemaItems (JsonSchema F)) := none
  enumValues : Option (List (Value F)) := none
  constValue : Option (Value F) := none
  refPath : Option String := none
  definitions : Option (List (String × JsonSchema F)) := none

structure JsonSchemaValidationError where
  path : String
  message : String

/-! ### The check -/

/-- A check that is out of fuel, fails or succeeds. -/
abbrev Validation := ExceptT JsonSchemaValidationError Option Unit

def demand (condition : Bool) (path message : String) : Validation :=
  if condition then pure () else throw ⟨path, message⟩

/-- The check of something that may be absent. -/
def given {A : Type} (o : Option A) (check : A → Validation) : Validation :=
  match o with
  | some a => check a
  | none => pure ()

def jsonValueMatchesType [Float64 F] : Value F → JsonSchemaType → Bool
  | .string _, .string | .number _, .number | .number (.int _), .integer | .bool _, .boolean
  | .object _, .object | .array _, .array | .null, .null => true
  | .number (.float x), .integer => Float64.isFinite x && Float64.hasNoFraction x
  | _, _ => false

def JsonSchemaType.label : JsonSchemaType → String
  | .string => "string"
  | .number => "number"
  | .integer => "integer"
  | .boolean => "boolean"
  | .object => "object"
  | .array => "array"
  | .null => "null"

def jsonSchemaTypeLabel : JsonSchemaTypeSpec → String
  | .single expected => expected.label
  | .anyOf expected => "|".intercalate (expected.map (·.label))

def jsonValueTypeLabel : Value F → String
  | .null => "null"
  | .bool _ => "boolean"
  | .number _ => "number"
  | .string _ => "string"
  | .array _ => "array"
  | .object _ => "object"

def JsonSchemaTypeSpec.allows [Float64 F] (value : Value F) : JsonSchemaTypeSpec → Bool
  | .single expected => jsonValueMatchesType value expected
  | .anyOf expected => expected.any (jsonValueMatchesType value)

def validateJsonSchemaType [Float64 F] (schemaType : JsonSchemaTypeSpec) (value : Value F)
    (path : String) : Validation :=
  demand (schemaType.allows value) path
    ("expected " ++ jsonSchemaTypeLabel schemaType ++ ", got " ++ jsonValueTypeLabel value)

/-- The name of a definition in a local reference. -/
def definitionName (refPath : String) : Option String :=
  if "#/definitions/".toList.isPrefixOf refPath.toList then
    some (String.ofList (refPath.toList.drop "#/definitions/".length))
  else none

def JsonSchema.definition (root : JsonSchema F) (name : String) : Option (JsonSchema F) :=
  root.definitions.bind (·.lookup name)

section

-- The check of a schema and a value further in.
variable (root : JsonSchema F)
  (inner : JsonSchema F → Value F → String → List (String × String) → Validation)

def validateJsonSchemaRef (refPath : String) (value : Value F) (path : String)
    (refsSeen : List (String × String)) : Validation :=
  match definitionName refPath with
  | none => throw ⟨path, "only local #/definitions refs are supported"⟩
  | some name =>
    if (refPath, path) ∈ refsSeen then throw ⟨path, "cyclic JSON schema ref '" ++ refPath ++ "'"⟩
    else
      match root.definition name with
      | none => throw ⟨path, "unknown JSON schema ref '" ++ refPath ++ "'"⟩
      | some referenced => inner referenced value path ((refPath, path) :: refsSeen)

variable (schema : JsonSchema F)

def validateAdditionalProperties (object : List (String × Value F))
    (properties : List (String × JsonSchema F)) (path : String)
    (refsSeen : List (String × String)) : Validation :=
  given schema.additionalProperties fun additionalProperties =>
    object.forM fun entry =>
      if (properties.lookup entry.1).isSome then pure ()
      else
        match additionalProperties with
        | .bool allowed =>
          demand allowed path ("unexpected additional property '" ++ entry.1 ++ "'")
        | .schema additional => inner additional entry.2 (path ++ "." ++ entry.1) refsSeen

def validateJsonSchemaObject (object : List (String × Value F)) (path : String)
    (refsSeen : List (String × String)) : Validation := do
  given schema.required fun required =>
    required.forM fun key =>
      demand (object.lookup key).isSome path ("missing required property '" ++ key ++ "'")
  (schema.properties.getD []).forM fun property =>
    given (object.lookup property.1) fun value =>
      inner property.2 value (path ++ "." ++ property.1) refsSeen
  validateAdditionalProperties inner schema object (schema.properties.getD []) path refsSeen

def validateJsonSchemaArray (values : List (Value F)) (path : String)
    (refsSeen : List (String × String)) : Validation :=
  given schema.items fun
    | .schema item => values.zipIdx.forM fun entry =>
      inner item entry.1 (path ++ "[" ++ toString entry.2 ++ "]") refsSeen
    | .tuple items => items.zipIdx.forM fun item =>
      given values[item.2]? fun value =>
        inner item.1 value (path ++ "[" ++ toString item.2 ++ "]") refsSeen

/-- What an object or an array contains. -/
def validateJsonSchemaParts (value : Value F) (path : String)
    (refsSeen : List (String × String)) : Validation :=
  match value with
  | .object object => validateJsonSchemaObject inner schema object path refsSeen
  | .array values => validateJsonSchemaArray inner schema values path refsSeen
  | _ => pure ()

end

section

variable [Float64 F] [DecidableEq F]

def validateJsonSchemaInner (root : JsonSchema F) : Nat → JsonSchema F → Value F → String →
    List (String × String) → Validation
  | 0, _, _, _, _ => none
  | fuel + 1, schema, value, path, refsSeen => do
    given schema.refPath fun refPath =>
      validateJsonSchemaRef root (validateJsonSchemaInner root fuel) refPath value path refsSeen
    given schema.constValue fun constValue =>
      demand (sameValue value constValue) path "value does not match const"
    given schema.enumValues fun enumValues =>
      demand (enumValues.any (sameValue · value)) path
        "value is not one of the allowed enum values"
    given schema.schemaType fun schemaType => validateJsonSchemaType schemaType value path
    validateJsonSchemaParts (validateJsonSchemaInner root fuel) schema value path refsSeen

def validateJsonSchema (fuel : Nat) (schema : JsonSchema F) (value : Value F) : Validation :=
  validateJsonSchemaInner schema fuel schema value "$" []

end

/-! ### Derivations -/

/-- The schema `sub` applies to the value `v` right below a schema and a value. -/
inductive Part (schema : JsonSchema F) : Value F → JsonSchema F → Value F → Prop
  | property {entries : List (String × Value F)} {property : String × JsonSchema F} {v : Value F}
      (hmem : property ∈ schema.properties.getD []) (hget : entries.lookup property.1 = some v) :
      Part schema (.object entries) property.2 v
  | additional {entries : List (String × Value F)} {sub : JsonSchema F} {entry : String × Value F}
      (hsub : schema.additionalProperties = some (.schema sub)) (hmem : entry ∈ entries)
      (hother : (schema.properties.getD []).lookup entry.1 = none) :
      Part schema (.object entries) sub entry.2
  | item {values : List (Value F)} {sub : JsonSchema F} {v : Value F}
      (hsub : schema.items = some (.schema sub)) (hmem : v ∈ values) :
      Part schema (.array values) sub v
  | position {values : List (Value F)} {subs : List (JsonSchema F)} {i : Nat}
      {sub : JsonSchema F} {v : Value F} (hsubs : schema.items = some (.tuple subs))
      (hsub : subs[i]? = some sub) (hget : values[i]? = some v) :
      Part schema (.array values) sub v

/-- What a schema asks of a value itself. -/
structure Keeps [Float64 F] (schema : JsonSchema F) (value : Value F) : Prop where
  const : ∀ constValue, schema.constValue = some constValue → value.Same constValue
  enum : ∀ enumValues, schema.enumValues = some enumValues →
    ∃ candidate ∈ enumValues, candidate.Same value
  type : ∀ schemaType, schema.schemaType = some schemaType → schemaType.allows value = true
  required : ∀ entries keys, value = .object entries → schema.required = some keys →
    ∀ key ∈ keys, (entries.lookup key).isSome = true
  closed : ∀ entries, value = .object entries →
    schema.additionalProperties = some (.bool false) →
      ∀ entry ∈ entries, ((schema.properties.getD []).lookup entry.1).isSome = true

mutual

/-- The value satisfies the schema; the references of the list were followed on the way to it
    at this place. -/
inductive Satisfies [Float64 F] (root : JsonSchema F) : List String → JsonSchema F → Value F → Prop
  | intro {seen : List String} {schema : JsonSchema F} {value : Value F}
      (keeps : Keeps schema value)
      (parts : ∀ sub v, Part schema value sub v → Satisfies root [] sub v)
      (refs : ∀ refPath, schema.refPath = some refPath → Resolves root seen refPath value) :
      Satisfies root seen schema value

inductive Resolves [Float64 F] (root : JsonSchema F) : List String → String → Value F → Prop
  | intro {seen : List String} {refPath name : String} {referenced : JsonSchema F}
      {value : Value F} (hname : definitionName refPath = some name) (hnew : refPath ∉ seen)
      (hdef : root.definition name = some referenced)
      (hsat : Satisfies root (refPath :: seen) referenced value) :
      Resolves root seen refPath value

end

/-! ### Two checks that end alike -/

/-- Both checks end, alike, and they succeed just when `P` holds. -/
def Settles (r s : Validation) (P : Prop) : Prop :=
  ∃ result, r.run = some result ∧ s.run = some result ∧ (result = .ok () ↔ P)

namespace Settles

variable {r s r' s' : Validation} {P Q : Prop} {A : Type}

theorem pure (h : P) : Settles (Pure.pure ()) (Pure.pure ()) P :=
  ⟨.ok (), rfl, rfl, by simp [h]⟩

theorem throw {error : JsonSchemaValidationError} (h : ¬ P) :
    Settles (MonadExcept.throw error) (MonadExcept.throw error) P :=
  ⟨.error error, rfl, rfl, by simp [h]⟩

theorem congr (h : Settles r s P) (hiff : P ↔ Q) : Settles r s Q := by
  obtain ⟨result, hr, hs, hP⟩ := h
  exact ⟨result, hr, hs, hP.trans hiff⟩

theorem run_ok (h : r.run = some (.ok ())) : (r >>= fun _ => r').run = r'.run := by
  rw [ExceptT.run_bind, h]
  rfl

theorem run_error {error : JsonSchemaValidationError} (h : r.run = some (.error error)) :
    (r >>= fun _ => r').run = some (.error error) := by
  rw [ExceptT.run_bind, h]
  rfl

theorem bind (h : Settles r s P) (h' : Settles r' s' Q) :
    Settles (r >>= fun _ => r') (s >>= fun _ => s') (P ∧ Q) := by
  obtain ⟨result, hr, hs, hP⟩ := h
  cases result with
  | error e => exact ⟨.error e, run_error hr, run_error hs, by simp [← hP]⟩
  | ok u =>
    obtain ⟨result', hr', hs', hQ⟩ := h'
    refine ⟨result', (run_ok hr).trans hr', (run_ok hs).trans hs', ?_⟩
    rw [hQ, ← hP]
    simp

theorem demand (condition : Bool) (path message : String) :
    Settles (demand condition path message) (Messaging.demand condition path message)
      (condition = true) := by
  cases condition with
  | true => exact Settles.pure rfl
  | false => exact Settles.throw (by simp)

theorem given {o : Option A} {f g : A → Validation} {P : A → Prop}
    (h : ∀ a, o = some a → Settles (f a) (g a) (P a)) :
    Settles (given o f) (Messaging.given o g) (∀ a, o = some a → P a) := by
  cases o with
  | none => exact Settles.pure (by simp)
  | some a => exact (h a rfl).congr (by simp)

theorem forM {l : List A} {f g : A → Validation} {P : A → Prop}
    (h : ∀ a ∈ l, Settles (f a) (g a) (P a)) :
    Settles (l.forM f) (l.forM g) (∀ a ∈ l, P a) := by
  induction l with
  | nil => exact Settles.pure (by simp)
  | cons a l ih =>
    have hhead := h a mem_cons_self
    have htail := ih fun b hb => h b (mem_cons_of_mem a hb)
    exact (hhead.bind htail).congr (by simp)

end Settles

/-! ### The check settles -/

section

variable {schema : JsonSchema F} {path : String} {refs : List (String × String)}
  {f g : JsonSchema F → Value F → String → List (String × String) → Validation}
  {P : JsonSchema F → Value F → Prop}

theorem length_lt_member (path key : String) : path.length < (path ++ "." ++ key).length := by
  simp only [String.length_append]
  change path.length < path.length + 1 + key.length
  omega

theorem length_lt_item (path : String) (i : Nat) :
    path.length < (path ++ "[" ++ toString i ++ "]").length := by
  simp only [String.length_append]
  change path.length < path.length + 1 + (toString i).length + 1
  omega

theorem object_settles {entries : List (String × Value F)}
    (h : ∀ sub v path', Part schema (.object entries) sub v → path.length < path'.length →
      Settles (f sub v path' refs) (g sub v path' refs) (P sub v)) :
    Settles (validateJsonSchemaObject f schema entries path refs)
      (validateJsonSchemaObject g schema entries path refs)
      ((∀ keys, schema.required = some keys → ∀ key ∈ keys, (entries.lookup key).isSome = true) ∧
        (schema.additionalProperties = some (.bool false) → ∀ entry ∈ entries,
          ((schema.properties.getD []).lookup entry.1).isSome = true) ∧
        ∀ sub v, Part schema (.object entries) sub v → P sub v) := by
  have hrequired := Settles.given (o := schema.required) fun keys _ =>
    Settles.forM (l := keys) fun key _ => Settles.demand (entries.lookup key).isSome path
      ("missing required property '" ++ key ++ "'")
  have hproperties := Settles.forM (l := schema.properties.getD []) fun property hmem =>
    Settles.given (o := entries.lookup property.1) fun v hget =>
      h _ v _ (Part.property hmem hget) (length_lt_member path property.1)
  have hadditional : Settles
      (validateAdditionalProperties f schema entries (schema.properties.getD []) path refs)
      (validateAdditionalProperties g schema entries (schema.properties.getD []) path refs)
      ((schema.additionalProperties = some (.bool false) → ∀ entry ∈ entries,
        ((schema.properties.getD []).lookup entry.1).isSome = true) ∧
        ∀ sub, schema.additionalProperties = some (.schema sub) → ∀ entry ∈ entries,
          (schema.properties.getD []).lookup entry.1 = none → P sub entry.2) := by
    unfold validateAdditionalProperties
    cases hadd : schema.additionalProperties with
    | none => exact Settles.pure (by simp)
    | some additional =>
      refine (Settles.forM (P := fun entry => (schema.properties.getD []).lookup entry.1 = none →
        match additional with
        | .bool allowed => allowed = true
        | .schema sub => P sub entry.2) fun entry hmem => ?_).congr ?_
      · cases hget : (schema.properties.getD []).lookup entry.1 with
        | some sub => exact Settles.pure (by simp)
        | none =>
          cases additional with
          | bool allowed => exact (Settles.demand _ _ _).congr (by simp)
          | schema sub =>
            have hsub := h sub entry.2 _ (Part.additional hadd hmem hget)
              (length_lt_member path entry.1)
            exact hsub.congr (by simp)
      · cases additional with
        | bool allowed => cases allowed <;> simp
        | schema sub => simp
  refine (hrequired.bind (hproperties.bind hadditional)).congr ?_
  refine and_congr_right fun _ => ⟨fun hall => ⟨hall.2.1, ?_⟩, fun hall => ⟨?_, hall.1, ?_⟩⟩
  · rintro sub v (⟨hmem, hget⟩ | ⟨hsub, hmem, hother⟩)
    · exact hall.1 _ hmem v hget
    · exact hall.2.2 sub hsub _ hmem hother
  · exact fun property hmem v hget => hall.2 _ _ (Part.property hmem hget)
  · exact fun sub hsub entry hmem hother => hall.2 _ _ (Part.additional hsub hmem hother)

theorem array_settles {values : List (Value F)}
    (h : ∀ sub v path', Part schema (.array values) sub v → path.length < path'.length →
      Settles (f sub v path' refs) (g sub v path' refs) (P sub v)) :
    Settles (validateJsonSchemaArray f schema values path refs)
      (validateJsonSchemaArray g schema values path refs)
      (∀ sub v, Part schema (.array values) sub v → P sub v) := by
  unfold validateJsonSchemaArray
  cases hitems : schema.items with
  | none =>
    refine Settles.pure ?_
    rintro sub v (_ | _ | ⟨hsub, _⟩ | ⟨hsubs, _⟩)
    · simp [hitems] at hsub
    · simp [hitems] at hsubs
  | some items =>
    cases items with
    | schema sub =>
      refine (Settles.forM (P := fun entry => P sub entry.1) fun entry hmem => ?_).congr
        ⟨fun hall => ?_, fun hall entry hmem => ?_⟩
      · exact h sub _ _ (Part.item hitems (fst_mem_of_mem_zipIdx hmem)) (length_lt_item path _)
      · rintro sub' v (_ | _ | ⟨hsub, hmem⟩ | ⟨hsubs, _⟩)
        · obtain rfl : sub = sub' := by simpa [hitems] using hsub
          obtain ⟨i, hi⟩ := mem_iff_getElem?.mp hmem
          exact hall (v, i) (mk_mem_zipIdx_iff_getElem?.mpr hi)
        · simp [hitems] at hsubs
      · exact hall _ _ (Part.item hitems (fst_mem_of_mem_zipIdx hmem))
    | tuple subs =>
      refine (Settles.forM (P := fun item => ∀ v, values[item.2]? = some v → P item.1 v)
        fun item hmem => Settles.given fun v hget => ?_).congr
          ⟨fun hall => ?_, fun hall item hmem v hget => ?_⟩
      · exact h _ v _ (Part.position hitems (mk_mem_zipIdx_iff_getElem?.mp hmem) hget)
          (length_lt_item path _)
      · rintro sub v (_ | _ | ⟨hsub, _⟩ | ⟨hsubs, hsub, hget⟩)
        · simp [hitems] at hsub
        · rw [hitems, Option.some.injEq, JsonSchemaItems.tuple.injEq] at hsubs
          subst hsubs
          exact hall (sub, _) (mk_mem_zipIdx_iff_getElem?.mpr hsub) v hget
      · exact hall _ v (Part.position hitems (mk_mem_zipIdx_iff_getElem?.mp hmem) hget)

theorem parts_settles {value : Value F}
    (h : ∀ sub v path', Part schema value sub v → path.length < path'.length →
      Settles (f sub v path' refs) (g sub v path' refs) (P sub v)) :
    Settles (validateJsonSchemaParts f schema value path refs)
      (validateJsonSchemaParts g schema value path refs)
      ((∀ entries, value = .object entries →
        (∀ keys, schema.required = some keys → ∀ key ∈ keys, (entries.lookup key).isSome = true) ∧
          (schema.additionalProperties = some (.bool false) → ∀ entry ∈ entries,
            ((schema.properties.getD []).lookup entry.1).isSome = true)) ∧
        ∀ sub v, Part schema value sub v → P sub v) := by
  cases value with
  | object entries => exact (object_settles h).congr (by simp [and_assoc])
  | array values => exact (array_settles h).congr (by simp)
  | null | bool _ | number _ | string _ =>
    refine Settles.pure ⟨fun entries heq => ?_, fun sub v hpart => ?_⟩
    · cases heq
    · cases hpart

/-- The references followed at a place. -/
def seenAt (refs : List (String × String)) (path : String) : List String :=
  (refs.filter fun entry => entry.2 = path).map (·.1)

theorem mem_seenAt {refPath : String} : refPath ∈ seenAt refs path ↔ (refPath, path) ∈ refs := by
  simp [seenAt]

theorem seenAt_cons (refPath : String) :
    seenAt ((refPath, path) :: refs) path = refPath :: seenAt refs path := by
  simp [seenAt]

theorem ref_settles {root : JsonSchema F} {refPath : String} {value : Value F}
    (h : ∀ name referenced, definitionName refPath = some name →
      root.definition name = some referenced → refPath ∉ seenAt refs path →
        Settles (f referenced value path ((refPath, path) :: refs))
          (g referenced value path ((refPath, path) :: refs)) (P referenced value)) :
    Settles (validateJsonSchemaRef root f refPath value path refs)
      (validateJsonSchemaRef root g refPath value path refs)
      (∃ name referenced, definitionName refPath = some name ∧
        root.definition name = some referenced ∧ refPath ∉ seenAt refs path ∧
          P referenced value) := by
  unfold validateJsonSchemaRef
  cases hname : definitionName refPath with
  | none => exact Settles.throw (by simp)
  | some name =>
    by_cases hseen : (refPath, path) ∈ refs
    · simp only [if_pos hseen]
      exact Settles.throw (by simp [mem_seenAt, hseen])
    · simp only [if_neg hseen]
      have hnew : refPath ∉ seenAt refs path := fun hmem => hseen (mem_seenAt.mp hmem)
      cases hdef : root.definition name with
      | none => exact Settles.throw (by simp [hdef])
      | some referenced =>
        exact (h name referenced hname hdef hnew).congr (by simp [hdef, hnew])

end

/-! ### Enough fuel -/

theorem Part.height_lt {schema sub : JsonSchema F} {value v : Value F}
    (h : Part schema value sub v) : v.height + 1 ≤ value.height := by
  have hentry {entries : List (String × Value F)} {entry : String × Value F}
      (hmem : entry ∈ entries) : entry.2.height + 1 ≤ (Value.object entries).height :=
    Value.heightEntries_le_iff.mp (Nat.le_refl _) entry hmem
  have hitem {values : List (Value F)} {v : Value F} (hmem : v ∈ values) :
      v.height + 1 ≤ (Value.array values).height :=
    Value.heightValues_le_iff.mp (Nat.le_refl _) v hmem
  cases h with
  | property hmem hget =>
    obtain ⟨before, after, heq, -⟩ := lookup_eq_some_iff.mp hget
    exact hentry (heq ▸ mem_append_right _ mem_cons_self)
  | additional hsub hmem => exact hentry hmem
  | item hsub hmem => exact hitem hmem
  | position hsubs hsub hget => exact hitem (mem_of_getElem? hget)

theorem eq_of_definitionName {refPath name : String} (h : definitionName refPath = some name) :
    refPath = "#/definitions/" ++ name := by
  rw [definitionName] at h
  split_ifs at h with hstart
  obtain ⟨rest, hrest⟩ := List.isPrefixOf_iff_prefix.mp hstart
  obtain rfl := Option.some.inj h
  have hdrop : drop "#/definitions/".length ("#/definitions/".toList ++ rest) = rest :=
    drop_left
  rw [← String.toList_inj, String.toList_append, ← hrest, hdrop]
  exact congrArg ("#/definitions/".toList ++ ·) String.toList_ofList.symm

/-- The references kept lead to the place: those at it are different ones to definitions. -/
structure Leads (root : JsonSchema F) (refs : List (String × String)) (path : String) : Prop where
  above : ∀ entry ∈ refs, entry.2.length ≤ path.length
  nodup : (seenAt refs path).Nodup
  known : ∀ refPath ∈ seenAt refs path, ∃ name referenced, definitionName refPath = some name ∧
    root.definition name = some referenced

namespace Leads

variable {root : JsonSchema F} {refs : List (String × String)} {path : String}

theorem length_le (h : Leads root refs path) :
    (seenAt refs path).length ≤ (root.definitions.getD []).length := by
  have hsub : seenAt refs path ⊆
      (root.definitions.getD []).map fun entry => "#/definitions/" ++ entry.1 := by
    intro refPath hmem
    obtain ⟨name, referenced, hname, hdef⟩ := h.known refPath hmem
    rw [JsonSchema.definition, Option.bind_eq_some_iff] at hdef
    obtain ⟨definitions, hdefs, hget⟩ := hdef
    obtain ⟨before, after, heq, -⟩ := lookup_eq_some_iff.mp hget
    rw [hdefs, eq_of_definitionName hname]
    exact mem_map.mpr ⟨_, heq ▸ mem_append_right _ mem_cons_self, rfl⟩
  simpa using (h.nodup.subperm hsub).length_le

/-- Nothing was followed yet at a place further down. -/
theorem down (h : Leads root refs path) {path' : String} (hlt : path.length < path'.length) :
    seenAt refs path' = [] ∧ Leads root refs path' := by
  have hnil : seenAt refs path' = [] := by
    rw [eq_nil_iff_forall_not_mem]
    intro refPath hmem
    have habove := h.above _ (mem_seenAt.mp hmem)
    exact absurd hlt (Nat.not_lt.mpr habove)
  refine ⟨hnil, fun entry hmem => (h.above entry hmem).trans hlt.le, ?_, ?_⟩
  · rw [hnil]
    exact nodup_nil
  · rw [hnil]
    exact fun refPath hmem => absurd hmem not_mem_nil

theorem follow (h : Leads root refs path) {refPath name : String} {referenced : JsonSchema F}
    (hname : definitionName refPath = some name) (hdef : root.definition name = some referenced)
    (hnew : refPath ∉ seenAt refs path) : Leads root ((refPath, path) :: refs) path := by
  refine ⟨?_, ?_, ?_⟩
  · intro entry hmem
    rcases mem_cons.mp hmem with rfl | hmem
    · exact Nat.le_refl _
    · exact h.above entry hmem
  · rw [seenAt_cons]
    exact nodup_cons.mpr ⟨hnew, h.nodup⟩
  · rw [seenAt_cons]
    intro refPath' hmem
    rcases mem_cons.mp hmem with rfl | hmem
    · exact ⟨name, referenced, hname, hdef⟩
    · exact h.known refPath' hmem

end Leads

/-- How far the check can still go. -/
def cost (root : JsonSchema F) (value : Value F) (seen : List String) : Nat :=
  value.height * ((root.definitions.getD []).length + 1) +
    ((root.definitions.getD []).length - seen.length)

variable [Float64 F] [DecidableEq F]

theorem inner_settles {n m : Nat} {path : String} {refs : List (String × String)}
    (root schema : JsonSchema F) (value : Value F) (hleads : Leads root refs path)
    (hn : cost root value (seenAt refs path) < n) (hm : cost root value (seenAt refs path) < m) :
    Settles (validateJsonSchemaInner root n schema value path refs)
      (validateJsonSchemaInner root m schema value path refs)
      (Satisfies root (seenAt refs path) schema value) := by
  induction n generalizing m schema value path refs with
  | zero => exact absurd hn (Nat.not_lt_zero _)
  | succ n ih =>
    obtain ⟨m, rfl⟩ : ∃ k, m = k + 1 := ⟨m - 1, by omega⟩
    -- Down in the value the references start anew.
    have hpart (sub : JsonSchema F) (v : Value F) (path' : String) (h : Part schema value sub v)
        (hlt : path.length < path'.length) :
        Settles (validateJsonSchemaInner root n sub v path' refs)
          (validateJsonSchemaInner root m sub v path' refs) (Satisfies root [] sub v) := by
      obtain ⟨hnil, hdown⟩ := hleads.down hlt
      have hcost : cost root v [] + 1 ≤ cost root value (seenAt refs path) := by
        have hmul := Nat.mul_le_mul_right ((root.definitions.getD []).length + 1) h.height_lt
        rw [Nat.add_mul, Nat.one_mul] at hmul
        simp only [cost, length_nil]
        omega
      rw [← hnil] at hcost ⊢
      exact ih sub v hdown (by omega) (by omega)
    have href (refPath : String) : Settles
        (validateJsonSchemaRef root (validateJsonSchemaInner root n) refPath value path refs)
        (validateJsonSchemaRef root (validateJsonSchemaInner root m) refPath value path refs)
        (Resolves root (seenAt refs path) refPath value) := by
      refine (ref_settles (P := Satisfies root (refPath :: seenAt refs path))
        fun name referenced hname hdef hnew => ?_).congr ⟨?_, ?_⟩
      · have hfollow := hleads.follow hname hdef hnew
        have hroom := hfollow.length_le
        rw [seenAt_cons, length_cons] at hroom
        have hcost : cost root value (refPath :: seenAt refs path) + 1 ≤
            cost root value (seenAt refs path) := by
          simp only [cost, length_cons]
          omega
        rw [← seenAt_cons] at hcost ⊢
        exact ih referenced value hfollow (by omega) (by omega)
      · rintro ⟨name, referenced, hname, hdef, hnew, hsat⟩
        exact .intro hname hnew hdef hsat
      · rintro ⟨hname, hnew, hdef, hsat⟩
        exact ⟨_, _, hname, hdef, hnew, hsat⟩
    have hrefs := Settles.given (o := schema.refPath) fun refPath _ => href refPath
    have hconst := Settles.given (o := schema.constValue) fun constValue _ =>
      Settles.demand (sameValue value constValue) path "value does not match const"
    have henum := Settles.given (o := schema.enumValues) fun enumValues _ =>
      Settles.demand (enumValues.any (sameValue · value)) path
        "value is not one of the allowed enum values"
    have htype := Settles.given (o := schema.schemaType) fun schemaType _ =>
      Settles.demand (schemaType.allows value) path
        ("expected " ++ jsonSchemaTypeLabel schemaType ++ ", got " ++ jsonValueTypeLabel value)
    rw [validateJsonSchemaInner, validateJsonSchemaInner]
    refine (hrefs.bind (hconst.bind (henum.bind (htype.bind (parts_settles hpart))))).congr ?_
    simp only [sameValue_iff, any_eq_true]
    refine ⟨fun ⟨hrefs, hconst, henum, htype, hobject, hparts⟩ => ?_, ?_⟩
    · exact .intro ⟨hconst, henum, htype, fun entries keys heq => (hobject entries heq).1 keys,
        fun entries heq => (hobject entries heq).2⟩ hparts hrefs
    · rintro ⟨⟨hconst, henum, htype, hrequired, hclosed⟩, hparts, hrefs⟩
      exact ⟨hrefs, hconst, henum, htype,
        fun entries heq => ⟨fun keys => hrequired entries keys heq, hclosed entries heq⟩, hparts⟩

/-- The check ends whatever the references are, and with the same result however much more fuel
    it is given. -/
theorem json_schema_exact (schema : JsonSchema F) (value : Value F) :
    ∃ enough result, (∀ fuel ≥ enough, (validateJsonSchema fuel schema value).run = some result) ∧
      (result = .ok () ↔ Satisfies schema [] schema value) := by
  have hleads : Leads schema [] "$" := ⟨by simp, by simp [seenAt], by simp [seenAt]⟩
  have hsettles (fuel : Nat) (h : cost schema value [] < fuel) :=
    inner_settles schema schema value hleads (Nat.lt_succ_self _) h
  obtain ⟨result, hrun, -, hiff⟩ := hsettles _ (Nat.lt_succ_self _)
  refine ⟨cost schema value [] + 1, result, fun fuel hfuel => ?_, hiff⟩
  obtain ⟨result', hrun', hfuel', -⟩ := hsettles fuel hfuel
  obtain rfl : result = result' := Option.some.inj (hrun.symm.trans hrun')
  exact hfuel'

end GraphRefly.Messaging
