import GraphRefly.Lib.Glob
import GraphRefly.Storage.FileNames

/-!
# The Filters of the File Sources

A path passes when none of the `exclude` patterns matches it and, if there are `include`
patterns, one of these does. The matcher walks the pattern and the value with one index
each. At a star it remembers where both stood; at a mismatch it goes back to the last star
and lets it take one more byte.

Giving up all earlier stars loses nothing: between the last star and the pattern's index
stands a segment without stars that the value has just matched, so a match that stretches an
earlier star contains one that leaves it alone.

## Main definitions

* `Cursor`: The four indices of the walk.
* `wildcardMatch`: The matcher.
* `acceptsPath`, `acceptsGitFile`: The filters.

## Theorems

* `matchLoop_iff`: What is still open at a cursor is what the loop finds.
* `filters_exact`: The matcher decides the words of the pattern, and the filters rest on it.
-/

namespace GraphRefly.Sources

open List Lib Storage

/-- The byte of `*`. -/
def starByte : UInt8 := 42

/-- Where the matcher stands in the pattern and in the value, and where it stood at the last
star. -/
structure Cursor where
  p : Nat
  v : Nat
  star : Option Nat
  starV : Nat
  star_lt : ∀ s, star = some s → s < p
  starV_le : starV ≤ v

namespace Cursor

def initial : Cursor := ⟨0, 0, none, 0, fun _ h => absurd h (by simp), Nat.le_refl 0⟩

/-- The star at the pattern's index is remembered. -/
def atStar (c : Cursor) : Cursor where
  p := c.p + 1
  v := c.v
  star := some c.p
  starV := c.v
  star_lt s hs := by rw [Option.some.injEq] at hs; omega
  starV_le := Nat.le_refl _

/-- One equal byte is passed. -/
def advance (c : Cursor) : Cursor where
  p := c.p + 1
  v := c.v + 1
  star := c.star
  starV := c.starV
  star_lt s hs := Nat.lt_succ_of_lt (c.star_lt s hs)
  starV_le := Nat.le_succ_of_le c.starV_le

/-- The last star, at `s`, takes one more byte. -/
def backtrack (c : Cursor) (s : Nat) : Cursor where
  p := s + 1
  v := c.starV + 1
  star := some s
  starV := c.starV + 1
  star_lt t ht := by rw [Option.some.injEq] at ht; omega
  starV_le := Nat.le_refl _

/-- How many places of the pattern are behind the last star. -/
def rank (c : Cursor) : Nat := c.star.elim 0 (· + 1)

theorem rank_le (c : Cursor) : c.rank ≤ c.p := by
  cases hstar : c.star with
  | none => simp [rank, hstar]
  | some s =>
    have := c.star_lt s hstar
    simp only [rank, hstar, Option.elim_some]
    omega

end Cursor

/-- The loop over the value; the pattern's index at its end, unless a byte is left that nothing
matches. The last star never goes back in the value, nor the remembered star in the pattern. -/
def matchLoop (P V : List UInt8) (c : Cursor) : Option Nat :=
  if hv : c.v < V.length then
    if hp : P[c.p]? = some starByte then matchLoop P V c.atStar
    else if heq : P[c.p]? = some V[c.v] then matchLoop P V c.advance
    else
      match hs : c.star with
      | some s => matchLoop P V (c.backtrack s)
      | none => none
  else some c.p
termination_by (V.length - c.starV, P.length + 1 - c.rank, P.length - c.p)
decreasing_by
  · have hlt := (List.getElem?_eq_some_iff.mp hp).1
    have hrank := c.rank_le
    have hle := c.starV_le
    by_cases hsame : c.starV = c.v
    · have hless : P.length + 1 - c.atStar.rank < P.length + 1 - c.rank := by
        simp only [Cursor.rank, Cursor.atStar, Option.elim_some] at hrank ⊢
        omega
      rw [hsame]
      exact Prod.Lex.right (V.length - c.v) (Prod.Lex.left _ _ hless)
    · refine Prod.Lex.left _ _ ?_
      simp only [Cursor.atStar]
      omega
  · have hlt := (List.getElem?_eq_some_iff.mp heq).1
    have hless : P.length - (c.p + 1) < P.length - c.p := by omega
    exact Prod.Lex.right (V.length - c.starV) (Prod.Lex.right (P.length + 1 - c.rank) hless)
  · have hle := c.starV_le
    refine Prod.Lex.left _ _ ?_
    simp only [Cursor.backtrack]
    omega

/-- Past the stars at an index of the pattern. -/
def skipStars (P : List UInt8) (p : Nat) : Nat :=
  if h : P[p]? = some starByte then skipStars P (p + 1) else p
termination_by P.length - p
decreasing_by
  have hlt := (List.getElem?_eq_some_iff.mp h).1
  omega

/-- Whether a value is a word of a pattern. -/
def wildcardMatch (pattern value : String) : Bool :=
  match matchLoop (stringBytes pattern) (stringBytes value) .initial with
  | some p => skipStars (stringBytes pattern) p == (stringBytes pattern).length
  | none => false

/-! ### The filters -/

/-- A path as text, with the separators of one kind. -/
def normalizePath (path : String) : String := path.replace "\\" "/"

structure FromFsWatchOptions where
  «include» : List String
  exclude : List String

def isExcludedPath (path relative : String) (opts : FromFsWatchOptions) : Bool :=
  let abs := normalizePath path
  let rel := normalizePath relative
  opts.exclude.any fun pattern =>
    wildcardMatch pattern abs || wildcardMatch pattern rel ||
      wildcardMatch pattern (abs ++ "/") ||
      (!rel.isEmpty && wildcardMatch pattern (rel ++ "/"))

def acceptsPath (path relative : String) (opts : FromFsWatchOptions) : Bool :=
  if isExcludedPath path relative opts then false
  else
    let abs := normalizePath path
    let rel := normalizePath relative
    opts.«include».isEmpty ||
      opts.«include».any fun pattern => wildcardMatch pattern abs || wildcardMatch pattern rel

structure FromGitHookOptions where
  «include» : List String
  exclude : List String

def acceptsGitFile (file : String) (opts : FromGitHookOptions) : Bool :=
  let normalized := normalizePath file
  let included := opts.«include».isEmpty ||
    opts.«include».any fun pattern => wildcardMatch pattern normalized
  included && !opts.exclude.any fun pattern => wildcardMatch pattern normalized

/-! ### The loop -/

variable {P V : List UInt8} {c : Cursor}

theorem skipStars_eq_length (p : Nat) (hp : p ≤ P.length) :
    skipStars P p = P.length ↔ Glob starByte (P.drop p) [] := by
  fun_induction skipStars P p with
  | case1 p h ih =>
    obtain ⟨hlt, hstar⟩ := List.getElem?_eq_some_iff.mp h
    rw [ih hlt, drop_eq_getElem_cons hlt, hstar, glob_nil, glob_nil]
    simp
  | case2 p h =>
    constructor
    · intro heq
      rw [heq, drop_length]
      exact .nil
    · intro hglob
      by_contra hne
      have hlt : p < P.length := by omega
      rw [drop_eq_getElem_cons hlt, glob_nil, forall_mem_cons] at hglob
      exact h (List.getElem?_eq_some_iff.mpr ⟨hlt, hglob.1⟩)

/-- Since the last star the pattern and the value have had one segment without stars. -/
def Cursor.Matched (P V : List UInt8) (c : Cursor) : Prop :=
  c.p ≤ P.length ∧ c.v ≤ V.length ∧ ∀ s, c.star = some s → ∃ segment, starByte ∉ segment ∧
    P.drop (s + 1) = segment ++ P.drop c.p ∧ V.drop c.starV = segment ++ V.drop c.v

/-- What a cursor can still find: the rest of the value, or more for the last star. -/
def Cursor.Open (P V : List UInt8) (c : Cursor) : Prop :=
  Glob starByte (P.drop c.p) (V.drop c.v) ∨ ∃ s, c.star = some s ∧
    ∃ k, c.starV < k ∧ k ≤ V.length ∧ Glob starByte (P.drop (s + 1)) (V.drop k)

theorem glob_star_drop {p : List UInt8} {v : Nat} (hv : v ≤ V.length) :
    Glob starByte (starByte :: p) (V.drop v) ↔
      Glob starByte p (V.drop v) ∨
        ∃ k, v < k ∧ k ≤ V.length ∧ Glob starByte p (V.drop k) := by
  rw [glob_star]
  constructor
  · rintro ⟨rest, hrest, hglob⟩
    have hle : rest.length ≤ V.length - v := by simpa using hrest.length_le
    have hdrop : rest = V.drop (V.length - rest.length) := by
      obtain ⟨filling, hfill⟩ := hrest.trans (drop_suffix v V)
      rw [← hfill, length_append, Nat.add_sub_cancel, drop_left]
    by_cases hsame : rest.length = V.length - v
    · left
      rwa [hdrop, hsame, Nat.sub_sub_self hv] at hglob
    · exact Or.inr ⟨V.length - rest.length, by omega, by omega, by rwa [← hdrop]⟩
  · rintro (hglob | ⟨k, hlt, hk, hglob⟩)
    · exact ⟨_, suffix_refl _, hglob⟩
    · refine ⟨V.drop k, ?_, hglob⟩
      have hsplit : k = v + (k - v) := by omega
      rw [hsplit, ← drop_drop]
      exact drop_suffix _ _

theorem Cursor.Matched.atStar (h : c.Matched P V) (hp : P[c.p]? = some starByte) :
    c.atStar.Matched P V := by
  refine ⟨(List.getElem?_eq_some_iff.mp hp).1, h.2.1, fun s hs => ⟨[], by simp, ?_, by rfl⟩⟩
  rw [Cursor.atStar, Option.some.injEq] at hs
  rw [← hs]
  rfl

theorem Cursor.Matched.advance (h : c.Matched P V) (hv : c.v < V.length)
    (hp : P[c.p]? ≠ some starByte) (heq : P[c.p]? = some V[c.v]) : c.advance.Matched P V := by
  obtain ⟨hlt, hbyte⟩ := List.getElem?_eq_some_iff.mp heq
  refine ⟨hlt, hv, fun s hs => ?_⟩
  obtain ⟨segment, hfree, hpattern, hvalue⟩ := h.2.2 s hs
  refine ⟨segment ++ [V[c.v]], ?_, ?_, ?_⟩
  · have hother : starByte ≠ V[c.v] := fun hstar => hp (by rw [heq, hstar])
    simp [hfree, hother]
  · rw [hpattern, drop_eq_getElem_cons hlt, hbyte, append_assoc]
    rfl
  · change V.drop c.starV = _
    rw [hvalue, drop_eq_getElem_cons hv, append_assoc]
    rfl

theorem Cursor.Matched.backtrack (h : c.Matched P V) (hv : c.v < V.length) {s : Nat}
    (hs : c.star = some s) : (c.backtrack s).Matched P V := by
  have hle := c.starV_le
  have hlt := c.star_lt s hs
  have hp := h.1
  refine ⟨by change s + 1 ≤ _; omega, by change c.starV + 1 ≤ _; omega, fun t ht => ?_⟩
  rw [Cursor.backtrack, Option.some.injEq] at ht
  exact ⟨[], by simp, by rw [← ht]; rfl, rfl⟩

theorem Cursor.Matched.stretched (h : c.Matched P V) {s k : Nat} (hs : c.star = some s)
    (hk : c.starV < k) (hkV : k ≤ V.length)
    (hglob : Glob starByte (P.drop (s + 1)) (V.drop k)) :
    ∃ j, c.v < j ∧ j ≤ V.length ∧ Glob starByte (P.drop c.p) (V.drop j) := by
  obtain ⟨segment, hfree, hpattern, hvalue⟩ := h.2.2 s hs
  rw [hpattern, glob_literal hfree] at hglob
  obtain ⟨rest, hrest, hglob⟩ := hglob
  have hvlen := congrArg List.length hvalue
  have hrlen := congrArg List.length hrest
  have hv := h.2.1
  have hle := c.starV_le
  simp only [length_append, length_drop] at hvlen hrlen
  refine ⟨k + segment.length, by omega, by omega, ?_⟩
  rwa [← drop_drop, hrest, drop_left]

theorem Cursor.Matched.open_atStar (h : c.Matched P V) (hp : P[c.p]? = some starByte) :
    c.Open P V ↔ c.atStar.Open P V := by
  obtain ⟨hlt, hstar⟩ := List.getElem?_eq_some_iff.mp hp
  have hdrop : P.drop c.p = starByte :: P.drop (c.p + 1) := by
    rw [drop_eq_getElem_cons hlt, hstar]
  have hhere : Glob starByte (P.drop c.p) (V.drop c.v) ↔ c.atStar.Open P V := by
    rw [hdrop, glob_star_drop h.2.1]
    simp [Cursor.Open, Cursor.atStar]
  rw [← hhere]
  constructor
  · rintro (hglob | ⟨s, hs, k, hk, hkV, hglob⟩)
    · exact hglob
    · -- the star met now takes what an earlier one would have taken
      obtain ⟨j, hj, hjV, hglob⟩ := h.stretched hs hk hkV hglob
      have hsplit : j = c.v + (j - c.v) := by omega
      rw [hdrop] at hglob ⊢
      refine hglob.of_suffix ?_
      rw [hsplit, ← drop_drop]
      exact drop_suffix _ _
  · exact Or.inl

theorem Cursor.open_advance (hv : c.v < V.length) (hp : P[c.p]? ≠ some starByte)
    (heq : P[c.p]? = some V[c.v]) : c.Open P V ↔ c.advance.Open P V := by
  obtain ⟨hlt, hbyte⟩ := List.getElem?_eq_some_iff.mp heq
  have hother : V[c.v] ≠ starByte := fun hstar => hp (by rw [heq, hstar])
  have hhere : Glob starByte (P.drop c.p) (V.drop c.v) ↔
      Glob starByte (P.drop (c.p + 1)) (V.drop (c.v + 1)) := by
    rw [drop_eq_getElem_cons hlt, drop_eq_getElem_cons hv, hbyte, glob_letter hother]
    constructor
    · rintro ⟨rest, heq, hglob⟩
      rwa [(List.cons.inj heq).2]
    · exact fun hglob => ⟨_, rfl, hglob⟩
  exact or_congr_left hhere

theorem Cursor.not_glob_here (hv : c.v < V.length) (hp : P[c.p]? ≠ some starByte)
    (hne : P[c.p]? ≠ some V[c.v]) : ¬Glob starByte (P.drop c.p) (V.drop c.v) := by
  refine not_glob_of_head ?_ ?_ ?_
  · rwa [List.head?_drop]
  · rw [Ne, drop_eq_nil_iff]
    omega
  · rwa [List.head?_drop, List.head?_drop, List.getElem?_eq_getElem hv]

theorem Cursor.open_backtrack {s : Nat} (hs : c.star = some s)
    (hv : c.v < V.length) (hhere : ¬Glob starByte (P.drop c.p) (V.drop c.v)) :
    c.Open P V ↔ (c.backtrack s).Open P V := by
  have hle := c.starV_le
  simp only [Cursor.Open, hhere, false_or, Cursor.backtrack, hs, Option.some.injEq,
    exists_eq_left']
  constructor
  · rintro ⟨k, hk, hkV, hglob⟩
    by_cases hsame : k = c.starV + 1
    · exact Or.inl (hsame ▸ hglob)
    · exact Or.inr ⟨k, by omega, hkV, hglob⟩
  · rintro (hglob | ⟨k, hk, hkV, hglob⟩)
    · exact ⟨_, Nat.lt_succ_self _, by omega, hglob⟩
    · exact ⟨k, by omega, hkV, hglob⟩

/-- The loop ends where the rest of the pattern is stars exactly when something was open. -/
theorem matchLoop_iff (h : c.Matched P V) :
    (∃ p, matchLoop P V c = some p ∧ p ≤ P.length ∧ Glob starByte (P.drop p) []) ↔
      c.Open P V := by
  fun_induction matchLoop P V c with
  | case1 c hv hp ih => rw [ih (h.atStar hp), h.open_atStar hp]
  | case2 c hv hp heq ih => rw [ih (h.advance hv hp heq), Cursor.open_advance hv hp heq]
  | case3 c hv hp hne s hs ih =>
    rw [ih (h.backtrack hv hs),
      Cursor.open_backtrack hs hv (Cursor.not_glob_here hv hp hne)]
  | case4 c hv hp hne hs =>
    have hhere := Cursor.not_glob_here hv hp hne
    simp [Cursor.Open, hhere, hs]
  | case5 c hv =>
    have hend : c.v = V.length := by
      have := h.2.1
      omega
    have hhere : (∃ p, some c.p = some p ∧ p ≤ P.length ∧ Glob starByte (P.drop p) []) ↔
        Glob starByte (P.drop c.p) (V.drop c.v) := by
      simp [hend, h.1]
    rw [hhere]
    constructor
    · exact Or.inl
    · rintro (hglob | ⟨s, hs, k, hk, hkV, hglob⟩)
      · exact hglob
      · obtain ⟨j, hj, hjV, -⟩ := h.stretched hs hk hkV hglob
        omega

theorem wildcardMatch_iff (pattern value : String) :
    wildcardMatch pattern value = true ↔
      Glob starByte (stringBytes pattern) (stringBytes value) := by
  have hmatched : Cursor.initial.Matched (stringBytes pattern) (stringBytes value) :=
    ⟨Nat.zero_le _, Nat.zero_le _, fun s hs => absurd hs (by simp [Cursor.initial])⟩
  have hopen : Cursor.initial.Open (stringBytes pattern) (stringBytes value) ↔
      Glob starByte (stringBytes pattern) (stringBytes value) := by
    simp [Cursor.Open, Cursor.initial]
  rw [← hopen, ← matchLoop_iff hmatched, wildcardMatch]
  cases matchLoop (stringBytes pattern) (stringBytes value) .initial with
  | none => simp
  | some p =>
    by_cases hp : p ≤ (stringBytes pattern).length
    · simp [skipStars_eq_length p hp, hp]
    · have hout : skipStars (stringBytes pattern) p = p := by
        rw [skipStars, dif_neg]
        rw [List.getElem?_eq_none (by omega)]
        simp
      have hne : p ≠ (stringBytes pattern).length := by omega
      simp [hout, hne, hp]

/-- The matcher decides the words of the pattern, and a path passes a filter exactly when no
pattern to exclude has it and, if there are patterns to include, one of these has it. -/
theorem filters_exact (pattern value path relative file : String) (fs : FromFsWatchOptions)
    (git : FromGitHookOptions) :
    (wildcardMatch pattern value = true ↔
      Glob starByte (stringBytes pattern) (stringBytes value)) ∧
    (acceptsPath path relative fs = true ↔
      (∀ e ∈ fs.exclude, ∀ text ∈ [normalizePath path, normalizePath relative,
          normalizePath path ++ "/"] ++
          (if normalizePath relative = "" then [] else [normalizePath relative ++ "/"]),
        ¬Glob starByte (stringBytes e) (stringBytes text)) ∧
      (fs.«include» = [] ∨ ∃ i ∈ fs.«include», ∃ text ∈ [normalizePath path, normalizePath relative],
        Glob starByte (stringBytes i) (stringBytes text))) ∧
    (acceptsGitFile file git = true ↔
      (∀ e ∈ git.exclude,
        ¬Glob starByte (stringBytes e) (stringBytes (normalizePath file))) ∧
      (git.«include» = [] ∨ ∃ i ∈ git.«include»,
        Glob starByte (stringBytes i) (stringBytes (normalizePath file)))) := by
  refine ⟨wildcardMatch_iff pattern value, ?_, ?_⟩
  · rw [acceptsPath, isExcludedPath]
    by_cases hempty : normalizePath relative = ""
    · simp +contextual [hempty, wildcardMatch_iff, and_assoc]
    · simp +contextual [hempty, wildcardMatch_iff, and_assoc]
  · rw [acceptsGitFile, and_comm]
    simp [wildcardMatch_iff]

end GraphRefly.Sources
