import Mathlib.Data.Finset.Max
import Mathlib.Data.List.TakeWhile
import Mathlib.Order.Interval.Finset.Nat
import GraphRefly.Sources.Calendar

/-!
# Cron Expressions

A cron expression has five fields, for the minute, the hour, the day of the month, the month
and the day of the week. A field lists ranges with steps, and stands for a set of numbers. The
parser splits the text at blanks, commas, slashes and dashes and checks every piece; the
grammar here says the same of texts put together from their pieces.

## Main definitions

* `parseCron`, `matchesCron`: The parser, and whether an instant is in a schedule.
* `PartText`, `FieldText`, `CronText`: The grammar and what it stands for.
* `CronSchedule.Fires`: The instants of a schedule.

## Theorems

* `insertSteps_iff`: The numbers of one part.
* `cronPart_ok`, `parseCronField_ok`: Parts and fields are accepted by the grammar.
* `splitWhitespace_iff`: The fields of a text.
* `parse_cron_exact`: The parser accepts the grammar, and the instants are those it stands for.
-/

namespace GraphRefly.Sources

open List

/-! ### The parser -/

/-- A whole number in decimal digits that is a `u8`. -/
def parseCronInt (text : List Char) (message : String) : Except String Nat :=
  if text.isEmpty || !text.all Char.isDigit then .error message
  else if Nat.ofDigitChars 10 text 0 ≤ 255 then .ok (Nat.ofDigitChars 10 text 0)
  else .error message

/-- The range and the step of a part. -/
def cronStep (part : List Char) : Except String (List Char × Nat) :=
  let message := "Invalid cron step: " ++ String.ofList part
  match part.splitOn '/' with
  | [range] => if range.isEmpty then .error message else .ok (range, 1)
  | [range, step] =>
    if range.isEmpty || step.isEmpty then .error message
    else (parseCronInt step message).map fun k => (range, k)
  | _ => .error message

/-- The first and the last number of a range. -/
def cronRange (field range : List Char) (min max : Nat) : Except String (Nat × Nat) :=
  let message := "Invalid cron field: " ++ String.ofList field
  if range = ['*'] then .ok (min, max)
  else if range.contains '-' then
    match range.splitOn '-' with
    | [first, last] =>
      if first.isEmpty || last.isEmpty then .error message
      else (parseCronInt first message).bind fun start =>
        (parseCronInt last message).map fun stop => (start, stop)
    | _ => .error message
  else (parseCronInt range message).map fun value => (value, value)

/-- A part with its numbers; the step is not zero. -/
structure CronPart where
  start : Nat
  stop : Nat
  step : Nat
  step_pos : 1 ≤ step

def cronPart (field part : List Char) (min max : Nat) : Except String CronPart :=
  if part.isEmpty then .error ("Invalid cron field: " ++ String.ofList field)
  else
    (cronStep part).bind fun rangeStep =>
      if hstep : 1 ≤ rangeStep.2 then
        (cronRange field rangeStep.1 min max).bind fun bounds =>
          if bounds.1 < min ∨ max < bounds.2 then
            .error ("Cron field out of range: " ++ String.ofList field ++ " (" ++ toString min ++
              "-" ++ toString max ++ ")")
          else if bounds.2 < bounds.1 then
            .error ("Invalid cron range: " ++ toString bounds.1 ++ "-" ++ toString bounds.2 ++
              " in " ++ String.ofList field)
          else .ok ⟨bounds.1, bounds.2, rangeStep.2, hstep⟩
      else .error ("Invalid cron step: " ++ String.ofList part)

/-- Every step from a value to the last one, until the value would pass the largest `u8`. -/
def insertSteps (stop step : Nat) (hstep : 1 ≤ step) (value : Nat) (out : Finset Nat) :
    Finset Nat :=
  if value ≤ stop then
    if value + step ≤ 255 then insertSteps stop step hstep (value + step) (insert value out)
    else insert value out
  else out
termination_by stop + 1 - value

def parseCronField (field : List Char) (min max : Nat) : Except String (Finset Nat) :=
  if field.isEmpty then .error "Invalid cron field: empty"
  else
    (field.splitOn ',').foldlM (fun out part =>
      (cronPart field part min max).map fun p =>
        insertSteps p.stop p.step p.step_pos p.start out) ∅

/-- The blanks of Unicode. -/
def isWhitespace (c : Char) : Bool :=
  (9 ≤ c.toNat && c.toNat ≤ 13) || c.toNat == 0x20 || c.toNat == 0x85 || c.toNat == 0xa0 ||
    c.toNat == 0x1680 || (0x2000 ≤ c.toNat && c.toNat ≤ 0x200a) || c.toNat == 0x2028 ||
    c.toNat == 0x2029 || c.toNat == 0x202f || c.toNat == 0x205f || c.toNat == 0x3000

def splitWhitespace (text : List Char) : List (List Char) :=
  (text.splitOnP isWhitespace).filter (!·.isEmpty)

structure CronSchedule where
  minutes : Finset Nat
  hours : Finset Nat
  daysOfMonth : Finset Nat
  months : Finset Nat
  daysOfWeek : Finset Nat

def parseCron (expr : String) : Except String CronSchedule :=
  match splitWhitespace expr.toList with
  | [f₀, f₁, f₂, f₃, f₄] =>
    (parseCronField f₀ 0 59).bind fun minutes =>
    (parseCronField f₁ 0 23).bind fun hours =>
    (parseCronField f₂ 1 31).bind fun daysOfMonth =>
    (parseCronField f₃ 1 12).bind fun months =>
    (parseCronField f₄ 0 6).map fun daysOfWeek =>
      ⟨minutes, hours, daysOfMonth, months, daysOfWeek⟩
  | parts => .error ("Invalid cron: expected 5 fields, got " ++ toString parts.length)

/-- Whether a set is all of a range, by its size and its ends. -/
def isFullRange (values : Finset Nat) (min max : Nat) : Bool :=
  values.card == max - min + 1 && decide (values.min = (min : WithTop Nat)) &&
    decide (values.max = (max : WithBot Nat))

def matchesCron (schedule : CronSchedule) (instant : CronInstant) : Bool :=
  let dayOfMonthMatches := decide (instant.dayOfMonth ∈ schedule.daysOfMonth)
  let dayOfWeekMatches := decide (instant.dayOfWeek ∈ schedule.daysOfWeek)
  let dayOfMonthRestricted := !isFullRange schedule.daysOfMonth 1 31
  let dayOfWeekRestricted := !isFullRange schedule.daysOfWeek 0 6
  let dayMatches :=
    if dayOfMonthRestricted && dayOfWeekRestricted then dayOfMonthMatches || dayOfWeekMatches
    else dayOfMonthMatches && dayOfWeekMatches
  decide (instant.minute ∈ schedule.minutes) && decide (instant.hour ∈ schedule.hours) &&
    decide (instant.month ∈ schedule.months) && dayMatches

/-! ### The grammar -/

/-- A whole number in decimal digits. -/
def Numeral (text : List Char) (n : Nat) : Prop :=
  text ≠ [] ∧ (∀ c ∈ text, c.isDigit = true) ∧ Nat.ofDigitChars 10 text 0 = n

/-- `*`, a number, or two numbers with a dash between them. -/
inductive RangeText (min max : Nat) : List Char → Nat → Nat → Prop
  | all : RangeText min max ['*'] min max
  | single {text : List Char} {n : Nat} : Numeral text n → RangeText min max text n n
  | between {first last : List Char} {a b : Nat} : Numeral first a → Numeral last b →
      RangeText min max (first ++ '-' :: last) a b

/-- A range, alone or with a slash and a step. -/
inductive PartText (min max : Nat) : List Char → Nat → Nat → Nat → Prop
  | plain {text : List Char} {a b : Nat} : RangeText min max text a b →
      PartText min max text a b 1
  | stepped {text step : List Char} {a b k : Nat} : RangeText min max text a b →
      Numeral step k → 1 ≤ k → k ≤ 255 → PartText min max (text ++ '/' :: step) a b k

/-- A part whose numbers are in order and within the field's range. -/
def InRange (min max : Nat) (part : List Char) (a b k : Nat) : Prop :=
  PartText min max part a b k ∧ min ≤ a ∧ a ≤ b ∧ b ≤ max

/-- Parts with commas between them, and the numbers they stand for. -/
def FieldText (min max : Nat) (field : List Char) (values : Finset Nat) : Prop :=
  ∃ parts, parts ≠ [] ∧ field = [','].intercalate parts ∧
    (∀ part ∈ parts, ∃ a b k, InRange min max part a b k) ∧
    ∀ v, v ∈ values ↔ ∃ part ∈ parts, ∃ a b k, InRange min max part a b k ∧
      ∃ i, v = a + i * k ∧ v ≤ b

/-- Words with blanks around them. -/
inductive Words : List Char → List (List Char) → Prop
  | nil {blanks : List Char} : (∀ c ∈ blanks, isWhitespace c = true) → Words blanks []
  | cons {blanks word rest : List Char} {words : List (List Char)} :
      (∀ c ∈ blanks, isWhitespace c = true) → word ≠ [] →
      (∀ c ∈ word, isWhitespace c = false) → (∀ c, rest.head? = some c → isWhitespace c = true) →
      Words rest words → Words (blanks ++ word ++ rest) (word :: words)

/-- The expression is five fields, and the schedule is what they stand for. -/
def CronText (expr : String) (schedule : CronSchedule) : Prop :=
  ∃ f₀ f₁ f₂ f₃ f₄, Words expr.toList [f₀, f₁, f₂, f₃, f₄] ∧
    FieldText 0 59 f₀ schedule.minutes ∧ FieldText 0 23 f₁ schedule.hours ∧
    FieldText 1 31 f₂ schedule.daysOfMonth ∧ FieldText 1 12 f₃ schedule.months ∧
    FieldText 0 6 f₄ schedule.daysOfWeek

/-- Where both day fields leave something out, one of them is enough. -/
def CronSchedule.Fires (schedule : CronSchedule) (instant : CronInstant) : Prop :=
  instant.minute ∈ schedule.minutes ∧ instant.hour ∈ schedule.hours ∧
    instant.month ∈ schedule.months ∧
    ((schedule.daysOfMonth ⊂ Finset.Icc 1 31 ∧ schedule.daysOfWeek ⊂ Finset.Icc 0 6 ∧
        (instant.dayOfMonth ∈ schedule.daysOfMonth ∨ instant.dayOfWeek ∈ schedule.daysOfWeek)) ∨
      (¬(schedule.daysOfMonth ⊂ Finset.Icc 1 31 ∧ schedule.daysOfWeek ⊂ Finset.Icc 0 6) ∧
        instant.dayOfMonth ∈ schedule.daysOfMonth ∧ instant.dayOfWeek ∈ schedule.daysOfWeek))

/-! ### Numbers, ranges and steps -/

variable {text : List Char}

variable {n : Nat}

theorem parseCronInt_ok {message : String} :
    parseCronInt text message = .ok n ↔ Numeral text n ∧ n ≤ 255 := by
  unfold parseCronInt Numeral
  by_cases hempty : text = []
  · simp [hempty]
  · by_cases hdigits : ∀ c ∈ text, c.isDigit = true
    · have hall : text.all Char.isDigit = true := all_eq_true.mpr hdigits
      by_cases hbound : Nat.ofDigitChars 10 text 0 ≤ 255
      · simp [hempty, hall, hbound]
        grind
      · simp [hempty, hall, hbound]
        grind
    · have hall : text.all Char.isDigit = false := by
        rw [← Bool.not_eq_true, all_eq_true]
        exact hdigits
      simp [hempty, hall, hdigits]

variable {c : Char}

theorem Numeral.not_mem (h : Numeral text n) (hc : c.isDigit = false) : c ∉ text := fun hmem => by
  rw [h.2.1 c hmem] at hc
  cases hc

variable {min max a b : Nat}

theorem RangeText.ne_nil (h : RangeText min max text a b) : text ≠ [] := by
  cases h with
  | all => simp
  | single h => exact h.1
  | between => simp

/-- No separator of fields, of parts or of steps is in a range. -/
theorem RangeText.not_mem
    (h : RangeText min max text a b) (hc : c.isDigit = false) (hstar : c ≠ '*')
    (hdash : c ≠ '-') : c ∉ text := by
  cases h with
  | all => simpa using hstar
  | single h => exact h.not_mem hc
  | between h h' => simp [h.not_mem hc, h'.not_mem hc, hdash]

variable {sep : Char} {first last : List Char}

theorem splitOn_pair (hfirst : sep ∉ first)
    (hlast : sep ∉ last) : (first ++ sep :: last).splitOn sep = [first, last] := by
  rw [splitOn_append_cons_self_of_not_mem hfirst, splitOn_eq_singleton hlast]

/-- A text is split in two exactly when it is put together so. -/
theorem splitOn_eq_pair (h : text.splitOn sep = [first, last]) : text = first ++ sep :: last := by
  have hjoin : [sep].intercalate (text.splitOn sep) = text := intercalate_splitOn sep
  rw [h] at hjoin
  simpa [List.intercalate_cons_cons] using hjoin.symm

variable {field : List Char}

variable {range : List Char}

theorem cronRange_ok :
    cronRange field range min max = .ok (a, b) ↔
      RangeText min max range a b ∧ (range ≠ ['*'] → a ≤ 255 ∧ b ≤ 255) := by
  unfold cronRange
  by_cases hall : range = ['*']
  · rw [if_pos hall, Except.ok.injEq, Prod.mk.injEq]
    constructor
    · rintro ⟨rfl, rfl⟩
      exact ⟨hall ▸ .all, fun h => absurd hall h⟩
    · rintro ⟨hrange, -⟩
      rw [hall] at hrange
      generalize htext : ['*'] = text at hrange
      cases hrange with
      | all => exact ⟨rfl, rfl⟩
      | single h => exact absurd (h.2.1 '*' (by simp [← htext])) (by decide)
      | between h h' => simp [singleton_eq_append_iff] at htext
  · rw [if_neg hall]
    by_cases hdash : '-' ∈ range
    · rw [if_pos (by simpa using hdash)]
      constructor
      · intro hok
        split at hok
        · rename_i first last hsplit
          split_ifs at hok
          cases hfirst : parseCronInt first ("Invalid cron field: " ++ String.ofList field) with
          | error e => simp [hfirst, Except.bind] at hok
          | ok n =>
            cases hlast : parseCronInt last ("Invalid cron field: " ++ String.ofList field) with
            | error e => simp [hfirst, hlast, Except.bind, Except.map] at hok
            | ok m =>
              simp only [hfirst, hlast, Except.bind, Except.map, Except.ok.injEq,
                Prod.mk.injEq] at hok
              obtain ⟨rfl, rfl⟩ := hok
              rw [parseCronInt_ok] at hfirst hlast
              rw [splitOn_eq_pair hsplit]
              exact ⟨.between hfirst.1 hlast.1, fun _ => ⟨hfirst.2, hlast.2⟩⟩
        · cases hok
      · rintro ⟨hrange, hbound⟩
        cases hrange with
        | all => exact absurd rfl hall
        | single h => exact absurd hdash (h.not_mem (by decide))
        | between h h' =>
          have hle := hbound hall
          rw [splitOn_pair (h.not_mem (by decide)) (h'.not_mem (by decide))]
          simp [h.1, h'.1, parseCronInt_ok.mpr ⟨h, hle.1⟩, parseCronInt_ok.mpr ⟨h', hle.2⟩,
            Except.bind, Except.map]
    · rw [if_neg (by simpa using hdash)]
      constructor
      · intro hok
        cases hvalue : parseCronInt range ("Invalid cron field: " ++ String.ofList field) with
        | error e => simp [hvalue, Except.map] at hok
        | ok n =>
          simp only [hvalue, Except.map, Except.ok.injEq, Prod.mk.injEq] at hok
          obtain ⟨rfl, rfl⟩ := hok
          rw [parseCronInt_ok] at hvalue
          exact ⟨.single hvalue.1, fun _ => ⟨hvalue.2, hvalue.2⟩⟩
      · rintro ⟨hrange, hbound⟩
        cases hrange with
        | all => exact absurd rfl hall
        | single h => simp [parseCronInt_ok.mpr ⟨h, (hbound hall).1⟩, Except.map]
        | between h h' => exact absurd hdash (by simp)

variable {part : List Char} {k : Nat}

/-- A part is a range alone, or one with a step behind a slash. -/
theorem part_of_cronStep (h : cronStep part = .ok (range, k)) : (part = range ∧ k = 1) ∨
      ∃ step, part = range ++ '/' :: step ∧ Numeral step k ∧ k ≤ 255 := by
  unfold cronStep at h
  dsimp only at h
  split at h
  · rename_i only hsplit
    split_ifs at h
    rw [Except.ok.injEq, Prod.mk.injEq] at h
    have hjoin : ['/'].intercalate (part.splitOn '/') = part :=
      intercalate_splitOn '/'
    rw [hsplit, intercalate_singleton] at hjoin
    exact Or.inl ⟨hjoin.symm.trans h.1, h.2.symm⟩
  · rename_i first step hsplit
    split_ifs at h
    cases hstep : parseCronInt step ("Invalid cron step: " ++ String.ofList part) with
    | error e => simp [hstep, Except.map] at h
    | ok n =>
      simp only [hstep, Except.map, Except.ok.injEq, Prod.mk.injEq] at h
      rw [parseCronInt_ok, h.2] at hstep
      exact Or.inr ⟨step, by rw [splitOn_eq_pair hsplit, h.1], hstep⟩
  · cases h

theorem PartText.cronStep (h : PartText min max part a b k) :
    ∃ range, cronStep part = .ok (range, k) ∧ RangeText min max range a b ∧ 1 ≤ k := by
  cases h with
  | plain h =>
    refine ⟨part, ?_, h, Nat.le_refl 1⟩
    have hslash := h.not_mem (c := '/') (by decide) (by decide) (by decide)
    simp [Sources.cronStep, splitOn_eq_singleton hslash, h.ne_nil]
  | @stepped range step _ _ _ h hnum hpos hle =>
    refine ⟨range, ?_, h, hpos⟩
    have hslash := h.not_mem (c := '/') (by decide) (by decide) (by decide)
    have hstep := hnum.not_mem (c := '/') (by decide)
    simp [Sources.cronStep, splitOn_pair hslash hstep, h.ne_nil, hnum.1,
      parseCronInt_ok.mpr ⟨hnum, hle⟩, Except.map]

theorem PartText.ne_nil (h : PartText min max part a b k) : part ≠ [] := by
  cases h with
  | plain h => exact h.ne_nil
  | stepped => simp

theorem PartText.no_comma (h : PartText min max part a b k) : ',' ∉ part := by
  cases h with
  | plain h => exact h.not_mem (by decide) (by decide) (by decide)
  | stepped h hnum =>
    simp [h.not_mem (c := ',') (by decide) (by decide) (by decide),
      hnum.not_mem (c := ',') (by decide)]

/-- The parser of a part accepts the grammar. -/
theorem cronPart_ok (hmax : max ≤ 255) {p : CronPart} :
    cronPart field part min max = .ok p ↔ InRange min max part p.start p.stop p.step := by
  unfold cronPart
  constructor
  · intro hok
    split_ifs at hok with hempty
    cases hstep : cronStep part with
    | error e => simp [hstep, Except.bind] at hok
    | ok rangeStep =>
      obtain ⟨range, k⟩ := rangeStep
      by_cases hk : 1 ≤ k
      · cases hrange : cronRange field range min max with
        | error e => simp [hstep, hk, hrange, Except.bind] at hok
        | ok bounds =>
          simp only [hstep, hk, hrange, Except.bind, dif_pos] at hok
          split_ifs at hok with hbounds horder
          rw [Except.ok.injEq] at hok
          rw [cronRange_ok] at hrange
          subst hok
          refine ⟨?_, by change min ≤ bounds.1; omega, by change bounds.1 ≤ bounds.2; omega,
            by change bounds.2 ≤ max; omega⟩
          rcases part_of_cronStep hstep with ⟨rfl, rfl⟩ | ⟨step, rfl, hnum, hle⟩
          · exact .plain hrange.1
          · exact .stepped hrange.1 hnum hk hle
      · simp [hstep, hk, Except.bind] at hok
  · rintro ⟨hpart, hmin, horder, hstop⟩
    obtain ⟨range, hstep, hrange, hk⟩ := hpart.cronStep
    have hbounds : cronRange field range min max = .ok (p.start, p.stop) :=
      cronRange_ok.mpr ⟨hrange, fun _ => ⟨by omega, by omega⟩⟩
    have hin : ¬(p.start < min ∨ max < p.stop) := by omega
    have hle : ¬p.stop < p.start := by omega
    simp [hpart.ne_nil, hstep, hk, hbounds, hin, hle, Except.bind]

theorem InRange.cronPart (h : InRange min max part a b k) (field : List Char) (hmax : max ≤ 255) :
    ∃ hk, Sources.cronPart field part min max = .ok ⟨a, b, k, hk⟩ := by
  obtain ⟨-, -, -, hk⟩ := h.1.cronStep
  exact ⟨hk, (cronPart_ok hmax).mpr h⟩

/-! ### Fields -/

theorem insertSteps_iff {stop step value : Nat} (hstep : 1 ≤ step) (hstop : stop ≤ 255)
    {out : Finset Nat} {v : Nat} :
    v ∈ insertSteps stop step hstep value out ↔
      v ∈ out ∨ ∃ i, v = value + i * step ∧ v ≤ stop := by
  fun_induction insertSteps stop step hstep value out with
  | case1 value out hle hnext ih =>
    rw [ih, Finset.mem_insert]
    constructor
    · rintro ((rfl | hout) | ⟨i, rfl, hi⟩)
      · exact Or.inr ⟨0, by omega, hle⟩
      · exact Or.inl hout
      · exact Or.inr ⟨i + 1, by rw [Nat.add_one_mul]; omega, hi⟩
    · rintro (hout | ⟨i, rfl, hi⟩)
      · exact Or.inl (Or.inr hout)
      · cases i with
        | zero => exact Or.inl (Or.inl (by omega))
        | succ i => exact Or.inr ⟨i, by rw [Nat.add_one_mul]; omega, hi⟩
  | case2 value out hle hlast =>
    rw [Finset.mem_insert]
    constructor
    · rintro (rfl | hout)
      · exact Or.inr ⟨0, by omega, hle⟩
      · exact Or.inl hout
    · rintro (hout | ⟨i, rfl, hi⟩)
      · exact Or.inr hout
      · cases i with
        | zero => exact Or.inl (by omega)
        | succ i =>
          rw [Nat.add_one_mul] at hi
          omega
  | case3 value out hout =>
    refine (or_iff_left ?_).symm
    rintro ⟨i, rfl, hi⟩
    omega

/-- The parts of a field, one after the other. -/
theorem foldlM_parts_ok (field : List Char) (min : Nat) (hmax : max ≤ 255)
    (parts : List (List Char)) (out values : Finset Nat) :
    parts.foldlM (fun out part => (cronPart field part min max).map fun p =>
        insertSteps p.stop p.step p.step_pos p.start out) out = .ok values ↔
      (∀ part ∈ parts, ∃ a b k, InRange min max part a b k) ∧
      ∀ v, v ∈ values ↔ v ∈ out ∨ ∃ part ∈ parts, ∃ a b k, InRange min max part a b k ∧
        ∃ i, v = a + i * k ∧ v ≤ b := by
  induction parts generalizing out with
  | nil => simp [pure, Except.pure, Finset.ext_iff, eq_comm]
  | cons part parts ih =>
    rw [foldlM_cons]
    cases hpart : cronPart field part min max with
    | error e =>
      have hnone : ∀ a b k, ¬InRange min max part a b k := by
        intro a b k hin
        obtain ⟨hk, hok⟩ := hin.cronPart field hmax
        rw [hpart] at hok
        cases hok
      simp [Except.map, bind, Except.bind, hnone]
    | ok p =>
      have hin := (cronPart_ok hmax).mp hpart
      have honly : ∀ a b k, InRange min max part a b k ↔
          a = p.start ∧ b = p.stop ∧ k = p.step := by
        intro a b k
        constructor
        · intro h
          obtain ⟨hk, hok⟩ := h.cronPart field hmax
          rw [hpart, Except.ok.injEq] at hok
          simp [hok]
        · rintro ⟨rfl, rfl, rfl⟩
          exact hin
      have hstop : p.stop ≤ 255 := Nat.le_trans hin.2.2.2 hmax
      have hrest := ih (insertSteps p.stop p.step p.step_pos p.start out)
      simp only [bind, Except.bind, Except.map] at hrest ⊢
      rw [hrest]
      simp only [insertSteps_iff p.step_pos hstop, mem_cons, forall_eq_or_imp,
        exists_eq_or_imp, honly, or_assoc]
      simp

variable {values : Finset Nat}

/-- The parser of a field accepts the grammar and gives what the text stands for. -/
theorem parseCronField_ok (hmax : max ≤ 255) :
    parseCronField field min max = .ok values ↔ FieldText min max field values := by
  have hparts := foldlM_parts_ok field min hmax
  unfold parseCronField
  constructor
  · intro hok
    split_ifs at hok
    rw [hparts] at hok
    refine ⟨field.splitOn ',', splitOn_ne_nil _ _, (intercalate_splitOn ',').symm,
      hok.1, fun v => ?_⟩
    rw [hok.2]
    simp
  · rintro ⟨parts, hne, hfield, hin, hvalues⟩
    have hsplit : field.splitOn ',' = parts := by
      rw [hfield]
      refine splitOn_intercalate ',' (fun part hpart => ?_) hne
      obtain ⟨a, b, k, h⟩ := hin part hpart
      exact h.1.no_comma
    have hempty : field ≠ [] := by
      rintro rfl
      rw [splitOn_nil] at hsplit
      obtain ⟨a, b, k, h⟩ := hin [] (by rw [← hsplit]; exact mem_singleton.mpr rfl)
      exact h.1.ne_nil rfl
    rw [if_neg (by simpa using hempty), hparts, hsplit]
    exact ⟨hin, fun v => by rw [hvalues]; simp⟩

/-! ### The five fields -/

variable {rest : List Char}

theorem splitWhitespace_blanks {blanks : List Char} (h : ∀ c ∈ blanks, isWhitespace c = true) :
    splitWhitespace (blanks ++ rest) = splitWhitespace rest := by
  induction blanks with
  | nil => rfl
  | cons c blanks ih =>
    rw [forall_mem_cons] at h
    rw [← ih h.2, cons_append, splitWhitespace, splitOnP_cons_eq_if_modifyHead,
      if_pos h.1]
    rfl

theorem splitWhitespace_word {word : List Char} (hne : word ≠ [])
    (hword : ∀ c ∈ word, isWhitespace c = false)
    (hrest : ∀ c, rest.head? = some c → isWhitespace c = true) :
    splitWhitespace (word ++ rest) = word :: splitWhitespace rest := by
  cases rest with
  | nil =>
    rw [append_nil, splitWhitespace, splitOnP_eq_singleton hword]
    simp [hne, splitWhitespace]
  | cons c rest =>
    rw [splitWhitespace, splitOnP_append_cons_of_forall_mem hword c (hrest c rfl),
      ← singleton_append (x := c), splitWhitespace_blanks (by simpa using hrest c rfl)]
    simp [hne, splitWhitespace]

theorem words_splitWhitespace (text : List Char) : Words text (splitWhitespace text) := by
  induction hlen : text.length using Nat.strong_induction_on generalizing text with
  | _ n ih =>
    have hblanks : ∀ c ∈ text.takeWhile isWhitespace, isWhitespace c = true :=
      fun c => mem_takeWhile_imp
    have hsplit := takeWhile_append_dropWhile (p := isWhitespace) (l := text)
    generalize hrest : text.dropWhile isWhitespace = rest at hsplit
    generalize text.takeWhile isWhitespace = blanks at hblanks hsplit
    rw [← hsplit, splitWhitespace_blanks hblanks]
    cases rest with
    | nil =>
      rw [append_nil]
      exact .nil hblanks
    | cons c rest =>
      -- a word begins here, and what follows it is shorter than the text
      have hc : isWhitespace c = false := by
        have hhead := List.head?_dropWhile_not isWhitespace text
        rw [hrest] at hhead
        simpa using hhead
      have hword : ∀ d ∈ (c :: rest).takeWhile (!isWhitespace ·), isWhitespace d = false :=
        fun d hd => by simpa using mem_takeWhile_imp hd
      have hne : (c :: rest).takeWhile (!isWhitespace ·) ≠ [] := by simp [hc]
      have hafter : ∀ d, ((c :: rest).dropWhile (!isWhitespace ·)).head? = some d →
          isWhitespace d = true := by
        intro d hd
        have hhead := List.head?_dropWhile_not (!isWhitespace ·) (c :: rest)
        rw [hd] at hhead
        simpa using hhead
      have hparts := takeWhile_append_dropWhile (p := (!isWhitespace ·)) (l := c :: rest)
      have hshort : ((c :: rest).dropWhile (!isWhitespace ·)).length < n := by
        have h₁ := congrArg List.length hsplit
        have h₂ := congrArg List.length hparts
        have h₃ := length_pos_of_ne_nil hne
        simp only [length_append] at h₁ h₂
        omega
      generalize (c :: rest).takeWhile (!isWhitespace ·) = word at *
      generalize (c :: rest).dropWhile (!isWhitespace ·) = later at *
      rw [← hparts, splitWhitespace_word hne hword hafter, ← append_assoc]
      exact .cons hblanks hne hword hafter (ih _ hshort later rfl)

/-- The words of a text are those it is put together from. -/
theorem splitWhitespace_iff {words : List (List Char)} :
    splitWhitespace text = words ↔ Words text words := by
  constructor
  · rintro rfl
    exact words_splitWhitespace text
  · intro h
    induction h with
    | @nil blanks h =>
      rw [← append_nil blanks, splitWhitespace_blanks h]
      rfl
    | cons hblanks hne hword hrest _ ih =>
      rw [append_assoc, splitWhitespace_blanks hblanks,
        splitWhitespace_word hne hword hrest, ih]

variable {expr : String} {schedule : CronSchedule}

theorem parseCron_ok :
    parseCron expr = .ok schedule ↔ CronText expr schedule := by
  unfold parseCron CronText
  simp only [← splitWhitespace_iff, ← parseCronField_ok (show 59 ≤ 255 by decide),
    ← parseCronField_ok (show 23 ≤ 255 by decide), ← parseCronField_ok (show 31 ≤ 255 by decide),
    ← parseCronField_ok (show 12 ≤ 255 by decide), ← parseCronField_ok (show 6 ≤ 255 by decide)]
  constructor
  · intro hok
    split at hok
    · rename_i f₀ f₁ f₂ f₃ f₄ hsplit
      refine ⟨f₀, f₁, f₂, f₃, f₄, hsplit, ?_⟩
      cases h₀ : parseCronField f₀ 0 59 <;> cases h₁ : parseCronField f₁ 0 23 <;>
        cases h₂ : parseCronField f₂ 1 31 <;> cases h₃ : parseCronField f₃ 1 12 <;>
        cases h₄ : parseCronField f₄ 0 6 <;>
        simp only [h₀, h₁, h₂, h₃, h₄, Except.bind, Except.map, Except.ok.injEq, reduceCtorEq]
          at hok
      subst hok
      simp
    · cases hok
  · rintro ⟨f₀, f₁, f₂, f₃, f₄, hsplit, h₀, h₁, h₂, h₃, h₄⟩
    rw [hsplit]
    simp [h₀, h₁, h₂, h₃, h₄, Except.bind, Except.map]

/-! ### Instants -/

theorem isFullRange_iff (hle : min ≤ max) :
    isFullRange values min max = true ↔ values = Finset.Icc min max := by
  simp only [isFullRange, Bool.and_eq_true, beq_iff_eq, decide_eq_true_eq]
  constructor
  · rintro ⟨⟨hcard, hmin⟩, hmax⟩
    refine Finset.eq_of_subset_of_card_le (fun v hv => ?_) ?_
    · exact Finset.mem_Icc.mpr ⟨Finset.min_le_of_eq hv hmin, Finset.le_max_of_eq hv hmax⟩
    · rw [Nat.card_Icc, hcard]
      omega
  · rintro rfl
    have hne : (Finset.Icc min max).Nonempty := Finset.nonempty_Icc.mpr hle
    obtain ⟨first, hfirst⟩ := Finset.min_of_nonempty hne
    obtain ⟨last, hlast⟩ := Finset.max_of_nonempty hne
    have h₁ := Finset.mem_Icc.mp (Finset.mem_of_min hfirst)
    have h₂ := Finset.mem_Icc.mp (Finset.mem_of_max hlast)
    have h₃ := Finset.min_le_of_eq (Finset.left_mem_Icc.mpr hle) hfirst
    have h₄ := Finset.le_max_of_eq (Finset.right_mem_Icc.mpr hle) hlast
    have hmin : first = min := by omega
    have hmax : last = max := by omega
    rw [hfirst, hlast, hmin, hmax, Nat.card_Icc]
    exact ⟨⟨by omega, rfl⟩, rfl⟩

theorem FieldText.subset (h : FieldText min max field values) : values ⊆ Finset.Icc min max := by
  obtain ⟨parts, -, -, -, hvalues⟩ := h
  intro v hv
  obtain ⟨part, -, a, b, k, hin, i, rfl, hle⟩ := (hvalues v).mp hv
  have hmin := hin.2.1
  have hmax := hin.2.2.2
  rw [Finset.mem_Icc]
  omega

/-- A set of the field leaves something out exactly when it is not the full range. -/
theorem FieldText.ssubset_iff (h : FieldText min max field values) (hle : min ≤ max) :
    values ⊂ Finset.Icc min max ↔ isFullRange values min max = false := by
  rw [← Bool.not_eq_true, isFullRange_iff hle, Finset.ssubset_iff_subset_ne]
  exact and_iff_right h.subset

theorem matchesCron_iff (h : CronText expr schedule)
    (instant : CronInstant) : matchesCron schedule instant = true ↔ schedule.Fires instant := by
  obtain ⟨f₀, f₁, f₂, f₃, f₄, -, -, -, hmonthdays, -, hweekdays⟩ := h
  rw [CronSchedule.Fires, hmonthdays.ssubset_iff (by decide), hweekdays.ssubset_iff (by decide)]
  cases hm : isFullRange schedule.daysOfMonth 1 31 <;>
    cases hw : isFullRange schedule.daysOfWeek 0 6 <;> simp [matchesCron, hm, hw, and_assoc]

/-- The parser accepts the expressions of the grammar and no others, with the schedule they stand
for, and an instant matches when it is one of the schedule's. -/
theorem parse_cron_exact (expr : String) (schedule : CronSchedule) (instant : CronInstant) :
    (parseCron expr = .ok schedule ↔ CronText expr schedule) ∧
    (parseCron expr = .ok schedule ∧ matchesCron schedule instant = true ↔
      CronText expr schedule ∧ schedule.Fires instant) := by
  refine ⟨parseCron_ok, ?_⟩
  rw [parseCron_ok]
  exact and_congr_right fun h => matchesCron_iff h instant

end GraphRefly.Sources
