import GraphRefly.Json.Canonical
import Mathlib.Tactic.IntervalCases

/-!
# Reading Compact JSON

A reader for JSON texts without white space and with integer numbers. It is a
specification device and not part of the modelled program: a text that can be
read back in only one way can have been written from only one value. The reader
keeps the entries of an object in the order of the text.

## Main definitions

* `readChar`: One character of a string literal.
* `readString`: A string literal after its opening quotation mark.
* `readInteger`: An integer.
* `readValue`: A value.

## Theorems

* `readString_quote`: Reading a literal gives the string back.
* `readValue_compact`: Reading a compact text gives the value back.
* `compact_injective`: Different values have different compact texts.
-/

namespace GraphRefly.Json

open List

variable {F : Type}

/-! ### String literals -/

/-- The value of a lower-case hexadecimal digit. -/
def hexValue (c : Char) : Nat :=
  if c.toNat < 58 then c.toNat - 48 else c.toNat - 87

/-- The character behind a two-character escape. -/
def unescape (c : Char) : Option Char :=
  if c = '\"' then some '\"'
  else if c = '\\' then some '\\'
  else if c = '/' then some '/'
  else if c = 'b' then some (Char.ofNat 8)
  else if c = 't' then some (Char.ofNat 9)
  else if c = 'n' then some (Char.ofNat 10)
  else if c = 'f' then some (Char.ofNat 12)
  else if c = 'r' then some (Char.ofNat 13)
  else none

/-- The character behind a backslash. -/
def readEscape : List Char → Option (Char × List Char)
  | [] => none
  | c :: rest =>
    if c = 'u' then
      match rest with
      | a :: b :: c :: d :: rest =>
        some (Char.ofNat (hexValue a * 4096 + hexValue b * 256 + hexValue c * 16 + hexValue d),
          rest)
      | _ => none
    else (unescape c).map fun c => (c, rest)

/-- One character of a string literal. -/
def readChar : List Char → Option (Char × List Char)
  | [] => none
  | c :: rest =>
    if c = '\\' then readEscape rest
    else if c.toNat < 32 then none
    else some (c, rest)

/-- A string literal after its opening quotation mark. -/
def readString : Nat → List Char → Option (List Char × List Char)
  | 0, _ => none
  | _ + 1, [] => none
  | fuel + 1, c :: text =>
    if c = '\"' then some ([], text)
    else do
      let (c, rest) ← readChar (c :: text)
      let (cs, rest) ← readString fuel rest
      some (c :: cs, rest)

/-! ### Integers -/

/-- A run of digits as a number, with what follows it. -/
def readNat (text : List Char) : Option (Nat × List Char) :=
  if text.takeWhile Char.isDigit = [] then none
  else some (Nat.ofDigitChars 10 (text.takeWhile Char.isDigit) 0, text.dropWhile Char.isDigit)

def readInteger : List Char → Option (Int × List Char)
  | [] => none
  | c :: rest =>
    if c = '-' then (readNat rest).map fun r => (-r.1, r.2)
    else (readNat (c :: rest)).map fun r => (r.1, r.2)

/-! ### Values -/

/-- A word that has to stand at the front of the text. -/
def readWord (word text : List Char) : Option (List Char) :=
  if word.isPrefixOf text then some (text.drop word.length) else none

mutual

/-- A value, with what follows it. -/
def readValue : Nat → List Char → Option (Value F × List Char)
  | 0, _ => none
  | _ + 1, [] => none
  | fuel + 1, c :: rest =>
    if c = 'n' then (readWord ['u', 'l', 'l'] rest).map fun rest => (.null, rest)
    else if c = 't' then (readWord ['r', 'u', 'e'] rest).map fun rest => (.bool true, rest)
    else if c = 'f' then (readWord ['a', 'l', 's', 'e'] rest).map fun rest => (.bool false, rest)
    else if c = '\"' then
      (readString fuel rest).map fun r => (.string (String.ofList r.1), r.2)
    else if c = '[' then
      if rest.head? = some ']' then some (.array [], rest.tail)
      else (readItems fuel rest).map fun r => (.array r.1, r.2)
    else if c = '{' then
      if rest.head? = some '}' then some (.object [], rest.tail)
      else (readEntries fuel rest).map fun r => (.object r.1, r.2)
    else (readInteger (c :: rest)).map fun r => (.number (.int r.1), r.2)

/-- The items of an array that has some, up to its closing bracket. -/
def readItems : Nat → List Char → Option (List (Value F) × List Char)
  | 0, _ => none
  | fuel + 1, text => do
      let (v, rest) ← readValue fuel text
      if rest.head? = some ',' then
        (readItems fuel rest.tail).map fun r => (v :: r.1, r.2)
      else if rest.head? = some ']' then some ([v], rest.tail)
      else none

/-- The entries of an object that has some, up to its closing brace. -/
def readEntries : Nat → List Char → Option (List (String × Value F) × List Char)
  | 0, _ => none
  | fuel + 1, text => do
      let rest ← readWord ['\"'] text
      let (key, rest) ← readString fuel rest
      let rest ← readWord [':'] rest
      let (v, rest) ← readValue fuel rest
      if rest.head? = some ',' then
        (readEntries fuel rest.tail).map fun r => ((String.ofList key, v) :: r.1, r.2)
      else if rest.head? = some '}' then some ([(String.ofList key, v)], rest.tail)
      else none

end

/-! ### Reading literals back -/

theorem hexValue_hexDigit {n : Nat} (h : n < 16) : hexValue (hexDigit n) = n := by
  interval_cases n <;> rfl

theorem readChar_escapeChar (c : Char) (rest : List Char) :
    readChar (escapeChar c ++ rest) = some (c, rest) := by
  have hofNat : ∀ n, c.toNat = n → Char.ofNat n = c := by
    rintro n rfl
    exact Char.ofNat_toNat c
  unfold escapeChar
  split_ifs with h1 h2 h3 h4 h5 h6 h7 h8
  · subst h1
    rfl
  · subst h2
    rfl
  · exact congrArg (fun c => some (c, rest)) (hofNat 8 h3)
  · exact congrArg (fun c => some (c, rest)) (hofNat 9 h4)
  · exact congrArg (fun c => some (c, rest)) (hofNat 10 h5)
  · exact congrArg (fun c => some (c, rest)) (hofNat 12 h6)
  · exact congrArg (fun c => some (c, rest)) (hofNat 13 h7)
  · have hzero : hexValue '0' = 0 := rfl
    have hhigh := hexValue_hexDigit (show c.toNat / 16 < 16 by omega)
    have hlow := hexValue_hexDigit (show c.toNat % 16 < 16 by omega)
    simp only [readChar, readEscape, cons_append, nil_append, if_true, hzero, hhigh, hlow]
    rw [hofNat _ (by omega)]
  · simp [readChar, h2, h8]

theorem escapeChar_eq_cons (c : Char) : ∃ d ds, escapeChar c = d :: ds ∧ d ≠ '\"' := by
  unfold escapeChar
  split_ifs with h1
  all_goals first
    | exact ⟨_, _, rfl, by decide⟩
    | exact ⟨_, _, rfl, h1⟩

/-- Reading a literal after its opening quotation mark gives the characters
    back. -/
theorem readString_escaped (cs rest : List Char) (fuel : Nat)
    (hfuel : cs.length < fuel) :
    readString fuel (cs.flatMap escapeChar ++ '\"' :: rest) = some (cs, rest) := by
  induction cs generalizing fuel with
  | nil =>
    obtain ⟨fuel, rfl⟩ : ∃ n, fuel = n + 1 := ⟨fuel - 1, by simp at hfuel; omega⟩
    rfl
  | cons c cs ih =>
    obtain ⟨fuel, rfl⟩ : ∃ n, fuel = n + 1 := ⟨fuel - 1, by omega⟩
    obtain ⟨d, ds, heq, hne⟩ := escapeChar_eq_cons c
    have hchar := readChar_escapeChar c (cs.flatMap escapeChar ++ '\"' :: rest)
    have htail := ih fuel (by simp at hfuel; omega)
    rw [flatMap_cons, append_assoc]
    rw [heq, cons_append] at hchar ⊢
    rw [readString, if_neg hne, hchar]
    simp [htail]

theorem length_le_escaped (cs : List Char) : cs.length ≤ (cs.flatMap escapeChar).length := by
  induction cs with
  | nil => simp
  | cons c cs ih =>
    obtain ⟨d, ds, heq, -⟩ := escapeChar_eq_cons c
    rw [flatMap_cons, heq]
    simp only [length_cons, length_append]
    omega

/-- Reading a literal gives the string back. -/
theorem readString_quote (s : String) (rest : List Char) (fuel : Nat)
    (hfuel : (quote s).length ≤ fuel + 1) :
    readString fuel ((quote s).tail ++ rest) = some (s.toList, rest) := by
  have hlen := length_le_escaped s.toList
  have hquote : (quote s).length = (s.toList.flatMap escapeChar).length + 2 := by
    simp [quote]
  have htext : (quote s).tail ++ rest = s.toList.flatMap escapeChar ++ '\"' :: rest := by
    simp [quote]
  rw [htext]
  exact readString_escaped s.toList rest fuel (by omega)

/-! ### Reading integers back -/

/-- What may follow a number: anything but another digit. -/
def EndsNumber (rest : List Char) : Prop := ∀ c ∈ rest.head?, c.isDigit = false

variable {rest : List Char}

theorem readNat_toDigits (n : Nat) (hrest : EndsNumber rest) :
    readNat (Nat.toDigits 10 n ++ rest) = some (n, rest) := by
  have hdigits : ∀ c ∈ Nat.toDigits 10 n, c.isDigit = true := fun c hc =>
    Nat.isDigit_of_mem_toDigits (by decide) (by decide) hc
  have htake : (Nat.toDigits 10 n ++ rest).takeWhile Char.isDigit = Nat.toDigits 10 n := by
    rw [takeWhile_append_of_pos hdigits]
    cases rest with
    | nil => simp
    | cons c rest => simp [hrest c rfl]
  have hdrop : (Nat.toDigits 10 n ++ rest).dropWhile Char.isDigit = rest := by
    rw [dropWhile_append_of_pos hdigits]
    cases rest with
    | nil => rfl
    | cons c rest => simp [hrest c rfl]
  rw [readNat, htake, hdrop, if_neg Nat.toDigits_ne_nil, Nat.ofDigitChars_ten_toDigits]

theorem toDigits_eq_cons (n : Nat) : ∃ d ds, Nat.toDigits 10 n = d :: ds ∧ d.isDigit = true := by
  rcases h : Nat.toDigits 10 n with _ | ⟨d, ds⟩
  · exact absurd h Nat.toDigits_ne_nil
  · refine ⟨d, ds, rfl, Nat.isDigit_of_mem_toDigits (b := 10) (n := n) (by decide) (by decide) ?_⟩
    rw [h]
    exact mem_cons_self

theorem decimal_eq_cons (n : Int) :
    ∃ d ds, decimal n = d :: ds ∧ (d = '-' ∨ d.isDigit = true) := by
  unfold decimal
  split_ifs with h
  · exact ⟨_, _, rfl, .inl rfl⟩
  · obtain ⟨d, ds, heq, hd⟩ := toDigits_eq_cons n.natAbs
    exact ⟨d, ds, heq, .inr hd⟩

theorem ne_of_signOrDigit {d : Char} (hd : d = '-' ∨ d.isDigit = true) (c : Char) (hsign : c ≠ '-')
    (hdigit : c.isDigit = false) : d ≠ c := by
  rintro rfl
  simp [hsign, hdigit] at hd

theorem readInteger_decimal (n : Int) (hrest : EndsNumber rest) :
    readInteger (decimal n ++ rest) = some (n, rest) := by
  unfold decimal
  split_ifs with h
  · rw [cons_append, readInteger, if_pos rfl, readNat_toDigits _ hrest]
    have hn : -(n.natAbs : Int) = n := by omega
    simp only [Option.map_some, hn]
  · have hread := readNat_toDigits n.natAbs hrest
    obtain ⟨d, ds, heq, hd⟩ := toDigits_eq_cons n.natAbs
    rw [heq, cons_append] at hread ⊢
    have hne : d ≠ '-' := by
      rintro rfl
      exact absurd hd (by decide)
    have hn : (n.natAbs : Int) = n := by omega
    rw [readInteger, if_neg hne, hread]
    simp only [Option.map_some, hn]

/-! ### Reading values back -/

/-- The reader gives the value back from its compact text, whatever follows. -/
def ReadsBack [Float64 F] (v : Value F) : Prop :=
  ∀ fuel rest, (compact v).length ≤ fuel → EndsNumber rest →
    readValue fuel (compact v ++ rest) = some (v, rest)

theorem endsNumber_cons {c : Char} (h : c.isDigit = false) :
    EndsNumber (c :: rest) := by
  intro d hd
  rw [List.head?_cons, Option.mem_some_iff] at hd
  rw [← hd, h]

theorem intercalate_cons_cons (x y : List Char) (xs : List (List Char)) :
    [','].intercalate (x :: y :: xs) = x ++ ',' :: [','].intercalate (y :: xs) := by
  simp [List.intercalate]

theorem intercalate_cons (x : List Char) (xs : List (List Char)) :
    ∃ tail, [','].intercalate (x :: xs) = x ++ tail := by
  cases xs with
  | nil => exact ⟨[], by simp⟩
  | cons y ys => exact ⟨_, intercalate_cons_cons x y ys⟩

variable {text : List Char}

theorem readValue_bracket (fuel : Nat) (h : text.head? ≠ some ']') :
    readValue (F := F) (fuel + 1) ('[' :: text)
      = (readItems fuel text).map fun r => (.array r.1, r.2) := by
  rw [readValue]
  exact if_neg h

theorem readValue_brace (fuel : Nat) (h : text.head? ≠ some '}') :
    readValue (F := F) (fuel + 1) ('{' :: text)
      = (readEntries fuel text).map fun r => (.object r.1, r.2) := by
  rw [readValue]
  exact if_neg h

theorem readItems_compact [Float64 F] (vs : List (Value F)) (hne : vs ≠ [])
    (h : ∀ v ∈ vs, ReadsBack v) (fuel : Nat) (rest : List Char)
    (hfuel : ([','].intercalate (vs.map compact)).length < fuel) :
    readItems fuel ([','].intercalate (vs.map compact) ++ ']' :: rest) = some (vs, rest) := by
  induction vs generalizing fuel with
  | nil => exact absurd rfl hne
  | cons v vs ih =>
    obtain ⟨fuel, rfl⟩ : ∃ n, fuel = n + 1 := ⟨fuel - 1, by omega⟩
    rw [forall_mem_cons] at h
    cases vs with
    | nil =>
      have htext : [','].intercalate ([v].map compact) = compact v := by simp
      rw [htext] at hfuel ⊢
      have hread := h.1 fuel (']' :: rest) (by omega) (endsNumber_cons rfl)
      simp [readItems, hread]
    | cons w ws =>
      rw [map_cons, map_cons, intercalate_cons_cons] at hfuel ⊢
      rw [length_append, length_cons] at hfuel
      rw [append_assoc, cons_append]
      have hread := h.1 fuel (',' :: ([','].intercalate (compact w :: ws.map compact)
        ++ ']' :: rest)) (by omega) (endsNumber_cons rfl)
      have htail := ih (by simp) h.2 fuel (by rw [map_cons]; omega)
      rw [map_cons] at htail
      simp [readItems, hread, htail]

theorem readEntries_compact [Float64 F] (es : List (String × Value F)) (hne : es ≠ [])
    (h : ∀ e ∈ es, ReadsBack e.2) (fuel : Nat) (rest : List Char)
    (hfuel : ([','].intercalate (es.map fun e => entryText (e.1, compact e.2))).length < fuel) :
    readEntries fuel ([','].intercalate (es.map fun e => entryText (e.1, compact e.2))
      ++ '}' :: rest) = some (es, rest) := by
  induction es generalizing fuel with
  | nil => exact absurd rfl hne
  | cons e es ih =>
    obtain ⟨fuel, rfl⟩ : ∃ n, fuel = n + 1 := ⟨fuel - 1, by omega⟩
    obtain ⟨key, v⟩ := e
    rw [forall_mem_cons] at h
    have hv : ReadsBack v := h.1
    have hquote : quote key = '\"' :: (quote key).tail := rfl
    have hkey : ∀ text, (quote key).length ≤ fuel + 1 →
        readString fuel ((quote key).tail ++ text) = some (key.toList, text) :=
      fun text hlen => readString_quote key text fuel hlen
    have hentry : (entryText (key, compact v)).length
        = (quote key).length + (compact v).length + 1 := by
      simp only [entryText, length_append, length_cons]
      omega
    cases es with
    | nil =>
      have htext : [','].intercalate ([(key, v)].map fun e => entryText (e.1, compact e.2))
          = entryText (key, compact v) := by simp
      rw [htext] at hfuel ⊢
      have hread := hv fuel ('}' :: rest) (by omega) (endsNumber_cons rfl)
      rw [entryText, hquote]
      simp [readEntries, readWord, hkey _ (by omega), hread]
    | cons f fs =>
      rw [map_cons, map_cons, intercalate_cons_cons] at hfuel ⊢
      rw [length_append, length_cons, hentry] at hfuel
      have hread := hv fuel (',' :: ([','].intercalate (entryText (f.1, compact f.2) ::
        fs.map fun e => entryText (e.1, compact e.2)) ++ '}' :: rest)) (by omega)
        (endsNumber_cons rfl)
      have htail := ih (by simp) h.2 fuel (by rw [map_cons]; omega)
      rw [map_cons] at htail
      rw [append_assoc, cons_append, entryText, hquote]
      simp [readEntries, readWord, hkey _ (by omega), hread, htail]

variable {v : Value F}

theorem compact_head [Float64 F] (hv : v.Integers) (rest : List Char) :
    (compact v ++ rest).head? ≠ some ']' := by
  cases v with
  | number n =>
    cases n with
    | int n =>
      obtain ⟨d, ds, heq, hd⟩ := decimal_eq_cons n
      have hne := ne_of_signOrDigit hd
      rw [compact, canonicalNumberString, heq, cons_append, List.head?_cons]
      simpa using hne ']' (by decide) rfl
    | float x => exact absurd hv id
  | bool b => cases b <;> simp [compact]
  | null | string _ | array _ | object _ => simp [compact, quote]

theorem readsBack_number [Float64 F] (n : Int) : ReadsBack (.number (.int n) : Value F) := by
  intro fuel rest hfuel hrest
  have hread := readInteger_decimal n hrest
  obtain ⟨d, ds, heq, hd⟩ := decimal_eq_cons n
  have hne := ne_of_signOrDigit hd
  rw [compact, canonicalNumberString, heq] at hfuel ⊢
  rw [heq] at hread
  obtain ⟨fuel, rfl⟩ : ∃ n, fuel = n + 1 := ⟨fuel - 1, by simp at hfuel; omega⟩
  rw [cons_append] at hread ⊢
  simp [readValue, hread, hne 'n' (by decide) rfl, hne 't' (by decide) rfl, hne 'f' (by decide) rfl,
    hne '\"' (by decide) rfl, hne '[' (by decide) rfl, hne '{' (by decide) rfl]

/-- Reading a compact text gives the value back. -/
theorem readValue_compact [Float64 F] (hv : v.Integers) : ReadsBack v := by
  induction v using Value.induction with
  | null =>
    intro fuel rest hfuel _
    obtain ⟨fuel, rfl⟩ : ∃ n, fuel = n + 1 := ⟨fuel - 1, by simp [compact] at hfuel; omega⟩
    rfl
  | bool b =>
    intro fuel rest hfuel _
    obtain ⟨fuel, rfl⟩ : ∃ n, fuel = n + 1 := ⟨fuel - 1,
      by cases b <;> simp [compact] at hfuel <;> omega⟩
    cases b <;> rfl
  | number n =>
    cases n with
    | int n => exact readsBack_number n
    | float x => exact absurd hv id
  | string s =>
    intro fuel rest hfuel _
    obtain ⟨fuel, rfl⟩ : ∃ n, fuel = n + 1 := ⟨fuel - 1, by simp [compact, quote] at hfuel; omega⟩
    have hread := readString_quote s rest fuel hfuel
    have hquote : quote s = '\"' :: (quote s).tail := rfl
    rw [compact, hquote]
    simp [readValue, hread]
  | array vs ih =>
    intro fuel rest hfuel _
    obtain ⟨fuel, rfl⟩ : ∃ n, fuel = n + 1 := ⟨fuel - 1, by simp [compact] at hfuel; omega⟩
    have hparts := ((Value.all_array _ _).mp hv).2
    rw [compact, compactValues_eq_map] at hfuel ⊢
    simp only [length_cons, length_append, length_nil] at hfuel
    cases vs with
    | nil => rfl
    | cons w ws =>
      have hread := readItems_compact (w :: ws) (by simp)
        (fun v hmem => ih v hmem (hparts v hmem)) fuel rest (by omega)
      have hhead : ([','].intercalate ((w :: ws).map compact) ++ ']' :: rest).head? ≠
        some ']' := by
        obtain ⟨tail, htail⟩ := intercalate_cons (compact w) (ws.map compact)
        rw [map_cons, htail, append_assoc]
        exact compact_head (hparts w mem_cons_self) _
      rw [cons_append, append_assoc, singleton_append,
        readValue_bracket fuel hhead, hread]
      rfl
  | object es ih =>
    intro fuel rest hfuel _
    obtain ⟨fuel, rfl⟩ : ∃ n, fuel = n + 1 := ⟨fuel - 1, by simp [compact] at hfuel; omega⟩
    have hparts := ((Value.all_object _ _).mp hv).2
    rw [compact, compactEntries_eq_map] at hfuel ⊢
    simp only [length_cons, length_append, length_nil] at hfuel
    cases es with
    | nil => rfl
    | cons e es =>
      have hread := readEntries_compact (e :: es) (by simp)
        (fun e hmem => ih e hmem (hparts e hmem)) fuel rest (by omega)
      have hhead : ([','].intercalate ((e :: es).map fun e => entryText (e.1, compact e.2))
          ++ '}' :: rest).head? ≠ some '}' := by
        obtain ⟨tail, htail⟩ := intercalate_cons (entryText (e.1, compact e.2))
          (es.map fun e => entryText (e.1, compact e.2))
        rw [map_cons, htail]
        simp [entryText, quote]
      rw [cons_append, append_assoc, singleton_append,
        readValue_brace fuel hhead, hread]
      rfl

/-- Different values have different compact texts. -/
theorem compact_injective [Float64 F] {w : Value F} (hv : v.Integers) (hw : w.Integers)
    (h : compact v = compact w) : v = w := by
  have hend : EndsNumber [] := by simp [EndsNumber]
  have hread := readValue_compact hv _ [] (Nat.le_refl _) hend
  rw [h, readValue_compact hw _ [] (Nat.le_refl _) hend] at hread
  simpa using hread.symm

end GraphRefly.Json
