import GraphRefly.Json.Identity

/-!
# The Duplicate-Key Scanner

The JSON library accepts an object that names a key twice and keeps the last
value. The decoder refuses such texts, so before it parses it runs a scanner of
its own over the text, which checks the shape of the text and compares the keys
of every object.

The scanner walks over bytes and the model over characters, with the byte index
kept beside the rest of the text. That makes no difference: the scanner only
ever stops at ASCII bytes, and no byte of a longer character is one of them.
Recursion is bounded by fuel, for which the length of the text is enough, since
every call reads at least one character.

## Main definitions

* `SerdeJson`: What the scanner and the decoder use of the JSON library.
* `Scanner`: The byte index and the text still to be read.
* `parseValue`: Scanning a value.
* `assertNoDuplicateJsonObjectKeys`: Scanning a whole text.

## Theorems

* `scans_compact`: The scanner passes over every compact text.
* `assertNoDuplicateJsonObjectKeys_compact`: The scanner accepts every compact
  text.
-/

namespace GraphRefly.Json

open List

variable {F : Type}

/-- What is used of the JSON library, and the texts of errors that are not
    written in this program. -/
structure SerdeJson (F : Type) where
  /-- Parse a text as a value. -/
  fromStr : List Char → Except String (JsonValue F)
  /-- Parse a text as a string. -/
  fromStrString : List Char → Except String String
  /-- A string as it is printed for debugging. -/
  debug : String → String
  /-- Why some bytes are not UTF-8. -/
  utf8Error : ByteArray → String

/-- What is assumed of the JSON library: a string is the value of its literal,
    and a text denotes a value as the standard says, except that the parser
    gives up when containers nest to its recursion limit. -/
structure SerdeJson.Lawful [Float64 F] (lib : SerdeJson F) : Prop where
  string_quote : ∀ s, lib.fromStrString (quote s) = .ok s
  value_compact : ∀ v : JsonValue F, v.val.Integers → v.val.nesting < 128 →
    ∃ w, lib.fromStr (compact v.val) = .ok w ∧ Value.Same v.val w.val
  value_limit : ∀ v : Value F, v.Integers → 128 ≤ v.nesting →
    ∃ err, lib.fromStr (compact v) = .error err

/-- How many bytes a text takes. -/
def byteLength (text : List Char) : Nat := (text.map Char.utf8Size).sum

structure Scanner where
  index : Nat
  rest : List Char
  deriving DecidableEq

namespace Scanner

def fail {α : Type} (message : String) : Except JsonCodecError α :=
  .error (.validation s!"strictJsonCodec: {message}")

section

variable (s : Scanner)

def peek : Option Char := s.rest.head?

/-- Pass over a text that stands at the front. -/
def skip (text : List Char) : Scanner :=
  ⟨s.index + byteLength text, s.rest.drop text.length⟩

/-- Pass over one character. -/
def next : Scanner := s.skip (s.rest.take 1)

/-- Pass over the characters at the front that satisfy a test. -/
def skipWhile (p : Char → Bool) : Scanner := s.skip (s.rest.takeWhile p)

def skipWhitespace : Scanner :=
  s.skipWhile fun c => c = ' ' || c = '\n' || c = '\r' || c = '\t'

/-- A string literal after its opening quotation mark, up to the closing one,
    and what follows. The flag says that a backslash came before: it takes the
    next character with it. -/
def literalEnd : Bool → List Char → Option (List Char × List Char)
  | _, [] => none
  | true, c :: rest => (literalEnd false rest).map fun r => (c :: r.1, r.2)
  | false, c :: rest =>
    if c = '\"' then some ([c], rest)
    else (literalEnd (c = '\\') rest).map fun r => (c :: r.1, r.2)

def readJsonString (lib : SerdeJson F) (s : Scanner) : Except JsonCodecError (String × Scanner) :=
  match literalEnd false s.next.rest with
  | none => fail "unterminated JSON string"
  | some (body, _) =>
    let literal := s.rest.take 1 ++ body
    match lib.fromStrString literal with
    | .ok string => .ok (string, s.skip literal)
    | .error err => .error (.validation s!"strictJsonCodec: malformed JSON string: {err}")

def consumeLiteral (literal : List Char) : Except JsonCodecError Scanner :=
  if literal.isPrefixOf s.rest then .ok (s.skip literal)
  else fail s!"malformed JSON near byte {s.index}"

/-- One digit or more. -/
def digits (start : Nat) (s : Scanner) : Except JsonCodecError Scanner :=
  if s.peek.any Char.isDigit then .ok (s.skipWhile Char.isDigit)
  else fail s!"malformed JSON number near byte {start}"

/-- The digits before the point: a zero stands alone. -/
def wholePart (start : Nat) (s : Scanner) : Except JsonCodecError Scanner :=
  if s.peek = some '0' then .ok s.next else digits start s

/-- The decimals, if there is a point. -/
def fraction (start : Nat) (s : Scanner) : Except JsonCodecError Scanner :=
  if s.peek = some '.' then digits start s.next else .ok s

/-- The exponent, if there is one. -/
def exponent (start : Nat) (s : Scanner) : Except JsonCodecError Scanner :=
  if s.peek = some 'e' ∨ s.peek = some 'E' then
    if s.next.peek = some '+' ∨ s.next.peek = some '-' then digits start s.next.next
    else digits start s.next
  else .ok s

def consumeNumber : Except JsonCodecError Scanner := do
  let whole ← wholePart s.index (if s.peek = some '-' then s.next else s)
  let decimals ← fraction s.index whole
  exponent s.index decimals

end

mutual

def parseValue (lib : SerdeJson F) : Nat → String → Scanner → Except JsonCodecError Scanner
  | 0, _, s => fail s!"malformed JSON near byte {s.index}"
  | fuel + 1, path, s =>
    let s := s.skipWhitespace
    match s.peek with
    | none => fail s!"malformed JSON near byte {s.index}"
    | some c =>
      if c = '{' then
        let s := s.next.skipWhitespace
        if s.peek = some '}' then .ok s.next else parseObject lib fuel path [] s
      else if c = '[' then
        let s := s.next.skipWhitespace
        if s.peek = some ']' then .ok s.next else parseArray lib fuel path 0 s
      else if c = '\"' then (s.readJsonString lib).map (·.2)
      else if c = 't' then s.consumeLiteral ['t', 'r', 'u', 'e']
      else if c = 'f' then s.consumeLiteral ['f', 'a', 'l', 's', 'e']
      else if c = 'n' then s.consumeLiteral ['n', 'u', 'l', 'l']
      else if c = '-' ∨ c.isDigit = true then s.consumeNumber
      else fail s!"malformed JSON near byte {s.index}"

/-- The loop over the entries of an object, with the keys seen so far. -/
def parseObject (lib : SerdeJson F) :
    Nat → String → List String → Scanner → Except JsonCodecError Scanner
  | 0, _, _, _ => fail "unterminated JSON object"
  | fuel + 1, path, keys, s =>
    if s.rest = [] then fail "unterminated JSON object"
    else
      let s := s.skipWhitespace
      if s.peek ≠ some '\"' then fail s!"expected object key near byte {s.index}"
      else do
        let (key, s) ← s.readJsonString lib
        if key ∈ keys then
          .error (.validation
            s!"strictJsonCodec: duplicate object key {lib.debug key} at {path}")
        else
          let s := s.skipWhitespace
          if s.peek ≠ some ':' then fail s!"expected ':' after object key near byte {s.index}"
          else do
            let s ← parseValue lib fuel s!"{path}.{key}" s.next
            let s := s.skipWhitespace
            if s.peek = some ',' then parseObject lib fuel path (keys ++ [key]) s.next
            else if s.peek = some '}' then .ok s.next
            else fail s!"expected ',' or '\x7d' near byte {s.index}"

/-- The loop over the items of an array. -/
def parseArray (lib : SerdeJson F) :
    Nat → String → Nat → Scanner → Except JsonCodecError Scanner
  | 0, _, _, _ => fail "unterminated JSON array"
  | fuel + 1, path, item, s =>
    if s.rest = [] then fail "unterminated JSON array"
    else do
      let s ← parseValue lib fuel s!"{path}[{item}]" s
      let s := s.skipWhitespace
      if s.peek = some ',' then parseArray lib fuel path (item + 1) s.next
      else if s.peek = some ']' then .ok s.next
      else fail s!"expected ',' or ']' near byte {s.index}"

end

end Scanner

def assertNoDuplicateJsonObjectKeys (lib : SerdeJson F) (text : List Char) :
    Except JsonCodecError Unit := do
  let s ← Scanner.parseValue lib (text.length + 1) "$" ⟨0, text⟩
  let s := s.skipWhitespace
  if s.rest ≠ [] then
    .error (.validation s!"strictJsonCodec: trailing JSON token near byte {s.index}")
  else .ok ()

namespace Scanner

/-! ### Passing over a known front -/

@[simp] theorem skip_append (i : Nat) (text rest : List Char) :
    skip ⟨i, text ++ rest⟩ text = ⟨i + byteLength text, rest⟩ := by
  simp [skip]

@[simp] theorem next_cons (i : Nat) (c : Char) (rest : List Char) :
    next ⟨i, c :: rest⟩ = ⟨i + byteLength [c], rest⟩ := by
  simp [next, skip]

@[simp] theorem peek_cons (i : Nat) (c : Char) (rest : List Char) :
    peek ⟨i, c :: rest⟩ = some c := rfl

/-- The characters that the scanner passes over between tokens. -/
def isSpace (c : Char) : Bool := c = ' ' || c = '\n' || c = '\r' || c = '\t'

variable {c : Char}

@[simp] theorem skipWhitespace_cons (i : Nat) (rest : List Char)
    (h : isSpace c = false) : skipWhitespace ⟨i, c :: rest⟩ = ⟨i, c :: rest⟩ := by
  unfold isSpace at h
  simp [skipWhitespace, skipWhile, skip, h, byteLength]

variable {rest : List Char}

theorem skipWhile_append (i : Nat) {p : Char → Bool} {text : List Char}
    (htext : ∀ c ∈ text, p c = true) (hrest : ∀ c ∈ rest.head?, p c = false) :
    skipWhile ⟨i, text ++ rest⟩ p = ⟨i + byteLength text, rest⟩ := by
  have htake : (text ++ rest).takeWhile p = text := by
    rw [takeWhile_append_of_pos htext]
    cases rest with
    | nil => simp
    | cons c rest => simp [hrest c rfl]
  rw [skipWhile, htake, skip_append]

/-! ### String literals -/

theorem hexDigit_plain {n : Nat} (h : n < 16) : hexDigit n ≠ '\"' ∧ hexDigit n ≠ '\\' := by
  interval_cases n <;> decide

theorem literalEnd_escapeChar (c : Char) (text : List Char) :
    literalEnd false (escapeChar c ++ text)
      = (literalEnd false text).map fun r => (escapeChar c ++ r.1, r.2) := by
  unfold escapeChar
  split_ifs with h1 h2 h3 h4 h5 h6 h7 h8
  -- The two-character escapes, the numeric escape and the plain character.
  iterate 7 simp [literalEnd, Function.comp_def]
  · obtain ⟨hhigh, hhigh'⟩ := hexDigit_plain (show c.toNat / 16 < 16 by omega)
    obtain ⟨hlow, hlow'⟩ := hexDigit_plain (show c.toNat % 16 < 16 by omega)
    simp [literalEnd, hhigh, hhigh', hlow, hlow', Function.comp_def]
  · simp [literalEnd, h1, h2]

theorem literalEnd_escaped (cs rest : List Char) :
    literalEnd false (cs.flatMap escapeChar ++ '\"' :: rest)
      = some (cs.flatMap escapeChar ++ ['\"'], rest) := by
  induction cs with
  | nil => rfl
  | cons c cs ih =>
    rw [flatMap_cons, append_assoc, literalEnd_escapeChar, ih]
    simp

variable {lib : SerdeJson F}

theorem readJsonString_quote [Float64 F] (hlib : lib.Lawful) (i : Nat)
    (s : String) (rest : List Char) :
    readJsonString lib ⟨i, quote s ++ rest⟩ = .ok (s, ⟨i + byteLength (quote s), rest⟩) := by
  have htext : quote s ++ rest = '\"' :: (s.toList.flatMap escapeChar ++ '\"' :: rest) := by
    simp [quote]
  have hquote : '\"' :: (s.toList.flatMap escapeChar ++ ['\"']) = quote s := rfl
  rw [readJsonString, htext, next_cons, literalEnd_escaped]
  simp only [take_succ_cons, take_zero, singleton_append, hquote,
    hlib.string_quote]
  rw [← htext, skip_append]

/-! ### Numbers -/

/-- What may follow a value. -/
def Ends (rest : List Char) : Prop := ∀ c ∈ rest.head?, c = ',' ∨ c = ']' ∨ c = '}'

theorem Ends.cons (h : c = ',' ∨ c = ']' ∨ c = '}') :
    Ends (c :: rest) := by
  intro d hd
  rw [List.head?_cons, Option.mem_some_iff] at hd
  rw [← hd]
  exact h

theorem Ends.peek (h : Ends rest) (i : Nat)
    (hc : c ≠ ',' ∧ c ≠ ']' ∧ c ≠ '}') : Scanner.peek ⟨i, rest⟩ ≠ some c := by
  intro heq
  rcases h c heq with rfl | rfl | rfl
  · exact hc.1 rfl
  · exact hc.2.1 rfl
  · exact hc.2.2 rfl

theorem Ends.digit (h : Ends rest) : ∀ c ∈ rest.head?, c.isDigit = false := by
  intro c hc
  rcases h c hc with rfl | rfl | rfl <;> rfl

theorem toDigits_head (n : Nat) (hn : n ≠ 0) : (Nat.toDigits 10 n).head? ≠ some '0' := by
  induction n using Nat.strongRecOn with
  | _ n ih =>
    by_cases h : n < 10
    · rw [Nat.toDigits_of_lt_base h]
      interval_cases n <;> simp_all
    · rw [Nat.toDigits_of_base_le (by decide) (by omega), List.head?_append]
      have := ih (n / 10) (by omega) (by omega)
      obtain ⟨d, ds, heq, -⟩ := toDigits_eq_cons (n / 10)
      rw [heq] at this ⊢
      simpa using this

theorem wholePart_toDigits (start i n : Nat) (hrest : Ends rest) :
    ∃ j, wholePart start ⟨i, Nat.toDigits 10 n ++ rest⟩ = .ok ⟨j, rest⟩ := by
  by_cases hn : n = 0
  · subst hn
    exact ⟨i + byteLength ['0'], by simp [wholePart]⟩
  · have hdigits : ∀ c ∈ Nat.toDigits 10 n, c.isDigit = true := fun c hc =>
      Nat.isDigit_of_mem_toDigits (by decide) (by decide) hc
    have hskip := skipWhile_append i hdigits hrest.digit
    obtain ⟨d, ds, heq, hd⟩ := toDigits_eq_cons n
    have hhead := toDigits_head n hn
    rw [heq] at hskip hhead ⊢
    have hne : d ≠ '0' := by simpa using hhead
    refine ⟨i + byteLength (d :: ds), ?_⟩
    rw [cons_append] at hskip ⊢
    rw [wholePart, peek_cons, if_neg (by simpa using hne), digits, peek_cons,
      if_pos (by simpa using hd),
      hskip]

theorem consumeNumber_decimal (i : Nat) (n : Int) (hrest : Ends rest) :
    ∃ j, consumeNumber ⟨i, decimal n ++ rest⟩ = .ok ⟨j, rest⟩ := by
  have hsign : ∃ k, (if peek ⟨i, decimal n ++ rest⟩ = some '-' then next ⟨i, decimal n ++ rest⟩
      else ⟨i, decimal n ++ rest⟩) = ⟨k, Nat.toDigits 10 n.natAbs ++ rest⟩ := by
    unfold decimal
    split_ifs with h h' h'
    · exact ⟨_, next_cons _ _ _⟩
    · exact absurd rfl h'
    · obtain ⟨d, ds, heq, hd⟩ := toDigits_eq_cons n.natAbs
      rw [heq, cons_append, peek_cons, Option.some.injEq] at h'
      rw [h'] at hd
      exact absurd hd (by decide)
    · exact ⟨i, rfl⟩
  obtain ⟨k, hk⟩ := hsign
  obtain ⟨j, hj⟩ := wholePart_toDigits i k n.natAbs hrest
  refine ⟨j, ?_⟩
  have hpoint := hrest.peek j (c := '.') (by decide)
  have hsmall := hrest.peek j (c := 'e') (by decide)
  have hlarge := hrest.peek j (c := 'E') (by decide)
  simp only [consumeNumber, hk, hj, fraction, exponent, bind, Except.bind, if_neg hpoint,
    if_neg (not_or.mpr ⟨hsmall, hlarge⟩)]

/-! ### Values -/

/-- The scanner passes over the compact text of the value, whatever may
    follow. -/
def Scans [Float64 F] (lib : SerdeJson F) (v : Value F) : Prop :=
  ∀ fuel path i rest, (compact v).length ≤ fuel → Ends rest →
    ∃ j, parseValue lib fuel path ⟨i, compact v ++ rest⟩ = .ok ⟨j, rest⟩

theorem isSpace_signOrDigit {d : Char} (hd : d = '-' ∨ d.isDigit = true) : isSpace d = false := by
  have hne := ne_of_signOrDigit hd
  simp [isSpace, hne ' ' (by decide) rfl, hne '\n' (by decide) rfl, hne '\r' (by decide) rfl,
    hne '\t' (by decide) rfl]

theorem compact_eq_cons [Float64 F] {v : Value F} (hv : v.Integers) :
    ∃ c cs, compact v = c :: cs ∧ isSpace c = false ∧ c ≠ ']' := by
  cases v with
  | number n =>
    cases n with
    | int n =>
      obtain ⟨d, ds, heq, hd⟩ := decimal_eq_cons n
      exact ⟨d, ds, heq, isSpace_signOrDigit hd, ne_of_signOrDigit hd ']' (by decide) rfl⟩
    | float x => exact absurd hv id
  | bool b => cases b <;> exact ⟨_, _, rfl, rfl, by decide⟩
  | null | string _ | array _ | object _ => exact ⟨_, _, rfl, rfl, by decide⟩

theorem parseArray_compact [Float64 F] (vs : List (Value F)) (hne : vs ≠ [])
    (h : ∀ v ∈ vs, Scans lib v) (fuel : Nat) (path : String) (item i : Nat) (rest : List Char)
    (hfuel : ([','].intercalate (vs.map compact)).length < fuel) :
    ∃ j, parseArray lib fuel path item ⟨i, [','].intercalate (vs.map compact) ++ ']' :: rest⟩
      = .ok ⟨j, rest⟩ := by
  induction vs generalizing fuel item i with
  | nil => exact absurd rfl hne
  | cons v vs ih =>
    obtain ⟨fuel, rfl⟩ : ∃ n, fuel = n + 1 := ⟨fuel - 1, by omega⟩
    rw [forall_mem_cons] at h
    cases vs with
    | nil =>
      have htext : [','].intercalate ([v].map compact) = compact v := by simp
      rw [htext] at hfuel ⊢
      obtain ⟨j, hj⟩ := h.1 fuel s!"{path}[{item}]" i (']' :: rest) (by omega)
        (Ends.cons (by simp))
      refine ⟨j + byteLength [']'], ?_⟩
      rw [parseArray, if_neg (by simp), hj]
      simp [bind, Except.bind, isSpace]
    | cons w ws =>
      rw [map_cons, map_cons, intercalate_cons_cons] at hfuel ⊢
      rw [length_append, length_cons] at hfuel
      rw [append_assoc, cons_append]
      obtain ⟨j, hj⟩ := h.1 fuel s!"{path}[{item}]" i
        (',' :: ([','].intercalate (compact w :: ws.map compact) ++ ']' :: rest)) (by omega)
        (Ends.cons (by simp))
      obtain ⟨k, hk⟩ := ih (by simp) h.2 fuel (item + 1) (j + byteLength [','])
        (by rw [map_cons]; omega)
      refine ⟨k, ?_⟩
      rw [map_cons] at hk
      rw [parseArray, if_neg (by simp), hj]
      simpa [bind, Except.bind, isSpace] using hk

theorem parseObject_compact [Float64 F] (hlib : lib.Lawful)
    (es : List (String × Value F)) (hne : es ≠ []) (h : ∀ e ∈ es, Scans lib e.2)
    (fuel : Nat) (path : String) (seen : List String) (hseen : (seen ++ Value.keys es).Nodup)
    (i : Nat) (rest : List Char)
    (hfuel : ([','].intercalate (es.map fun e => entryText (e.1, compact e.2))).length < fuel) :
    ∃ j, parseObject lib fuel path seen
      ⟨i, [','].intercalate (es.map fun e => entryText (e.1, compact e.2)) ++ '}' :: rest⟩
        = .ok ⟨j, rest⟩ := by
  induction es generalizing fuel seen i with
  | nil => exact absurd rfl hne
  | cons e es ih =>
    obtain ⟨fuel, rfl⟩ : ∃ n, fuel = n + 1 := ⟨fuel - 1, by omega⟩
    obtain ⟨key, v⟩ := e
    rw [forall_mem_cons] at h
    have hv : Scans lib v := h.1
    have hkeys : Value.keys ((key, v) :: es) = key :: Value.keys es := rfl
    have hfresh : key ∉ seen := by
      intro hmem
      rw [hkeys, nodup_append] at hseen
      exact hseen.2.2 key hmem key mem_cons_self rfl
    have hentry : (entryText (key, compact v)).length
        = (quote key).length + (compact v).length + 1 := by
      simp only [entryText, length_append, length_cons]
      omega
    -- One round of the loop, up to the value's end.
    have hround : ∀ text, parseObject lib (fuel + 1) path seen
        ⟨i, entryText (key, compact v) ++ text⟩ = (do
          let s ← parseValue lib fuel s!"{path}.{key}"
            ⟨i + byteLength (quote key) + byteLength [':'], compact v ++ text⟩
          let s := s.skipWhitespace
          if s.peek = some ',' then parseObject lib fuel path (seen ++ [key]) s.next
          else if s.peek = some '}' then .ok s.next
          else fail s!"expected ',' or '\x7d' near byte {s.index}") := by
      intro text
      have hread := readJsonString_quote hlib i key (':' :: (compact v ++ text))
      have htext : entryText (key, compact v) ++ text = quote key ++
        ':' :: (compact v ++ text) := by
        simp [entryText]
      have hcons : quote key ++ ':' :: (compact v ++ text)
          = '\"' :: ((quote key).tail ++ ':' :: (compact v ++ text)) := rfl
      rw [htext, parseObject, if_neg (by simp)]
      simp only [hcons]
      rw [skipWhitespace_cons i _ rfl]
      simp only [peek_cons, ne_eq, not_true_eq_false, if_false]
      rw [← hcons, hread]
      simp [bind, Except.bind, hfresh, isSpace]
    cases es with
    | nil =>
      have htext : [','].intercalate ([(key, v)].map fun e => entryText (e.1, compact e.2))
          = entryText (key, compact v) := by simp
      rw [htext] at hfuel ⊢
      obtain ⟨j, hj⟩ := hv fuel s!"{path}.{key}" (i + byteLength (quote key) + byteLength [':'])
        ('}' :: rest) (by omega) (Ends.cons (by simp))
      refine ⟨j + byteLength ['}'], ?_⟩
      rw [hround, hj]
      simp [bind, Except.bind, isSpace]
    | cons f fs =>
      rw [map_cons, map_cons, intercalate_cons_cons] at hfuel ⊢
      rw [length_append, length_cons, hentry] at hfuel
      rw [append_assoc, cons_append]
      obtain ⟨j, hj⟩ := hv fuel s!"{path}.{key}" (i + byteLength (quote key) + byteLength [':'])
        (',' :: ([','].intercalate (entryText (f.1, compact f.2) ::
          fs.map fun e => entryText (e.1, compact e.2)) ++ '}' :: rest)) (by omega)
        (Ends.cons (by simp))
      obtain ⟨k, hk⟩ := ih (by simp) h.2 fuel (seen ++ [key])
        (by rw [append_assoc]; exact hseen) (j + byteLength [','])
        (by rw [map_cons]; omega)
      refine ⟨k, ?_⟩
      rw [map_cons] at hk
      rw [hround, hj]
      simpa [bind, Except.bind, isSpace] using hk

theorem parseValue_cons (fuel : Nat) (path : String) (i : Nat)
    (rest : List Char) (h : isSpace c = false) :
    parseValue lib (fuel + 1) path ⟨i, c :: rest⟩ =
      if c = '{' then
        let s := (⟨i + byteLength [c], rest⟩ : Scanner).skipWhitespace
        if s.peek = some '}' then .ok s.next else parseObject lib fuel path [] s
      else if c = '[' then
        let s := (⟨i + byteLength [c], rest⟩ : Scanner).skipWhitespace
        if s.peek = some ']' then .ok s.next else parseArray lib fuel path 0 s
      else if c = '\"' then (readJsonString lib ⟨i, c :: rest⟩).map (·.2)
      else if c = 't' then consumeLiteral ⟨i, c :: rest⟩ ['t', 'r', 'u', 'e']
      else if c = 'f' then consumeLiteral ⟨i, c :: rest⟩ ['f', 'a', 'l', 's', 'e']
      else if c = 'n' then consumeLiteral ⟨i, c :: rest⟩ ['n', 'u', 'l', 'l']
      else if c = '-' ∨ c.isDigit = true then consumeNumber ⟨i, c :: rest⟩
      else fail s!"malformed JSON near byte {i}" := by
  rw [parseValue, skipWhitespace_cons i rest h]
  simp only [peek_cons, next_cons]

theorem consumeLiteral_append (i : Nat) (literal rest : List Char) :
    consumeLiteral ⟨i, literal ++ rest⟩ literal = .ok ⟨i + byteLength literal, rest⟩ := by
  simp [consumeLiteral]

theorem scans_number [Float64 F] (lib : SerdeJson F) (n : Int) :
    Scans lib (.number (.int n) : Value F) := by
  intro fuel path i rest hfuel hrest
  obtain ⟨j, hj⟩ := consumeNumber_decimal i n hrest
  obtain ⟨d, ds, heq, hd⟩ := decimal_eq_cons n
  have hne := ne_of_signOrDigit hd
  refine ⟨j, ?_⟩
  rw [compact, canonicalNumberString, heq] at hfuel ⊢
  obtain ⟨fuel, rfl⟩ : ∃ n, fuel = n + 1 := ⟨fuel - 1, by simp at hfuel; omega⟩
  rw [heq, cons_append] at hj
  rw [cons_append, parseValue_cons fuel path i _ (isSpace_signOrDigit hd),
    if_neg (hne '{' (by decide) rfl),
    if_neg (hne '[' (by decide) rfl), if_neg (hne '\"' (by decide) rfl),
    if_neg (hne 't' (by decide) rfl), if_neg (hne 'f' (by decide) rfl),
    if_neg (hne 'n' (by decide) rfl), if_pos hd, hj]

/-- The scanner passes over every compact text whose objects have distinct
    keys. -/
theorem scans_compact [Float64 F] (hlib : lib.Lawful) {v : Value F}
    (hv : v.Integers) (hdistinct : v.Distinct) : Scans lib v := by
  induction v using Value.induction with
  | null =>
    intro fuel path i rest hfuel _
    obtain ⟨fuel, rfl⟩ : ∃ n, fuel = n + 1 := ⟨fuel - 1, by simp [compact] at hfuel; omega⟩
    exact ⟨_, consumeLiteral_append i ['n', 'u', 'l', 'l'] rest⟩
  | bool b =>
    intro fuel path i rest hfuel _
    obtain ⟨fuel, rfl⟩ : ∃ n, fuel = n + 1 :=
      ⟨fuel - 1, by cases b <;> simp [compact] at hfuel <;> omega⟩
    cases b with
    | true => exact ⟨_, consumeLiteral_append i ['t', 'r', 'u', 'e'] rest⟩
    | false => exact ⟨_, consumeLiteral_append i ['f', 'a', 'l', 's', 'e'] rest⟩
  | number n =>
    cases n with
    | int n => exact scans_number lib n
    | float x => exact absurd hv id
  | string s =>
    intro fuel path i rest hfuel _
    obtain ⟨fuel, rfl⟩ : ∃ n, fuel = n + 1 :=
      ⟨fuel - 1, by simp [compact, quote] at hfuel; omega⟩
    have hread := readJsonString_quote hlib i s rest
    have hcons : quote s ++ rest = '\"' :: ((quote s).tail ++ rest) := rfl
    refine ⟨i + byteLength (quote s), ?_⟩
    rw [compact, hcons, parseValue_cons fuel path i _ rfl, ← hcons, hread]
    rfl
  | array vs ih =>
    intro fuel path i rest hfuel _
    obtain ⟨fuel, rfl⟩ : ∃ n, fuel = n + 1 := ⟨fuel - 1, by simp [compact] at hfuel; omega⟩
    have hparts := ((Value.all_array _ _).mp hv).2
    have hkeys := ((Value.all_array _ _).mp hdistinct).2
    rw [compact, compactValues_eq_map] at hfuel ⊢
    simp only [length_cons, length_append, length_nil] at hfuel
    rw [cons_append, parseValue_cons fuel path i _ rfl, append_assoc,
      singleton_append]
    cases vs with
    | nil => exact ⟨_, rfl⟩
    | cons w ws =>
      obtain ⟨j, hj⟩ := parseArray_compact (w :: ws) (by simp)
        (fun v hmem => ih v hmem (hparts v hmem) (hkeys v hmem)) fuel path 0
        (i + byteLength ['[']) rest (by omega)
      obtain ⟨c, cs, heq, hspace, hclose⟩ := compact_eq_cons (hparts w mem_cons_self)
      obtain ⟨tail, htail⟩ := intercalate_cons (compact w) (ws.map compact)
      refine ⟨j, ?_⟩
      rw [map_cons, htail, heq, cons_append, cons_append] at hj ⊢
      rw [if_neg (by decide), if_pos rfl, skipWhitespace_cons _ _ hspace]
      simpa [hclose] using hj
  | object es ih =>
    intro fuel path i rest hfuel _
    obtain ⟨fuel, rfl⟩ : ∃ n, fuel = n + 1 := ⟨fuel - 1, by simp [compact] at hfuel; omega⟩
    have hparts := ((Value.all_object _ _).mp hv).2
    have hkeys := (Value.all_object _ _).mp hdistinct
    rw [compact, compactEntries_eq_map] at hfuel ⊢
    simp only [length_cons, length_append, length_nil] at hfuel
    rw [cons_append, parseValue_cons fuel path i _ rfl, append_assoc,
      singleton_append]
    cases es with
    | nil => exact ⟨_, rfl⟩
    | cons e es =>
      obtain ⟨j, hj⟩ := parseObject_compact hlib (e :: es) (by simp)
        (fun e hmem => ih e hmem (hparts e hmem) (hkeys.2 e hmem)) fuel path [] hkeys.1
        (i + byteLength ['{']) rest (by omega)
      obtain ⟨tail, htail⟩ := intercalate_cons (entryText (e.1, compact e.2))
        (es.map fun e => entryText (e.1, compact e.2))
      have hentry : entryText (e.1, compact e.2)
          = '\"' :: ((quote e.1).tail ++ ':' :: compact e.2) := rfl
      refine ⟨j, ?_⟩
      rw [map_cons, htail, hentry, cons_append, cons_append] at hj ⊢
      rw [if_pos rfl, skipWhitespace_cons _ _ rfl]
      simpa using hj

end Scanner

/-- The scanner accepts every compact text whose objects have distinct keys. -/
theorem assertNoDuplicateJsonObjectKeys_compact [Float64 F] {lib : SerdeJson F}
    (hlib : lib.Lawful) {v : Value F} (hv : v.Integers) (hdistinct : v.Distinct) :
    assertNoDuplicateJsonObjectKeys lib (compact v) = .ok () := by
  obtain ⟨j, hj⟩ := Scanner.scans_compact hlib hv hdistinct ((compact v).length + 1) "$" 0 []
    (Nat.le_succ _) (by simp [Scanner.Ends])
  rw [append_nil] at hj
  rw [assertNoDuplicateJsonObjectKeys, hj]
  rfl

end GraphRefly.Json
