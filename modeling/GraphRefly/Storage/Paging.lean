import GraphRefly.Storage.ListLog

/-!
# Pages of an Append Log

`read_append_log_page` reads a log page by page. It asks the log for one entry
more than the page holds; whether that entry comes back says whether the page is
the last one. The number of the page's last entry is where the next page starts.

A reader calls it again and again, with a limit of its own for every call, and
between two calls the log may have grown. `pageCall` is the reader's call number
`n`. What makes it complete is that a page holds everything between its start
and its end that is in the log at that call (`Stores.page`), and that entries
are only ever added behind the others: what a reader has passed stays as it was.

## Main definitions

* `readAppendLogPage`: One page.
* `pageCall`: The reader's calls, each from where the page before it ends.
* `between`: The entries of a log after one number and up to another.

## Theorems

* `Stores.page`: What a page holds, where it ends and when it is the last.
* `paging_complete`: The pages read hold every entry once, and the reader ends.
-/

namespace GraphRefly.Storage

open List

variable {σ V : Type}

/-- The largest `usize`. -/
def usizeMax : Nat := 2 ^ 64 - 1

structure AppendLogReadOptions where
  after : Option Nat
  limit : Option Nat

structure AppendLogPage (V : Type) where
  entries : List (AppendLogEntry V)
  nextAfter : Option Nat
  done : Bool

/-- One page of a log. -/
def readAppendLogPage (kv : KvStorageTier σ V) (pre : String) (s : σ)
    (opts : AppendLogReadOptions) : Except StorageError (AppendLogPage V) :=
  let limit := opts.limit.getD 100
  if limit = 0 then
    .error (.backend "read_append_log_page: limit must be positive")
  else if limit = usizeMax then
    .error (.backend "read_append_log_page: limit must leave room for one lookahead entry")
  else do
    let entries ← readAppendLogEntries kv pre s opts.after (some (limit + 1))
    let done := decide (entries.length ≤ limit)
    let entries := if limit < entries.length then entries.take limit else entries
    return ⟨entries, (entries.getLast?.map (·.seq)).or opts.after, done⟩

/-- The reader's call number `n`: the log as it is then, a limit of its own, and
    the place where the page before it ends. -/
def pageCall (kv : KvStorageTier σ V) (pre : String) (logs : Nat → σ) (limits : Nat → Option Nat)
    (start : Option Nat) : Nat → Except StorageError (AppendLogPage V)
  | 0 => readAppendLogPage kv pre (logs 0) ⟨start, limits 0⟩
  | n + 1 => do
      let page ← pageCall kv pre logs limits start n
      readAppendLogPage kv pre (logs (n + 1)) ⟨page.nextAfter, limits (n + 1)⟩

/-- The entries of a log after one number and up to another. -/
def between (start stop : Option Nat) (es : List (Nat × V)) : List (Nat × V) :=
  es.filter fun e => isAfter start e.1 && !isAfter stop e.1

/-- Where a call of the reader starts. -/
def callStart (start : Option Nat) (pages : Nat → AppendLogPage V) : Nat → Option Nat
  | 0 => start
  | n + 1 => (pages n).nextAfter

/-- A limit that the reader may give. -/
def ValidLimit (limit : Option Nat) : Prop := 0 < limit.getD 100 ∧ limit.getD 100 < usizeMax

/-- Everything after the second number is after the first. -/
def Past (start stop : Option Nat) : Prop := ∀ seq, isAfter stop seq = true →
    isAfter start seq = true

/-! ### One page -/

variable {kv : KvStorageTier σ V} {pre : String} {s : σ} {es : List (Nat × V)}

/-- Where a page ends: at its last entry, or where it starts. -/
def pageEnd (after : Option Nat) (page : List (Nat × V)) : Option Nat :=
  (page.getLast?.map (·.1)).or after

theorem isAfter_pageEnd (after : Option Nat) {page rest : List (Nat × V)}
    (hsorted : (page ++ rest).Pairwise fun a b => a.1 < b.1) (hempty : page = [] → rest = []) :
    (∀ e ∈ page, isAfter (pageEnd after page) e.1 = false) ∧
      ∀ e ∈ rest, isAfter (pageEnd after page) e.1 = true := by
  rcases eq_nil_or_concat page with rfl | ⟨init, last, rfl⟩
  · rw [hempty rfl]
    exact ⟨fun e he => absurd he not_mem_nil, fun e he => absurd he not_mem_nil⟩
  · have hend : pageEnd after (init ++ [last]) = some last.1 := by simp [pageEnd]
    rw [concat_eq_append] at hsorted ⊢
    rw [pairwise_append, pairwise_append] at hsorted
    obtain ⟨⟨-, -, hinit⟩, -, hrest⟩ := hsorted
    simp only [hend, isAfter, Option.all_some]
    constructor
    · intro e he
      rcases mem_append.mp he with he | he
      · have := hinit e he last (mem_singleton_self _)
        simp
        omega
      · rw [mem_singleton.mp he]
        simp
    · intro e he
      have hlt := hrest last (mem_append_right _ (mem_singleton_self _)) e he
      simpa using hlt

theorem take_drop_between (hsorted : es.Pairwise fun a b => a.1 < b.1) (after : Option Nat)
    {limit : Nat} (hlimit : 0 < limit) :
    (es.filter fun e => isAfter after e.1).take limit =
        between after (pageEnd after ((es.filter fun e => isAfter after e.1).take limit)) es ∧
      (es.filter fun e => isAfter after e.1).drop limit = es.filter fun e =>
        isAfter (pageEnd after ((es.filter fun e => isAfter after e.1).take limit)) e.1 := by
  have hsorted' := hsorted.filter fun e => isAfter after e.1
  have hmem : ∀ e ∈ es.filter fun e => isAfter after e.1, isAfter after e.1 = true :=
    fun e he => (mem_filter.mp he).2
  generalize hl : (es.filter fun e => isAfter after e.1) = l at hsorted' hmem ⊢
  rw [← take_append_drop limit l] at hsorted' hmem
  have hempty : l.take limit = [] → l.drop limit = [] := by
    intro hnil
    rcases take_eq_nil_iff.mp hnil with hzero | hnil
    · omega
    · rw [hnil, drop_nil]
  obtain ⟨hpage, hrest⟩ := isAfter_pageEnd after hsorted' hempty
  have hpast : Past after (pageEnd after (l.take limit)) := by
    intro seq hseq
    unfold pageEnd at hseq
    cases hlast : (l.take limit).getLast? with
    | none =>
      rw [hlast] at hseq
      exact hseq
    | some e =>
      rw [hlast] at hseq
      have he := hmem e (mem_append_left _ (mem_of_getLast? hlast))
      unfold isAfter at he hseq ⊢
      cases after with
      | none => rfl
      | some a =>
        simp only [Option.map_some, Option.some_or, Option.all_some, decide_eq_true_eq]
          at he hseq ⊢
        omega
  constructor
  · have hfilter : between after (pageEnd after (l.take limit)) es =
        l.filter fun e => !isAfter (pageEnd after (l.take limit)) e.1 := by
      rw [← hl, filter_filter, hl, between]
      exact filter_congr fun e _ => Bool.and_comm _ _
    conv_rhs => rw [hfilter]
    conv_rhs =>
      arg 2
      rw [← take_append_drop limit l]
    rw [filter_append, filter_eq_self.mpr, filter_eq_nil_iff.mpr, append_nil]
    · intro e he
      simp [hrest e he]
    · intro e he
      simp [hpage e he]
  · have hfilter : (es.filter fun e => isAfter (pageEnd after (l.take limit)) e.1) =
        l.filter fun e => isAfter (pageEnd after (l.take limit)) e.1 := by
      rw [← hl, filter_filter, hl]
      refine filter_congr fun e _ => ?_
      cases hend : isAfter (pageEnd after (l.take limit)) e.1 with
      | false => rfl
      | true => rw [hpast e.1 hend]; rfl
    conv_rhs => rw [hfilter]
    conv_rhs =>
      arg 2
      rw [← take_append_drop limit l]
    rw [filter_append, filter_eq_nil_iff.mpr, filter_eq_self.mpr, nil_append]
    · exact hrest
    · intro e he
      simp [hpage e he]

/-- What a page holds, where it ends and when it is the last. -/
theorem Stores.page (h : Stores kv pre s es) (after : Option Nat)
    {limit : Option Nat} (hlimit : ValidLimit limit) :
    ∃ page, readAppendLogPage kv pre s ⟨after, limit⟩ = .ok page ∧
      page.entries = (between after page.nextAfter es).map (entryOf pre) ∧
      page.nextAfter =
        pageEnd after ((es.filter fun e => isAfter after e.1).take (limit.getD 100)) ∧
      (page.done = true ↔ ∀ e ∈ es, isAfter page.nextAfter e.1 = false) := by
  obtain ⟨hpos, hmax⟩ := hlimit
  obtain ⟨htake, hdrop⟩ := take_drop_between h.sorted after hpos
  have hread := h.read after (some (limit.getD 100 + 1))
  rw [Option.elim_some] at hread
  generalize hk : limit.getD 100 = k at hpos hmax htake hdrop hread
  generalize hl : (es.filter fun e => isAfter after e.1) = l at htake hdrop hread
  -- The page is cut to its limit, whether the entry behind it came back or not.
  have hcut : (if k < ((l.take (k + 1)).map (entryOf pre)).length then
      ((l.take (k + 1)).map (entryOf pre)).take k else (l.take (k + 1)).map (entryOf pre)) =
      (l.take k).map (entryOf pre) := by
    by_cases hlen : k < l.length
    · have hcut : k < ((l.take (k + 1)).map (entryOf pre)).length := by
        rw [length_map, length_take]
        omega
      rw [if_pos hcut, ← map_take, take_take, Nat.min_eq_left (Nat.le_succ k)]
    · have hcut : ¬ k < ((l.take (k + 1)).map (entryOf pre)).length := by
        rw [length_map, length_take]
        omega
      rw [if_neg hcut, take_of_length_le (by omega), take_of_length_le (by omega)]
  have hend : (((l.take k).map (entryOf pre)).getLast?.map (·.seq)).or after =
      pageEnd after (l.take k) := by
    rw [List.getLast?_map, Option.map_map]
    rfl
  refine ⟨⟨(l.take k).map (entryOf pre), pageEnd after (l.take k),
    decide (((l.take (k + 1)).map (entryOf pre)).length ≤ k)⟩, ?_, ?_, rfl, ?_⟩
  · simp only [readAppendLogPage, hk, if_neg (Nat.ne_of_gt hpos), if_neg (Nat.ne_of_lt hmax), hread]
    simp only [bind, Except.bind, pure, Except.pure, hcut, hend]
  · simp only
    rw [← htake]
  · have hrest : (∀ e ∈ es, isAfter (pageEnd after (l.take k)) e.1 = false) ↔ l.drop k = [] := by
      rw [hdrop, filter_eq_nil_iff]
      simp
    rw [hrest, drop_eq_nil_iff]
    simp only [decide_eq_true_eq, length_map, length_take]
    omega

/-! ### The reader -/

theorem past_refl (start : Option Nat) : Past start start := fun _ h => h

variable {a b c : Option Nat}

theorem Past.trans (hab : Past a b) (hbc : Past b c) : Past a c :=
  fun seq h => hab seq (hbc seq h)

theorem pageEnd_cases (after : Option Nat) (es : List (Nat × V)) (k : Nat) :
    (pageEnd after ((es.filter fun e => isAfter after e.1).take k) = after ∨
      ∃ e ∈ es, pageEnd after ((es.filter fun e => isAfter after e.1).take k) = some e.1) ∧
    Past after (pageEnd after ((es.filter fun e => isAfter after e.1).take k)) := by
  unfold pageEnd
  cases hlast : ((es.filter fun e => isAfter after e.1).take k).getLast? with
  | none => exact ⟨.inl rfl, past_refl after⟩
  | some e =>
    have he := mem_filter.mp (mem_of_mem_take (mem_of_getLast? hlast))
    refine ⟨.inr ⟨e, he.1, rfl⟩, fun seq hseq => ?_⟩
    cases after with
    | none => rfl
    | some a =>
      have hafter := he.2
      simp only [isAfter, Option.map_some, Option.some_or, Option.all_some, decide_eq_true_eq]
        at hafter hseq ⊢
      omega

theorem between_append (hsorted : es.Pairwise fun a b => a.1 < b.1)
    (hab : Past a b) (hbc : Past b c) :
    between a b es ++ between b c es = between a c es := by
  induction es with
  | nil => rfl
  | cons e es ih =>
    obtain ⟨hhead, htail⟩ := pairwise_cons.mp hsorted
    have hih := ih htail
    unfold between at hih ⊢
    simp only [filter_cons]
    by_cases hb : isAfter b e.1 = true
    · -- Nothing of the rest lies before the middle either.
      have hnil : (es.filter fun e' => isAfter a e'.1 && !isAfter b e'.1) = [] := by
        rw [filter_eq_nil_iff]
        intro e' he'
        have hlt := hhead e' he'
        have hb' : isAfter b e'.1 = true := by
          unfold isAfter at hb ⊢
          cases b with
          | none => rfl
          | some b =>
            simp only [Option.all_some, decide_eq_true_eq] at hb ⊢
            omega
        simp [hb']
      rw [hnil, nil_append] at hih
      simp only [hnil, hb, hab e.1 hb, hih, Bool.not_true, Bool.and_false, Bool.true_and,
        Bool.false_eq_true, if_false, nil_append]
    · have hc : ¬ isAfter c e.1 = true := fun hc => hb (hbc e.1 hc)
      simp only [hb, hc, Bool.not_false, Bool.and_true, Bool.false_eq_true, if_false]
      by_cases ha : isAfter a e.1 = true
      · rw [if_pos ha, if_pos ha, cons_append, hih]
      · rw [if_neg ha, if_neg ha, hih]

theorem between_grow {es' : List (Nat × V)} (hsorted : es'.Pairwise fun a b => a.1 < b.1)
    (hgrow : es <+: es') {start stop : Option Nat}
    (hstop : stop = start ∨ ∃ e ∈ es, stop = some e.1) :
    between start stop es' = between start stop es := by
  obtain ⟨added, rfl⟩ := hgrow
  have hnil : (added.filter fun e => isAfter start e.1 && !isAfter stop e.1) = [] := by
    rw [filter_eq_nil_iff]
    intro e he
    rcases hstop with rfl | ⟨e', he', rfl⟩
    · simp
    · have hlt := (pairwise_append.mp hsorted).2.2 e' he' e he
      simp [isAfter, hlt]
  rw [between, filter_append, hnil, append_nil]
  rfl

section Reader

variable {kv : KvStorageTier σ V} {pre : String} {logs : Nat → σ} {es : Nat → List (Nat × V)}
variable {limits : Nat → Option Nat}

/-- What a call of the reader returns, from where it starts. -/
structure Reads (es : Nat → List (Nat × V)) (limits : Nat → Option Nat) (n : Nat)
    (after : Option Nat) (pre : String) (page : AppendLogPage V) : Prop where
  entries : page.entries = (between after page.nextAfter (es n)).map (entryOf pre)
  stop : page.nextAfter =
    pageEnd after (((es n).filter fun e => isAfter after e.1).take ((limits n).getD 100))
  last : page.done = true ↔ ∀ e ∈ es n, isAfter page.nextAfter e.1 = false

theorem exists_pages (start : Option Nat) (hlogs : ∀ n, Stores kv pre (logs n) (es n))
    (hlimits : ∀ n, ValidLimit (limits n)) :
    ∃ pages : Nat → AppendLogPage V, (∀ n, pageCall kv pre logs limits start n = .ok (pages n)) ∧
      ∀ n, Reads es limits n (callStart start pages n) pre (pages n) := by
  have hcall : ∀ n, ∃ page, pageCall kv pre logs limits start n = .ok page := by
    intro n
    induction n with
    | zero =>
      obtain ⟨page, hpage, -⟩ := (hlogs 0).page start (hlimits 0)
      exact ⟨page, hpage⟩
    | succ n ih =>
      obtain ⟨page, hpage⟩ := ih
      obtain ⟨next, hnext, -⟩ := (hlogs (n + 1)).page page.nextAfter (hlimits (n + 1))
      exact ⟨next, by rw [pageCall, hpage]; exact hnext⟩
  choose pages hpages using hcall
  refine ⟨pages, hpages, fun n => ?_⟩
  obtain ⟨page, hpage, hentries, hstop, hlast⟩ :=
    (hlogs n).page (callStart start pages n) (hlimits n)
  have heq : pages n = page := by
    cases n with
    | zero => exact Except.ok.inj ((hpages 0).symm.trans hpage)
    | succ n =>
      have hcall := hpages (n + 1)
      rw [pageCall, hpages n] at hcall
      exact Except.ok.inj (hcall.symm.trans hpage)
  rw [heq]
  exact ⟨hentries, hstop, hlast⟩

variable {start : Option Nat} {pages : Nat → AppendLogPage V}

/-- A page ends at the reader's start or at an entry of the log, and never before
    the reader's start. -/
theorem stop_cases (hgrow : ∀ n, es n <+: es (n + 1))
    (hreads : ∀ n, Reads es limits n (callStart start pages n) pre (pages n)) (n : Nat) :
    ((pages n).nextAfter = start ∨ ∃ e ∈ es n, (pages n).nextAfter = some e.1) ∧
      Past start (pages n).nextAfter := by
  induction n with
  | zero =>
    rw [(hreads 0).stop]
    exact pageEnd_cases start (es 0) _
  | succ n ih =>
    obtain ⟨hcases, hpast⟩ := pageEnd_cases (pages n).nextAfter (es (n + 1))
      ((limits (n + 1)).getD 100)
    rw [(hreads (n + 1)).stop]
    refine ⟨?_, ih.2.trans hpast⟩
    rcases hcases with heq | hentry
    · rw [callStart, heq]
      rcases ih.1 with hstart | ⟨e, he, hentry⟩
      · exact .inl hstart
      · exact .inr ⟨e, (hgrow n).subset he, hentry⟩
    · exact .inr hentry

/-- What the reader has read after some calls. -/
def pagesRead (pages : Nat → AppendLogPage V) (n : Nat) : List (AppendLogEntry V) :=
  (List.range n).flatMap fun i => (pages i).entries

-- By induction on the calls: what was read before is still all there is up to the
-- end of the page before, and the next page holds what follows.
theorem pagesRead_eq (hlogs : ∀ n, Stores kv pre (logs n) (es n)) (hgrow : ∀ n, es n <+: es (n + 1))
    (hreads : ∀ n, Reads es limits n (callStart start pages n) pre (pages n)) (n : Nat) :
    pagesRead pages (n + 1) = (between start (pages n).nextAfter (es n)).map (entryOf pre) := by
  induction n with
  | zero =>
    rw [pagesRead, range_one, flatMap_singleton, (hreads 0).entries]
    rfl
  | succ n ih =>
    obtain ⟨hcases, hpast⟩ := stop_cases hgrow hreads n
    have hpast' : Past (pages n).nextAfter (pages (n + 1)).nextAfter := by
      rw [(hreads (n + 1)).stop]
      exact (pageEnd_cases _ _ _).2
    have hsorted := (hlogs (n + 1)).sorted
    calc pagesRead pages (n + 2)
        = pagesRead pages (n + 1) ++ (pages (n + 1)).entries := by
          rw [pagesRead, range_succ, flatMap_append, flatMap_singleton]
          rfl
      _ = (between start (pages n).nextAfter (es (n + 1))).map (entryOf pre) ++
            (between (pages n).nextAfter (pages (n + 1)).nextAfter (es (n + 1))).map
              (entryOf pre) := by
          rw [ih, (hreads (n + 1)).entries, between_grow hsorted (hgrow n) hcases]
          rfl
      _ = (between start (pages (n + 1)).nextAfter (es (n + 1))).map (entryOf pre) := by
          rw [← map_append, between_append hsorted hpast hpast']

theorem rest_lt (hlogs : ∀ n, Stores kv pre (logs n) (es n)) (hlimits : ∀ n, ValidLimit (limits n))
    (hreads : ∀ n, Reads es limits n (callStart start pages n) pre (pages n)) {n : Nat}
    (hlast : (pages n).done = false) :
    ((es n).filter fun e => isAfter (pages n).nextAfter e.1).length <
      ((es n).filter fun e => isAfter (callStart start pages n) e.1).length := by
  have hdrop := (take_drop_between (hlogs n).sorted (callStart start pages n) (hlimits n).1).2
  rw [(hreads n).stop, ← hdrop, length_drop]
  have hpos := (hlimits n).1
  have hne : (es n).filter (fun e => isAfter (pages n).nextAfter e.1) ≠ [] := by
    intro hnil
    have hdone := (hreads n).last.mpr fun e he => by
      have := filter_eq_nil_iff.mp hnil e he
      simpa using this
    rw [hdone] at hlast
    cases hlast
  rw [(hreads n).stop, ← hdrop, Ne, drop_eq_nil_iff] at hne
  omega

theorem exists_last (hlogs : ∀ n, Stores kv pre (logs n) (es n))
    (hlimits : ∀ n, ValidLimit (limits n))
    (hreads : ∀ n, Reads es limits n (callStart start pages n) pre (pages n)) {N : Nat}
    (hstill : ∀ n, N ≤ n → es n = es N) :
    ∃ n, N ≤ n ∧ n ≤ N + (es N).length ∧ (pages n).done = true := by
  -- As long as no page is the last, each one leaves less behind it.
  have hless : ∀ k, (∀ n, N ≤ n → n < N + k → (pages n).done = false) →
      ((es N).filter fun e => isAfter (callStart start pages (N + k)) e.1).length + k ≤
        (es N).length := by
    intro k hk
    induction k with
    | zero => exact length_filter_le _ _
    | succ k ih =>
      have hlt := rest_lt hlogs hlimits hreads (hk (N + k) (by omega) (by omega))
      rw [hstill (N + k) (by omega)] at hlt
      have hprev := ih fun n hn hlt => hk n hn (by omega)
      have hstart : callStart start pages (N + (k + 1)) = (pages (N + k)).nextAfter := rfl
      rw [hstart]
      omega
  by_contra hnone
  have hall : ∀ n, N ≤ n → n < N + ((es N).length + 1) → (pages n).done = false := by
    intro n hn hlt
    by_contra hdone
    exact hnone ⟨n, hn, by omega, by simpa using hdone⟩
  have := hless ((es N).length + 1) hall
  omega

end Reader

/-- A reader gets a page at every call. Each page holds exactly the entries that
    are in the log then between its start and its end; what was read so far is all
    the log holds up to there, in order and without repeats. A page is the last if
    and only if nothing lies behind it, and then all of the log was read. Once
    nothing more is appended the reader comes to its last page. -/
theorem paging_complete (kv : KvStorageTier σ V) (pre : String) (logs : Nat → σ)
    (es : Nat → List (Nat × V)) (limits : Nat → Option Nat) (start : Option Nat)
    (hlogs : ∀ n, Stores kv pre (logs n) (es n)) (hgrow : ∀ n, es n <+: es (n + 1))
    (hlimits : ∀ n, ValidLimit (limits n)) :
    ∃ pages : Nat → AppendLogPage V,
      (∀ n, pageCall kv pre logs limits start n = .ok (pages n)) ∧
      (∀ n, (pages n).entries =
        (between (callStart start pages n) (pages n).nextAfter (es n)).map (entryOf pre)) ∧
      (∀ n, pagesRead pages (n + 1) =
        (between start (pages n).nextAfter (es n)).map (entryOf pre)) ∧
      (∀ n, (pagesRead pages (n + 1)).Pairwise fun a b => a.seq < b.seq) ∧
      (∀ n, (pages n).done = true ↔ ∀ e ∈ es n, isAfter (pages n).nextAfter e.1 = false) ∧
      (∀ n, (pages n).done = true → pagesRead pages (n + 1) =
        ((es n).filter fun e => isAfter start e.1).map (entryOf pre)) ∧
      (∀ N, (∀ n, N ≤ n → es n = es N) →
        ∃ n, N ≤ n ∧ n ≤ N + (es N).length ∧ (pages n).done = true) := by
  obtain ⟨pages, hpages, hreads⟩ := exists_pages start hlogs hlimits
  have hread := pagesRead_eq hlogs hgrow hreads
  refine ⟨pages, hpages, fun n => (hreads n).entries, hread, ?_, fun n => (hreads n).last, ?_,
    fun N hstill => exists_last hlogs hlimits hreads hstill⟩
  · intro n
    rw [hread n]
    exact List.Pairwise.map _ (fun a b hab => hab) ((hlogs n).sorted.filter _)
  · intro n hdone
    rw [hread n, between]
    refine congrArg _ (filter_congr fun e he => ?_)
    rw [(hreads n).last.mp hdone e he, Bool.not_false, Bool.and_true]

/-- A log with two entries in the memory tier. -/
def pairLog : ErasableStore Nat :=
  (ErasableStore.tier Nat).set
    ((ErasableStore.tier Nat).set (ErasableStore.empty Nat) (appendLogKey "log" 0) 7)
    (appendLogKey "log" 1) 8

theorem stores_pairLog :
    Stores (ErasableStore.tier Nat).toKvStorageTier "log" pairLog [(0, 7), (1, 8)] := by
  have hone := (ErasableStore.stores_empty (V := Nat) "log").concat (Nat.zero_le u64Max)
    (fun e he => absurd he not_mem_nil) 7
  exact hone.concat (show 1 ≤ u64Max by decide) (by simp) 8

/-- Two entries, read one by one. -/
theorem paging_complete_pairLog :
    ∃ pages : Nat → AppendLogPage Nat,
      (∀ n, pageCall (ErasableStore.tier Nat).toKvStorageTier "log" (fun _ => pairLog)
        (fun _ => some 1) none n = .ok (pages n)) ∧
      ∃ n, (pages n).done = true ∧
        pagesRead pages (n + 1) = [entryOf "log" (0, 7), entryOf "log" (1, 8)] := by
  obtain ⟨pages, hpages, -, -, -, -, hall, hlast⟩ :=
    paging_complete (ErasableStore.tier Nat).toKvStorageTier "log" (fun _ => pairLog)
      (fun _ => [(0, 7), (1, 8)]) (fun _ => some 1) none (fun _ => stores_pairLog)
      (fun _ => prefix_refl _) (fun _ => ⟨by decide, by decide⟩)
  obtain ⟨n, -, -, hdone⟩ := hlast 0 fun _ _ => rfl
  exact ⟨pages, hpages, n, hdone, hall n hdone⟩

end GraphRefly.Storage
