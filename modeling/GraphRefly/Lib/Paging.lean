import Mathlib.Data.List.Sort

/-!
# Reading in Pages

A listing in the order of a key is read a page at a time. A page holds as many
items as its limit allows, and if there are more it names the key of its last
item, behind which the next page starts. The listing may change from one page to
the next, and every page has a limit of its own.

What a reader has behind it is a cut of the keys: what is ahead of the cut is
still to be read, and what is not has either been returned or was missing from
the listing at some page. A page moves the cut behind its last item, and nothing
between the old cut and the new one is left out, because the listing is ordered.

## Main definitions

* `Page`, `cutPage`: A page, and the one that a limit cuts off a list.
* `past`: The keys behind a place.
* `follow`: The pages of a reader that follows the cursor.
* `Reads`: Pages that are cut off what a listing holds at the time.
* `Complete`: Nothing is missed and nothing is seen twice.

## Theorems

* `Standing.step`: What a reader has behind it after one page more.
* `Reads.complete`: Pages cut off an ordered listing are complete.
-/

namespace GraphRefly.Lib.Paging

open List

/-- A page: its items, where the next one starts, and whether there is one. -/
structure Page (α κ : Type) where
  items : List α
  next : Option κ
  hasMore : Bool

section Definitions

variable {α κ ι : Type}

/-- The keys behind a place, or all of them. -/
def past [LT κ] [DecidableLT κ] (after : Option κ) (k : κ) : Bool :=
  after.all fun c => decide (c < k)

/-- The page that a limit cuts off the front of what is left to read. -/
def cutPage (key : α → κ) (limit : Nat) (rest : List α) : Page α κ :=
  { items := rest.take limit
    next := if rest.length > limit then (rest.take limit).getLast?.map key else none
    hasMore := decide (rest.length > limit) }

/-- The pages of a reader that asks for each from where the one before it ends. -/
def follow (read : Nat → Option κ → Page α κ) (start : Option κ) : Nat → Page α κ
  | 0 => read 0 start
  | n + 1 => read (n + 1) (follow read start n).next

/-- The reader has a page of this number to ask for. -/
def GoesOn (pages : Nat → Page α κ) (n : Nat) : Prop := ∀ m < n, (pages m).hasMore = true

/-- The page of this number is the reader's last. -/
def Ends (pages : Nat → Page α κ) (n : Nat) : Prop :=
  GoesOn pages n ∧ (pages n).hasMore = false

/-- The items of the first pages. -/
def returned (pages : Nat → Page α κ) : Nat → List α
  | 0 => []
  | n + 1 => returned pages n ++ (pages n).items

/-- A reader misses nothing and sees nothing twice. Items are told apart by what identifies
    them, since the rest of an item may change from one page to the next. -/
structure Complete (ident : α → ι) (matching : Nat → List α) (pages : Nat → Page α κ) :
    Prop where
  /-- If the listing stays as it is, the reader ends, and has read just the listing. -/
  ends : (∀ n, matching n = matching 0) → ∃ n, Ends pages n ∧ returned pages (n + 1) = matching 0
  /-- What a page returns is in the listing at the time. -/
  genuine : ∀ n, GoesOn pages n → ∀ a ∈ (pages n).items, a ∈ matching n
  /-- Nothing is returned twice. -/
  once : ∀ n, GoesOn pages n → ((returned pages (n + 1)).map ident).Nodup
  /-- What is in the listing at every page is returned. -/
  all : ∀ n, Ends pages n → ∀ i, (∀ m ≤ n, ∃ a ∈ matching m, ident a = i) →
    ∃ a ∈ returned pages (n + 1), ident a = i

variable [LinearOrder κ]

/-- The pages are cut off what the listing holds at the time, the first one from where the
    reader starts and the others from where the page before ends. -/
structure Reads (key : α → κ) (limits : Nat → Nat) (first : κ → Bool)
    (contents : Nat → List α) (pages : Nat → Page α κ) : Prop where
  sorted : ∀ n, (contents n).Pairwise fun a b => key a < key b
  upward : ∀ k l, k < l → first k = true → first l = true
  positive : ∀ n, 0 < limits n
  head : pages 0 = cutPage key (limits 0) ((contents 0).filter fun a => first (key a))
  onward : ∀ n c, (pages n).next = some c → pages (n + 1) =
    cutPage key (limits (n + 1)) ((contents (n + 1)).filter fun a => decide (c < key a))

/-- What a reader has behind it, before the page of some number. -/
structure Standing (key : α → κ) (first : κ → Bool) (contents : Nat → List α)
    (pages : Nat → Page α κ) (n : Nat) (ahead : κ → Bool) : Prop where
  upward : ∀ k l, k < l → ahead k = true → ahead l = true
  within : ∀ k, ahead k = true → first k = true
  behind : ∀ a ∈ returned pages n, first (key a) = true ∧ ahead (key a) = false
  ordered : (returned pages n).Pairwise fun a b => key a < key b
  passed : ∀ k, first k = true → ahead k = false → (∀ m < n, ∃ a ∈ contents m, key a = k) →
    ∃ a ∈ returned pages n, key a = k

end Definitions

/-! ### One page -/

section One

variable {α κ : Type} [LinearOrder κ] {key : α → κ}

theorem keys_nodup {items : List α} (hsorted : items.Pairwise fun a b => key a < key b) :
    (items.map key).Nodup := by
  rw [List.Nodup, pairwise_map]
  exact hsorted.imp fun hlt => ne_of_lt hlt

theorem eq_of_ordered {items others : List α} (hitems : items.Pairwise fun a b => key a < key b)
    (hothers : others.Pairwise fun a b => key a < key b)
    (hmem : ∀ a, a ∈ items ↔ a ∈ others) : items = others := by
  have : Std.Asymm fun a b : α => key a < key b := ⟨fun _ _ hab hba => lt_asymm hab hba⟩
  have : Std.Irrefl fun a b : α => key a < key b := ⟨fun _ => lt_irrefl _⟩
  exact hitems.eq_of_mem_iff hothers hmem

theorem cutPage_next {limit : Nat} (hlimit : 0 < limit) {rest : List α}
    (hsorted : rest.Pairwise fun a b => key a < key b) (hmore : rest.length > limit) :
    ∃ last ∈ rest.take limit, (cutPage key limit rest).next = some (key last) ∧
      (∀ a ∈ rest.take limit, key a ≤ key last) ∧
      ∀ a ∈ rest, key a ≤ key last → a ∈ rest.take limit := by
  have hne : rest.take limit ≠ [] := by
    intro hnil
    have hlength := congrArg List.length hnil
    rw [length_take, length_nil] at hlength
    omega
  obtain ⟨init, last, htake⟩ := eq_nil_or_concat (rest.take limit) |>.resolve_left hne
  rw [concat_eq_append] at htake
  have hrest := take_append_drop limit rest
  rw [← hrest, pairwise_append, htake, pairwise_append] at hsorted
  obtain ⟨⟨_, _, hinit⟩, _, hdrop⟩ := hsorted
  have hmem : last ∈ init ++ [last] := mem_append_right _ (mem_singleton_self _)
  refine ⟨last, htake ▸ hmem, ?_, ?_, ?_⟩
  · rw [cutPage, if_pos hmore, htake, List.getLast?_concat, Option.map_some]
  · intro a ha
    rw [htake, mem_append, mem_singleton] at ha
    rcases ha with ha | rfl
    · exact le_of_lt (hinit a ha last (mem_singleton_self _))
    · exact le_rfl
  · intro a ha hle
    rw [← hrest, mem_append] at ha
    rcases ha with ha | ha
    · exact ha
    · exact absurd hle (not_le_of_gt (hdrop last hmem a ha))

end One

/-! ### All pages -/

section All

variable {α κ ι : Type} [LinearOrder κ] {key : α → κ} {limits : Nat → Nat} {first : κ → Bool}
  {contents : Nat → List α} {pages : Nat → Page α κ} {n : Nat} {ahead : κ → Bool}

theorem past_upward (after : Option κ) (k l : κ) (hkl : k < l) (hk : past after k = true) :
    past after l = true := by
  cases after with
  | none => rfl
  | some c => exact decide_eq_true ((of_decide_eq_true hk).trans hkl)

theorem standing_start (hupward : ∀ k l, k < l → first k = true → first l = true) :
    Standing key first contents pages 0 first where
  upward := hupward
  within _ h := h
  behind a ha := absurd ha not_mem_nil
  ordered := List.Pairwise.nil
  passed k hfirst hahead _ := by
    rw [hfirst] at hahead
    exact absurd hahead Bool.noConfusion

theorem Standing.ordered_page (h : Standing key first contents pages n ahead)
    {rest : List α} (hitems : ∀ a ∈ (pages n).items, a ∈ rest)
    (hrest : ∀ a ∈ rest, ahead (key a) = true)
    (hsorted : (pages n).items.Pairwise fun a b => key a < key b) :
    (returned pages (n + 1)).Pairwise fun a b => key a < key b := by
  rw [returned, pairwise_append]
  refine ⟨h.ordered, hsorted, fun a ha b hb => ?_⟩
  by_contra hlt
  have hb' := hrest b (hitems b hb)
  -- Otherwise the item returned before would be ahead as well.
  have ha' : ahead (key a) = true := by
    rcases lt_or_eq_of_le (not_lt.mp hlt) with hba | hba
    · exact h.upward _ _ hba hb'
    · rw [← hba]
      exact hb'
  rw [(h.behind a ha).2] at ha'
  exact Bool.noConfusion ha'

/-- What a reader has behind it after one page more, if that is not the last. -/
theorem Standing.step (h : Standing key first contents pages n ahead) {limit : Nat}
    (hlimit : 0 < limit) (hsorted : (contents n).Pairwise fun a b => key a < key b)
    (hpage : pages n = cutPage key limit ((contents n).filter fun a => ahead (key a)))
    (hmore : (pages n).hasMore = true) :
    ∃ c, (pages n).next = some c ∧
      Standing key first contents pages (n + 1) fun k => decide (c < k) := by
  generalize hseen : ((contents n).filter fun a => ahead (key a)) = rest at hpage
  have hrest : ∀ a ∈ rest, ahead (key a) = true := by
    intro a ha
    rw [← hseen] at ha
    exact (mem_filter.mp ha).2
  have hrestSorted : rest.Pairwise fun a b => key a < key b := hseen ▸ hsorted.filter _
  have hlong : rest.length > limit := by
    rw [hpage] at hmore
    exact of_decide_eq_true hmore
  have hitems : (pages n).items = rest.take limit := by rw [hpage, cutPage]
  have htaken : ∀ a ∈ (pages n).items, a ∈ rest := fun a ha =>
    mem_of_mem_take (hitems ▸ ha)
  obtain ⟨last, hlast, hnext, hmax, hupto⟩ := cutPage_next hlimit hrestSorted hlong
  have hlastAhead := hrest last (mem_of_mem_take hlast)
  refine ⟨key last, hpage ▸ hnext, ?_, ?_, ?_, ?_, ?_⟩
  · intro k l hkl hk
    exact decide_eq_true ((of_decide_eq_true hk).trans hkl)
  · intro k hk
    exact h.within k (h.upward _ _ (of_decide_eq_true hk) hlastAhead)
  · intro a ha
    rw [returned, mem_append] at ha
    rcases ha with ha | ha
    · obtain ⟨hfirst, hbehind⟩ := h.behind a ha
      refine ⟨hfirst, decide_eq_false fun hlt => ?_⟩
      have hahead := h.upward _ _ hlt hlastAhead
      rw [hbehind] at hahead
      exact Bool.noConfusion hahead
    · exact ⟨h.within _ (hrest a (htaken a ha)),
        decide_eq_false (not_lt_of_ge (hmax a (hitems ▸ ha)))⟩
  · exact h.ordered_page htaken hrest (hitems ▸ hrestSorted.sublist (take_sublist _ _))
  · intro k hfirst hbehind hpresent
    have hle : k ≤ key last := not_lt.mp (of_decide_eq_false hbehind)
    rw [returned]
    cases hahead : ahead k with
    | false =>
      obtain ⟨a, ha, hk⟩ := h.passed k hfirst hahead fun m hm => hpresent m (by omega)
      exact ⟨a, mem_append_left _ ha, hk⟩
    | true =>
      -- A key that this page moves past is among its items.
      obtain ⟨a, ha, rfl⟩ := hpresent n (by omega)
      have hmem : a ∈ rest := hseen ▸ mem_filter.mpr ⟨ha, hahead⟩
      exact ⟨a, mem_append_right _ (hitems ▸ hupto a hmem hle), rfl⟩

theorem Reads.standing (h : Reads key limits first contents pages) (hgoes : GoesOn pages n) :
    ∃ ahead, Standing key first contents pages n ahead ∧
      pages n = cutPage key (limits n) ((contents n).filter fun a => ahead (key a)) := by
  induction n with
  | zero => exact ⟨first, standing_start h.upward, h.head⟩
  | succ n ih =>
    obtain ⟨ahead, hstanding, hpage⟩ := ih fun m hm => hgoes m (by omega)
    obtain ⟨c, hnext, hafter⟩ :=
      hstanding.step (h.positive n) (h.sorted n) hpage (hgoes n (by omega))
    exact ⟨_, hafter, h.onward n c hnext⟩

theorem Reads.ordered (h : Reads key limits first contents pages) (hgoes : GoesOn pages n) :
    (returned pages (n + 1)).Pairwise fun a b => key a < key b := by
  obtain ⟨ahead, hstanding, hpage⟩ := h.standing hgoes
  have hitems : (pages n).items =
      ((contents n).filter fun a => ahead (key a)).take (limits n) := by rw [hpage, cutPage]
  have htaken : ∀ a ∈ (pages n).items, a ∈ (contents n).filter fun a => ahead (key a) :=
    fun a ha => mem_of_mem_take (hitems ▸ ha)
  refine hstanding.ordered_page htaken ?_ ?_
  · intro a ha
    exact (mem_filter.mp ha).2
  · rw [hitems]
    exact ((h.sorted n).filter _).sublist (take_sublist _ _)

theorem Reads.genuine (h : Reads key limits first contents pages) (hgoes : GoesOn pages n) :
    ∀ a ∈ (pages n).items, a ∈ (contents n).filter fun a => first (key a) := by
  obtain ⟨ahead, hstanding, hpage⟩ := h.standing hgoes
  intro a ha
  rw [hpage] at ha
  obtain ⟨hmem, hahead⟩ := mem_filter.mp (mem_of_mem_take ha)
  exact mem_filter.mpr ⟨hmem, hstanding.within _ hahead⟩

theorem Reads.all (h : Reads key limits first contents pages) (hends : Ends pages n) {k : κ}
    (hfirst : first k = true) (hpresent : ∀ m ≤ n, ∃ a ∈ contents m, key a = k) :
    ∃ a ∈ returned pages (n + 1), key a = k := by
  obtain ⟨ahead, hstanding, hpage⟩ := h.standing hends.1
  rw [returned]
  cases hahead : ahead k with
  | false =>
    obtain ⟨a, ha, hk⟩ := hstanding.passed k hfirst hahead fun m hm => hpresent m (by omega)
    exact ⟨a, mem_append_left _ ha, hk⟩
  | true =>
    -- The last page holds everything that is ahead.
    obtain ⟨a, ha, rfl⟩ := hpresent n le_rfl
    have hlast := hends.2
    rw [hpage] at hlast ⊢
    refine ⟨a, mem_append_right _ ?_, rfl⟩
    rw [cutPage, take_of_length_le (not_lt.mp (of_decide_eq_false hlast))]
    exact mem_filter.mpr ⟨ha, hahead⟩

theorem Reads.length_lt (h : Reads key limits first contents pages) (hgoes : GoesOn pages n)
    (hmore : (pages n).hasMore = true) : 0 < (pages n).items.length := by
  obtain ⟨ahead, _, hpage⟩ := h.standing hgoes
  have hpositive := h.positive n
  rw [hpage] at hmore ⊢
  have hlong := of_decide_eq_true hmore
  rw [cutPage, length_take]
  omega

theorem Reads.length_returned (h : Reads key limits first contents pages)
    (hgoes : GoesOn pages n) : n ≤ (returned pages n).length := by
  induction n with
  | zero => exact Nat.zero_le _
  | succ n ih =>
    have hbefore : GoesOn pages n := fun m hm => hgoes m (by omega)
    have hsome := h.length_lt hbefore (hgoes n (by omega))
    have hlength := ih hbefore
    rw [returned, length_append]
    omega

theorem mem_returned {a : α} (ha : a ∈ returned pages n) : ∃ m < n, a ∈ (pages m).items := by
  induction n with
  | zero => exact absurd ha not_mem_nil
  | succ n ih =>
    rw [returned, mem_append] at ha
    rcases ha with ha | ha
    · obtain ⟨m, hm, hmem⟩ := ih ha
      exact ⟨m, by omega, hmem⟩
    · exact ⟨n, by omega, ha⟩

theorem GoesOn.mono {m : Nat} (h : GoesOn pages n) (hm : m ≤ n) : GoesOn pages m :=
  fun i hi => h i (by omega)

theorem Reads.ends (h : Reads key limits first contents pages)
    (hsame : ∀ n, (contents n).filter (fun a => first (key a)) =
      (contents 0).filter fun a => first (key a)) : ∃ n, Ends pages n := by
  by_contra hnever
  have hgoes : ∀ n, GoesOn pages n := by
    intro n
    induction n with
    | zero => exact fun m hm => absurd hm (Nat.not_lt_zero m)
    | succ n ih =>
      intro m hm
      by_cases hlast : m = n
      · rw [hlast]
        by_contra hdone
        exact hnever ⟨n, ih, eq_false_of_ne_true hdone⟩
      · exact ih m (by omega)
  -- What is returned is part of the listing, and yet as long as one likes.
  have hsubset (n : Nat) :
      returned pages (n + 1) ⊆ (contents 0).filter fun a => first (key a) := by
    intro a ha
    obtain ⟨m, _, hmem⟩ := mem_returned ha
    exact hsame m ▸ h.genuine (hgoes m) a hmem
  have hnodup (n : Nat) : (returned pages (n + 1)).Nodup :=
    (keys_nodup (h.ordered (hgoes n))).of_map
  have hbound (n : Nat) := (subperm_of_subset (hnodup n) (hsubset n)).length_le
  have hlong := h.length_returned
    (hgoes (((contents 0).filter fun a => first (key a)).length + 1))
  have := hbound ((contents 0).filter fun a => first (key a)).length
  omega

/-- Pages that are cut off an ordered listing miss nothing and show nothing twice, if the
    key of an item is determined by what identifies it and determines it. -/
theorem Reads.complete (h : Reads key limits first contents pages) {ident : α → ι}
    (hident : ∀ m n, ∀ a ∈ contents m, ∀ b ∈ contents n, ident a = ident b ↔ key a = key b) :
    Complete ident (fun n => (contents n).filter fun a => first (key a)) pages := by
  constructor
  · intro hsame
    obtain ⟨n, hends⟩ := h.ends hsame
    refine ⟨n, hends, ?_⟩
    have hlisting := (h.sorted 0).filter fun a => first (key a)
    refine eq_of_ordered (h.ordered hends.1) hlisting fun a => ⟨fun ha => ?_, fun ha => ?_⟩
    · obtain ⟨m, hm, hmem⟩ := mem_returned ha
      exact hsame m ▸ h.genuine (hends.1.mono (by omega)) a hmem
    · obtain ⟨hcontents, hfirst⟩ := mem_filter.mp ha
      have hpresent : ∀ m ≤ n, ∃ b ∈ contents m, key b = key a := by
        intro m _
        have hm : a ∈ (contents m).filter fun a => first (key a) := hsame m ▸ ha
        exact ⟨a, (mem_filter.mp hm).1, rfl⟩
      obtain ⟨b, hb, hkey⟩ := h.all hends hfirst hpresent
      obtain ⟨m, hm, hmem⟩ := mem_returned hb
      have hb' : b ∈ (contents 0).filter fun a => first (key a) :=
        hsame m ▸ h.genuine (hends.1.mono (by omega)) b hmem
      have heq : b = a := inj_on_of_nodup_map (keys_nodup hlisting) hb' ha hkey
      exact heq ▸ hb
  · exact fun n hgoes => h.genuine hgoes
  · intro n hgoes
    rw [List.Nodup, pairwise_map]
    refine (h.ordered hgoes).imp_of_mem fun {a b} ha hb hlt hsame => ?_
    obtain ⟨m, hm, hmema⟩ := mem_returned ha
    obtain ⟨m', hm', hmemb⟩ := mem_returned hb
    have hcontents := mem_filter.mp (h.genuine (hgoes.mono (by omega)) a hmema)
    have hcontents' := mem_filter.mp (h.genuine (hgoes.mono (by omega)) b hmemb)
    have hkey := (hident m m' a hcontents.1 b hcontents'.1).mp hsame
    exact absurd hkey (ne_of_lt hlt)
  · intro n hends i hpresent
    obtain ⟨a, ha, hi⟩ := hpresent n le_rfl
    obtain ⟨hmem, hfirst⟩ := mem_filter.mp ha
    -- The item keeps its key, whatever else of it changes.
    have hkeys : ∀ m ≤ n, ∃ b ∈ contents m, key b = key a := by
      intro m hm
      obtain ⟨b, hb, hib⟩ := hpresent m hm
      have hmemb := (mem_filter.mp hb).1
      exact ⟨b, hmemb, (hident m n b hmemb a hmem).mp (hib.trans hi.symm)⟩
    obtain ⟨b, hb, hkey⟩ := h.all hends hfirst hkeys
    obtain ⟨m, hm, hmemb⟩ := mem_returned hb
    have hcontents := mem_filter.mp (h.genuine (hends.1.mono (by omega)) b hmemb)
    exact ⟨b, hb, ((hident m n b hcontents.1 a hmem).mpr hkey).trans hi⟩

end All

end GraphRefly.Lib.Paging
