import Mathlib.Data.Finset.Sort
import Mathlib.Data.Finset.Lattice.Basic

/-!
# Walks over a changing set

A walk reads a set page by page in ascending order, each page behind the last key of the one before it,
and begins again when nothing lies behind.  The set may change between two pages.
-/

namespace KeysetWalk

variable {κ : Type} [LinearOrder κ]

/-- The keys behind a cursor; all of them behind none. -/
def beyond (cursor : Option κ) (T : Finset κ) : Finset κ := T.filter fun k => ∀ c ∈ cursor, c < k

/-- What the next page is taken from. -/
def source (cursor : Option κ) (T : Finset κ) : Finset κ :=
  if (beyond cursor T).Nonempty then beyond cursor T else T

/-- The keys in ascending order. -/
def ascending (S : Finset κ) : List κ := S.sort (· ≤ ·)

def page (limit : Nat) (cursor : Option κ) (T : Finset κ) : List κ :=
  (ascending (source cursor T)).take limit

/-- The cursor behind the page. -/
def next (limit : Nat) (cursor : Option κ) (T : Finset κ) : Option κ := (page limit cursor T).getLast?

/-- The pages of a walk over these sets. -/
def pages (limit : Nat) : Option κ → Finset κ → List (Finset κ) → List (List κ)
  | cursor, T, [] => [page limit cursor T]
  | cursor, T, U :: more => page limit cursor T :: pages limit (next limit cursor T) U more

/-- Each set follows from the one before it and its cursor. -/
def Walk (limit : Nat) (gap : Option κ → Finset κ → Finset κ → Prop) :
    Option κ → Finset κ → List (Finset κ) → Prop
  | _, _, [] => True
  | cursor, T, U :: more => gap cursor T U ∧ Walk limit gap (next limit cursor T) U more

variable {limit : Nat} {cursor : Option κ} {T U : Finset κ} {k : κ}

theorem mem_beyond : k ∈ beyond cursor T ↔ k ∈ T ∧ ∀ c ∈ cursor, c < k := Finset.mem_filter

theorem source_subset : source cursor T ⊆ T := by
  unfold source
  split
  · exact Finset.filter_subset _ _
  · exact Finset.Subset.refl _

theorem source_of_mem (h : k ∈ beyond cursor T) : source cursor T = beyond cursor T := if_pos ⟨k, h⟩

theorem source_of_empty (h : beyond cursor T = ∅) : source cursor T = T :=
  if_neg (by rw [h]; exact Finset.not_nonempty_empty)

/-- What lies behind a key of the source is in the source. -/
theorem mem_source_of_lt {last : κ} (hlast : last ∈ source cursor T) (hk : k ∈ T) (hlt : last < k) :
    k ∈ source cursor T := by
  by_cases hempty : beyond cursor T = ∅
  · rw [source_of_empty hempty]
    exact hk
  · obtain ⟨j, hj⟩ := Finset.nonempty_iff_ne_empty.mpr hempty
    rw [source_of_mem hj] at hlast ⊢
    exact mem_beyond.mpr ⟨hk, fun c hc => lt_trans ((mem_beyond.mp hlast).2 c hc) hlt⟩

theorem mem_ascending {S : Finset κ} : k ∈ ascending S ↔ k ∈ S := Finset.mem_sort _

theorem pairwise_ascending (S : Finset κ) : (ascending S).Pairwise (· < ·) :=
  S.sortedLT_sort.pairwise

theorem length_ascending (S : Finset κ) : (ascending S).length = S.card := Finset.length_sort _

/-- The keys of some rows. -/
def keys {ρ : Type} (key : ρ → κ) (rows : List ρ) : Finset κ := (rows.map key).toFinset

theorem mem_keys {ρ : Type} {key : ρ → κ} {rows : List ρ} :
    k ∈ keys key rows ↔ ∃ row ∈ rows, key row = k := by
  rw [keys, List.mem_toFinset, List.mem_map]

theorem card_keys {ρ : Type} {key : ρ → κ} {rows : List ρ} (h : (rows.map key).Nodup) :
    (keys key rows).card = rows.length := by
  rw [keys, List.toFinset_card_of_nodup h, List.length_map]

theorem beyond_keys {ρ : Type} {key : ρ → κ} {rows : List ρ} {p : ρ → Bool}
    (hp : ∀ row, p row = true ↔ ∀ c ∈ cursor, c < key row) :
    beyond cursor (keys key rows) = keys key (rows.filter p) := by
  ext k
  rw [mem_beyond, mem_keys, mem_keys]
  constructor
  · rintro ⟨⟨row, hrow, rfl⟩, hbehind⟩
    exact ⟨row, List.mem_filter.mpr ⟨hrow, (hp row).mpr hbehind⟩, rfl⟩
  · rintro ⟨row, hrow, rfl⟩
    obtain ⟨hrow, hbehind⟩ := List.mem_filter.mp hrow
    exact ⟨⟨row, hrow, rfl⟩, (hp row).mp hbehind⟩

/-- Rows sorted by distinct keys show the keys in ascending order. -/
theorem map_insertionSort {ρ : Type} {key : ρ → κ} {r : ρ → ρ → Prop} [DecidableRel r]
    (hr : ∀ a b, r a b ↔ key a ≤ key b) {rows : List ρ} (h : (rows.map key).Nodup) :
    (rows.insertionSort r).map key = ascending (keys key rows) := by
  have : Std.Total r := ⟨fun a b => by rw [hr, hr]; exact le_total (key a) (key b)⟩
  have : IsTrans ρ r := ⟨fun a b c hab hbc => by rw [hr] at hab hbc ⊢; exact le_trans hab hbc⟩
  have hperm : ((rows.insertionSort r).map key).Perm (rows.map key) :=
    (List.perm_insertionSort r rows).map key
  have hsorted : ((rows.insertionSort r).map key).Pairwise (· ≤ ·) := by
    rw [List.pairwise_map]
    exact (List.pairwise_insertionSort r rows).imp fun hab => (hr _ _).mp hab
  have hall : (ascending (keys key rows)).Perm (rows.map key) :=
    (Finset.sort_perm_toList _ _).trans (List.toFinset_toList h)
  exact (hperm.trans hall.symm).eq_of_pairwise (fun _ _ _ _ hab hba => le_antisymm hab hba) hsorted
    ((pairwise_ascending _).imp le_of_lt)

/-- What a limit keeps lies before what it cuts off. -/
theorem ascending_split (limit : Nat) (S : Finset κ) :
    ∀ a ∈ (ascending S).take limit, ∀ b ∈ (ascending S).drop limit, a < b := by
  have hsorted := pairwise_ascending S
  rw [← List.take_append_drop limit (ascending S), List.pairwise_append] at hsorted
  exact hsorted.2.2

theorem mem_take_or_drop {S : Finset κ} (hk : k ∈ S) (limit : Nat) :
    k ∈ (ascending S).take limit ∨ k ∈ (ascending S).drop limit := by
  rw [← List.mem_append, List.take_append_drop]
  exact mem_ascending.mpr hk

theorem mem_page_source (h : k ∈ page limit cursor T) : k ∈ source cursor T :=
  mem_ascending.mp (List.mem_of_mem_take h)

/-- The cursor behind a page is its greatest key. -/
theorem le_next {last : κ} (hlast : last ∈ next limit cursor T) (hk : k ∈ page limit cursor T) :
    k ≤ last := by
  obtain ⟨before, hbefore⟩ := List.getLast?_eq_some_iff.mp hlast
  have hsorted : (page limit cursor T).Pairwise (· < ·) :=
    (pairwise_ascending _).sublist (List.take_sublist _ _)
  rw [hbefore] at hsorted hk
  rcases List.mem_append.mp hk with hk | hk
  · exact le_of_lt ((List.pairwise_append.mp hsorted).2.2 k hk last (List.mem_singleton_self last))
  · exact le_of_eq (List.mem_singleton.mp hk)

/-- A key of the source is on the page or behind it. -/
theorem mem_page_or_beyond (hk : k ∈ source cursor T) :
    k ∈ page limit cursor T ∨ k ∈ beyond (next limit cursor T) T := by
  rcases mem_take_or_drop hk limit with hpage | hrest
  · exact .inl hpage
  · refine .inr (mem_beyond.mpr ⟨source_subset hk, fun last hlast => ?_⟩)
    exact ascending_split limit _ last (List.mem_of_getLast? hlast) k hrest

theorem page_ne_nil (hlimit : 1 ≤ limit) (hk : k ∈ source cursor T) : page limit cursor T ≠ [] := by
  have hne : ascending (source cursor T) ≠ [] := List.ne_nil_of_mem (mem_ascending.mpr hk)
  rw [page, Ne, List.take_eq_nil_iff, not_or]
  exact ⟨by omega, hne⟩

theorem exists_next (hlimit : 1 ≤ limit) (hk : k ∈ source cursor T) :
    ∃ last ∈ page limit cursor T, next limit cursor T = some last := by
  obtain ⟨last, hlast⟩ := Option.isSome_iff_exists.mp
    (List.getLast?_isSome.mpr (page_ne_nil hlimit hk))
  exact ⟨last, List.mem_of_getLast? hlast, hlast⟩

/-- What lies behind the page was cut off by the limit. -/
theorem mem_drop_of_beyond_next (hlimit : 1 ≤ limit) (hne : (source cursor T).Nonempty)
    (hk : k ∈ beyond (next limit cursor T) T) : k ∈ (ascending (source cursor T)).drop limit := by
  obtain ⟨j, hj⟩ := hne
  obtain ⟨last, hpage, hlast⟩ := exists_next hlimit hj
  obtain ⟨hkT, hbehind⟩ := mem_beyond.mp hk
  have hlt : last < k := hbehind last hlast
  have hsource : k ∈ source cursor T := mem_source_of_lt (mem_page_source hpage) hkT hlt
  refine (mem_take_or_drop hsource limit).resolve_left fun hon => ?_
  exact absurd hlt (not_lt.mpr (le_next hlast hon))

theorem card_beyond_next (hlimit : 1 ≤ limit) (hne : (source cursor T).Nonempty) :
    (beyond (next limit cursor T) T).card ≤ (source cursor T).card - limit := by
  have hsub : beyond (next limit cursor T) T ⊆ ((ascending (source cursor T)).drop limit).toFinset :=
    fun k hk => List.mem_toFinset.mpr (mem_drop_of_beyond_next hlimit hne hk)
  calc (beyond (next limit cursor T) T).card
      ≤ ((ascending (source cursor T)).drop limit).toFinset.card := Finset.card_le_card hsub
    _ ≤ ((ascending (source cursor T)).drop limit).length := List.toFinset_card_le _
    _ = (source cursor T).card - limit := by rw [List.length_drop, length_ascending]

/-! ## Whole walks -/

/-- Fewer keys arrive between two pages than a page holds. -/
def FewArrive (limit : Nat) (_ : Option κ) (T U : Finset κ) : Prop := (U \ T).card < limit

/-- After a page that is short and leaves keys before its cursor, nothing arrives behind all it holds. -/
def NoneOvertakes (limit : Nat) (cursor : Option κ) (T U : Finset κ) : Prop :=
  (beyond cursor T).Nonempty → (beyond cursor T).card < limit → beyond cursor T ≠ T →
    ∀ k ∈ U \ T, ∃ j ∈ beyond cursor T, k ≤ j

instance (limit : Nat) (cursor : Option κ) (T U : Finset κ) : Decidable (FewArrive limit cursor T U) :=
  inferInstanceAs (Decidable (_ < _))

instance (limit : Nat) (cursor : Option κ) (T U : Finset κ) :
    Decidable (NoneOvertakes limit cursor T U) :=
  inferInstanceAs (Decidable (_ → _ → _ → _))

theorem card_beyond_le (cursor : Option κ) (T U : Finset κ) :
    (beyond cursor U).card ≤ (beyond cursor T).card + (U \ T).card := by
  refine le_trans (Finset.card_le_card fun k hk => ?_) (Finset.card_union_le _ _)
  obtain ⟨hkT, hbehind⟩ := mem_beyond.mp hk
  by_cases hold : k ∈ T
  · exact Finset.mem_union_left _ (mem_beyond.mpr ⟨hold, hbehind⟩)
  · exact Finset.mem_union_right _ (Finset.mem_sdiff.mpr ⟨hkT, hold⟩)

theorem beyond_mono (hk : k ∈ beyond cursor T) (hT : k ∈ U) : k ∈ beyond cursor U :=
  mem_beyond.mpr ⟨hT, (mem_beyond.mp hk).2⟩

/-- A key in reach of the walk is met before what lies behind the cursor is used up. -/
theorem mem_pages_of_source (hlimit : 1 ≤ limit) (more : List (Finset κ)) :
    ∀ {cursor : Option κ} {T : Finset κ}, Walk limit (FewArrive limit) cursor T more →
      k ∈ source cursor T → (∀ S ∈ more, k ∈ S) → (source cursor T).card ≤ more.length + 1 →
      ∃ p ∈ pages limit cursor T more, k ∈ p := by
  induction more with
  | nil =>
    intro cursor T _ hk _ hcard
    refine ⟨_, List.mem_singleton_self _, (mem_page_or_beyond hk).resolve_right fun hbehind => ?_⟩
    have hleft : (beyond (next limit cursor T) T).card ≤ (source cursor T).card - limit :=
      card_beyond_next hlimit ⟨k, hk⟩
    have hpos : 0 < (beyond (next limit cursor T) T).card := Finset.card_pos.mpr ⟨k, hbehind⟩
    simp only [List.length_nil] at hcard
    omega
  | cons U more ih =>
    intro cursor T hwalk hk hstay hcard
    obtain ⟨hfew, hwalk⟩ := hwalk
    have hreach : k ∈ page limit cursor T ∨ k ∈ beyond (next limit cursor T) T :=
      mem_page_or_beyond hk
    rcases hreach with hpage | hbehind
    · exact ⟨_, List.mem_cons_self, hpage⟩
    · have hleft : (beyond (next limit cursor T) T).card ≤ (source cursor T).card - limit :=
        card_beyond_next hlimit ⟨k, hk⟩
      have hpos : 0 < (beyond (next limit cursor T) T).card := Finset.card_pos.mpr ⟨k, hbehind⟩
      have hgrow := card_beyond_le (next limit cursor T) T U
      have hnext : k ∈ beyond (next limit cursor T) U :=
        beyond_mono hbehind (hstay U List.mem_cons_self)
      have hsource := source_of_mem hnext
      obtain ⟨p, hp, hkp⟩ := ih hwalk (hsource ▸ hnext)
        (fun S hS => hstay S (List.mem_cons_of_mem _ hS)) (by
          rw [hsource]
          simp only [FewArrive] at hfew
          simp only [List.length_cons] at hcard
          omega)
      exact ⟨p, List.mem_cons_of_mem _ hp, hkp⟩

/-- Without overtaking, each page leaves less behind its cursor until the walk begins again. -/
theorem card_beyond_lt (hlimit : 1 ≤ limit) (hfew : FewArrive limit cursor T U)
    (hnone : NoneOvertakes limit cursor T U) (hne : (beyond cursor T).Nonempty)
    (hwhole : beyond cursor T ≠ T) :
    (beyond (next limit cursor T) U).card < (beyond cursor T).card := by
  obtain ⟨j, hj⟩ := hne
  have hsource := source_of_mem hj
  have hleft : (beyond (next limit cursor T) T).card ≤ (source cursor T).card - limit :=
    card_beyond_next hlimit ⟨j, hsource ▸ hj⟩
  rw [hsource] at hleft
  have hpos : 0 < (beyond cursor T).card := Finset.card_pos.mpr ⟨j, hj⟩
  by_cases hshort : (beyond cursor T).card < limit
  · -- a short page holds all that lies behind the cursor, so nothing is left
    have hempty : beyond (next limit cursor T) T = ∅ := by
      rw [← Finset.card_eq_zero]
      omega
    suffices hgone : beyond (next limit cursor T) U = ∅ by rw [hgone, Finset.card_empty]; exact hpos
    refine Finset.eq_empty_of_forall_notMem fun k hk => ?_
    obtain ⟨hkT, hbehind⟩ := mem_beyond.mp hk
    obtain ⟨i, hi, hle⟩ : ∃ i ∈ beyond cursor T, k ≤ i := by
      by_cases hold : k ∈ T
      · have hmem : k ∈ beyond (next limit cursor T) T := mem_beyond.mpr ⟨hold, hbehind⟩
        rw [hempty] at hmem
        exact absurd hmem (Finset.notMem_empty k)
      · exact hnone ⟨j, hj⟩ hshort hwhole k (Finset.mem_sdiff.mpr ⟨hkT, hold⟩)
    have hmem : i ∈ beyond (next limit cursor T) T :=
      mem_beyond.mpr ⟨(mem_beyond.mp hi).1, fun c hc => lt_of_lt_of_le (hbehind c hc) hle⟩
    rw [hempty] at hmem
    exact absurd hmem (Finset.notMem_empty i)
  · have hgrow := card_beyond_le (next limit cursor T) T U
    simp only [FewArrive] at hfew
    omega

theorem Walk.mono {gap gap' : Option κ → Finset κ → Finset κ → Prop}
    (himp : ∀ c S S', gap c S S' → gap' c S S') (more : List (Finset κ)) :
    ∀ {cursor : Option κ} {T : Finset κ}, Walk limit gap cursor T more →
      Walk limit gap' cursor T more := by
  induction more with
  | nil => exact fun _ => trivial
  | cons U more ih => exact fun hwalk => ⟨himp _ _ _ hwalk.1, ih hwalk.2⟩

/-- A walk that is not overtaken serves every key that stays. -/
theorem mem_pages (hlimit : 1 ≤ limit) (more : List (Finset κ)) :
    ∀ {cursor : Option κ} {T : Finset κ},
      Walk limit (fun c S S' => FewArrive limit c S S' ∧ NoneOvertakes limit c S S') cursor T more →
      k ∈ T → (∀ S ∈ more, k ∈ S) →
      (beyond cursor T).card * limit + T.card ≤ more.length + 1 →
      ∃ p ∈ pages limit cursor T more, k ∈ p := by
  induction more with
  | nil =>
    intro cursor T _ hk _ hcard
    have hpos : 0 < T.card := Finset.card_pos.mpr ⟨k, hk⟩
    simp only [List.length_nil] at hcard
    have hempty : beyond cursor T = ∅ := by
      rw [← Finset.card_eq_zero]
      by_contra hne
      have := Nat.mul_le_mul (Nat.one_le_iff_ne_zero.mpr hne) hlimit
      omega
    refine mem_pages_of_source hlimit [] trivial ?_ (by simp) ?_ <;> rw [source_of_empty hempty]
    · exact hk
    · rw [hempty] at hcard
      simpa using hcard
  | cons U more ih =>
    intro cursor T hwalk hk hstay hcard
    have hplain := Walk.mono (fun _ _ _ h => h.1) _ hwalk
    simp only [List.length_cons] at hcard
    by_cases hreach : k ∈ source cursor T
    · refine mem_pages_of_source hlimit _ hplain hreach hstay ?_
      have hsub : (source cursor T).card ≤ T.card := Finset.card_le_card source_subset
      simp only [List.length_cons]
      omega
    · obtain ⟨⟨hfew, hnone⟩, hwalk⟩ := hwalk
      -- the cursor lies beyond the key, and something lies beyond the cursor
      have hne : (beyond cursor T).Nonempty := by
        by_contra hempty
        rw [source_of_empty (Finset.not_nonempty_iff_eq_empty.mp hempty)] at hreach
        exact hreach hk
      obtain ⟨j, hj⟩ := id hne
      rw [source_of_mem hj] at hreach
      have hwhole : beyond cursor T ≠ T := fun hall => hreach (hall.symm ▸ hk)
      have hless := card_beyond_lt hlimit hfew hnone hne hwhole
      have hgrow : U.card ≤ T.card + (U \ T).card := by
        have := Finset.card_le_card_sdiff_add_card (s := U) (t := T)
        omega
      obtain ⟨p, hp, hkp⟩ := ih hwalk (hstay U List.mem_cons_self)
        (fun S hS => hstay S (List.mem_cons_of_mem _ hS)) (by
          have hmul : ((beyond (next limit cursor T) U).card + 1) * limit
              ≤ (beyond cursor T).card * limit := Nat.mul_le_mul_right _ hless
          rw [Nat.add_mul, Nat.one_mul] at hmul
          simp only [FewArrive] at hfew
          omega)
      exact ⟨p, List.mem_cons_of_mem _ hp, hkp⟩

/-- The number of keys decides how many pages it takes. -/
theorem mem_pages_of_card (hlimit : 1 ≤ limit) {more : List (Finset κ)}
    (hwalk : Walk limit (fun c S S' => FewArrive limit c S S' ∧ NoneOvertakes limit c S S') cursor T
      more)
    (hk : k ∈ T) (hstay : ∀ S ∈ more, k ∈ S) (hcount : T.card * limit + T.card ≤ more.length + 1) :
    ∃ p ∈ pages limit cursor T more, k ∈ p := by
  refine mem_pages hlimit more hwalk hk hstay (le_trans ?_ hcount)
  have hsub : (beyond cursor T).card ≤ T.card := Finset.card_le_card (Finset.filter_subset _ _)
  exact Nat.add_le_add_right (Nat.mul_le_mul_right limit hsub) _

/-! ## A walk that is overtaken -/

section Overtaken

variable {x : κ} {y : Nat → κ}

/-- The key that stays, and the newest arrival. -/
def overtaken (x : κ) (y : Nat → κ) (i : Nat) : Finset κ := {x, y i}

theorem mem_overtaken {i : Nat} : k ∈ overtaken x y i ↔ k = x ∨ k = y i := by
  rw [overtaken, Finset.mem_insert, Finset.mem_singleton]

theorem source_overtaken (hx : x < y 0) (hy : StrictMono y) (i : Nat) :
    source (some (y i)) (overtaken x y (i + 1)) = {y (i + 1)} := by
  have hstep : y i < y (i + 1) := hy (Nat.lt_succ_self i)
  have hbefore : x < y i := lt_of_lt_of_le hx (hy.monotone (Nat.zero_le i))
  have hbeyond : beyond (some (y i)) (overtaken x y (i + 1)) = {y (i + 1)} := by
    ext k
    rw [mem_beyond, mem_overtaken, Finset.mem_singleton]
    constructor
    · rintro ⟨rfl | rfl, hlt⟩
      · exact absurd (hlt (y i) rfl) (lt_asymm hbefore)
      · rfl
    · rintro rfl
      exact ⟨.inr rfl, fun c hc => Option.some.inj hc ▸ hstep⟩
  rw [source_of_mem (k := y (i + 1)) (by rw [hbeyond]; exact Finset.mem_singleton_self _), hbeyond]

theorem next_overtaken (hlimit : 1 ≤ limit) (hx : x < y 0) (hy : StrictMono y) (i : Nat) :
    next limit (some (y i)) (overtaken x y (i + 1)) = some (y (i + 1)) := by
  have hsource := source_overtaken hx hy i
  obtain ⟨last, hpage, hlast⟩ : ∃ last ∈ page limit (some (y i)) (overtaken x y (i + 1)),
      next limit (some (y i)) (overtaken x y (i + 1)) = some last :=
    exists_next hlimit (by rw [hsource]; exact Finset.mem_singleton_self _)
  have hmem := mem_page_source hpage
  rw [hsource, Finset.mem_singleton] at hmem
  rw [hlast, hmem]

theorem walk_overtaken (hlimit : 2 ≤ limit) (x : κ) (y : Nat → κ) (count : Nat) :
    ∀ (i : Nat) (cursor : Option κ), Walk limit (FewArrive limit) cursor (overtaken x y (i + 1))
      ((List.range' (i + 2) count).map (overtaken x y)) := by
  have hone : ∀ i, (overtaken x y (i + 1) \ overtaken x y i).card < limit := by
    intro i
    have hsub : overtaken x y (i + 1) \ overtaken x y i ⊆ {y (i + 1)} := by
      intro k hk
      rw [Finset.mem_sdiff, mem_overtaken, mem_overtaken, not_or] at hk
      exact Finset.mem_singleton.mpr (hk.1.resolve_left hk.2.1)
    have hcard := Finset.card_le_card hsub
    rw [Finset.card_singleton] at hcard
    omega
  induction count with
  | zero => exact fun _ _ => trivial
  | succ count ih =>
    intro i cursor
    rw [List.range'_succ, List.map_cons]
    exact ⟨hone (i + 1), ih (i + 1) _⟩

/-- One arrival between two pages is enough to keep the walk from ever beginning again. -/
theorem eq_of_mem_pages_overtaken (hlimit : 1 ≤ limit) (hx : x < y 0) (hy : StrictMono y)
    (count : Nat) :
    ∀ i, ∀ p ∈ pages limit (some (y i)) (overtaken x y (i + 1))
      ((List.range' (i + 2) count).map (overtaken x y)), ∀ k ∈ p, ∃ j, k = y j := by
  have hpage : ∀ i, ∀ k ∈ page limit (some (y i)) (overtaken x y (i + 1)), ∃ j, k = y j := by
    intro i k hk
    have hsource := mem_page_source hk
    rw [source_overtaken hx hy, Finset.mem_singleton] at hsource
    exact ⟨i + 1, hsource⟩
  induction count with
  | zero =>
    intro i p hp
    rw [List.range'_zero, List.map_nil, pages, List.mem_singleton] at hp
    exact hp ▸ hpage i
  | succ count ih =>
    intro i p hp
    rw [List.range'_succ, List.map_cons, pages, List.mem_cons, next_overtaken hlimit hx hy] at hp
    rcases hp with rfl | hp
    · exact hpage i
    · exact ih (i + 1) p hp

end Overtaken

end KeysetWalk
