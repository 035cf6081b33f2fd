import Mathlib.Data.List.Sort

/-!
# Keyset pagination

A list sorted by a key is read page by page. A page asks for the items whose key is above
that of the last item of the page before, and looks one item beyond its limit to see
whether there are more.

The rules: sorting commutes with selecting (`orderBy_filter`); what a page leaves is what
the next one asks for (`following_next`); and the pages of a reading are a prefix of the
list, all of it when the last one says so, and at most as many as there are items
(`Reading.items`). A list sorted by a number is also read number by number
(`flatMap_filter_range`).
-/

namespace IndexTandem.Library

universe u v

variable {α : Type u} {κ : Type v} [LinearOrder κ] (key : α → κ)

/-! ### Sorting by a key -/

/-- `ORDER BY key`. -/
def orderBy (l : List α) : List α := l.mergeSort fun a b => key a ≤ key b

variable {key} {l l' : List α}

theorem orderBy_perm : (orderBy key l).Perm l := List.mergeSort_perm l _

/-- Items with different keys are sorted strictly. -/
theorem orderBy_sorted (nodup : (l.map key).Nodup) : (orderBy key l).Pairwise fun a b => key a < key b := by
  have hsorted : (orderBy key l).Pairwise fun a b => decide (key a ≤ key b) = true :=
    List.pairwise_mergeSort (fun a b c hab hbc => by simp only [decide_eq_true_eq] at *; exact le_trans hab hbc)
      (fun a b => by simpa using le_total (key a) (key b)) l
  have hnodup : ((orderBy key l).map key).Nodup := (orderBy_perm.map key).nodup_iff.mpr nodup
  refine (hsorted.and (List.pairwise_map.mp hnodup)).imp ?_
  rintro a b ⟨hle, hne⟩
  exact lt_of_le_of_ne (of_decide_eq_true hle) hne

/-- There is one strictly sorted list with the same items. -/
theorem eq_of_sorted (perm : l.Perm l') (h : l.Pairwise fun a b => key a < key b)
    (h' : l'.Pairwise fun a b => key a < key b) : l = l' := by
  refine perm.eq_of_pairwise (fun a b _ _ hab hba => ?_) h h'
  exact absurd hab (lt_asymm hba)

/-- So the order of the items before sorting does not matter. -/
theorem orderBy_congr (perm : l.Perm l') (nodup : (l.map key).Nodup) : orderBy key l = orderBy key l' := by
  have hperm : (orderBy key l).Perm (orderBy key l') := orderBy_perm.trans (perm.trans orderBy_perm.symm)
  exact eq_of_sorted hperm (orderBy_sorted nodup) (orderBy_sorted ((perm.map key).nodup_iff.mp nodup))

/-- Nor does it matter whether items are selected before or after. -/
theorem orderBy_filter (p : α → Bool) (nodup : (l.map key).Nodup) :
    orderBy key (l.filter p) = (orderBy key l).filter p := by
  have hperm : (orderBy key (l.filter p)).Perm ((orderBy key l).filter p) :=
    orderBy_perm.trans (orderBy_perm.symm.filter p)
  have hnodup : ((l.filter p).map key).Nodup := nodup.sublist (List.filter_sublist.map key)
  exact eq_of_sorted hperm (orderBy_sorted hnodup) ((orderBy_sorted nodup).filter p)

/-- What follows an item in a sorted list are the items with a greater key. -/
theorem filter_after {before rest : List α} {last : α}
    (h : (before ++ last :: rest).Pairwise fun a b => key a < key b) :
    ((before ++ last :: rest).filter fun a => key last < key a) = rest := by
  obtain ⟨-, htail, hcross⟩ := List.pairwise_append.mp h
  have hbefore : before.filter (fun a => key last < key a) = [] := by
    refine List.filter_eq_nil_iff.mpr fun a ha => ?_
    simpa using (hcross a ha last List.mem_cons_self).le
  have hrest : rest.filter (fun a => key last < key a) = rest := by
    refine List.filter_eq_self.mpr fun a ha => ?_
    simpa using (List.pairwise_cons.mp htail).1 a ha
  rw [List.filter_append, hbefore, List.nil_append, List.filter_cons_of_neg (by simp), hrest]

/-- A row that no other shares its key with is the one that is found. -/
theorem find?_key {κ : Type v} [DecidableEq κ] {key : α → κ} {a : α} (nodup : (l.map key).Nodup) (h : a ∈ l) :
    (l.find? fun b => key b = key a) = some a := by
  cases hfound : l.find? fun b => key b = key a with
  | none => exact absurd (decide_eq_true rfl) (List.find?_eq_none.mp hfound a h)
  | some b =>
    have hkey : key b = key a := by simpa using List.find?_some hfound
    exact congrArg some (List.inj_on_of_nodup_map nodup (List.mem_of_find?_eq_some hfound) h hkey)

/-! ### Reading the values of a key one by one -/

/-- A sorted list splits at a value. -/
theorem filter_lt_append_filter_le {f : α → ℕ} {l : List α} (sorted : l.Pairwise fun a b => f a ≤ f b) (n : ℕ) :
    (l.filter fun a => f a < n) ++ (l.filter fun a => n ≤ f a) = l := by
  induction l with
  | nil => rfl
  | cons a l ih =>
    obtain ⟨hfirst, hrest⟩ := List.pairwise_cons.mp sorted
    by_cases h : f a < n
    · rw [List.filter_cons_of_pos (by simpa using h), List.filter_cons_of_neg (by simpa using h), List.cons_append,
        ih hrest]
    · have hnone : (l.filter fun a => f a < n) = [] := by
        refine List.filter_eq_nil_iff.mpr fun b hb => ?_
        have := hfirst b hb
        rw [decide_eq_true_eq]
        omega
      have hall : (l.filter fun a => n ≤ f a) = l := by
        refine List.filter_eq_self.mpr fun b hb => ?_
        have := hfirst b hb
        rw [decide_eq_true_eq]
        omega
      rw [List.filter_cons_of_neg (by simpa using h), List.filter_cons_of_pos (by simpa using h), hnone, hall,
        List.nil_append]

/-- **A sorted list is read value by value.** -/
theorem flatMap_filter_range {f : α → ℕ} {n : ℕ} {l : List α} (sorted : l.Pairwise fun a b => f a ≤ f b)
    (below : ∀ a ∈ l, f a < n) : ((List.range n).flatMap fun k => l.filter fun a => f a = k) = l := by
  induction n generalizing l with
  | zero =>
    obtain rfl := List.eq_nil_iff_forall_not_mem.mpr fun a ha => Nat.not_lt_zero _ (below a ha)
    rfl
  | succ n ih =>
    have hlow := ih (sorted.filter fun a => decide (f a < n)) fun a ha => by simpa using (List.mem_filter.mp ha).2
    have hlast : (l.filter fun a => f a = n) = l.filter fun a => n ≤ f a := by
      refine List.filter_congr fun a ha => ?_
      have := below a ha
      rw [decide_eq_decide]
      omega
    rw [List.range_succ, List.flatMap_append, List.flatMap_singleton, hlast]
    refine Eq.trans ?_ (filter_lt_append_filter_le sorted n)
    congr 1
    refine Eq.trans (List.flatMap_congr fun k hk => ?_) hlow
    rw [List.filter_filter]
    refine List.filter_congr fun a _ => ?_
    have := List.mem_range.mp hk
    rw [← Bool.decide_and, decide_eq_decide]
    omega

/-! ### Pages -/

variable (key)

/-- The items above a key; all of them without one. -/
def following (start : Option κ) (rows : List α) : List α :=
  rows.filter fun a => start.all fun k => k < key a

/-- A page, and the key to go on from when there are more items. -/
structure Slice (α : Type u) (κ : Type v) where
  /-- The items. -/
  items : List α
  /-- The key of the last one. -/
  next : Option κ

/-- The page of some items: `limit` of them, if one more was found its last key. -/
def sliceOf (limit : ℕ) (found : List α) : Slice α κ where
  items := found.take limit
  next := if limit < found.length then (found.take limit).getLast?.map key else none

/-- Pages read one after the other, each from the key that the one before it ended with. -/
inductive Reading (rows : List α) : Option κ → List (Slice α κ) → Prop
  /-- The last page. -/
  | last {start : Option κ} {limit : ℕ} (positive : 0 < limit) :
      Reading rows start [sliceOf key limit (following key start rows)]
  /-- A page with a next one. -/
  | more {start : Option κ} {limit : ℕ} {k : κ} {slices : List (Slice α κ)} (positive : 0 < limit)
      (next : (sliceOf key limit (following key start rows)).next = some k) (rest : Reading rows (some k) slices) :
      Reading rows start (sliceOf key limit (following key start rows) :: slices)

omit [LinearOrder κ] in
/-- A page is a part of the items, and more items follow exactly when it has a key to go on from. -/
theorem sliceOf_split {limit : ℕ} (positive : 0 < limit) (found : List α) :
    ∃ rest, found = (sliceOf key limit found).items ++ rest ∧
      ((sliceOf key limit found).next = none ∧ rest = [] ∨
        ∃ before last, (sliceOf key limit found).items = before ++ [last] ∧
          (sliceOf key limit found).next = some (key last) ∧ rest ≠ []) := by
  refine ⟨found.drop limit, (List.take_append_drop limit found).symm, ?_⟩
  unfold sliceOf
  by_cases hmore : limit < found.length
  · right
    have hne : found.take limit ≠ [] := by
      intro hnil
      have := congrArg List.length hnil
      rw [List.length_take, List.length_nil] at this
      omega
    refine ⟨(found.take limit).dropLast, (found.take limit).getLast hne, ?_, ?_, ?_⟩
    · exact (List.dropLast_append_getLast hne).symm
    · simp only [if_pos hmore, List.getLast?_eq_some_getLast hne, Option.map_some]
    · intro hnil
      have := List.drop_eq_nil_iff.mp hnil
      omega
  · left
    exact ⟨if_neg hmore, List.drop_eq_nil_iff.mpr (by omega)⟩

omit [LinearOrder κ] in
theorem sliceOf_last {limit : ℕ} (positive : 0 < limit) {found : List α} (done : (sliceOf key limit found).next = none) :
    (sliceOf key limit found).items = found := by
  obtain ⟨rest, hsplit, ⟨-, rfl⟩ | ⟨_, _, -, hsome, -⟩⟩ := sliceOf_split key positive found
  · rw [List.append_nil] at hsplit
    exact hsplit.symm
  · rw [hsome] at done
    cases done

variable {key} {rows : List α}

/-- What follows one of the items that follow a key. -/
theorem following_some {start : Option κ} {before rest : List α} {last : α}
    (split : following key start rows = before ++ last :: rest) (sorted : rows.Pairwise fun a b => key a < key b) :
    following key (some (key last)) rows = rest := by
  have hmem : last ∈ following key start rows := by
    rw [split]
    exact List.mem_append_right _ List.mem_cons_self
  have hlast := (List.mem_filter.mp hmem).2
  have hfurther : following key (some (key last)) rows =
      (following key start rows).filter fun a => key last < key a := by
    unfold following
    rw [List.filter_filter]
    refine List.filter_congr fun a _ => ?_
    simp only [Option.all_some]
    by_cases h : key last < key a
    · have habove : (start.all fun k => decide (k < key a)) = true := by
        rw [Option.all_eq_true] at hlast ⊢
        exact fun k hk => decide_eq_true ((of_decide_eq_true (hlast k hk)).trans h)
      rw [habove, Bool.and_true]
    · rw [decide_eq_false h, Bool.false_and]
  have hsorted : (before ++ last :: rest).Pairwise fun a b => key a < key b := by
    rw [← split]
    exact sorted.filter _
  rw [hfurther, split]
  exact filter_after hsorted

/-- **What a page leaves follows the key it ends with**, which is that of an item. -/
theorem following_next {start : Option κ} {limit : ℕ} {k : κ} (positive : 0 < limit)
    (sorted : rows.Pairwise fun a b => key a < key b)
    (next : (sliceOf key limit (following key start rows)).next = some k) :
    following key start rows = (sliceOf key limit (following key start rows)).items ++ following key (some k) rows ∧
      (sliceOf key limit (following key start rows)).items ≠ [] ∧ following key (some k) rows ≠ [] ∧
        ∃ a ∈ rows, key a = k := by
  obtain ⟨rest, hsplit, ⟨hnone, -⟩ | ⟨before, last, hitems, hlast, hmore⟩⟩ :=
    sliceOf_split key positive (following key start rows)
  · rw [hnone] at next
    cases next
  · obtain rfl : key last = k := Option.some.inj (hlast.symm.trans next)
    have hsplit' : following key start rows = before ++ last :: rest := by
      rw [hsplit, hitems, List.append_assoc, List.singleton_append]
    have hmem : last ∈ following key start rows := hsplit' ▸ List.mem_append_right _ List.mem_cons_self
    rw [following_some hsplit' sorted]
    refine ⟨hsplit, ?_, hmore, last, List.mem_of_mem_filter hmem, rfl⟩
    rw [hitems]
    exact List.append_ne_nil_of_right_ne_nil _ (List.cons_ne_nil _ _)

theorem Reading.ne_nil {start : Option κ} {slices : List (Slice α κ)} (reading : Reading key rows start slices) :
    slices ≠ [] := by
  cases reading <;> exact List.cons_ne_nil _ _

/-- **A reading gives each item once, in order**: its pages are what follows where it starts, or a first part of it as
long as the last page has a key to go on from; and there are at most as many pages as items, or one. -/
theorem Reading.items {start : Option κ} {slices : List (Slice α κ)} (reading : Reading key rows start slices)
    (sorted : rows.Pairwise fun a b => key a < key b) :
    ∃ rest, following key start rows = slices.flatMap Slice.items ++ rest ∧
      (∀ slice, slices.getLast? = some slice → slice.next = none → rest = []) ∧
      slices.length ≤ max 1 (following key start rows).length := by
  induction reading with
  | @last start limit positive =>
    obtain ⟨rest, hsplit, -⟩ := sliceOf_split key positive (following key start rows)
    refine ⟨rest, by simpa using hsplit, fun slice hslice hnext => ?_, le_max_left _ _⟩
    obtain rfl : sliceOf key limit (following key start rows) = slice := Option.some.inj hslice
    rw [sliceOf_last key positive hnext] at hsplit
    exact List.self_eq_append_right.mp hsplit
  | @more start limit k slices positive next reading ih =>
    obtain ⟨hsplit, hitems, hmore, -⟩ := following_next positive sorted next
    obtain ⟨rest, hrest, hdone, hcount⟩ := ih
    refine ⟨rest, ?_, ?_, ?_⟩
    · rw [List.flatMap_cons, List.append_assoc, ← hrest]
      exact hsplit
    · rw [List.getLast?_cons_of_ne_nil reading.ne_nil]
      exact hdone
    · have hlength := congrArg List.length hsplit
      have hpage := List.length_pos_iff.mpr hitems
      have hleft := List.length_pos_iff.mpr hmore
      rw [List.length_append] at hlength
      rw [List.length_cons]
      omega

/-- A page with a key to go on from has an item. -/
theorem Reading.nonempty {start : Option κ} {slices : List (Slice α κ)} (reading : Reading key rows start slices) :
    ∀ slice ∈ slices, slice.next ≠ none → slice.items ≠ [] := by
  have hone : ∀ (start : Option κ) {limit : ℕ}, 0 < limit → (sliceOf key limit (following key start rows)).next ≠ none →
      (sliceOf key limit (following key start rows)).items ≠ [] := by
    intro start limit positive hnext
    obtain ⟨_, -, ⟨hnone, -⟩ | ⟨before, last, hitems, -⟩⟩ := sliceOf_split key positive (following key start rows)
    · exact absurd hnone hnext
    · rw [hitems]
      simp
  induction reading with
  | last positive =>
    intro slice hslice
    obtain rfl := List.mem_singleton.mp hslice
    exact hone _ positive
  | more positive _ _ ih =>
    intro slice hslice
    rcases List.mem_cons.mp hslice with rfl | hslice
    · exact hone _ positive
    · exact ih slice hslice

/-- **How many pages there are** of one size: as many as it takes, and at least one. -/
theorem Reading.length_eq {start : Option κ} {slices : List (Slice α κ)} (reading : Reading key rows start slices)
    (sorted : rows.Pairwise fun a b => key a < key b) {size : ℕ} (positive : 0 < size)
    (sized : ∀ slice ∈ slices, slice.items.length ≤ size ∧ (slice.next ≠ none → slice.items.length = size))
    (done : ∀ slice, slices.getLast? = some slice → slice.next = none) :
    slices.length = max 1 (((following key start rows).length + size - 1) / size) := by
  induction reading with
  | @last start limit hlimit =>
    have hsize := (sized _ List.mem_cons_self).1
    rw [sliceOf_last key hlimit (done _ rfl)] at hsize
    have hle : ((following key start rows).length + size - 1) / size ≤ 1 := by
      rw [Nat.div_le_iff_le_mul_add_pred positive]
      omega
    rw [List.length_singleton, max_eq_left hle]
  | @more start limit k slices hlimit next reading ih =>
    obtain ⟨hsplit, -, hmore, -⟩ := following_next hlimit sorted next
    have hfull := (sized _ List.mem_cons_self).2 (by rw [next]; exact Option.some_ne_none _)
    have hlength := congrArg List.length hsplit
    rw [List.length_append, hfull] at hlength
    have hcount := ih (fun slice hs => sized slice (List.mem_cons_of_mem _ hs)) fun slice hs =>
      done slice (by rwa [List.getLast?_cons_of_ne_nil reading.ne_nil])
    have hrest : 1 ≤ ((following key (some k) rows).length + size - 1) / size := by
      have := List.length_pos_iff.mpr hmore
      exact (Nat.one_le_div_iff positive).mpr (by omega)
    have hnext : (size + (following key (some k) rows).length + size - 1) / size =
        ((following key (some k) rows).length + size - 1) / size + 1 := by
      rw [show size + (following key (some k) rows).length + size - 1 =
        (following key (some k) rows).length + size - 1 + size by omega, Nat.add_div_right _ positive]
    rw [List.length_cons, hcount, hlength, hnext, max_eq_right hrest, max_eq_right (by omega)]

@[simp] theorem following_none : following key none rows = rows := List.filter_eq_self.mpr fun _ _ => rfl

end IndexTandem.Library
