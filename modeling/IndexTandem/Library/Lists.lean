import Mathlib.Data.List.Nodup
import Mathlib.Data.List.Perm.Lattice
import Mathlib.Data.List.Sort

/-!
# Sorting and tables as lists

Facts about lists that programs over tables lean on: that sorting forgets the order
of what it sorts, and what a keyed list of rows looks like after rows are added,
replaced or removed.
-/

namespace IndexTandem.Library

universe u v

variable {α : Type u} {β : Type v}

/-! ### Sorting -/

/-- A stable sort with a comparison. -/
def sortBy (le : α → α → Bool) (l : List α) : List α := l.insertionSort fun a b => le a b = true

theorem sortBy_perm (le : α → α → Bool) (l : List α) : (sortBy le l).Perm l := List.perm_insertionSort _ l

theorem pairwise_sortBy {le : α → α → Bool} (trans : ∀ a b c, le a b = true → le b c = true → le a c = true)
    (total : ∀ a b, (le a b || le b a) = true) (l : List α) : (sortBy le l).Pairwise fun a b => le a b = true := by
  have : Std.Total fun a b => le a b = true := ⟨fun a b => by simpa using total a b⟩
  have : IsTrans α fun a b => le a b = true := ⟨trans⟩
  exact List.pairwise_insertionSort _ l

/-- Two enumerations of the same elements sort to the same list, when the order tells
the elements apart. -/
theorem sortBy_congr {le : α → α → Bool} (trans : ∀ a b c, le a b = true → le b c = true → le a c = true)
    (total : ∀ a b, (le a b || le b a) = true) {l l' : List α} (h : l.Perm l')
    (antisymm : ∀ a ∈ l, ∀ b ∈ l, le a b = true → le b a = true → a = b) : sortBy le l = sortBy le l' := by
  refine List.Perm.eq_of_pairwise ?_
    (pairwise_sortBy trans total l) (pairwise_sortBy trans total l')
    ((sortBy_perm le l).trans (h.trans (sortBy_perm le l').symm))
  intro a b ha hb
  rw [(sortBy_perm le _).mem_iff] at ha hb
  exact antisymm a ha b (h.mem_iff.mpr hb)

/-! ### Filtering -/

theorem filter_append_left {p : α → Bool} {l l' : List α} (h : ∀ a ∈ l, p a = true) (h' : ∀ a ∈ l', p a = false) :
    (l ++ l').filter p = l := by
  rw [List.filter_append, List.filter_eq_self.mpr h, List.filter_eq_nil_iff.mpr fun a ha => by simp [h' a ha],
    List.append_nil]

theorem filter_append_right {p : α → Bool} {l l' : List α} (h : ∀ a ∈ l, p a = false) (h' : ∀ a ∈ l', p a = true) :
    (l ++ l').filter p = l' := by
  rw [List.filter_append, List.filter_eq_self.mpr h', List.filter_eq_nil_iff.mpr fun a ha => by simp [h a ha],
    List.nil_append]

/-- A list put together from parts that each come from one element, or are empty. -/
theorem flatMap_map_filter {f : α → List β} {g : β → α} {p : α → Bool} {l : List α}
    (parts : ∀ a ∈ l, (f a).map g = [a].filter p) : (l.flatMap f).map g = l.filter p := by
  induction l with
  | nil => rfl
  | cons a l ih =>
    have hrest := ih fun b hb => parts b (List.mem_cons_of_mem _ hb)
    rw [List.flatMap_cons, List.map_append, parts a List.mem_cons_self, hrest, ← List.filter_append]
    rfl

/-! ### Related lists -/

/-- What is on the right of a relation of lists has something on the left. -/
theorem exists_left_of_forall₂ {R : α → β → Prop} {l : List α} {l' : List β} (h : List.Forall₂ R l l') {b : β}
    (hb : b ∈ l') : ∃ a ∈ l, R a b := by
  induction h with
  | nil => cases hb
  | cons first _ ih =>
    rcases List.mem_cons.mp hb with rfl | hb
    · exact ⟨_, List.mem_cons_self, first⟩
    · obtain ⟨a, ha, h⟩ := ih hb
      exact ⟨a, List.mem_cons_of_mem _ ha, h⟩

/-! ### Distinct images -/

/-- Elements with the same image are one when the images are distinct. -/
theorem eq_of_nodup_filterMap {f : α → Option β} {l : List α} (h : (l.filterMap f).Nodup) {a a' : α} {b : β}
    (ha : a ∈ l) (ha' : a' ∈ l) (hf : f a = some b) (hf' : f a' = some b) : a = a' := by
  induction l with
  | nil => cases ha
  | cons c l ih =>
    cases hc : f c with
    | none =>
      rw [List.filterMap_cons_none hc] at h
      have hne : ∀ {x}, f x = some b → x ∈ c :: l → x ∈ l := by
        intro x hx hm
        rcases List.mem_cons.mp hm with rfl | hm
        · exact absurd (hx.symm.trans hc) (Option.some_ne_none b)
        · exact hm
      exact ih h (hne hf ha) (hne hf' ha')
    | some d =>
      rw [List.filterMap_cons_some hc, List.nodup_cons] at h
      have hnot : ∀ {x}, f x = some b → x ∈ l → b ≠ d := fun hx hm e =>
        h.1 (e ▸ List.mem_filterMap.mpr ⟨_, hm, hx⟩)
      rcases List.mem_cons.mp ha with he | hm
      · rcases List.mem_cons.mp ha' with he' | hm'
        · rw [he, he']
        · exact absurd (Option.some.inj (hf.symm.trans (he ▸ hc))) (hnot hf' hm')
      · rcases List.mem_cons.mp ha' with he' | hm'
        · exact absurd (Option.some.inj (hf'.symm.trans (he' ▸ hc))) (hnot hf hm)
        · exact ih h.2 hm hm'

end IndexTandem.Library
