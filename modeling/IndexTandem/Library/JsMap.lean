import Mathlib.Data.List.Nodup
import Mathlib.Data.List.Perm.Lattice

/-!
# Insertion-ordered maps

A `Map` as JavaScript has it: one entry a key, enumerated in the order in which the
keys were first inserted; setting a key that is there replaces its value in place.
The order is part of the data, since programs enumerate it, but most facts about a
map are facts about its lookups, so `get?` is what the lemmas here speak of.
`Same` is equality of lookups: two maps that are `Same` differ in order only
(`Same.perm`).
-/

namespace IndexTandem.Library

universe u v

/-- A map that keeps its entries in insertion order, one entry a key. -/
@[ext]
structure JsMap (α : Type u) (β : Type v) where
  /-- The entries, oldest key first. -/
  entries : List (α × β)
  /-- No key occurs twice. -/
  nodup : (entries.map Prod.fst).Nodup

namespace JsMap

variable {α : Type u} {β : Type v}

/-- `new Map()`. -/
def empty : JsMap α β := ⟨[], List.nodup_nil⟩

instance : EmptyCollection (JsMap α β) := ⟨empty⟩

/-- `[...map.values()]`. -/
def values (m : JsMap α β) : List β := m.entries.map Prod.snd

/-- `[...map.keys()]`. -/
def keys (m : JsMap α β) : List α := m.entries.map Prod.fst

instance [DecidableEq α] [DecidableEq β] : DecidableEq (JsMap α β) := fun m n =>
  decidable_of_iff (m.entries = n.entries) JsMap.ext_iff.symm

@[simp] theorem entries_empty : (∅ : JsMap α β).entries = [] := rfl

@[simp] theorem values_empty : (∅ : JsMap α β).values = [] := rfl

theorem nodup_entries (m : JsMap α β) : m.entries.Nodup := m.nodup.of_map Prod.fst

variable [DecidableEq α]

/-- `map.get(k)`. -/
def get? (m : JsMap α β) (k : α) : Option β := m.entries.lookup k

/-- `map.has(k)`. -/
def has (m : JsMap α β) (k : α) : Bool := (m.get? k).isSome

/-- The entries after `k` is set to `v`. -/
def setEntries (k : α) (v : β) : List (α × β) → List (α × β)
  | [] => [(k, v)]
  | (a, b) :: l => if a = k then (k, v) :: l else (a, b) :: setEntries k v l

theorem map_fst_setEntries (k : α) (v : β) (l : List (α × β)) :
    (setEntries k v l).map Prod.fst =
      if k ∈ l.map Prod.fst then l.map Prod.fst else l.map Prod.fst ++ [k] := by
  induction l with
  | nil => simp [setEntries]
  | cons e l ih =>
    obtain ⟨a, b⟩ := e
    by_cases h : a = k
    · simp [setEntries, h]
    · have h' : k ≠ a := fun e => h e.symm
      simp only [setEntries, h, if_false, List.map_cons, ih, List.mem_cons, h', false_or]
      split_ifs <;> simp

/-- `map.set(k, v)`: in place when `k` is there, at the end when it is not. -/
def set (m : JsMap α β) (k : α) (v : β) : JsMap α β where
  entries := setEntries k v m.entries
  nodup := by
    rw [map_fst_setEntries]
    split_ifs with h
    · exact m.nodup
    · exact m.nodup.append (List.nodup_singleton k) (by simpa using h)

/-- `map.delete(k)`. -/
def delete (m : JsMap α β) (k : α) : JsMap α β where
  entries := m.entries.filter fun e => e.1 ≠ k
  nodup := m.nodup.sublist (List.filter_sublist.map Prod.fst)

/-- `new Map(entries)`: a later entry of a key replaces the value of an earlier one. -/
def ofList (l : List (α × β)) : JsMap α β := l.foldl (fun m e => m.set e.1 e.2) empty

/-! ### Lookups -/

@[simp] theorem get?_empty (k : α) : (∅ : JsMap α β).get? k = none := rfl

theorem lookup_cons (k a : α) (b : β) (l : List (α × β)) :
    ((a, b) :: l).lookup k = if k = a then some b else l.lookup k := by
  rw [List.lookup_cons]
  by_cases h : k = a
  · rw [h, beq_self_eq_true, if_pos rfl]
  · rw [beq_eq_false_iff_ne.mpr h, if_neg h]

theorem lookup_setEntries (k : α) (v : β) (l : List (α × β)) (k' : α) :
    (setEntries k v l).lookup k' = if k' = k then some v else l.lookup k' := by
  induction l with
  | nil => simp [setEntries, lookup_cons]
  | cons e l ih =>
    obtain ⟨a, b⟩ := e
    by_cases h : a = k
    · subst h
      by_cases h' : k' = a <;> simp [setEntries, lookup_cons, h']
    · simp only [setEntries, h, if_false, lookup_cons, ih]
      by_cases h' : k' = a
      · subst h'
        simp [h]
      · simp [h']

@[simp] theorem get?_set (m : JsMap α β) (k : α) (v : β) (k' : α) :
    (m.set k v).get? k' = if k' = k then some v else m.get? k' :=
  lookup_setEntries k v m.entries k'

theorem get?_set_ne (m : JsMap α β) {k k' : α} (v : β) (h : k' ≠ k) :
    (m.set k v).get? k' = m.get? k' := by simp [h]

@[simp] theorem get?_delete (m : JsMap α β) (k k' : α) :
    (m.delete k).get? k' = if k' = k then none else m.get? k' := by
  obtain ⟨l, hl⟩ := m
  simp only [get?, delete]
  clear hl
  induction l with
  | nil => simp
  | cons e l ih =>
    obtain ⟨a, b⟩ := e
    by_cases h : a = k
    · subst h
      rw [List.filter_cons_of_neg (by simp), ih, lookup_cons]
      by_cases h' : k' = a <;> simp [h']
    · rw [List.filter_cons_of_pos (by simpa using h), lookup_cons, lookup_cons, ih]
      by_cases h' : k' = a
      · subst h'
        simp [h]
      · simp [h']

@[simp] theorem has_iff (m : JsMap α β) (k : α) : m.has k = true ↔ ∃ v, m.get? k = some v := by
  simp [has, Option.isSome_iff_exists]

/-- An entry of the list is a lookup. -/
theorem mem_entries (m : JsMap α β) (k : α) (v : β) : (k, v) ∈ m.entries ↔ m.get? k = some v := by
  obtain ⟨l, hl⟩ := m
  simp only [get?]
  induction l with
  | nil => simp
  | cons e l ih =>
    obtain ⟨a, b⟩ := e
    simp only [List.map_cons, List.nodup_cons] at hl
    by_cases h : k = a
    · subst h
      have : (k, v) ∉ l := fun hm => hl.1 (List.mem_map.mpr ⟨_, hm, rfl⟩)
      simp [this, eq_comm]
    · simp [lookup_cons, h, ih hl.2]

theorem mem_values (m : JsMap α β) (v : β) : v ∈ m.values ↔ ∃ k, m.get? k = some v := by
  simp only [values, List.mem_map, Prod.exists, exists_eq_right, mem_entries]

theorem mem_keys (m : JsMap α β) (k : α) : k ∈ m.keys ↔ ∃ v, m.get? k = some v := by
  simp only [keys, List.mem_map, Prod.exists, exists_and_right, exists_eq_right, mem_entries]

/-! ### Maps that differ in order only -/

/-- The two maps have the same lookups. -/
def Same (m n : JsMap α β) : Prop := ∀ k, m.get? k = n.get? k

theorem Same.refl (m : JsMap α β) : Same m m := fun _ => rfl

theorem Same.symm {m n : JsMap α β} (h : Same m n) : Same n m := fun k => (h k).symm

theorem Same.trans {m n p : JsMap α β} (h : Same m n) (h' : Same n p) : Same m p :=
  fun k => (h k).trans (h' k)

theorem Same.set {m n : JsMap α β} (h : Same m n) (k : α) (v : β) : Same (m.set k v) (n.set k v) := by
  intro k'
  simp [h k']

theorem Same.delete {m n : JsMap α β} (h : Same m n) (k : α) : Same (m.delete k) (n.delete k) := by
  intro k'
  simp [h k']

theorem Same.has {m n : JsMap α β} (h : Same m n) (k : α) : m.has k = n.has k := by
  simp [JsMap.has, h k]

/-- Maps with the same lookups have the same entries, in some order. -/
theorem Same.perm {m n : JsMap α β} (h : Same m n) : m.entries.Perm n.entries := by
  refine (List.perm_ext_iff_of_nodup m.nodup_entries n.nodup_entries).mpr fun e => ?_
  obtain ⟨k, v⟩ := e
  rw [mem_entries, mem_entries, h k]

theorem Same.values_perm {m n : JsMap α β} (h : Same m n) : m.values.Perm n.values :=
  h.perm.map Prod.snd

/-! ### Maps built from a list -/

theorem get?_foldl_set (l : List (α × β)) (m : JsMap α β) (hl : (l.map Prod.fst).Nodup) (k : α) :
    (l.foldl (fun m e => m.set e.1 e.2) m).get? k = (l.lookup k).or (m.get? k) := by
  induction l generalizing m with
  | nil => simp
  | cons e l ih =>
    obtain ⟨a, b⟩ := e
    simp only [List.map_cons, List.nodup_cons] at hl
    rw [List.foldl_cons, ih _ hl.2, get?_set]
    by_cases h : k = a
    · subst h
      have hn : l.lookup k = none := by
        rw [List.lookup_eq_none_iff]
        intro e he
        have : e.1 ≠ k := fun e' => hl.1 (e' ▸ List.mem_map_of_mem he)
        simpa using this.symm
      simp [hn]
    · simp [lookup_cons, h]

/-- Looking a key up in a map built from entries with distinct keys. -/
theorem get?_ofList (l : List (α × β)) (hl : (l.map Prod.fst).Nodup) (k : α) :
    (ofList l).get? k = l.lookup k := by
  rw [ofList, get?_foldl_set l empty hl]
  simp [empty, get?]

/-- A map whose keys are those of some entries and that has these entries, has no others. -/
theorem get?_eq_lookup_iff {m : JsMap α β} {l : List (α × β)} (hl : (l.map Prod.fst).Nodup) :
    (∀ k, m.get? k = l.lookup k) ↔ m.keys.Perm (l.map Prod.fst) ∧ ∀ e ∈ l, m.get? e.1 = some e.2 := by
  have hlook : ∀ k v, l.lookup k = some v ↔ (k, v) ∈ l := fun k v => (mem_entries ⟨l, hl⟩ k v).symm
  constructor
  · intro h
    refine ⟨(List.perm_ext_iff_of_nodup m.nodup hl).mpr fun k => ?_, fun e he => (h e.1).trans ((hlook _ _).mpr he)⟩
    refine (mem_keys m k).trans (Iff.trans ?_ List.mem_map.symm)
    constructor
    · rintro ⟨v, hv⟩
      exact ⟨(k, v), (hlook k v).mp ((h k).symm.trans hv), rfl⟩
    · rintro ⟨⟨k', v⟩, he, rfl⟩
      exact ⟨v, (h k').trans ((hlook k' v).mpr he)⟩
  · rintro ⟨hp, he⟩ k
    by_cases hk : k ∈ l.map Prod.fst
    · obtain ⟨⟨k', v⟩, hm, rfl⟩ := List.mem_map.mp hk
      exact (he _ hm).trans ((hlook k' v).mpr hm).symm
    · have hnone : m.get? k = none := by
        rw [Option.eq_none_iff_forall_not_mem]
        exact fun v hv => hk (hp.mem_iff.mp ((mem_keys m k).mpr ⟨v, hv⟩))
      rw [hnone, eq_comm, Option.eq_none_iff_forall_not_mem]
      exact fun v hv => hk (List.mem_map_of_mem ((hlook k v).mp hv))

/-! ### Mapped values -/

section

variable {γ : Type*} (f : β → γ)

/-- The map with another value for each key. -/
def mapValues (m : JsMap α β) : JsMap α γ where
  entries := m.entries.map fun e => (e.1, f e.2)
  nodup := by
    rw [List.map_map]
    exact m.nodup

omit [DecidableEq α] in
@[simp] theorem mapValues_empty : (∅ : JsMap α β).mapValues f = ∅ := rfl

@[simp] theorem get?_mapValues (m : JsMap α β) (k : α) : (m.mapValues f).get? k = (m.get? k).map f := by
  show (m.entries.map fun e => (e.1, f e.2)).lookup k = (m.entries.lookup k).map f
  induction m.entries with
  | nil => rfl
  | cons e l ih =>
    obtain ⟨a, b⟩ := e
    rw [List.map_cons, lookup_cons, lookup_cons, ih]
    split_ifs <;> rfl

theorem map_setEntries (k : α) (v : β) (l : List (α × β)) :
    (setEntries k v l).map (fun e => (e.1, f e.2)) = setEntries k (f v) (l.map fun e => (e.1, f e.2)) := by
  induction l with
  | nil => rfl
  | cons e l ih =>
    obtain ⟨a, b⟩ := e
    by_cases h : a = k
    · simp [setEntries, h]
    · simp [setEntries, h, ih]

/-- Setting a value, then mapping, keeps the order as well. -/
@[simp] theorem mapValues_set (m : JsMap α β) (k : α) (v : β) :
    (m.set k v).mapValues f = (m.mapValues f).set k (f v) := JsMap.ext (map_setEntries f k v m.entries)

end

/-! ### Counting values -/

theorem countP_setEntries (p : β → Bool) (k : α) (v : β) (l : List (α × β)) :
    ((setEntries k v l).map Prod.snd).countP p + (l.lookup k).toList.countP p =
      (l.map Prod.snd).countP p + [v].countP p := by
  induction l with
  | nil => simp [setEntries]
  | cons e l ih =>
    obtain ⟨a, b⟩ := e
    by_cases h : a = k
    · subst h
      rw [lookup_cons, if_pos rfl, setEntries, if_pos rfl]
      simp only [List.map_cons, List.countP_cons, Option.toList_some, List.countP_nil]
      omega
    · have h' : k ≠ a := fun e => h e.symm
      rw [lookup_cons, if_neg h', setEntries, if_neg h]
      simp only [List.map_cons, List.countP_cons] at ih ⊢
      omega

/-- Setting a value counts it in place of the value that was there. -/
theorem countP_set (p : β → Bool) (m : JsMap α β) (k : α) (v : β) :
    (m.set k v).values.countP p + (m.get? k).toList.countP p = m.values.countP p + [v].countP p :=
  countP_setEntries p k v m.entries

end JsMap

end IndexTandem.Library
