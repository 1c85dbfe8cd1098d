import Mathlib.Data.List.AList
import Mathlib.Data.List.Sort

/-!
# Finite tables

A table holds at most one value under each key. The order its entries stand in means nothing.
-/

abbrev Table (K V : Type) := AList fun _ : K => V

namespace Table

variable {K V W : Type} [DecidableEq K]

def size (t : Table K V) : Nat := t.entries.length

def mapValues (f : V → W) (t : Table K V) : Table K W where
  entries := t.entries.map fun e => ⟨e.1, f e.2⟩
  nodupKeys := by
    have same : (t.entries.map fun e => (⟨e.1, f e.2⟩ : Sigma fun _ : K => W)).keys = t.keys := by
      simp [List.keys, AList.keys, List.map_map, Function.comp_def]
    rw [List.NodupKeys, same]
    exact t.keys_nodup

def keep (p : V → Bool) (t : Table K V) : Table K V where
  entries := t.entries.filter fun e => p e.2
  nodupKeys := (List.Sublist.map _ List.filter_sublist).nodup t.nodupKeys

def select (t : Table K V) (keys : List K) : List (K × V) :=
  keys.filterMap fun key => (t.lookup key).map fun value => (key, value)

def insertAll (t : Table K V) (entries : List (K × V)) : Table K V :=
  entries.foldl (fun t entry => t.insert entry.1 entry.2) t

theorem mem_entries {t : Table K V} {key : K} {value : V} :
    (⟨key, value⟩ : Sigma fun _ : K => V) ∈ t.entries ↔ t.lookup key = some value :=
  AList.mem_lookup_iff.symm

theorem lookup_mapValues (f : V → W) (t : Table K V) (key : K) :
    (t.mapValues f).lookup key = (t.lookup key).map f := by
  ext value
  rw [← mem_entries, Option.map_eq_some_iff]
  simp only [mapValues, List.mem_map, Sigma.mk.injEq]
  constructor
  · rintro ⟨e, mem, rfl, eq⟩
    exact ⟨e.2, mem_entries.mp mem, eq_of_heq eq⟩
  · rintro ⟨v, h, rfl⟩
    exact ⟨⟨key, v⟩, mem_entries.mpr h, rfl, HEq.rfl⟩

omit [DecidableEq K] in
@[simp] theorem size_mapValues (f : V → W) (t : Table K V) : size (t.mapValues f) = size t := by
  simp [size, mapValues]

theorem lookup_keep (p : V → Bool) (t : Table K V) (key : K) :
    (t.keep p).lookup key = (t.lookup key).filter p := by
  ext value
  rw [← mem_entries, Option.filter_eq_some_iff, ← mem_entries]
  simp [keep]

theorem size_insert_new {t : Table K V} {key : K} (value : V) (absent : t.lookup key = none) :
    size (t.insert key value) = size t + 1 := by
  rw [AList.lookup_eq_none] at absent
  rw [size, AList.entries_insert_of_notMem absent]
  rfl

omit [DecidableEq K] in
theorem size_congr {t : Table K V} {s : Table K W} (same : ∀ key, key ∈ s ↔ key ∈ t) :
    size s = size t := by
  have perm : s.keys.Perm t.keys := by
    rw [List.perm_ext_iff_of_nodup s.keys_nodup t.keys_nodup]
    intro key
    rw [← AList.mem_keys, ← AList.mem_keys]
    exact same key
  have keys {X : Type} (t : Table K X) : t.keys.length = size t := List.length_map _
  rw [← keys s, ← keys t, perm.length_eq]

theorem size_insert_le (t : Table K V) (key : K) (value : V) : size (t.insert key value) ≤ size t + 1 := by
  by_cases held : key ∈ t
  · have same : size (t.insert key value) = size t := by
      apply size_congr
      intro other
      rw [AList.mem_insert]
      exact ⟨fun h => h.elim (fun eq => eq ▸ held) id, .inr⟩
    omega
  · rw [size_insert_new value (AList.lookup_eq_none.mpr held)]

theorem select_keys_mem {t : Table K V} {keys : List K} {key : K} {value : V} :
    (key, value) ∈ select t keys ↔ key ∈ keys ∧ t.lookup key = some value := by
  simp only [select, List.mem_filterMap, Option.map_eq_some_iff, Prod.mk.injEq]
  constructor
  · rintro ⟨k, mem, v, found, rfl, rfl⟩
    exact ⟨mem, found⟩
  · rintro ⟨mem, found⟩
    exact ⟨key, mem, value, found, rfl, rfl⟩

theorem length_select {t : Table K V} {keys : List K} (held : ∀ key ∈ keys, key ∈ t) :
    (select t keys).length = keys.length := by
  induction keys with
  | nil => rfl
  | cons key keys ih =>
      obtain ⟨value, found⟩ := Option.isSome_iff_exists.mp
        (AList.lookup_isSome.mpr (held key List.mem_cons_self))
      have tail := ih fun key mem => held key (List.mem_cons_of_mem _ mem)
      unfold select at tail ⊢
      rw [List.filterMap_cons, found]
      exact congrArg Nat.succ tail

theorem lookup_insertAll_select (s t : Table K V) (keys : List K) (key : K) :
    (s.insertAll (select t keys)).lookup key =
      if key ∈ keys then (t.lookup key).or (s.lookup key) else s.lookup key := by
  induction keys generalizing s with
  | nil => rfl
  | cons head keys ih =>
      unfold select insertAll at ih ⊢
      rw [List.filterMap_cons]
      cases found : t.lookup head with
      | none =>
          dsimp only [Option.map_none]
          rw [ih]
          by_cases eq : key = head
          · subst eq
            simp [found]
          · simp [eq]
      | some value =>
          dsimp only [Option.map_some]
          rw [List.foldl_cons, ih]
          by_cases eq : key = head
          · subst eq
            simp [found]
          · simp [eq, AList.lookup_insert_ne eq]

theorem lookup_insertAll_keys {t : Table K V} {keys : List K} (all : ∀ key ∈ t, key ∈ keys)
    (key : K) : (insertAll ∅ (select t keys)).lookup key = t.lookup key := by
  rw [lookup_insertAll_select, AList.lookup_empty, Option.or_none]
  split
  · rfl
  next absent => exact (AList.lookup_eq_none.mpr fun mem => absent (all key mem)).symm

end Table
