import Mathlib.Data.List.Nodup
import Mathlib.Data.List.Perm.Lattice
import Mathlib.Tactic.Common

namespace Lib

/-!
# Finite maps of bounded size

A map from keys to values with at most `cap` entries.  `insert?` creates or overwrites
an entry and fails when the key is new and all slots are taken; `erase` removes one.
The list of entries carries its own well-formedness: no key twice, never more than `cap`.
-/

/-- A finite map with at most `cap` entries. -/
@[ext] structure BoundedMap (κ ν : Type*) (cap : ℕ) where
  /-- The entries, the most recently created first. -/
  entries : List (κ × ν)
  nodup : (entries.map Prod.fst).Nodup
  length_le : entries.length ≤ cap

namespace BoundedMap

variable {κ ν : Type*} {cap : ℕ}

/-- The map without entries. -/
def empty : BoundedMap κ ν cap := ⟨[], by simp, by simp⟩

instance : Inhabited (BoundedMap κ ν cap) := ⟨empty⟩

/-- The keys in use. -/
def keys (m : BoundedMap κ ν cap) : List κ := m.entries.map Prod.fst

variable [DecidableEq κ]

/-- The value stored under `k`, if any. -/
def lookup (m : BoundedMap κ ν cap) (k : κ) : Option ν :=
  (m.entries.find? fun e => e.1 = k).map Prod.snd

/-- The entries under other keys than `k`. -/
def others (m : BoundedMap κ ν cap) (k : κ) : List (κ × ν) :=
  m.entries.filter fun e => e.1 ≠ k

/-- Remove the entry under `k`. -/
def erase (m : BoundedMap κ ν cap) (k : κ) : BoundedMap κ ν cap where
  entries := m.others k
  nodup := m.nodup.sublist (List.filter_sublist.map Prod.fst)
  length_le := Nat.le_trans (List.length_filter_le _ _) m.length_le

/-- Create or overwrite the entry under `k`; `none` when there is no slot for it. -/
def insert? (m : BoundedMap κ ν cap) (k : κ) (v : ν) : Option (BoundedMap κ ν cap) :=
  -- an entry under `k` gives up its slot, so only the others count
  if h : (m.others k).length < cap then
    some
      { entries := (k, v) :: m.others k
        nodup := by
          simp only [List.map_cons, List.nodup_cons]
          exact ⟨by simp [others], (m.erase k).nodup⟩
        length_le := h }
  else none

/-- `insert?` for a caller that ignores a failure: the map is then unchanged. -/
def insert (m : BoundedMap κ ν cap) (k : κ) (v : ν) : BoundedMap κ ν cap :=
  (m.insert? k v).getD m

variable {m m' : BoundedMap κ ν cap} {k k' : κ} {v v' : ν}

/-- Nothing is found in the map without entries. -/
@[simp] theorem lookup_empty : (empty : BoundedMap κ ν cap).lookup k = none := rfl

/-- A key is in use iff a value is found under it. -/
theorem mem_keys_iff : k ∈ m.keys ↔ (m.lookup k).isSome := by
  simp [keys, lookup]

/-- Leaving out the entry under `k` does not hide any other. -/
private theorem find?_others (h : k' ≠ k) :
    (m.others k).find? (fun e => e.1 = k') = m.entries.find? fun e => e.1 = k' := by
  rw [others, List.find?_filter]
  congr 1
  funext e
  by_cases he : e.1 = k'
  · simp [he, h]
  · simp [he]

/-! ### Lookup after an operation -/

/-- Nothing is found under an erased key. -/
@[simp] theorem lookup_erase_self : (m.erase k).lookup k = none := by
  simp [lookup, erase, others]

/-- `erase` changes no other key. -/
@[simp] theorem lookup_erase_of_ne (h : k' ≠ k) : (m.erase k).lookup k' = m.lookup k' := by
  rw [lookup, erase, find?_others h]; rfl

/-- What is found after an `erase` was there before. -/
theorem lookup_erase_some (h : (m.erase k).lookup k' = some v) : m.lookup k' = some v := by
  by_cases hk : k' = k
  · rw [hk, lookup_erase_self] at h
    cases h
  · rwa [lookup_erase_of_ne hk] at h

/-- A value that was stored is found. -/
theorem lookup_insert?_self (h : m.insert? k v = some m') : m'.lookup k = some v := by
  unfold insert? at h
  split at h
  · -- no slot was free
    cases h; simp [lookup]
  · cases h

/-- `insert?` changes no other key. -/
theorem lookup_insert?_of_ne (h : m.insert? k v = some m') (hk : k' ≠ k) :
    m'.lookup k' = m.lookup k' := by
  unfold insert? at h
  split at h
  · cases h
    rw [lookup, List.find?_cons_of_neg (by simpa using Ne.symm hk), find?_others hk]
    rfl
  · cases h

/-- `insert` either stores the value or, without a free slot, leaves the map unchanged. -/
theorem insert_cases (m : BoundedMap κ ν cap) (k : κ) (v : ν) :
    (m.insert? k v = none ∧ m.insert k v = m) ∨ m.insert? k v = some (m.insert k v) := by
  unfold insert
  cases m.insert? k v with
  | none => exact .inl ⟨rfl, rfl⟩
  | some m' => exact .inr rfl

/-- `insert` changes no other key, be there a slot or not. -/
@[simp] theorem lookup_insert_of_ne (hk : k' ≠ k) : (m.insert k v).lookup k' = m.lookup k' := by
  rcases insert_cases m k v with ⟨-, h⟩ | h
  · rw [h]
  · exact lookup_insert?_of_ne h hk

/-- The entries after an `insert`: a new one replaces the one under its key. -/
theorem insert_entries (m : BoundedMap κ ν cap) (k : κ) (v : ν) :
    (m.insert k v).entries
      = if (m.others k).length < cap then (k, v) :: m.others k else m.entries := by
  unfold insert insert?
  split <;> rfl

/-- A key in use can be overwritten, and a map that is not full takes every key. -/
theorem lookup_insert_self (h : (m.lookup k).isSome ∨ m.entries.length < cap) :
    (m.insert k v).lookup k = some v := by
  have hroom : (m.others k).length < cap := by
    rcases h with hsome | hlt
    · -- the entry under `k` is not among the others
      obtain ⟨e, he, hek⟩ := List.mem_map.mp (mem_keys_iff.mpr hsome)
      refine Nat.lt_of_lt_of_le ?_ m.length_le
      exact List.length_filter_lt_length_iff_exists.mpr ⟨e, he, by simp [hek]⟩
    · exact Nat.lt_of_le_of_lt (List.length_filter_le _ _) hlt
  rcases insert_cases m k v with ⟨hnone, -⟩ | hsome
  · simp [insert?, hroom] at hnone
  · exact lookup_insert?_self hsome

/-- What is found after an `insert` was stored by it or was there before. -/
theorem lookup_insert_some (h : (m.insert k v).lookup k' = some v') :
    (k' = k ∧ v' = v) ∨ m.lookup k' = some v' := by
  by_cases hk : k' = k
  · subst hk
    rcases insert_cases m k' v with ⟨-, hm⟩ | hm
    · exact .inr (hm ▸ h)
    · rw [lookup_insert?_self hm] at h
      exact .inl ⟨rfl, (Option.some.inj h).symm⟩
  · -- another key: nothing has changed there
    exact .inr (lookup_insert_of_ne hk ▸ h)

/-! ### Changing the values -/

section
variable {ν' : Type*} (f : ν → ν')

/-- The map with every value `v` replaced by `f v`. -/
def mapValues (m : BoundedMap κ ν cap) : BoundedMap κ ν' cap where
  entries := m.entries.map (Prod.map id f)
  nodup := by
    rw [List.map_map]
    exact m.nodup
  length_le := by
    rw [List.length_map]
    exact m.length_le

/-- Under each key, the value is replaced by its image. -/
@[simp] theorem lookup_mapValues (m : BoundedMap κ ν cap) (k : κ) :
    (m.mapValues f).lookup k = (m.lookup k).map f := by
  simp only [lookup, mapValues, List.find?_map, Option.map_map]
  rfl

/-- The other entries of a map with replaced values. -/
theorem others_mapValues (m : BoundedMap κ ν cap) (k : κ) :
    (m.mapValues f).others k = (m.others k).map (Prod.map id f) := by
  simp only [others, mapValues, List.filter_map]
  rfl

/-- `erase` does not look at the values. -/
@[simp] theorem mapValues_erase (m : BoundedMap κ ν cap) (k : κ) :
    (m.erase k).mapValues f = (m.mapValues f).erase k := by
  ext1
  exact (others_mapValues f m k).symm

/-- `insert` does not look at the values that are there. -/
@[simp] theorem mapValues_insert (m : BoundedMap κ ν cap) (k : κ) (v : ν) :
    (m.insert k v).mapValues f = (m.mapValues f).insert k (f v) := by
  ext1
  show (m.insert k v).entries.map (Prod.map id f) = _
  -- both maps have the same number of other entries, so both have a slot or neither
  rw [insert_entries, insert_entries, others_mapValues, List.length_map, apply_ite (List.map _)]
  rfl

end

end BoundedMap

end Lib
