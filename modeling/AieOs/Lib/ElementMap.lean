import AieOs.Lib.BoundedMap
import Mathlib.Logic.Function.Basic

namespace Lib

/-!
# Maps whose elements have an identity

A look-up in a `BoundedMap` gives a value.  Where it gives a pointer instead, what is done
through the pointer later depends on which element it points to: an insertion puts a new
element in the place of the old one, and whoever holds the old one no longer acts on the map.
A reference is not used again.

* `ElementMap` — a map from keys to references, and the elements they refer to;
* `toMap` — the map of values that it stands for;
* `toMap_insert`, `lookup_toMap_modify` — the two operations on it.
-/

/-- A finite map with at most `cap` entries, each of which refers to an element of its own. -/
structure ElementMap (κ ν : Type*) (cap : ℕ) where
  table : BoundedMap κ ℕ cap
  /-- The elements that were ever made. -/
  element : ℕ → ν
  /-- The reference of the next element. -/
  next : ℕ
  made : ∀ entry ∈ table.entries, entry.2 < next
  /-- No element belongs to two keys. -/
  nodup : (table.entries.map Prod.snd).Nodup

namespace ElementMap

variable {κ ν : Type*} {cap : ℕ}

/-- The map without entries. -/
def empty [Inhabited ν] : ElementMap κ ν cap where
  table := .empty
  element := fun _ => default
  next := 0
  made := fun _ h => absurd h List.not_mem_nil
  nodup := .nil

/-- The values under the keys. -/
def toMap (m : ElementMap κ ν cap) : BoundedMap κ ν cap := m.table.mapValues m.element

/-- Change the element `ref`, be it in the map or not. -/
def modify (m : ElementMap κ ν cap) (ref : ℕ) (f : ν → ν) : ElementMap κ ν cap :=
  { m with element := Function.update m.element ref (f (m.element ref)) }

/-- The changed element. -/
@[simp] theorem element_modify_self {m : ElementMap κ ν cap} {ref : ℕ} {f : ν → ν} :
    (m.modify ref f).element ref = f (m.element ref) :=
  Function.update_self _ _ _

/-- No other element is changed. -/
@[simp] theorem element_modify_of_ne {m : ElementMap κ ν cap} {ref ref' : ℕ} {f : ν → ν}
    (h : ref' ≠ ref) : (m.modify ref f).element ref' = m.element ref' :=
  Function.update_of_ne h _ _

variable [DecidableEq κ]

/-- The reference under `k`, if any. -/
def lookup (m : ElementMap κ ν cap) (k : κ) : Option ℕ := m.table.lookup k

/-- Make an element with the value `v` and put it under `k`, in the place of the one that was
    there; without a free slot, the map is unchanged. -/
def insert (m : ElementMap κ ν cap) (k : κ) (v : ν) : ElementMap κ ν cap where
  table := m.table.insert k m.next
  element := Function.update m.element m.next v
  next := m.next + 1
  made entry hentry := by
    rw [BoundedMap.insert_entries] at hentry
    split at hentry
    · rcases List.mem_cons.mp hentry with rfl | hold
      · exact Nat.lt_succ_self _
      · exact Nat.lt_succ_of_lt (m.made entry (List.mem_of_mem_filter hold))
    · exact Nat.lt_succ_of_lt (m.made entry hentry)
  nodup := by
    rw [BoundedMap.insert_entries]
    split
    · refine List.nodup_cons.mpr ⟨fun hmem => ?_, ?_⟩
      · -- the new reference is larger than all others
        obtain ⟨entry, hentry, heq⟩ := List.mem_map.mp hmem
        exact absurd heq (Nat.ne_of_lt (m.made entry (List.mem_of_mem_filter hentry)))
      · exact m.nodup.sublist (List.filter_sublist.map Prod.snd)
    · exact m.nodup

variable {m : ElementMap κ ν cap} {k k' : κ} {v : ν} {ref : ℕ} {f : ν → ν}

/-- A change leaves every element in its place. -/
@[simp] theorem lookup_modify : (m.modify ref f).lookup k = m.lookup k := rfl

/-- The entry under `k` is among the entries. -/
theorem mem_entries_of_lookup (h : m.lookup k = some ref) : (k, ref) ∈ m.table.entries := by
  obtain ⟨⟨key, ref'⟩, hfind, rfl⟩ := Option.map_eq_some_iff.mp h
  have hkey := List.find?_some hfind
  rw [← of_decide_eq_true hkey]
  exact List.mem_of_find?_eq_some hfind

/-- What is found was made before. -/
theorem lt_next_of_lookup (h : m.lookup k = some ref) : ref < m.next :=
  m.made _ (mem_entries_of_lookup h)

/-- The value under `k` is that of its element. -/
theorem lookup_toMap (m : ElementMap κ ν cap) (k : κ) :
    m.toMap.lookup k = (m.lookup k).map m.element :=
  BoundedMap.lookup_mapValues _ _ _

/-! ### Insertion -/

/-- A key in use can be overwritten, and a map that is not full takes every key. -/
theorem lookup_insert_self (h : (m.lookup k).isSome ∨ m.table.entries.length < cap) :
    (m.insert k v).lookup k = some m.next :=
  BoundedMap.lookup_insert_self h

/-- A new element has the value that it was made with. -/
@[simp] theorem element_insert_next : (m.insert k v).element m.next = v :=
  Function.update_self _ _ _

/-- **Insertion.** For the values, a new element is an overwritten value. -/
@[simp] theorem toMap_insert : (m.insert k v).toMap = m.toMap.insert k v := by
  have hold : ∀ entries ⊆ m.table.entries,
      entries.map (Prod.map id (m.insert k v).element) = entries.map (Prod.map id m.element) := by
    -- the new reference is in none of the old entries
    refine fun entries hsub => List.map_congr_left fun entry hentry => ?_
    exact Prod.ext rfl (Function.update_of_ne (Nat.ne_of_lt (m.made entry (hsub hentry))) _ _)
  ext1
  show (m.table.insert k m.next).entries.map (Prod.map id (m.insert k v).element) = _
  rw [BoundedMap.insert_entries, BoundedMap.insert_entries, toMap, BoundedMap.others_mapValues,
    List.length_map, apply_ite (List.map _), List.map_cons, hold _ (List.Subset.refl _),
    hold (m.table.others k) (List.filter_subset_self _), Prod.map_apply, element_insert_next]
  rfl

/-! ### Change of an element -/

/-- Two keys do not share an element. -/
theorem eq_of_lookup (h : m.lookup k = some ref) (h' : m.lookup k' = some ref) : k' = k := by
  have heq := List.inj_on_of_nodup_map m.nodup (mem_entries_of_lookup h')
    (mem_entries_of_lookup h) rfl
  exact congrArg Prod.fst heq

/-- **Change.** Through the pointer under `k`, the value under `k` is changed and no other. -/
theorem lookup_toMap_modify (h : m.lookup k = some ref) :
    (m.modify ref f).toMap.lookup k'
      = if k' = k then some (f (m.element ref)) else m.toMap.lookup k' := by
  rw [lookup_toMap, lookup_toMap, lookup_modify]
  split_ifs with hk
  · rw [hk, h, Option.map_some, element_modify_self]
  · cases h' : m.lookup k' with
    | none => rfl
    | some ref' =>
      -- an element under another key is another element
      have hne : ref' ≠ ref := by
        rintro rfl
        exact hk (eq_of_lookup h h')
      rw [Option.map_some, Option.map_some, element_modify_of_ne hne]

end ElementMap

end Lib
