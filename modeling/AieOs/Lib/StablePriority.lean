import Mathlib.Data.List.Basic
import Mathlib.Data.List.Nodup
import Mathlib.Data.List.Sort
import Mathlib.Order.Lattice

namespace Lib

/-!
# Stable priority service

Entries wait in order of arrival; each has a priority `key x` in a linear order, the
smallest first.  `stableSort` is the order of service: by priority, and in order of
arrival within one priority.  A server that may only take some of the entries (`p`)
takes the first of that order that it may take (`served`) and leaves the others (`unserved`).

The same service is given by one FIFO per priority, polled from the smallest priority
up: `stableSort_eq_flatMap_bucket`, `served_eq_findSome?` and `bucket_unserved` are the three
facts that carry a bank of FIFO queues over to the sorted list.
-/

variable {α κ : Type*} [LinearOrder κ] (key : α → κ)

/-- The waiting entries of priority `k`, in order of arrival. -/
def bucket (k : κ) (w : List α) : List α := w.filter fun x => key x = k

/-- The waiting entries in order of service. -/
def stableSort (w : List α) : List α := w.mergeSort fun a b => key a ≤ key b

/-- The entry a server that may take the entries `p` takes next. -/
def served (p : α → Bool) (w : List α) : Option α := (stableSort key w).find? p

/-- What keeps waiting once `served` has left. -/
def unserved (p : α → Bool) (w : List α) : List α :=
  match served key p w with
  | none   => w
  | some b => w.eraseP fun x => p x && decide (key x = key b)

variable {key}

/-! ### Buckets -/

/-- The entries of a bucket. -/
@[simp] theorem mem_bucket {k : κ} {w : List α} {x : α} :
    x ∈ bucket key k w ↔ x ∈ w ∧ key x = k := by
  simp [bucket]

/-- A bucket, by the entry that arrived first. -/
theorem bucket_cons (k : κ) (x : α) (w : List α) :
    bucket key k (x :: w) = if key x = k then x :: bucket key k w else bucket key k w := by
  by_cases h : key x = k <;> simp [bucket, h]

/-- A late arrival goes to the end of its own bucket. -/
theorem bucket_concat (k : κ) (w : List α) (x : α) :
    bucket key k (w ++ [x]) = bucket key k w ++ if key x = k then [x] else [] := by
  by_cases h : key x = k <;> simp [bucket, List.filter_append, h]

/-- Two lists sorted by priority with the same buckets are equal. -/
theorem eq_of_bucket_eq {l₁ l₂ : List α} (h₁ : l₁.Pairwise fun a b => key a ≤ key b)
    (h₂ : l₂.Pairwise fun a b => key a ≤ key b)
    (h : ∀ k, bucket key k l₁ = bucket key k l₂) : l₁ = l₂ := by
  have hmem : ∀ x, x ∈ l₁ ↔ x ∈ l₂ := fun x => by
    have hx : x ∈ bucket key (key x) l₁ ↔ x ∈ bucket key (key x) l₂ := by rw [h]
    simpa using hx
  -- head by head: the heads are equal, and the tails have the same buckets again
  induction l₁ generalizing l₂ with
  | nil =>
    cases l₂ with
    | nil => rfl
    | cons b l₂ => exact absurd ((hmem b).mpr (by simp)) (by simp)
  | cons a l₁ ih =>
    cases l₂ with
    | nil => exact absurd ((hmem a).mp (by simp)) (by simp)
    | cons b l₂ =>
      rw [List.pairwise_cons] at h₁ h₂
      -- both heads have the smallest priority, so they head the same bucket
      have hab : key a ≤ key b := by
        rcases List.mem_cons.mp ((hmem b).mpr (by simp)) with rfl | hb
        · exact le_refl _
        · exact h₁.1 b hb
      have hba : key b ≤ key a := by
        rcases List.mem_cons.mp ((hmem a).mp (by simp)) with rfl | ha
        · exact le_refl _
        · exact h₂.1 a ha
      have hkey : key b = key a := le_antisymm hba hab
      have hhead := h (key a)
      simp only [bucket_cons, hkey, if_true, List.cons.injEq] at hhead
      obtain ⟨rfl, -⟩ := hhead
      have htail : ∀ k, bucket key k l₁ = bucket key k l₂ := fun k => by
        have hk := h k
        rw [bucket_cons, bucket_cons] at hk
        split at hk
        · exact (List.cons.inj hk).2
        · exact hk
      refine congrArg (a :: ·) (ih h₁.2 h₂.2 htail fun x => ?_)
      have hx : x ∈ bucket key (key x) l₁ ↔ x ∈ bucket key (key x) l₂ := by rw [htail]
      simpa using hx

/-! ### The order of service -/

/-- All waiting entries are served, each once. -/
theorem stableSort_perm (w : List α) : (stableSort key w).Perm w := List.mergeSort_perm _ _

/-- The order of service has the same entries. -/
@[simp] theorem mem_stableSort {w : List α} {x : α} : x ∈ stableSort key w ↔ x ∈ w :=
  List.mem_mergeSort

/-- The order of service has as many entries as wait. -/
@[simp] theorem length_stableSort (w : List α) : (stableSort key w).length = w.length :=
  List.length_mergeSort _

/-- Comparison by priority is transitive, as a Boolean test. -/
private theorem key_le_trans (a b c : α) (hab : decide (key a ≤ key b) = true)
    (hbc : decide (key b ≤ key c) = true) : decide (key a ≤ key c) = true := by
  simp only [decide_eq_true_eq] at hab hbc ⊢
  exact le_trans hab hbc

/-- Comparison by priority is total, as a Boolean test. -/
private theorem key_le_total (a b : α) :
    (decide (key a ≤ key b) || decide (key b ≤ key a)) = true := by
  simpa using le_total (key a) (key b)

/-- The order of service is by priority. -/
theorem stableSort_sorted (w : List α) :
    (stableSort key w).Pairwise fun a b => key a ≤ key b := by
  have h : (stableSort key w).Pairwise fun a b => decide (key a ≤ key b) = true :=
    List.pairwise_mergeSort key_le_trans key_le_total w
  simpa using h

/-- **Stability.** Sorting keeps the order of arrival within one priority. -/
theorem bucket_stableSort (k : κ) (w : List α) :
    bucket key k (stableSort key w) = bucket key k w := by
  have hpair : (bucket key k w).Pairwise fun a b => decide (key a ≤ key b) = true := by
    refine List.Pairwise.imp_of_mem ?_ (List.pairwise_of_forall fun _ _ => trivial)
    intro a b ha hb _
    rw [mem_bucket] at ha hb
    simp [ha.2, hb.2]
  -- merge sort keeps every sublist that is already in order, such as a bucket
  have hsub : (bucket key k w).Sublist (stableSort key w) :=
    List.sublist_mergeSort key_le_trans key_le_total hpair List.filter_sublist
  have hsub' : (bucket key k w).Sublist (bucket key k (stableSort key w)) := by
    have h := hsub.filter fun x => decide (key x = k)
    rwa [show (bucket key k w).filter (fun x => decide (key x = k)) = bucket key k w by
      simp [bucket]] at h
  -- as a sublist of the same length, it is the whole bucket
  exact (hsub'.eq_of_length ((stableSort_perm w).filter _).length_eq.symm).symm

/-- Within the concatenation of the buckets, each bucket is found once. -/
private theorem bucket_flatMap_bucket {ks : List κ} (hks : ks.Nodup) (k : κ) (w : List α) :
    bucket key k (ks.flatMap fun k => bucket key k w)
      = if k ∈ ks then bucket key k w else [] := by
  induction ks with
  | nil => rfl
  | cons k' ks ih =>
    obtain ⟨hk', hnd⟩ := List.nodup_cons.mp hks
    have hsplit : bucket key k ((k' :: ks).flatMap fun k => bucket key k w)
        = bucket key k (bucket key k' w) ++
          bucket key k (ks.flatMap fun k => bucket key k w) := by
      simp [bucket]
    have hself : bucket key k (bucket key k' w) = if k = k' then bucket key k w else [] := by
      by_cases hkk : k = k'
      · subst hkk; simp [bucket]
      · -- no entry has two priorities
        rw [if_neg hkk]
        refine List.filter_eq_nil_iff.mpr fun x hx => ?_
        rw [mem_bucket] at hx
        simp only [decide_eq_true_eq]
        exact fun h => hkk (h.symm.trans hx.2)
    rw [hsplit, hself, ih hnd]
    by_cases hkk : k = k'
    · subst hkk; simp [hk']
    · simp [hkk]

/-- **One FIFO per priority.** Polling the buckets from the smallest priority up lists
    the entries in order of service. -/
theorem stableSort_eq_flatMap_bucket {ks : List κ} (hks : ks.Pairwise (· < ·))
    {w : List α} (hw : ∀ x ∈ w, key x ∈ ks) :
    stableSort key w = ks.flatMap fun k => bucket key k w := by
  refine eq_of_bucket_eq (stableSort_sorted w) ?_ fun k => ?_
  · -- the concatenation is by priority: within a bucket and from one to the next
    rw [List.pairwise_flatMap]
    refine ⟨fun k _ => ?_, hks.imp fun {k k'} hlt a ha b hb => ?_⟩
    · refine List.Pairwise.imp_of_mem ?_ (List.pairwise_of_forall fun _ _ => trivial)
      intro a b ha hb _
      rw [mem_bucket] at ha hb
      exact le_of_eq (ha.2.trans hb.2.symm)
    · rw [mem_bucket] at ha hb
      rw [ha.2, hb.2]
      exact le_of_lt hlt
  · -- both have the same buckets
    rw [bucket_stableSort, bucket_flatMap_bucket (hks.imp fun h => ne_of_lt h)]
    split
    · rfl
    · rename_i hk
      refine List.filter_eq_nil_iff.mpr fun x hx => ?_
      simp only [decide_eq_true_eq]
      rintro rfl
      exact hk (hw x hx)

/-! ### The entry that leaves, and what stays -/

variable {p : α → Bool} {w : List α}

/-- A server takes nothing iff it may take no waiting entry. -/
theorem served_eq_none : served key p w = none ↔ ∀ x ∈ w, p x = false := by
  simp [served]

/-- The entry served is found by polling the buckets in turn. -/
theorem served_eq_findSome? {ks : List κ} (hks : ks.Pairwise (· < ·))
    (hw : ∀ x ∈ w, key x ∈ ks) :
    served key p w = ks.findSome? fun k => (bucket key k w).find? p := by
  rw [served, stableSort_eq_flatMap_bucket hks hw, List.find?_flatMap]

/-- The entry that leaves is the first of its own bucket that may be taken. -/
theorem find?_bucket_of_served {b : α} (h : served key p w = some b) :
    (bucket key (key b) w).find? p = some b := by
  rw [← bucket_stableSort]
  obtain ⟨hpb, as, bs, hsplit, has⟩ := List.find?_eq_some_iff_append.mp h
  refine List.find?_eq_some_iff_append.mpr
    ⟨hpb, bucket key (key b) as, bucket key (key b) bs, ?_, fun a ha => has a (mem_bucket.mp ha).1⟩
  simp [hsplit, bucket]

/-- **The entry that leaves.** `w` splits around it: every entry before it that might
    have been taken has a strictly larger priority value, and none after it a smaller. -/
theorem served_split {b : α} (h : served key p w = some b) :
    ∃ as bs, w = as ++ b :: bs ∧ unserved key p w = as ++ bs ∧ p b = true ∧
      (∀ a ∈ as, p a = true → key b < key a) ∧ (∀ a ∈ bs, p a = true → key b ≤ key a) := by
  -- in the order of service, what may be taken comes after `b`
  have hmin : ∀ a ∈ w, p a = true → key b ≤ key a := by
    intro a ha hpa
    obtain ⟨-, as, bs, hsplit, has⟩ := List.find?_eq_some_iff_append.mp h
    have hsorted : (stableSort key w).Pairwise fun a b => key a ≤ key b := stableSort_sorted w
    rw [hsplit, List.pairwise_append, List.pairwise_cons] at hsorted
    have ha' : a ∈ as ++ b :: bs := hsplit ▸ mem_stableSort.mpr ha
    rcases List.mem_append.mp ha' with ha' | ha'
    · exact absurd hpa (by simpa using has a ha')
    · rcases List.mem_cons.mp ha' with rfl | ha'
      · exact le_refl _
      · exact hsorted.2.1.1 a ha'
  have hfind := find?_bucket_of_served h
  rw [bucket, List.find?_filter] at hfind
  obtain ⟨hb, as, bs, hsplit, has⟩ := List.find?_eq_some_iff_append.mp hfind
  have hpb : p b = true := by simpa using hb
  refine ⟨as, bs, hsplit, ?_, hpb, fun a ha hpa => ?_, fun a ha hpa => ?_⟩
  · -- the entry that leaves is the first in the list that passes both tests
    have hskip : ∀ a ∈ as, ¬ (p a && decide (key a = key b)) = true := fun a ha => by
      have := has a ha
      simp only [Bool.not_eq_true', decide_eq_false_iff_not, Bool.and_eq_true,
        decide_eq_true_eq] at this ⊢
      tauto
    simp only [unserved, h]
    rw [hsplit, List.eraseP_append_right _ hskip, List.eraseP_cons_of_pos (by simp [hpb])]
  · -- an entry before `b` with its priority would have been served instead
    have hle := hmin a (by simp [hsplit, ha]) hpa
    refine lt_of_le_of_ne hle fun heq => ?_
    have := has a ha
    simp [hpa, heq.symm] at this
  · exact hmin a (by simp [hsplit, ha]) hpa

/-- Where nothing is taken, all keep waiting. -/
theorem unserved_of_none (h : served key p w = none) : unserved key p w = w := by
  simp [unserved, h]

/-- Nothing is lost or duplicated when an entry leaves. -/
theorem perm_unserved {b : α} (h : served key p w = some b) : w.Perm (b :: unserved key p w) := by
  obtain ⟨as, bs, hw, hrest, -⟩ := served_split h
  rw [hrest, hw]
  exact List.perm_middle

/-- Those that keep waiting do so in the same order. -/
theorem unserved_sublist : (unserved key p w).Sublist w := by
  unfold unserved
  split
  · exact List.Sublist.refl w
  · exact List.eraseP_sublist

/-- Only the bucket of the entry that leaves changes. -/
theorem bucket_unserved {b : α} (h : served key p w = some b) (k : κ) :
    bucket key k (unserved key p w)
      = if k = key b then (bucket key k w).eraseP p else bucket key k w := by
  obtain ⟨as, bs, hw, hrest, hpb, has, -⟩ := served_split h
  have hskip : ∀ a ∈ bucket key (key b) as, ¬ p a = true := fun a ha hpa => by
    rw [mem_bucket] at ha
    exact absurd (has a ha.1 hpa) (by rw [ha.2]; exact lt_irrefl _)
  by_cases hk : k = key b
  · subst hk
    rw [if_pos rfl, hrest, hw]
    have h1 : bucket key (key b) (as ++ b :: bs)
        = bucket key (key b) as ++ b :: bucket key (key b) bs := by
      simp [bucket, List.filter_append]
    rw [h1, List.eraseP_append_right _ hskip, List.eraseP_cons_of_pos hpb]
    simp [bucket, List.filter_append]
  · -- the entry that leaves is of another priority
    rw [if_neg hk, hrest, hw]
    simp [bucket, List.filter_append, Ne.symm hk]

/-- A server that may take every entry takes the head of the order of service. -/
theorem stableSort_eq_cons {b : α} (hall : ∀ x ∈ w, p x = true) (h : served key p w = some b) :
    stableSort key w = b :: stableSort key (unserved key p w) := by
  obtain ⟨-, as, bs, hsplit, has⟩ := List.find?_eq_some_iff_append.mp h
  -- nothing comes before the entry that is served
  have hnil : as = [] := List.eq_nil_iff_forall_not_mem.mpr fun a ha => by
    have hp := hall a (mem_stableSort.mp (by rw [hsplit]; simp [ha]))
    have := has a ha
    simp [hp] at this
  subst hnil
  rw [List.nil_append] at hsplit
  rw [hsplit]
  refine congrArg (b :: ·) (eq_of_bucket_eq ?_ (stableSort_sorted _) fun k => ?_)
  · have hsorted : (stableSort key w).Pairwise fun a b => key a ≤ key b := stableSort_sorted w
    rw [hsplit, List.pairwise_cons] at hsorted
    exact hsorted.2
  · have hk : bucket key k (b :: bs) = bucket key k w := by rw [← hsplit, bucket_stableSort]
    have hpb : p b = true := by simpa using List.find?_some h
    rw [bucket_stableSort, bucket_unserved h, ← hk, bucket_cons]
    by_cases hkb : k = key b
    · simp [hkb, hpb]
    · simp [hkb, Ne.symm hkb]

/-! ### Late arrivals -/

/-- A list by priority stays so with one entry more, put after its equals. -/
theorem sorted_orderedInsert {l : List α} (hl : l.Pairwise fun a b => key a ≤ key b) (x : α) :
    (l.orderedInsert (fun a b => key a < key b) x).Pairwise fun a b => key a ≤ key b := by
  induction l with
  | nil => exact List.pairwise_singleton _ x
  | cons y l ih =>
    rw [List.pairwise_cons] at hl
    rw [List.orderedInsert_cons]
    -- `x` goes before the first entry that it has to precede
    by_cases hxy : key x < key y
    · rw [if_pos hxy, List.pairwise_cons, List.pairwise_cons]
      refine ⟨List.forall_mem_cons.mpr ⟨hxy.le, fun z hz => hxy.le.trans (hl.1 z hz)⟩, hl⟩
    · rw [if_neg hxy, List.pairwise_cons]
      refine ⟨fun z hz => ?_, ih hl.2⟩
      rcases (List.mem_orderedInsert _).mp hz with rfl | hz
      · exact not_lt.mp hxy
      · exact hl.1 z hz

end Lib
