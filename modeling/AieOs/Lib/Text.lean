import Mathlib.Data.List.DropRight
import Mathlib.Data.List.Induction

namespace Lib

/-!
# Texts

A text is a list over an alphabet.

* `lines`, `unlines` — a text with a line terminator `nl` is read line by line, a last
  line without terminator included, and written with a terminator after each line;
* `editLines` — every line is changed and the terminators are kept: a text whose last
  line has none keeps it that way;
* `trim` — blank symbols, those with `p`, are cut off at both ends.
-/

/-- The symbols of a text in which `x` does not occur. -/
theorem forall_ne_of_not_mem {α : Type*} [DecidableEq α] {l : List α} {x : α} (hx : x ∉ l) :
    ∀ c ∈ l, decide (c ≠ x) = true := fun _ hc => decide_eq_true fun h => hx (h ▸ hc)

/-- Such a text is taken as a whole. -/
theorem takeWhile_ne_of_not_mem {α : Type*} [DecidableEq α] {l : List α} {x : α} (hx : x ∉ l) :
    l.takeWhile (· ≠ x) = l := List.takeWhile_eq_self_iff.mpr (forall_ne_of_not_mem hx)

/-- Nothing is taken from an `x` on. -/
theorem takeWhile_ne_append_cons {α : Type*} [DecidableEq α] (l rest : List α) (x : α) :
    (l ++ x :: rest).takeWhile (· ≠ x) = l.takeWhile (· ≠ x) := by
  induction l with
  | nil => simp
  | cons c l ih =>
    rw [List.cons_append, List.takeWhile_cons, List.takeWhile_cons, ih]

/-- What is taken up to an `x` has no `x` in it. -/
theorem not_mem_takeWhile_ne {α : Type*} [DecidableEq α] (l : List α) (x : α) :
    x ∉ l.takeWhile (· ≠ x) := by
  intro hx
  have hne := List.mem_takeWhile_imp hx
  rw [decide_eq_true_eq] at hne
  exact hne rfl

/-- Nothing is dropped at the end of a text in which `x` does not occur. -/
theorem rdropWhile_of_not_mem {α : Type*} [DecidableEq α] {l : List α} {x : α} (hx : x ∉ l) :
    l.rdropWhile (· = x) = l := by
  rw [List.rdropWhile_eq_self_iff]
  intro hne hlast
  exact hx (of_decide_eq_true hlast ▸ List.getLast_mem hne)

/-- What is dropped at the end of a text, cut in two. -/
theorem rdropWhile_append {α : Type*} (p : α → Bool) (a b : List α) :
    (a ++ b).rdropWhile p
      = if b.rdropWhile p = [] then a.rdropWhile p else a ++ b.rdropWhile p := by
  unfold List.rdropWhile
  simp only [List.reverse_append, List.dropWhile_append, List.reverse_eq_nil_iff,
    List.isEmpty_iff]
  split
  · rfl
  · rw [List.reverse_append, List.reverse_reverse]

section Lines

variable {α : Type*} [DecidableEq α] (nl : α)

/-- The lines of a text, without their terminators. -/
def lines : List α → List (List α)
  | []      => []
  | c :: cs =>
    if c = nl then [] :: lines cs
    else
      -- the symbol belongs to the line that follows, or is a last line of its own
      match lines cs with
      | []      => [[c]]
      | l :: ls => (c :: l) :: ls

/-- Every line with its terminator. -/
def unlines (ls : List (List α)) : List α := ls.flatMap (· ++ [nl])

/-- Apply `f` to every line. -/
def editLines (f : List α → List α) (text : List α) : List α :=
  let edited := unlines nl ((lines nl text).map f)
  if text.getLast? = some nl then edited else edited.dropLast

variable {nl}

/-- A terminated line is the first one. -/
theorem lines_append_cons {l : List α} (hl : nl ∉ l) (rest : List α) :
    lines nl (l ++ nl :: rest) = l :: lines nl rest := by
  induction l with
  | nil => simp [lines]
  | cons c l ih =>
    rw [List.mem_cons, not_or] at hl
    simp [lines, Ne.symm hl.1, ih hl.2]

/-- A text without terminator is one line. -/
theorem lines_of_not_mem {l : List α} (hl : nl ∉ l) (hne : l ≠ []) : lines nl l = [l] := by
  induction l with
  | nil => exact absurd rfl hne
  | cons c l ih =>
    rw [List.mem_cons, not_or] at hl
    rcases List.eq_nil_or_concat l with rfl | ⟨_, _, hcons⟩
    · simp [lines, Ne.symm hl.1]
    · simp [lines, Ne.symm hl.1, ih hl.2 (by simp [hcons])]

/-- Lines written with their terminators are read back, before what follows. -/
theorem lines_unlines_append {ls : List (List α)} (hls : ∀ l ∈ ls, nl ∉ l) (rest : List α) :
    lines nl (unlines nl ls ++ rest) = ls ++ lines nl rest := by
  induction ls with
  | nil => rfl
  | cons l ls ih =>
    have hrest : ∀ l ∈ ls, nl ∉ l := fun l hl => hls l (List.mem_cons_of_mem _ hl)
    calc lines nl (unlines nl (l :: ls) ++ rest)
        = lines nl (l ++ nl :: (unlines nl ls ++ rest)) := by simp [unlines]
      _ = l :: lines nl (unlines nl ls ++ rest) := lines_append_cons (hls l (by simp)) _
      _ = l :: ls ++ lines nl rest := by rw [ih hrest, List.cons_append]

/-- Lines written with their terminators are read back. -/
theorem lines_unlines {ls : List (List α)} (hls : ∀ l ∈ ls, nl ∉ l) :
    lines nl (unlines nl ls) = ls := by
  have h := lines_unlines_append hls []
  rwa [List.append_nil, lines, List.append_nil] at h

omit [DecidableEq α] in
/-- Dropping other symbols keeps lines lines. -/
theorem filter_unlines {p : α → Bool} (hp : p nl = true) (ls : List (List α)) :
    (unlines nl ls).filter p = unlines nl (ls.map (List.filter p)) := by
  induction ls with
  | nil => rfl
  | cons l ls ih =>
    unfold unlines at ih ⊢
    rw [List.flatMap_cons, List.filter_append, ih, List.filter_append, List.map_cons,
      List.flatMap_cons, List.filter_cons_of_pos hp, List.filter_nil]

/-- Nothing is left of lines without their terminators at the end iff all are empty. -/
theorem rdropWhile_unlines_eq_nil_iff {ls : List (List α)} (hls : ∀ l ∈ ls, nl ∉ l) :
    (unlines nl ls).rdropWhile (· = nl) = [] ↔ ∀ l ∈ ls, l = [] := by
  rw [List.rdropWhile_eq_nil_iff]
  constructor
  · intro hall l hl
    rw [List.eq_nil_iff_forall_not_mem]
    intro c hc
    have hnl := hall c (List.mem_flatMap.mpr ⟨l, hl, List.mem_append_left _ hc⟩)
    exact hls l hl (of_decide_eq_true hnl ▸ hc)
  · intro hnil c hc
    obtain ⟨l, hl, hc⟩ := List.mem_flatMap.mp hc
    rw [hnil l hl, List.nil_append, List.mem_singleton] at hc
    exact decide_eq_true hc

/-- Lines without the terminators at their end are one line iff the first one is that line
    and all others are empty. -/
theorem rdropWhile_unlines_eq_iff {ls : List (List α)} {l : List α} (hls : ∀ l ∈ ls, nl ∉ l)
    (hl : nl ∉ l) :
    (unlines nl ls).rdropWhile (· = nl) = l ↔ (∀ l' ∈ ls.tail, l' = []) ∧ ls.headD [] = l := by
  cases ls with
  | nil => simp [unlines]
  | cons first rest =>
    rw [List.forall_mem_cons] at hls
    have hsplit : unlines nl (first :: rest) = first ++ nl :: unlines nl rest := by
      simp [unlines]
    rw [hsplit, List.tail_cons, List.headD_cons, ← rdropWhile_unlines_eq_nil_iff hls.2]
    rw [← List.singleton_append, rdropWhile_append, rdropWhile_append _ [nl],
      rdropWhile_of_not_mem hls.1]
    by_cases hnil : (unlines nl rest).rdropWhile (· = nl) = []
    · simp [hnil, List.rdropWhile_singleton]
    · -- a terminator is left inside
      rw [if_neg hnil, if_neg (by simp)]
      refine iff_of_false ?_ fun h => hnil h.1
      rintro rfl
      exact hl (by simp)

/-- Every text is a list of terminated lines and a last one without terminator. -/
theorem exists_unlines (nl : α) (text : List α) :
    ∃ ls r, (∀ l ∈ ls, nl ∉ l) ∧ nl ∉ r ∧ text = unlines nl ls ++ r := by
  induction text with
  | nil => exact ⟨[], [], by simp, by simp, rfl⟩
  | cons c cs ih =>
    obtain ⟨ls, r, hls, hr, rfl⟩ := ih
    by_cases hc : c = nl
    · -- the terminator makes an empty line of its own
      subst hc
      exact ⟨[] :: ls, r, by simpa using hls, hr, rfl⟩
    · -- another symbol belongs to the first line
      cases ls with
      | nil => exact ⟨[], c :: r, by simp, by simpa [Ne.symm hc] using hr, rfl⟩
      | cons l ls =>
        refine ⟨(c :: l) :: ls, r, ?_, hr, rfl⟩
        intro l' hl'
        rcases List.mem_cons.mp hl' with rfl | hl'
        · simpa [Ne.symm hc] using hls l (by simp)
        · exact hls l' (List.mem_cons_of_mem _ hl')

/-- A line holds no terminator, and nothing that is not in the text. -/
theorem mem_of_mem_lines {text l : List α} (hl : l ∈ lines nl text) :
    nl ∉ l ∧ ∀ c ∈ l, c ∈ text := by
  obtain ⟨ls, r, hls, hr, rfl⟩ := exists_unlines nl text
  rw [lines_unlines_append hls, List.mem_append] at hl
  rcases hl with hl | hl
  · refine ⟨hls l hl, fun c hc => ?_⟩
    exact List.mem_append_left _ (List.mem_flatMap.mpr ⟨l, hl, List.mem_append_left _ hc⟩)
  · rcases List.eq_nil_or_concat r with rfl | ⟨_, _, hcons⟩
    · simp [lines] at hl
    · rw [lines_of_not_mem hr (by simp [hcons]), List.mem_singleton] at hl
      subst hl
      exact ⟨hr, fun c hc => List.mem_append_right _ hc⟩

/-- An edit that keeps lines lines, and empties none, is an edit of the list of lines. -/
theorem lines_editLines {f : List α → List α} (hf : ∀ l, nl ∉ l → nl ∉ f l)
    (hne : ∀ l, f l = [] → l = []) (text : List α) :
    lines nl (editLines nl f text) = (lines nl text).map f := by
  -- `ls` are the terminated lines, and `r` is the last line if it has no terminator
  obtain ⟨ls, r, hls, hr, rfl⟩ := exists_unlines nl text
  have hmap : ∀ l ∈ ls.map f, nl ∉ l := by
    intro _ hl'
    obtain ⟨l, hl, rfl⟩ := List.mem_map.mp hl'
    exact hf l (hls l hl)
  by_cases hr' : r = []
  · subst hr'
    rcases List.eq_nil_or_concat ls with rfl | ⟨init, last, rfl⟩
    · rfl
    · -- the text ends with a terminator
      have hlast : (unlines nl (init ++ [last]) ++ []).getLast? = some nl := by simp [unlines]
      have hlines : lines nl (unlines nl (init ++ [last]) ++ []) = init ++ [last] := by
        simpa [lines] using lines_unlines_append hls []
      simp only [editLines, List.concat_eq_append] at *
      rw [if_pos hlast, hlines]
      simpa [lines] using lines_unlines_append hmap []
  · -- the text ends without terminator, and the one written after its last line is dropped
    have hlast : ¬ (unlines nl ls ++ r).getLast? = some nl := by
      rw [List.getLast?_append_of_ne_nil _ hr']
      exact fun h => hr (List.mem_of_getLast? h)
    have hlines : lines nl (unlines nl ls ++ r) = ls ++ [r] := by
      rw [lines_unlines_append hls, lines_of_not_mem hr hr']
    have hdrop : (unlines nl ((ls ++ [r]).map f)).dropLast = unlines nl (ls.map f) ++ f r := by
      simp [unlines, ← List.append_assoc]
    rw [editLines, hlines, if_neg hlast, hdrop, lines_unlines_append hmap,
      lines_of_not_mem (hf r hr) fun h => hr' (hne r h), List.map_append]
    rfl

end Lines

section Trim

variable {α : Type*} {p : α → Bool}

/-- A text without the blank symbols at its ends. -/
def trim (p : α → Bool) (s : List α) : List α := (s.dropWhile p).rdropWhile p

/-- From the end, nothing is dropped beyond a symbol that is not blank. -/
theorem rdropWhile_append_cons (a b : List α) {c : α} (hc : p c = false) :
    (a ++ c :: b).rdropWhile p = a ++ c :: b.rdropWhile p := by
  have hcons : (c :: b).rdropWhile p = c :: b.rdropWhile p := by
    rw [← List.singleton_append, rdropWhile_append]
    split
    · rename_i hnil
      rw [hnil, List.rdropWhile_singleton, hc, if_neg Bool.false_ne_true]
    · rfl
  rw [rdropWhile_append, hcons, if_neg (List.cons_ne_nil _ _)]

/-- What starts with a symbol that is not blank is trimmed on the right only. -/
theorem trim_append_cons {a : List α} (ha : ∀ c ∈ a.head?, p c = false) (b : List α)
    {c : α} (hc : p c = false) : trim p (a ++ c :: b) = a ++ c :: b.rdropWhile p := by
  have hdrop : (a ++ c :: b).dropWhile p = a ++ c :: b := by
    cases a with
    | nil => simp [hc]
    | cons d a => simp [ha d rfl]
  rw [trim, hdrop, rdropWhile_append_cons a b hc]

/-- Blank symbols before a text are cut off. -/
theorem trim_blank_append {w : List α} (hw : ∀ c ∈ w, p c = true) (s : List α) :
    trim p (w ++ s) = trim p s := by
  rw [trim, List.dropWhile_append_of_pos hw, trim]

/-- Trimming on the right first makes no difference. -/
theorem dropWhile_rdropWhile (s : List α) :
    (s.rdropWhile p).dropWhile p = (s.dropWhile p).rdropWhile p := by
  induction s with
  | nil => rfl
  | cons c s ih =>
    by_cases hc : p c
    · rw [List.dropWhile_cons_of_pos hc, ← ih]
      by_cases hs : s.rdropWhile p = []
      · -- only blank symbols
        have hall : (c :: s).rdropWhile p = [] := by
          rw [List.rdropWhile_eq_nil_iff] at hs ⊢
          exact List.forall_mem_cons.mpr ⟨hc, hs⟩
        rw [hall, hs]
      · have hcons : (c :: s).rdropWhile p = c :: s.rdropWhile p := by
          rw [← List.singleton_append, rdropWhile_append, if_neg hs, List.singleton_append]
        rw [hcons, List.dropWhile_cons_of_pos hc]
    · have hcons : (c :: s).rdropWhile p = c :: s.rdropWhile p :=
        rdropWhile_append_cons [] s (by simpa using hc)
      rw [hcons, List.dropWhile_cons_of_neg hc, List.dropWhile_cons_of_neg hc, hcons]

/-- Blank symbols dropped at the end would have been trimmed anyway. -/
theorem trim_rdropWhile (s : List α) : trim p (s.rdropWhile p) = trim p s := by
  rw [trim, dropWhile_rdropWhile, List.rdropWhile_idempotent, trim]

/-- Blank symbols after a text are cut off. -/
theorem trim_append_blank {w : List α} (hw : ∀ c ∈ w, p c = true) (s : List α) :
    trim p (s ++ w) = trim p s := by
  have hcut : (s ++ w).rdropWhile p = s.rdropWhile p := by
    rw [rdropWhile_append, if_pos (List.rdropWhile_eq_nil_iff.mpr hw)]
  rw [← trim_rdropWhile, hcut, trim_rdropWhile]

/-- A text that has no blank symbol at its ends is trimmed. -/
theorem trim_eq_self {s : List α} (hhead : ∀ c ∈ s.head?, p c = false)
    (hlast : ∀ c ∈ s.getLast?, p c = false) : trim p s = s := by
  have hdrop : s.dropWhile p = s := by
    cases s with
    | nil => rfl
    | cons c s => simp [hhead c rfl]
  rw [trim, hdrop, List.rdropWhile_eq_self_iff]
  intro hs
  simpa using hlast _ (List.getLast?_eq_getLast_of_ne_nil hs)

/-- A trimmed text does not start with a blank symbol. -/
theorem head?_trim {s : List α} {c : α} (hc : c ∈ (trim p s).head?) : p c = false := by
  rw [trim, ← dropWhile_rdropWhile] at hc
  have hhead := List.head?_dropWhile_not p (s.rdropWhile p)
  rw [Option.mem_def.mp hc] at hhead
  exact hhead

/-- A trimmed text does not end in a blank symbol. -/
theorem getLast?_trim {s : List α} {c : α} (hc : c ∈ (trim p s).getLast?) : p c = false := by
  have hne : trim p s ≠ [] := by
    intro hnil
    simp [hnil] at hc
  have hlast : ¬ p ((trim p s).getLast hne) := List.rdropWhile_last_not p _ hne
  rw [List.getLast?_eq_getLast_of_ne_nil hne, Option.mem_some_iff] at hc
  subst hc
  simpa using hlast

/-- A symbol that is not blank stays. -/
theorem mem_trim {s : List α} {c : α} (hc : c ∈ s) (hp : p c = false) : c ∈ trim p s := by
  -- it is not among the symbols that are dropped at the front, which are all blank
  have hstay : c ∈ s.dropWhile p := by
    rw [← List.takeWhile_append_dropWhile (p := p) (l := s), List.mem_append] at hc
    exact hc.resolve_left fun h => by simp [List.mem_takeWhile_imp h] at hp
  rw [← List.rdropWhile_append_rtakeWhile (p := p) (l := s.dropWhile p), List.mem_append] at hstay
  exact hstay.resolve_right fun h => by simp [List.mem_rtakeWhile_imp h] at hp

/-- Trimming adds no symbol. -/
theorem mem_of_mem_trim {s : List α} {c : α} (hc : c ∈ trim p s) : c ∈ s :=
  (List.dropWhile_sublist p).mem ((List.rdropWhile_prefix p (s.dropWhile p)).mem hc)

end Trim

end Lib
