import Mathlib.Data.Finmap
import Mathlib.Data.List.Induction

namespace Lib

/-!
# Maps filled by assignments

A finite map is filled by reading a list of lines.  `parse` says which assignment of a
value to a key a line makes, if any; later assignments replace earlier ones.

* `lookup_assignAll` — the value of a key is that of the last line that assigns to it;
* `assignAll_empty_eq` — lines that assign the entries of a map, in any order, fill it;
* `lastLine_map`, `lookup_assignAll_map` — how this changes when the lines are edited.
-/

variable {ι κ ν : Type*} [DecidableEq κ] (parse : ι → Option (κ × ν))

/-- Store the assignment of one line. -/
def assign (data : Finmap fun _ : κ => ν) (line : ι) : Finmap fun _ : κ => ν :=
  match parse line with
  | some (key, val) => data.insert key val
  | none            => data

/-- Store the assignments of all lines, in order. -/
def assignAll (data : Finmap fun _ : κ => ν) (ls : List ι) : Finmap fun _ : κ => ν :=
  ls.foldl (assign parse) data

/-- The value that a line assigns to `key`. -/
def valueFor (key : κ) (line : ι) : Option ν :=
  match parse line with
  | some (key', val) => if key' = key then some val else none
  | none             => none

/-- The last line that assigns to `key`. -/
def lastLine (key : κ) (ls : List ι) : Option ι :=
  ls.reverse.find? fun line => (valueFor parse key line).isSome

variable {parse}

/-- A line assigns a value to a key iff it parses as that assignment. -/
theorem valueFor_eq_some {key : κ} {line : ι} {val : ν} :
    valueFor parse key line = some val ↔ parse line = some (key, val) := by
  unfold valueFor
  cases parse line with
  | none => simp
  | some a =>
    obtain ⟨key', val'⟩ := a
    by_cases hkey : key' = key <;> simp [hkey]

/-- The last line that assigns to a key is one of the lines. -/
theorem mem_of_lastLine {key : κ} {ls : List ι} {line : ι}
    (h : lastLine parse key ls = some line) : line ∈ ls :=
  List.mem_reverse.mp (List.mem_of_find?_eq_some h)

/-- One line changes the value of the key it assigns to. -/
theorem lookup_assign (data : Finmap fun _ : κ => ν) (line : ι) (key : κ) :
    (assign parse data line).lookup key = (valueFor parse key line).or (data.lookup key) := by
  unfold assign valueFor
  split
  · rename_i key' val _
    by_cases hkey : key' = key
    · subst hkey
      simp
    · -- the line assigns to another key
      simp [Finmap.lookup_insert_of_ne data (Ne.symm hkey), hkey]
  · rfl

/-- One line more: it is the last one if it assigns to the key. -/
@[simp] theorem lastLine_concat (key : κ) (ls : List ι) (line : ι) :
    lastLine parse key (ls ++ [line]) =
      if (valueFor parse key line).isSome then some line else lastLine parse key ls := by
  cases hval : (valueFor parse key line).isSome <;> simp [lastLine, hval]

/-- **Last assignment.** A key has the value of the last line that assigns to it, or else
    the one it had before. -/
theorem lookup_assignAll (data : Finmap fun _ : κ => ν) (ls : List ι) (key : κ) :
    (assignAll parse data ls).lookup key =
      ((lastLine parse key ls).bind (valueFor parse key)).or (data.lookup key) := by
  induction ls using List.reverseRecOn with
  | nil => rfl
  | append_singleton ls line ih =>
    have hstep : assignAll parse data (ls ++ [line])
        = assign parse (assignAll parse data ls) line := by
      simp [assignAll]
    -- the induction is from the end: the last line decides, if it assigns to the key
    rw [hstep, lookup_assign, ih, lastLine_concat]
    cases hval : valueFor parse key line with
    | none => simp
    | some val => simp [hval]

/-- Lines read in two parts. -/
theorem assignAll_append (data : Finmap fun _ : κ => ν) (ls ls' : List ι) :
    assignAll parse data (ls ++ ls') = assignAll parse (assignAll parse data ls) ls' :=
  List.foldl_append

/-- Only what the lines assign counts. -/
theorem assign_congr {line line' : ι} (h : parse line = parse line')
    (data : Finmap fun _ : κ => ν) : assign parse data line = assign parse data line' := by
  rw [assign, h, assign]

/-- Edits that no line shows in what it parses as do not change the map. -/
theorem assignAll_map_congr {f : ι → ι} (hf : ∀ line, parse (f line) = parse line)
    (data : Finmap fun _ : κ => ν) (ls : List ι) :
    assignAll parse data (ls.map f) = assignAll parse data ls := by
  unfold assignAll
  rw [List.foldl_map]
  exact List.foldl_ext _ _ _ fun data line _ => assign_congr (hf line) data

/-- **Any order.** Lines that assign exactly the entries of a map fill that map. -/
theorem assignAll_empty_eq {m : Finmap fun _ : κ => ν} {ls : List ι}
    (h : ∀ key val, m.lookup key = some val ↔ ∃ line ∈ ls, parse line = some (key, val)) :
    assignAll parse ∅ ls = m := by
  refine Finmap.ext_lookup fun key => ?_
  rw [lookup_assignAll, Finmap.lookup_empty, Option.or_none]
  cases hlast : lastLine parse key ls with
  | none =>
    -- no line assigns to the key
    cases hval : m.lookup key with
    | none => rfl
    | some val =>
      obtain ⟨line, hline, hparse⟩ := (h key val).mp hval
      have hnone := List.find?_eq_none.mp hlast line (List.mem_reverse.mpr hline)
      simp [valueFor_eq_some.mpr hparse] at hnone
  | some line =>
    -- the last line that assigns to the key assigns an entry of the map
    have hsome := List.find?_some hlast
    obtain ⟨val, hval⟩ := Option.isSome_iff_exists.mp hsome
    rw [Option.bind_some, hval, eq_comm, h key val]
    exact ⟨line, mem_of_lastLine hlast, valueFor_eq_some.mp hval⟩

/-- Editing the lines does not move the last assignment to `key` when every line keeps
    assigning to it or not. -/
theorem lastLine_map {f : ι → ι} {key : κ} {ls : List ι}
    (hf : ∀ line ∈ ls,
      (valueFor parse key (f line)).isSome = (valueFor parse key line).isSome) :
    lastLine parse key (ls.map f) = (lastLine parse key ls).map f := by
  induction ls using List.reverseRecOn with
  | nil => rfl
  | append_singleton ls line ih =>
    rw [List.map_append, List.map_singleton, lastLine_concat, lastLine_concat,
      hf line (by simp), ih fun line hline => hf line (by simp [hline])]
    split <;> rfl

/-- Editing the lines does not change the value of a key if no assignment to it changes. -/
theorem lookup_assignAll_map {f : ι → ι} {key : κ} {ls : List ι}
    (hf : ∀ line ∈ ls, valueFor parse key (f line) = valueFor parse key line)
    (data : Finmap fun _ : κ => ν) :
    (assignAll parse data (ls.map f)).lookup key = (assignAll parse data ls).lookup key := by
  rw [lookup_assignAll, lookup_assignAll, lastLine_map fun line hline => by rw [hf line hline]]
  cases hlast : lastLine parse key ls with
  | none => rfl
  | some line =>
    simp [hf line (mem_of_lastLine hlast)]

end Lib
