import AieOs.Lib.Assignments
import AieOs.Lib.Text

namespace AieOs

open Lib

/-!
# Configuration files

`Config::load` reads a file of `key = value` lines.  A `#` starts a comment; spaces around
the key and the value are dropped; the last assignment to a key counts.

* `parseLine` is the body of the loop: the assignment that a line makes;
* `parseLine_padded` — a key, `=` and any text are read as an assignment to the key;
* `load_readable` — what a value that was read can look like.
-/

/-- A `std::string` or the content of a file. -/
abbrev Bytes := List UInt8

/-- The bytes of an ASCII text. -/
def ascii (s : String) : Bytes := s.toList.map Char.toUInt8

/-- `Config`: its member `data_`. -/
structure Config where
  data : Finmap fun _ : Bytes => Bytes

namespace Config

/-- A fresh `Config`. -/
def empty : Config := ⟨∅⟩

/-- The characters that `trim` drops. -/
def isSpace (c : UInt8) : Bool := c ∈ ascii " \t\r\n"

/-- `trim`. -/
def trim (s : Bytes) : Bytes := Lib.trim isSpace s

/-- The loop body of `load`: the assignment of a line, if it makes one. -/
def parseLine (line : Bytes) : Option (Bytes × Bytes) :=
  -- remove comments
  let line := trim (line.takeWhile (· ≠ '#'.toUInt8))
  if line.isEmpty then none
  else if '='.toUInt8 ∈ line then
    let key := trim (line.takeWhile (· ≠ '='.toUInt8))
    let val := trim (line.dropWhile (· ≠ '='.toUInt8)).tail
    if key.isEmpty then none else some (key, val)
  else none

/-- `load`; the file is absent if it cannot be opened. -/
def load (cfg : Config) (file : Option Bytes) : Int32 × Config :=
  match file with
  -- the settings that are there stay
  | none      => (-1, cfg)
  | some text => (0, ⟨assignAll parseLine cfg.data (lines '\n'.toUInt8 text)⟩)

/-- `get`. -/
def get (cfg : Config) (key : Bytes) (dflt : Bytes) : Bytes := (cfg.data.lookup key).getD dflt

/-- `has`. -/
def has (cfg : Config) (key : Bytes) : Bool := (cfg.data.lookup key).isSome

/-- What a value can look like after reading. -/
structure Readable (val : Bytes) : Prop where
  hash : '#'.toUInt8 ∉ val
  newline : '\n'.toUInt8 ∉ val
  head : ∀ c ∈ val.head?, isSpace c = false
  last : ∀ c ∈ val.getLast?, isSpace c = false

/-- Readability is seen at the two ends and by a search for the two characters. -/
instance Readable.decidable (val : Bytes) : Decidable (Readable val) :=
  decidable_of_iff
    ('#'.toUInt8 ∉ val ∧ '\n'.toUInt8 ∉ val ∧ val.head?.all (!isSpace ·) = true ∧
      val.getLast?.all (!isSpace ·) = true)
    ⟨fun ⟨hash, newline, head, last⟩ => ⟨hash, newline, by simpa [Option.all_eq_true] using head,
        by simpa [Option.all_eq_true] using last⟩,
      fun h => ⟨h.hash, h.newline, by simpa [Option.all_eq_true] using h.head,
        by simpa [Option.all_eq_true] using h.last⟩⟩

/-- Whether a text starts or ends in a space is seen at one character. -/
theorem isSpace_of_eq_some {o : Option UInt8} {c : UInt8} (ho : o = some c)
    (hc : isSpace c = false) : ∀ d ∈ o, isSpace d = false := by
  intro d hd
  rw [ho, Option.mem_some_iff] at hd
  exact hd ▸ hc

/-- A readable value is read as it was written. -/
theorem Readable.trim_takeWhile {val : Bytes} (hval : Readable val) :
    trim (val.takeWhile (· ≠ '#'.toUInt8)) = val := by
  rw [takeWhile_ne_of_not_mem hval.hash]
  exact trim_eq_self hval.head hval.last

/-- What stands before a character that is kept is kept, when no comment starts in it. -/
theorem trim_takeWhile_append {a : Bytes} (hhash : '#'.toUInt8 ∉ a)
    (hhead : ∀ c ∈ a.head?, isSpace c = false) (rest : Bytes) :
    trim ((a ++ '='.toUInt8 :: rest).takeWhile (· ≠ '#'.toUInt8)) =
      a ++ '='.toUInt8 :: (rest.takeWhile (· ≠ '#'.toUInt8)).rdropWhile isSpace := by
  rw [List.takeWhile_append_of_pos (forall_ne_of_not_mem hhash),
    List.takeWhile_cons_of_pos (by decide)]
  exact trim_append_cons hhead _ (show isSpace '='.toUInt8 = false by decide)

/-- A key, `=` and any text are read as an assignment to the key, with any spaces around the
    key. -/
theorem parseLine_padded {key a b : Bytes} (hkey : Readable key) (hne : key ≠ [])
    (heq : '='.toUInt8 ∉ key) (ha : ∀ c ∈ a, isSpace c = true) (hb : ∀ c ∈ b, isSpace c = true)
    (rest : Bytes) :
    parseLine (a ++ (key ++ b) ++ '='.toUInt8 :: rest) =
      some (key, trim (rest.takeWhile (· ≠ '#'.toUInt8))) := by
  have hnotSpace : ∀ {c d : UInt8}, isSpace c = true → isSpace d = false → c ≠ d :=
    fun hc hd h => by rw [h, hd] at hc; cases hc
  have hhashA : '#'.toUInt8 ∉ a := fun hc => hnotSpace (ha _ hc) (by decide) rfl
  have hhash : '#'.toUInt8 ∉ key ++ b := by
    rw [List.mem_append, not_or]
    exact ⟨hkey.hash, fun hc => hnotSpace (hb _ hc) (by decide) rfl⟩
  have heq' : '='.toUInt8 ∉ key ++ b := by
    rw [List.mem_append, not_or]
    exact ⟨heq, fun hc => hnotSpace (hb _ hc) (by decide) rfl⟩
  have hhead : ∀ c ∈ (key ++ b).head?, isSpace c = false := by
    rw [List.head?_append_of_ne_nil _ hne]
    exact hkey.head
  -- the spaces before the key are trimmed, those after the `=` are left for later
  have hcut : trim ((a ++ (key ++ b) ++ '='.toUInt8 :: rest).takeWhile (· ≠ '#'.toUInt8))
      = (key ++ b) ++ '='.toUInt8 :: (rest.takeWhile (· ≠ '#'.toUInt8)).rdropWhile isSpace := by
    rw [List.append_assoc, List.takeWhile_append_of_pos (forall_ne_of_not_mem hhashA), trim,
      trim_blank_append ha]
    exact trim_takeWhile_append hhash hhead rest
  have hself : Lib.trim isSpace (key ++ b) = key := by
    rw [trim_append_blank hb, trim_eq_self hkey.head hkey.last]
  simp only [parseLine]
  rw [hcut, List.takeWhile_append_of_pos (forall_ne_of_not_mem heq'),
    List.dropWhile_append_of_pos (forall_ne_of_not_mem heq')]
  simp [hself, hne, trim, trim_rdropWhile]

/-- The same without spaces around the key. -/
theorem parseLine_assignment {key : Bytes} (hkey : Readable key) (hne : key ≠ [])
    (heq : '='.toUInt8 ∉ key) (rest : Bytes) :
    parseLine (key ++ '='.toUInt8 :: rest) =
      some (key, trim (rest.takeWhile (· ≠ '#'.toUInt8))) := by
  simpa using parseLine_padded (a := []) (b := []) hkey hne heq (by simp) (by simp) rest

/-- The value of an assignment is trimmed, and part of the line before the comment. -/
theorem parseLine_val {line key val : Bytes} (hparse : parseLine line = some (key, val)) :
    ∃ s, val = trim s ∧ ∀ c ∈ s, c ∈ line ∧ c ≠ '#'.toUInt8 := by
  simp only [parseLine] at hparse
  split_ifs at hparse
  simp only [Option.some.injEq, Prod.mk.injEq] at hparse
  refine ⟨_, hparse.2.symm, fun c hc => ?_⟩
  have hstrip : c ∈ line.takeWhile (· ≠ '#'.toUInt8) :=
    mem_of_mem_trim ((List.dropWhile_sublist _).mem (List.mem_of_mem_tail hc))
  exact ⟨(List.takeWhile_sublist _).mem hstrip, by simpa using List.mem_takeWhile_imp hstrip⟩

/-- What a line assigns is readable. -/
theorem valueFor_readable {line key val : Bytes} (hline : '\n'.toUInt8 ∉ line)
    (hval : valueFor parseLine key line = some val) : Readable val := by
  obtain ⟨s, rfl, hs⟩ := parseLine_val (valueFor_eq_some.mp hval)
  exact
    { hash := fun hc => (hs _ (mem_of_mem_trim hc)).2 rfl
      newline := fun hc => hline (hs _ (mem_of_mem_trim hc)).1
      head := fun c hc => head?_trim hc
      last := fun c hc => getLast?_trim hc }

/-- What a fresh `Config` reads from a file is readable. -/
theorem load_readable {text key val : Bytes}
    (hval : (empty.load (some text)).2.data.lookup key = some val) : Readable val := by
  have hlast : (lastLine parseLine key (lines '\n'.toUInt8 text)).bind (valueFor parseLine key)
      = some val := by
    simpa [load, empty, lookup_assignAll] using hval
  obtain ⟨line, hline, hval⟩ := Option.bind_eq_some_iff.mp hlast
  exact valueFor_readable (mem_of_mem_lines (mem_of_lastLine hline)).1 hval

end Config

end AieOs
