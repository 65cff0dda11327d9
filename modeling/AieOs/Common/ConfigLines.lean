import AieOs.Common.Config

namespace AieOs

open Lib

/-!
# Configuration files, line by line

Reading a file stores the assignments of its lines one after the other, so a file may be cut
at any newline.  What a line assigns does not depend on a comment, on a CR at its end, or on
lines that assign nothing.

* `load_unlines_append` — a file as the assignments of its lines;
* `load_append` — a file cut at a newline;
* `load_crlf`, `load_comment`, `load_inserted` — the edits that do not count;
* `load_linewise` — all of it.
-/

namespace Config

/-- White space, as `isspace` has it in the C locale. -/
def isWhite (c : UInt8) : Bool := c ∈ ascii " \t\n" ++ [11, 12] ++ ascii "\r"

/-- A blank, whitespace-only or comment-only line. -/
structure Blank (line : Bytes) : Prop where
  newline : '\n'.toUInt8 ∉ line
  white : ∀ c ∈ line.takeWhile (· ≠ '#'.toUInt8), isWhite c = true

/-- Every newline replaced by CR newline. -/
def crlf (text : Bytes) : Bytes :=
  text.flatMap fun c => if c = '\n'.toUInt8 then ascii "\r\n" else [c]

/-- A place in a file where a line starts, given by what stands before it. -/
def LineStart (pre : Bytes) : Prop := pre = [] ∨ ∃ init, pre = init ++ ['\n'.toUInt8]

/-- A place in a file where a line ends, given by what stands after it. -/
def LineEnd (post : Bytes) : Prop := post = [] ∨ ∃ rest, post = '\n'.toUInt8 :: rest

/-- A line is inserted into a file. -/
inductive LineInserted (line : Bytes) : Bytes → Bytes → Prop
  /-- Before a line, or at the end with a newline. -/
  | before (pre post : Bytes) (hpre : LineStart pre) :
    LineInserted line (pre ++ post) (pre ++ line ++ '\n'.toUInt8 :: post)
  /-- At the end, without a newline. -/
  | atEnd (pre : Bytes) (hpre : LineStart pre) : LineInserted line pre (pre ++ line)
  /-- After a line. -/
  | after (pre post : Bytes) (hpost : LineEnd post) :
    LineInserted line (pre ++ post) (pre ++ '\n'.toUInt8 :: line ++ post)

/-! ### What a line assigns -/

/-- A comment makes no difference to a line. -/
theorem parseLine_comment (line junk : Bytes) :
    parseLine (line ++ '#'.toUInt8 :: junk) = parseLine line := by
  unfold parseLine
  rw [takeWhile_ne_append_cons]

/-- Nor does a CR at its end. -/
theorem parseLine_cr (line : Bytes) : parseLine (line ++ ['\r'.toUInt8]) = parseLine line := by
  have hcut : trim ((line ++ ['\r'.toUInt8]).takeWhile (· ≠ '#'.toUInt8))
      = trim (line.takeWhile (· ≠ '#'.toUInt8)) := by
    rw [List.takeWhile_append]
    split
    · -- without a comment the CR is kept, and trimmed then
      rename_i hlen
      rw [(List.takeWhile_prefix _).eq_of_length hlen]
      have hcr : isSpace '\r'.toUInt8 = true := by decide
      exact trim_append_blank (List.forall_mem_singleton.mpr hcr) line
    · rfl
  simp only [parseLine, hcut]

/-- A line whose comment starts before any `=` assigns nothing. -/
theorem parseLine_eq_none {line : Bytes}
    (h : '='.toUInt8 ∉ line.takeWhile (· ≠ '#'.toUInt8)) : parseLine line = none := by
  have htrim : '='.toUInt8 ∉ trim (line.takeWhile (· ≠ '#'.toUInt8)) :=
    fun hmem => h (mem_of_mem_trim hmem)
  simp only [parseLine]
  rw [if_neg htrim, ite_self]

/-- A blank line assigns nothing. -/
theorem Blank.parseLine_eq_none {line : Bytes} (h : Blank line) : parseLine line = none := by
  apply Config.parseLine_eq_none
  intro heq
  exact absurd (h.white _ heq) (by decide)

/-! ### What a file assigns -/

/-- The lines of a file in their order, the last one perhaps without newline, perhaps empty. -/
theorem load_unlines_append (cfg : Config) {ls : List Bytes} {r : Bytes}
    (hls : ∀ l ∈ ls, '\n'.toUInt8 ∉ l) (hr : '\n'.toUInt8 ∉ r) :
    (cfg.load (some (unlines '\n'.toUInt8 ls ++ r))).2
      = ⟨assignAll parseLine cfg.data (ls ++ [r])⟩ := by
  show Config.mk (assignAll parseLine cfg.data (lines _ _)) = _
  rw [lines_unlines_append hls]
  rcases List.eq_nil_or_concat r with rfl | ⟨_, _, hcons⟩
  · -- the text ends with a newline; an empty line assigns nothing
    rw [assignAll_append, assignAll_append]
    rfl
  · rw [lines_of_not_mem hr (by simp [hcons])]

/-- **A file may be cut at any newline.** -/
theorem load_append (cfg : Config) (a b : Bytes) :
    (cfg.load (some (a ++ '\n'.toUInt8 :: b))).2
      = ((cfg.load (some a)).2.load (some b)).2 := by
  obtain ⟨ls, r, hls, hr, rfl⟩ := exists_unlines '\n'.toUInt8 a
  rw [load_unlines_append cfg hls hr]
  show Config.mk (assignAll parseLine cfg.data (lines _ _)) = Config.mk (assignAll parseLine _ _)
  rw [List.append_assoc, lines_unlines_append hls, lines_append_cons hr, ← assignAll_append,
    List.append_assoc, List.singleton_append]

/-- An empty file changes nothing. -/
theorem load_nil (cfg : Config) : (cfg.load (some [])).2 = cfg := rfl

/-- A file of one line. -/
theorem load_line (cfg : Config) {line : Bytes} (hline : '\n'.toUInt8 ∉ line) :
    (cfg.load (some line)).2 = ⟨assign parseLine cfg.data line⟩ :=
  load_unlines_append cfg (List.forall_mem_nil _) hline

/-- A file that goes on after a line start. -/
theorem load_lineStart (cfg : Config) {pre : Bytes} (hpre : LineStart pre) (b : Bytes) :
    (cfg.load (some (pre ++ b))).2 = ((cfg.load (some pre)).2.load (some b)).2 := by
  rcases hpre with rfl | ⟨init, rfl⟩
  · rfl
  · rw [List.append_assoc, List.singleton_append, load_append, load_append, load_nil]

/-- A file that goes on where a line ends. -/
theorem load_lineEnd (cfg : Config) {post : Bytes} (hpost : LineEnd post) (a : Bytes) :
    (cfg.load (some (a ++ post))).2 = ((cfg.load (some a)).2.load (some post)).2 := by
  rcases hpost with rfl | ⟨rest, rfl⟩
  · rw [List.append_nil, load_nil]
  · have hcut := load_append (cfg.load (some a)).2 [] rest
    rw [List.nil_append, load_nil] at hcut
    rw [load_append, hcut]

/-! ### Edits that make no difference -/

/-- Newlines are replaced one by one. -/
theorem crlf_append (a b : Bytes) : crlf (a ++ b) = crlf a ++ crlf b := List.flatMap_append

/-- Without newline there is nothing to replace. -/
theorem crlf_of_not_mem {line : Bytes} (h : '\n'.toUInt8 ∉ line) : crlf line = line := by
  induction line with
  | nil => rfl
  | cons c line ih =>
    rw [List.mem_cons, not_or] at h
    have htail : crlf line = line := ih h.2
    unfold crlf at htail ⊢
    rw [List.flatMap_cons, if_neg (Ne.symm h.1), htail, List.singleton_append]

/-- With CR newlines every terminated line ends in a CR. -/
theorem crlf_unlines {ls : List Bytes} (hls : ∀ l ∈ ls, '\n'.toUInt8 ∉ l) :
    crlf (unlines '\n'.toUInt8 ls)
      = unlines '\n'.toUInt8 (ls.map (· ++ ['\r'.toUInt8])) := by
  induction ls with
  | nil => rfl
  | cons l ls ih =>
    rw [List.forall_mem_cons] at hls
    have hnl : crlf ['\n'.toUInt8] = ['\r'.toUInt8] ++ ['\n'.toUInt8] := rfl
    calc crlf (unlines '\n'.toUInt8 (l :: ls))
        = crlf l ++ crlf ['\n'.toUInt8] ++ crlf (unlines '\n'.toUInt8 ls) := by
          rw [← crlf_append, ← crlf_append]; rfl
      _ = l ++ ['\r'.toUInt8] ++ ['\n'.toUInt8]
            ++ unlines '\n'.toUInt8 (ls.map (· ++ ['\r'.toUInt8])) := by
          rw [crlf_of_not_mem hls.1, hnl, ih hls.2, List.append_assoc l ['\r'.toUInt8]]

/-- **CR newlines** make no difference. -/
theorem load_crlf (cfg : Config) (text : Bytes) :
    (cfg.load (some (crlf text))).2 = (cfg.load (some text)).2 := by
  obtain ⟨ls, r, hls, hr, rfl⟩ := exists_unlines '\n'.toUInt8 text
  have hmap : ∀ l ∈ ls.map (· ++ ['\r'.toUInt8]), '\n'.toUInt8 ∉ l := by
    intro _ hl'
    obtain ⟨l, hl, rfl⟩ := List.mem_map.mp hl'
    rw [List.mem_append, not_or]
    exact ⟨hls l hl, by decide⟩
  rw [crlf_append, crlf_unlines hls, crlf_of_not_mem hr, load_unlines_append cfg hmap hr,
    load_unlines_append cfg hls hr, assignAll_append, assignAll_map_congr parseLine_cr,
    ← assignAll_append]

/-- **A comment** makes no difference, up to the end of its line. -/
theorem load_comment (cfg : Config) (pre : Bytes) {junk post : Bytes}
    (hjunk : '\n'.toUInt8 ∉ junk) (hpost : LineEnd post) :
    (cfg.load (some (pre ++ '#'.toUInt8 :: junk ++ post))).2
      = (cfg.load (some (pre ++ post))).2 := by
  rw [load_lineEnd cfg hpost, load_lineEnd cfg hpost]
  obtain ⟨ls, r, hls, hr, rfl⟩ := exists_unlines '\n'.toUInt8 pre
  have hr' : '\n'.toUInt8 ∉ r ++ '#'.toUInt8 :: junk := by
    rw [List.mem_append, List.mem_cons, not_or, not_or]
    exact ⟨hr, by decide, hjunk⟩
  -- the comment belongs to the last line before it
  have hlast : assignAll parseLine cfg.data (ls ++ [r ++ '#'.toUInt8 :: junk])
      = assignAll parseLine cfg.data (ls ++ [r]) := by
    rw [assignAll_append, assignAll_append]
    exact assign_congr (parseLine_comment r junk) _
  rw [List.append_assoc, load_unlines_append cfg hls hr', load_unlines_append cfg hls hr, hlast]

/-- A file of one blank line changes nothing. -/
theorem Blank.load_eq {line : Bytes} (h : Blank line) (cfg : Config) :
    (cfg.load (some line)).2 = cfg := by
  rw [load_line cfg h.newline, assign, h.parseLine_eq_none]

/-- **A blank line** makes no difference, wherever it stands. -/
theorem load_inserted (cfg : Config) {line text text' : Bytes} (hline : Blank line)
    (h : LineInserted line text text') :
    (cfg.load (some text')).2 = (cfg.load (some text)).2 := by
  cases h with
  | before pre post hpre =>
    rw [load_append, load_lineStart cfg hpre, hline.load_eq, load_lineStart cfg hpre]
  | atEnd pre hpre => rw [load_lineStart cfg hpre, hline.load_eq]
  | after pre post hpost =>
    rw [load_lineEnd cfg hpost, load_append, hline.load_eq, load_lineEnd cfg hpost]

/-- A line that is read last counts for its key and for no other one. -/
theorem lookup_load_append_line (cfg : Config) (a : Bytes) {line key val : Bytes}
    (hline : '\n'.toUInt8 ∉ line) (hparse : parseLine line = some (key, val)) (key' : Bytes) :
    (cfg.load (some (a ++ '\n'.toUInt8 :: line))).2.data.lookup key' =
      if key' = key then some val else (cfg.load (some a)).2.data.lookup key' := by
  rw [load_append, load_line _ hline, assign, hparse]
  -- the line is stored over what the key had before
  by_cases hkey : key' = key
  · subst hkey
    rw [if_pos rfl, Finmap.lookup_insert]
  · rw [if_neg hkey, Finmap.lookup_insert_of_ne _ hkey]

/-- So does `key=rest`, with any spaces around the key: for the trimmed text before the
    comment. -/
theorem lookup_load_append_padded (cfg : Config) (text : Bytes) {key a b rest : Bytes}
    (hkey : Readable key) (hne : key ≠ []) (heq : '='.toUInt8 ∉ key)
    (ha : ∀ c ∈ a, isSpace c = true) (hb : ∀ c ∈ b, isSpace c = true)
    (hline : '\n'.toUInt8 ∉ a ++ (key ++ b) ++ '='.toUInt8 :: rest) (key' : Bytes) :
    (cfg.load (some (text ++ '\n'.toUInt8 ::
        (a ++ (key ++ b) ++ '='.toUInt8 :: rest)))).2.data.lookup key'
      = if key' = key then some (trim (rest.takeWhile (· ≠ '#'.toUInt8)))
        else (cfg.load (some text)).2.data.lookup key' :=
  lookup_load_append_line cfg text hline (parseLine_padded hkey hne heq ha hb rest) key'

/-- **Reading is line-wise and the last assignment wins.** Line endings, comments and lines
    that assign nothing make no difference, in any file and after any other one. -/
theorem load_linewise (cfg : Config) :
    (∀ a b, (cfg.load (some (a ++ '\n'.toUInt8 :: b))).2
      = ((cfg.load (some a)).2.load (some b)).2) ∧
    (∀ a line key val, '\n'.toUInt8 ∉ line → parseLine line = some (key, val) → ∀ key',
      (cfg.load (some (a ++ '\n'.toUInt8 :: line))).2.data.lookup key' =
        if key' = key then some val else (cfg.load (some a)).2.data.lookup key') ∧
    (∀ text key a b rest, Readable key → key ≠ [] → '='.toUInt8 ∉ key →
      (∀ c ∈ a, isSpace c = true) → (∀ c ∈ b, isSpace c = true) →
      '\n'.toUInt8 ∉ a ++ (key ++ b) ++ '='.toUInt8 :: rest → ∀ key',
      (cfg.load (some (text ++ '\n'.toUInt8 ::
          (a ++ (key ++ b) ++ '='.toUInt8 :: rest)))).2.data.lookup key'
        = if key' = key then some (trim (rest.takeWhile (· ≠ '#'.toUInt8)))
          else (cfg.load (some text)).2.data.lookup key') ∧
    (∀ text, (cfg.load (some (crlf text))).2 = (cfg.load (some text)).2) ∧
    (∀ pre junk post, '\n'.toUInt8 ∉ junk → LineEnd post →
      (cfg.load (some (pre ++ '#'.toUInt8 :: junk ++ post))).2
        = (cfg.load (some (pre ++ post))).2) ∧
    (∀ line text text', Blank line → LineInserted line text text' →
      (cfg.load (some text')).2 = (cfg.load (some text)).2) :=
  ⟨load_append cfg, fun a _ _ _ hline hparse => lookup_load_append_line cfg a hline hparse,
    fun text _ _ _ _ hkey hne heq ha hb hline =>
      lookup_load_append_padded cfg text hkey hne heq ha hb hline,
    load_crlf cfg, fun pre _ _ hjunk hpost => load_comment cfg pre hjunk hpost,
    fun _ _ _ hline h => load_inserted cfg hline h⟩

end Config

end AieOs
