import AieOs.Common.ConfigLines

namespace AieOs

open Lib

/-!
# Writing configuration files

A map is written one line per key, in any order, with spaces and comments where they are
allowed and lines that assign nothing in between.  `Config::load` reads the map back.

* `WrittenLine` — the lines of such a file; `Writes` — which files write a map;
* `parseLine_text` — what is read from a line;
* `load_written` — the round trip.
-/

namespace Config

/-- A line of a written file. -/
inductive WrittenLine
  /-- `key = val`, the spaces around them given in their order, and perhaps a comment. -/
  | setting (key val : Bytes) (a b c d : Bytes) (comment : Option Bytes)
  /-- A blank line, a comment, or a line without `=`. -/
  | other (line : Bytes)

namespace WrittenLine

/-- The text after the `=` of a setting. -/
def valText (val c d : Bytes) (comment : Option Bytes) : Bytes :=
  c ++ val ++ d ++ comment.elim [] ('#'.toUInt8 :: ·)

/-- The line as it stands in the file. -/
def text : WrittenLine → Bytes
  | setting key val a b c d comment => a ++ (key ++ b) ++ '='.toUInt8 :: valText val c d comment
  | other line                      => line

/-- The entry that a line is to make. -/
def entry : WrittenLine → Option (Σ _ : Bytes, Bytes)
  | setting key val _ _ _ _ _ => some ⟨key, val⟩
  | other _                   => none

/-- The spaces are spaces, tabs and CRs, the comment is one, and another line has no `=`
    before its comment. -/
def WellFormed : WrittenLine → Prop
  | setting _ _ a b c d comment =>
    (∀ s ∈ [a, b, c, d], ∀ ch ∈ s, ch ∈ ascii " \t\r") ∧
      ∀ junk ∈ comment, '\n'.toUInt8 ∉ junk
  | other line                  =>
    '\n'.toUInt8 ∉ line ∧ '='.toUInt8 ∉ line.takeWhile (· ≠ '#'.toUInt8)

/-- Well-formedness is checked character by character. -/
instance decidableWellFormed (l : WrittenLine) : Decidable l.WellFormed :=
  match l with
  | setting _ _ a b c d comment =>
    decidable_of_iff
      ([a, b, c, d].all (fun s => s.all (· ∈ ascii " \t\r")) = true ∧
        comment.all ('\n'.toUInt8 ∉ ·) = true)
      (by simp [WellFormed, Option.all_eq_true])
  | other line                  =>
    inferInstanceAs (Decidable ('\n'.toUInt8 ∉ line ∧ '='.toUInt8 ∉ line.takeWhile _))

end WrittenLine

/-- The maps that can be written: a key has no `=`, and keys and values hold no `#` and no
    newline and neither begin nor end with a space. -/
structure Writable (m : Finmap fun _ : Bytes => Bytes) : Prop where
  key : ∀ k v, m.lookup k = some v → k ≠ [] ∧ '='.toUInt8 ∉ k ∧ Readable k
  val : ∀ k v, m.lookup k = some v → Readable v

/-- The lines write the map: one line for each of its entries, in any order. -/
structure Writes (m : Finmap fun _ : Bytes => Bytes) (ls : List WrittenLine) : Prop where
  entries : (ls.filterMap WrittenLine.entry : Multiset (Σ _ : Bytes, Bytes)) = m.entries
  wellFormed : ∀ l ∈ ls, l.WellFormed

/-- The text of the lines, with or without a newline at the end. -/
def fileText (ls : List WrittenLine) (finalNewline : Bool) : Bytes :=
  let text := unlines '\n'.toUInt8 (ls.map WrittenLine.text)
  if finalNewline then text else text.dropLast

/-! ### What is read from a line -/

/-- The spaces of a written line are spaces to `trim`. -/
theorem isSpace_of_mem_blank {s : Bytes} (h : ∀ ch ∈ s, ch ∈ ascii " \t\r") :
    ∀ ch ∈ s, isSpace ch = true := by
  intro ch hch
  have hblank := h ch hch
  have hascii : ascii " \t\r" = [32, 9, 13] := by decide
  rw [hascii] at hblank
  simp only [List.mem_cons, List.not_mem_nil, or_false] at hblank
  rcases hblank with rfl | rfl | rfl <;> decide

/-- The value between its spaces, before its comment. -/
theorem trim_valText {val c d : Bytes} (comment : Option Bytes) (hval : Readable val)
    (hc : ∀ ch ∈ c, isSpace ch = true) (hd : ∀ ch ∈ d, isSpace ch = true) :
    trim ((WrittenLine.valText val c d comment).takeWhile (· ≠ '#'.toUInt8)) = val := by
  -- a comment does not start before the one that was written
  have hhash : '#'.toUInt8 ∉ c ++ val ++ d := by
    intro hch
    rw [List.mem_append, List.mem_append] at hch
    rcases hch with (hch | hch) | hch
    · exact absurd (hc _ hch) (by decide)
    · exact hval.hash hch
    · exact absurd (hd _ hch) (by decide)
  have hcut : (WrittenLine.valText val c d comment).takeWhile (· ≠ '#'.toUInt8)
      = c ++ val ++ d := by
    cases comment with
    | none =>
      rw [WrittenLine.valText, Option.elim_none, List.append_nil, takeWhile_ne_of_not_mem hhash]
    | some junk =>
      rw [WrittenLine.valText, Option.elim_some, takeWhile_ne_append_cons,
        takeWhile_ne_of_not_mem hhash]
  rw [hcut, trim, trim_append_blank hd, trim_blank_append hc, trim_eq_self hval.head hval.last]

section
variable {m : Finmap fun _ : Bytes => Bytes} {ls : List WrittenLine} {l : WrittenLine}

/-- The entries of the map are those of the lines. -/
theorem Writes.mem_entries (h : Writes m ls) (k v : Bytes) :
    m.lookup k = some v ↔ ∃ l ∈ ls, l.entry = some ⟨k, v⟩ := by
  rw [← Option.mem_def, Finmap.mem_lookup_iff, ← h.entries, Multiset.mem_coe, List.mem_filterMap]

/-- A line is read as the entry it was written for. -/
theorem parseLine_text (hm : Writable m) (h : Writes m ls) (hl : l ∈ ls) :
    parseLine l.text = l.entry.map fun e => (e.1, e.2) := by
  have hwell := h.wellFormed l hl
  cases l with
  | setting key val a b c d comment =>
    have hentry := (h.mem_entries key val).mpr ⟨_, hl, rfl⟩
    obtain ⟨hne, heq, hkey⟩ := hm.key key val hentry
    have hblank := hwell.1
    simp only [List.mem_cons, List.not_mem_nil, or_false, forall_eq_or_imp, forall_eq] at hblank
    obtain ⟨ha, hb, hc, hd⟩ := hblank
    rw [WrittenLine.text, parseLine_padded hkey hne heq (isSpace_of_mem_blank ha)
      (isSpace_of_mem_blank hb), trim_valText comment (hm.val key val hentry)
      (isSpace_of_mem_blank hc) (isSpace_of_mem_blank hd)]
    rfl
  | other line => exact parseLine_eq_none hwell.2

/-- The lines assign the entries of the map. -/
theorem lines_assign_entries (hm : Writable m) (h : Writes m ls) (k v : Bytes) :
    m.lookup k = some v ↔ ∃ t ∈ ls.map WrittenLine.text, parseLine t = some (k, v) := by
  rw [h.mem_entries]
  constructor
  · rintro ⟨l, hl, hentry⟩
    refine ⟨l.text, List.mem_map_of_mem hl, ?_⟩
    rw [parseLine_text hm h hl, hentry]
    rfl
  · rintro ⟨t, ht, hparse⟩
    obtain ⟨l, hl, rfl⟩ := List.mem_map.mp ht
    rw [parseLine_text hm h hl, Option.map_eq_some_iff] at hparse
    obtain ⟨⟨k', v'⟩, hentry, heq⟩ := hparse
    obtain ⟨rfl, rfl⟩ := Prod.mk.inj heq
    exact ⟨l, hl, hentry⟩

/-- A line stays one line. -/
theorem newline_not_mem_text (hm : Writable m) (h : Writes m ls) (hl : l ∈ ls) :
    '\n'.toUInt8 ∉ l.text := by
  have hwell := h.wellFormed l hl
  cases l with
  | setting key val a b c d comment =>
    have hentry := (h.mem_entries key val).mpr ⟨_, hl, rfl⟩
    have hkey := (hm.key key val hentry).2.2.newline
    have hval := (hm.val key val hentry).newline
    have hblank : ∀ s ∈ [a, b, c, d], '\n'.toUInt8 ∉ s := fun s hs hmem =>
      absurd (hwell.1 s hs _ hmem) (by decide)
    simp only [List.mem_cons, List.not_mem_nil, or_false, forall_eq_or_imp, forall_eq] at hblank
    obtain ⟨ha, hb, hc, hd⟩ := hblank
    have hcomment : '\n'.toUInt8 ∉ comment.elim [] ('#'.toUInt8 :: ·) := by
      cases comment with
      | none => exact List.not_mem_nil
      | some junk =>
        rw [Option.elim_some, List.mem_cons, not_or]
        exact ⟨by decide, hwell.2 junk rfl⟩
    simp only [WrittenLine.text, WrittenLine.valText, List.mem_append, List.mem_cons, not_or]
    exact ⟨⟨ha, hkey, hb⟩, by decide, ⟨⟨hc, hval⟩, hd⟩, hcomment⟩
  | other line => exact hwell.1

end

/-! ### What is read from a file -/

/-- With or without a newline at the end, a file is the assignments of its lines. -/
theorem load_fileText (ls : List WrittenLine) (finalNewline : Bool)
    (hls : ∀ l ∈ ls, '\n'.toUInt8 ∉ l.text) :
    (empty.load (some (fileText ls finalNewline))).2.data
      = assignAll parseLine ∅ (ls.map WrittenLine.text) := by
  have htexts : ∀ t ∈ ls.map WrittenLine.text, '\n'.toUInt8 ∉ t := by
    intro _ ht
    obtain ⟨l, hl, rfl⟩ := List.mem_map.mp ht
    exact hls l hl
  cases finalNewline with
  | true =>
    show assignAll parseLine ∅ (lines _ (unlines _ _)) = _
    rw [lines_unlines htexts]
  | false =>
    rcases List.eq_nil_or_concat (ls.map WrittenLine.text) with hnil | ⟨init, last, hlast⟩
    · simp [fileText, hnil, unlines, load_nil, empty]
      rfl
    · rw [List.concat_eq_append] at hlast
      rw [hlast] at htexts ⊢
      rw [List.forall_mem_append] at htexts
      -- without the newline at the end, the last line stands alone
      have htext : fileText ls false = unlines '\n'.toUInt8 init ++ last := by
        simp [fileText, hlast, unlines, ← List.append_assoc]
      rw [htext, load_unlines_append empty htexts.1 (htexts.2 last (List.mem_singleton_self last))]
      rfl

/-- **Round trip.** What is read from a file that writes a map is that map. -/
theorem load_written {m : Finmap fun _ : Bytes => Bytes} (hm : Writable m)
    {ls : List WrittenLine} (hls : Writes m ls) (finalNewline : Bool) :
    let cfg := (empty.load (some (fileText ls finalNewline))).2
    cfg.data = m ∧
      (∀ k v, m.lookup k = some v → ∀ dflt, cfg.get k dflt = v) ∧
      ∀ k ∉ m, cfg.has k = false ∧ ∀ dflt, cfg.get k dflt = dflt := by
  intro cfg
  have hdata : cfg.data = m := by
    show (empty.load _).2.data = m
    rw [load_fileText ls finalNewline fun l hl => newline_not_mem_text hm hls hl]
    exact assignAll_empty_eq (lines_assign_entries hm hls)
  refine ⟨hdata, fun k v hv dflt => ?_, fun k hk => ?_⟩
  · rw [Config.get, hdata, hv, Option.getD_some]
  · have hnone := Finmap.lookup_eq_none.mpr hk
    exact ⟨by rw [has, hdata, hnone, Option.isSome_none],
      fun dflt => by rw [Config.get, hdata, hnone, Option.getD_none]⟩

/-- A map of two settings, and a file that writes them in the other order. -/
private def twoSettings : Finmap fun _ : Bytes => Bytes where
  entries := ([⟨ascii "classifier", ascii "onnx"⟩, ⟨ascii "model_path", ascii "/a=b"⟩] :
    List (Σ _ : Bytes, Bytes))
  nodupKeys := Multiset.coe_nodupKeys.mpr (show (List.keys _).Nodup by decide)

/-- The file, with a comment, spaces, and a line without `=`. -/
private def twoSettingsFile : List WrittenLine :=
  [.other (ascii "# a=b"),
    .setting (ascii "model_path") (ascii "/a=b") (ascii "\t") (ascii " ") (ascii " ") (ascii "\r")
      (some (ascii " #=")),
    .other (ascii "no setting"),
    .setting (ascii "classifier") (ascii "onnx") [] [] [] [] none]

/-- It is read back as the map. -/
theorem load_written_two_settings :
    (empty.load (some (fileText twoSettingsFile false))).2.data = twoSettings := by
  have hentries : ∀ k v, twoSettings.lookup k = some v →
      k = ascii "classifier" ∧ v = ascii "onnx" ∨ k = ascii "model_path" ∧ v = ascii "/a=b" := by
    intro k v hv
    have hmem := Finmap.mem_lookup_iff.mp (Option.mem_def.mpr hv)
    simpa [twoSettings] using hmem
  have hwrites : Writes twoSettings twoSettingsFile :=
    ⟨Multiset.coe_eq_coe.mpr (List.Perm.swap _ _ _), by decide⟩
  refine (load_written ⟨fun k v hv => ?_, fun k v hv => ?_⟩ hwrites false).1
  · rcases hentries k v hv with ⟨rfl, -⟩ | ⟨rfl, -⟩ <;> decide
  · rcases hentries k v hv with ⟨-, rfl⟩ | ⟨-, rfl⟩ <;> decide

end Config

end AieOs
