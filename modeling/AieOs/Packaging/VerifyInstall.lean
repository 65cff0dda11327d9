import AieOs.Packaging.InstallModel

namespace AieOs

open Lib Config

/-!
# `verify_install.sh` — how it reads the configuration

`check_config` takes a setting from the lines that start with its key and `=`: what stands
there between the first and the second `=`, of all of them.  `Config` takes the last
assignment, allows spaces and comments, and lets a value contain `=`.  What the script prints
and counts is left out.

* `TextTools` — `grep` and `cut`, with `TextTools.Documented` for what is known of them;
* `extracted_eq_iff` — when an extracted setting is a given value;
* `spelledAlike_iff_of_single` — one line `key=val`, and which values are read alike;
* `check_config_agrees_iff` — which files are read alike, with and without that assumption.
-/

/-! ### The script -/

/-- The programs of the pipeline, on a text. -/
structure TextTools where
  /-- `grep pattern`. -/
  grep : Bytes → Bytes → Bytes
  /-- `cut -dC -fN`. -/
  cut : UInt8 → ℕ → Bytes → Bytes

/-- `$(…)`: the shell keeps no NUL bytes, and no newlines at the end. -/
def commandSubstitution (out : Bytes) : Bytes :=
  (out.filter (· ≠ 0)).rdropWhile (· = '\n'.toUInt8)

/-- What the lines of a setting start with. -/
def settingStart (key : Bytes) : Bytes := key ++ ['='.toUInt8]

/-- `$(grep "^key=" /etc/aie-os/aie.conf | cut -d= -f2)` for the keys `classifier` and
    `model_path`. -/
def extracted (t : TextTools) (key text : Bytes) : Bytes :=
  commandSubstitution (t.cut '='.toUInt8 2 (t.grep (ascii "^" ++ settingStart key) text))

/-- The second field of a line, or the whole line if it is not divided. -/
def secondField (delim : UInt8) (line : Bytes) : Bytes :=
  if delim ∈ line then (line.dropWhile (· ≠ delim)).tail.takeWhile (· ≠ delim) else line

/-- What is specified of the programs, in a locale where every byte is a character, for texts:
    files without NUL bytes. -/
structure TextTools.Documented (t : TextTools) : Prop where
  /-- A pattern `^start` selects the lines with that start, if no character is special. -/
  grep_start : ∀ start text, start.all (· ∉ ascii ".*[]\\^$|\n") → 0 ∉ text →
    t.grep (ascii "^" ++ start) text
      = unlines '\n'.toUInt8 ((lines '\n'.toUInt8 text).filter (start <+: ·))
  cut_second : ∀ delim text, 0 ∉ text →
    t.cut delim 2 text = unlines '\n'.toUInt8 ((lines '\n'.toUInt8 text).map (secondField delim))

/-! ### What is promised -/

/-- The script and the daemon read the same value, an absent one as empty. -/
def ReadsAlike (t : TextTools) (key text : Bytes) : Prop :=
  extracted t key text = (readConfig (some text)).get key []

/-- The lines that the script looks at. -/
def settingLines (key text : Bytes) : List Bytes :=
  (lines '\n'.toUInt8 text).filter (settingStart key <+: ·)

/-- What the shell keeps of such a line. -/
def settingField (line : Bytes) : Bytes := (secondField '='.toUInt8 line).filter (· ≠ 0)

/-- The lines for which it is kept: of those that start with the key and `=` only the first
    has a second field, and the last line that assigns to the key, in whatever spelling,
    assigns that field. -/
def SpelledAlike (key text : Bytes) : Prop :=
  (∀ line ∈ (settingLines key text).tail, settingField line = []) ∧
    ((settingLines key text).map settingField).headD []
      = ((lastLine parseLine key (lines '\n'.toUInt8 text)).bind (valueFor parseLine key)).getD []

/-- Two texts can be compared. -/
instance decidableReadsAlike (t : TextTools) (key text : Bytes) :
    Decidable (ReadsAlike t key text) := inferInstanceAs (Decidable (_ = _))

/-- The condition can be checked on a file. -/
instance decidableSpelledAlike (key text : Bytes) : Decidable (SpelledAlike key text) :=
  inferInstanceAs (Decidable ((∀ line ∈ (settingLines key text).tail, _) ∧ _))

/-! ### The extracted value -/

section
variable {t : TextTools} {key text : Bytes}

/-- A field is part of its line. -/
theorem mem_of_mem_settingField {line : Bytes} {c : UInt8} (hc : c ∈ settingField line) :
    c ∈ line := by
  have hfield := (List.mem_filter.mp hc).1
  unfold secondField at hfield
  split at hfield
  · have htail := (List.takeWhile_sublist _).mem hfield
    exact (List.dropWhile_sublist _).mem (List.mem_of_mem_tail htail)
  · exact hfield

/-- A field does not go on beyond its line. -/
theorem newline_not_mem_settingField {line : Bytes} (hline : line ∈ settingLines key text) :
    '\n'.toUInt8 ∉ settingField line := fun hc =>
  (mem_of_mem_lines (List.mem_filter.mp hline).1).1 (mem_of_mem_settingField hc)

/-- The lines of a text are one again. -/
theorem nul_not_mem_unlines {ls : List Bytes} (hls : ∀ line ∈ ls, 0 ∉ line) :
    0 ∉ unlines '\n'.toUInt8 ls := by
  intro hmem
  obtain ⟨line, hline, hc⟩ := List.mem_flatMap.mp hmem
  rcases List.mem_append.mp hc with hc | hc
  · exact hls line hline hc
  · exact absurd hc (by decide)

/-- The pipeline prints the second fields of the lines of the setting. -/
theorem extracted_eq (ht : t.Documented)
    (hkey : (settingStart key).all (· ∉ ascii ".*[]\\^$|\n")) (hnul : 0 ∉ text) :
    extracted t key text =
      (unlines '\n'.toUInt8 ((settingLines key text).map settingField)).rdropWhile
        (· = '\n'.toUInt8) := by
  have hlines : ∀ line ∈ settingLines key text, '\n'.toUInt8 ∉ line := fun line hline =>
    (mem_of_mem_lines (List.mem_filter.mp hline).1).1
  have hselected : 0 ∉ unlines '\n'.toUInt8 (settingLines key text) :=
    nul_not_mem_unlines fun line hline hc =>
      hnul ((mem_of_mem_lines (List.mem_filter.mp hline).1).2 _ hc)
  -- the output of `grep` is a text again, the lines of which `cut` divides
  rw [extracted, ht.grep_start _ _ hkey hnul, ← settingLines, ht.cut_second _ _ hselected,
    commandSubstitution, lines_unlines hlines, filter_unlines (by decide), List.map_map]
  rfl

/-- A value without newline is extracted iff it is the field of the first line, and the other
    fields are empty. -/
theorem extracted_eq_iff (ht : t.Documented)
    (hkey : (settingStart key).all (· ∉ ascii ".*[]\\^$|\n")) (hnul : 0 ∉ text) {val : Bytes}
    (hval : '\n'.toUInt8 ∉ val) :
    extracted t key text = val ↔
      (∀ line ∈ (settingLines key text).tail, settingField line = []) ∧
        ((settingLines key text).map settingField).headD [] = val := by
  have hfields : ∀ f ∈ (settingLines key text).map settingField, '\n'.toUInt8 ∉ f := by
    intro _ hf
    obtain ⟨line, hline, rfl⟩ := List.mem_map.mp hf
    exact newline_not_mem_settingField hline
  rw [extracted_eq ht hkey hnul, rdropWhile_unlines_eq_iff hfields hval, ← List.map_tail,
    List.forall_mem_map]

/-- The value that the daemon reads. -/
theorem get_readConfig (key text : Bytes) :
    (readConfig (some text)).get key []
      = ((lastLine parseLine key (lines '\n'.toUInt8 text)).bind
          (valueFor parseLine key)).getD [] := by
  show ((assignAll parseLine ∅ _).lookup key).getD [] = _
  rw [lookup_assignAll, Finmap.lookup_empty, Option.or_none]

/-- Nor does a value that the daemon reads. -/
theorem newline_not_mem_get (key text : Bytes) :
    '\n'.toUInt8 ∉ (readConfig (some text)).get key [] := by
  unfold Config.get
  cases hval : (readConfig (some text)).data.lookup key with
  | none => exact List.not_mem_nil
  | some val => exact (load_readable hval).newline

/-- A setting is read alike iff it is spelled so that it can. -/
theorem readsAlike_iff (ht : t.Documented)
    (hkey : (settingStart key).all (· ∉ ascii ".*[]\\^$|\n")) (hnul : 0 ∉ text) :
    ReadsAlike t key text ↔ SpelledAlike key text := by
  rw [ReadsAlike, extracted_eq_iff ht hkey hnul (newline_not_mem_get key text), get_readConfig,
    SpelledAlike]

end

/-! ### One setting -/

/-- What stands before the first `=` of `rest` is the field of `key=rest`. -/
theorem settingField_append {key : Bytes} (hkey : '='.toUInt8 ∉ key) (rest : Bytes) :
    settingField (settingStart key ++ rest)
      = (rest.takeWhile (· ≠ '='.toUInt8)).filter (· ≠ 0) := by
  have hline : settingStart key ++ rest = key ++ '='.toUInt8 :: rest := by simp [settingStart]
  rw [settingField, hline, secondField, if_pos (by simp),
    List.dropWhile_append_of_pos (forall_ne_of_not_mem hkey)]
  simp

/-- What the daemon reads from `key=rest`. -/
theorem valueFor_settingStart {key : Bytes} (hkey : Readable key) (hne : key ≠ [])
    (heq : '='.toUInt8 ∉ key) (rest : Bytes) :
    valueFor parseLine key (settingStart key ++ rest)
      = some (trim (rest.takeWhile (· ≠ '#'.toUInt8))) := by
  have hline : settingStart key ++ rest = key ++ '='.toUInt8 :: rest := by simp [settingStart]
  rw [valueFor_eq_some, hline, parseLine_assignment hkey hne heq]

/-- Where the comment and the field stop alike, there is no second `=`. -/
theorem delim_not_mem_of_eq {val : Bytes}
    (h : trim (val.takeWhile (· ≠ '#'.toUInt8))
      = (val.takeWhile (· ≠ '='.toUInt8)).filter (· ≠ 0)) : '='.toUInt8 ∉ val := by
  intro hmem
  obtain ⟨a, b, rfl, ha⟩ := List.eq_append_cons_of_mem hmem
  rw [takeWhile_ne_append_cons, takeWhile_ne_of_not_mem ha] at h
  by_cases hcomment : '#'.toUInt8 ∈ a
  · -- the field goes on where the value has stopped
    have hkept : '#'.toUInt8 ∈ a.filter (· ≠ 0) := List.mem_filter.mpr ⟨hcomment, by decide⟩
    rw [← h] at hkept
    exact not_mem_takeWhile_ne _ _ (mem_of_mem_trim hkept)
  · -- the value goes on where the field has stopped
    have hkept : '='.toUInt8 ∈ trim ((a ++ '='.toUInt8 :: b).takeWhile (· ≠ '#'.toUInt8)) := by
      rw [List.takeWhile_append_of_pos (forall_ne_of_not_mem hcomment),
        List.takeWhile_cons_of_pos (by decide)]
      exact mem_trim (by simp) (by decide)
    rw [h] at hkept
    exact ha (List.mem_filter.mp hkept).1

/-- A setting `key=val` is read alike iff nothing in the value is special to one of the two. -/
theorem valueFor_eq_settingField_iff {key val : Bytes} (hkey : Readable key) (hne : key ≠ [])
    (heq : '='.toUInt8 ∉ key) (hnl : '\n'.toUInt8 ∉ val) :
    valueFor parseLine key (settingStart key ++ val)
        = some (settingField (settingStart key ++ val)) ↔
      Readable val ∧ '='.toUInt8 ∉ val ∧ 0 ∉ val := by
  rw [settingField_append heq, valueFor_settingStart hkey hne heq, Option.some.injEq]
  constructor
  · intro h
    have hdelim : '='.toUInt8 ∉ val := delim_not_mem_of_eq h
    rw [takeWhile_ne_of_not_mem hdelim] at h
    have hcomment : '#'.toUInt8 ∉ val := by
      intro hmem
      have hkept : '#'.toUInt8 ∈ val.filter (· ≠ 0) := List.mem_filter.mpr ⟨hmem, by decide⟩
      rw [← h] at hkept
      exact not_mem_takeWhile_ne _ _ (mem_of_mem_trim hkept)
    rw [takeWhile_ne_of_not_mem hcomment] at h
    -- the shell drops the NUL bytes, the daemon does not
    have hnul : 0 ∉ val := by
      intro hmem
      have hkept : 0 ∈ trim val := mem_trim hmem (by decide)
      rw [h] at hkept
      simpa using (List.mem_filter.mp hkept).2
    rw [List.filter_eq_self.mpr (forall_ne_of_not_mem hnul)] at h
    refine ⟨⟨hcomment, hnl, fun c hc => ?_, fun c hc => ?_⟩, hdelim, hnul⟩
    · exact head?_trim (h.symm ▸ hc)
    · exact getLast?_trim (h.symm ▸ hc)
  · rintro ⟨hval, hdelim, hnul⟩
    rw [hval.trim_takeWhile, takeWhile_ne_of_not_mem hdelim,
      List.filter_eq_self.mpr (forall_ne_of_not_mem hnul)]

/-- A file in which one line `key=val` alone speaks of the setting is read alike iff that
    line is. -/
theorem spelledAlike_iff_of_single {key val text : Bytes} (hkey : Readable key) (hne : key ≠ [])
    (heq : '='.toUInt8 ∉ key) (hlines : settingLines key text = [settingStart key ++ val])
    (hlast : lastLine parseLine key (lines '\n'.toUInt8 text) = some (settingStart key ++ val)) :
    SpelledAlike key text ↔ Readable val ∧ '='.toUInt8 ∉ val ∧ 0 ∉ val := by
  have hline : settingStart key ++ val ∈ settingLines key text := by
    rw [hlines]
    exact List.mem_singleton_self _
  have hnewline : '\n'.toUInt8 ∉ val := fun hc =>
    (mem_of_mem_lines (List.mem_filter.mp hline).1).1 (List.mem_append_right _ hc)
  rw [← valueFor_eq_settingField_iff hkey hne heq hnewline, SpelledAlike, hlines, hlast,
    Option.bind_some, valueFor_settingStart hkey hne heq, Option.some.injEq]
  simp [eq_comm]

/-! ### Results -/

/-- The two settings that the script reads. -/
def checkedKeys : List Bytes := [ascii "classifier", modelKey]

/-- With any programs that are as specified, the script reads the setting as the daemon does. -/
def CheckedAlike (key text : Bytes) : Prop :=
  ∀ t : TextTools, t.Documented → ReadsAlike t key text

/-- Programs that are as specified; for a file with NUL bytes `grep` prints `binary`. -/
private def textTools (binary : Bytes) : TextTools where
  grep pattern text :=
    if 0 ∈ text then binary
    else unlines '\n'.toUInt8 ((lines '\n'.toUInt8 text).filter (pattern.tail <+: ·))
  cut delim _ text := unlines '\n'.toUInt8 ((lines '\n'.toUInt8 text).map (secondField delim))

/-- So they are. -/
private theorem textTools_documented (binary : Bytes) : (textTools binary).Documented :=
  ⟨fun _ _ _ hnul => if_neg hnul, fun _ _ _ => rfl⟩

/-- Nothing is specified for a file with NUL bytes. -/
theorem not_checkedAlike_of_nul {text : Bytes} (hnul : 0 ∈ text) (key : Bytes) :
    ¬ CheckedAlike key text := by
  intro hall
  have hprinted : ∀ binary, (textTools binary).grep (ascii "^" ++ settingStart key) text = binary :=
    fun _ => if_pos hnul
  -- two answers of `grep`, for which the script reads two values
  have hempty := hall (textTools []) (textTools_documented [])
  have hvalue := hall (textTools (ascii "=a\n")) (textTools_documented _)
  rw [ReadsAlike, extracted, hprinted] at hempty hvalue
  exact absurd (hempty.trans hvalue.symm) (by decide)

/-- One setting is read alike iff it is spelled so that it can, in a file without NUL bytes. -/
theorem checkedAlike_iff {key : Bytes} (hkey : (settingStart key).all (· ∉ ascii ".*[]\\^$|\n"))
    (text : Bytes) : CheckedAlike key text ↔ 0 ∉ text ∧ SpelledAlike key text := by
  constructor
  · intro hall
    have hnul : 0 ∉ text := fun hnul => not_checkedAlike_of_nul hnul key hall
    exact ⟨hnul, (readsAlike_iff (textTools_documented []) hkey hnul).mp
      (hall _ (textTools_documented []))⟩
  · rintro ⟨hnul, hspelled⟩ t ht
    exact (readsAlike_iff ht hkey hnul).mpr hspelled

/-- **The check.** Whatever the file, the script reads both settings as the daemon does iff the
    file has no NUL byte and both are spelled so that it can; without NUL bytes, this is so for
    each choice of the programs.  Where one line `key=val` alone speaks of a setting, the value
    must have neither `=` nor a comment, and no space at its ends. -/
theorem check_config_agrees_iff (text : Bytes) :
    (CheckedAlike (ascii "classifier") text ∧ CheckedAlike modelKey text ↔
      0 ∉ text ∧ SpelledAlike (ascii "classifier") text ∧ SpelledAlike modelKey text) ∧
    (∀ t : TextTools, t.Documented → 0 ∉ text →
      (ReadsAlike t (ascii "classifier") text ∧ ReadsAlike t modelKey text ↔
        SpelledAlike (ascii "classifier") text ∧ SpelledAlike modelKey text)) ∧
    ∀ key ∈ checkedKeys, ∀ val, settingLines key text = [settingStart key ++ val] →
      lastLine parseLine key (lines '\n'.toUInt8 text) = some (settingStart key ++ val) →
      (CheckedAlike key text ↔ 0 ∉ text ∧ Readable val ∧ '='.toUInt8 ∉ val) := by
  refine ⟨?_, fun t ht hnul => ?_, fun key hkey val hlines hlast => ?_⟩
  · rw [checkedAlike_iff (by decide), checkedAlike_iff (by decide), and_and_and_comm,
      and_self_iff]
  · rw [readsAlike_iff ht (by decide) hnul, readsAlike_iff ht (by decide) hnul]
  · have hplain : (settingStart key).all (· ∉ ascii ".*[]\\^$|\n") ∧ Readable key ∧ key ≠ [] ∧
        '='.toUInt8 ∉ key := by
      rcases List.mem_pair.mp hkey with rfl | rfl <;> decide
    obtain ⟨hstart, hread, hne, heq⟩ := hplain
    rw [checkedAlike_iff hstart, spelledAlike_iff_of_single hread hne heq hlines hlast]
    refine and_congr_right fun hnul => ?_
    -- the value is part of the text
    have hline : settingStart key ++ val ∈ settingLines key text := by
      rw [hlines]
      exact List.mem_singleton_self _
    have hval : 0 ∉ val := fun hc =>
      hnul ((mem_of_mem_lines (List.mem_filter.mp hline).1).2 _ (List.mem_append_right _ hc))
    rw [and_iff_left hval]

/-- A file as the installation writes it. -/
theorem check_config_agrees_plain :
    CheckedAlike (ascii "classifier") (ascii "model_path=/m\nclassifier=onnx\n") ∧
      CheckedAlike modelKey (ascii "model_path=/m\nclassifier=onnx\n") :=
  (check_config_agrees_iff _).1.mpr (by decide)

/-- With spaces around the `=` the script finds no setting. -/
theorem check_config_not_spaced :
    ¬ ∀ t : TextTools, t.Documented → ∀ text, 0 ∉ text →
      ReadsAlike t (ascii "classifier") text ∧ ReadsAlike t modelKey text := by
  intro hall
  have hspaced := (hall (textTools []) (textTools_documented []) (ascii "model_path = /m\n")
    (by decide)).2
  exact absurd hspaced (by decide)

end AieOs
