import AieOs.Common.Config

namespace AieOs

open Lib Config

/-!
# `install_model.sh`

The script copies a model and sets `model_path` in the configuration: with one `sed`
substitution of the lines that start with `model_path=`, or in a new file.  `Config` reads
more spellings of an assignment than the script replaces, and reads less of a name than
the script writes; `sed` takes some characters of a name for its own.

* `Programs` — what the script calls, with `Programs.Documented` for what is known of it;
* `lookup_other` — the script never touches another key;
* `install_model_reads_back` — exactly which names are read back from which files.
-/

/-! ### The script -/

/-- `$DESTDIR/$MODEL_NAME`. -/
def modelPath (name : Bytes) : Bytes := ascii "/usr/local/share/aie-os/" ++ name

/-- The key of the setting. -/
def modelKey : Bytes := ascii "model_path"

/-- What the replaced lines start with. -/
def modelStart : Bytes := ascii "model_path="

/-- The `sed` script `s|^start.*|replacement|`. -/
def substitution (start replacement : Bytes) : Bytes :=
  ascii "s|^" ++ start ++ ascii ".*|" ++ replacement ++ ascii "|"

/-- The text of a new configuration file. -/
def newConfig (name : Bytes) : Bytes :=
  modelStart ++ modelPath name ++ ascii "\nclassifier=onnx\n"

/-- What the script calls: whether a call succeeds, and what it prints. -/
structure Programs where
  /-- `[ -f path ]`, for the path of the model. -/
  testFile : Bytes → Bool
  /-- `mkdir -p dir`. -/
  mkdir : Bytes → Bool
  /-- `cp path dir`. -/
  cp : Bytes → Bytes → Bool
  /-- `basename path`. -/
  basename : Bytes → Option Bytes
  /-- `sed -i script` on a file, given by its text. -/
  sed : Bytes → Bytes → Option Bytes
  /-- `cat > file`. -/
  cat : Bytes → Bool
  /-- `chmod 644 file`. -/
  chmod : Bytes → Bool

/-- `install_model.sh`: the text of `/etc/aie-os/aie.conf` after a successful run. -/
def installModel (p : Programs) (args : List Bytes) (config : Option Bytes) : Option Bytes :=
  match args with
  | [modelSrc] =>
    if p.testFile modelSrc ∧ p.mkdir (ascii "/usr/local/share/aie-os")
        ∧ p.cp modelSrc (ascii "/usr/local/share/aie-os/") then
      (p.basename modelSrc).bind fun out =>
        -- a command substitution drops the newlines at the end
        let modelName := out.rdropWhile (· = '\n'.toUInt8)
        match config with
        | some text => p.sed (substitution modelStart (modelStart ++ modelPath modelName)) text
        | none      =>
          if p.mkdir (ascii "/etc/aie-os") ∧ p.cat (ascii "/etc/aie-os/aie.conf")
              ∧ p.chmod (ascii "/etc/aie-os/aie.conf") then
            some (newConfig modelName)
          else none
    else none
  | _ => none

/-! ### The programs it calls -/

/-- The name of the file: what follows the last slash of its path. -/
def fileName (path : Bytes) : Bytes := path.rtakeWhile (· ≠ '/'.toUInt8)

/-- An argument that names a file: what starts with `-` is an option, but for `-` itself. -/
def IsOperand (path : Bytes) : Prop := path.head? = some '-'.toUInt8 → path = ['-'.toUInt8]

/-- Whether an argument names a file is seen at its first character. -/
instance (path : Bytes) : Decidable (IsOperand path) := inferInstanceAs (Decidable (_ → _))

/-- The replacement of a match; `&` stands for the match. -/
def expand (line replacement : Bytes) : Bytes :=
  replacement.flatMap fun c => if c = '&'.toUInt8 then line else [c]

/-- The effect of `s|^start.*|replacement|` on a line. -/
def substitute (start replacement line : Bytes) : Bytes :=
  if start <+: line then expand line replacement else line

/-- What is documented of the programs, in a locale where every byte is a character. -/
structure Programs.Documented (p : Programs) : Prop where
  /-- A regular file has a name. -/
  testFile_name : ∀ path, p.testFile path → fileName path ≠ []
  /-- An option is not taken for a file to copy. -/
  cp_operand : ∀ path dir, p.cp path dir → IsOperand path
  /-- `basename` prints the name and a newline. -/
  basename_path : ∀ path out, fileName path ≠ [] → IsOperand path →
    p.basename path = some out → out = fileName path ++ ['\n'.toUInt8]
  /-- A substitution edits each line, for a start without special characters and a
      replacement in which only `&` is special. -/
  sed_substitution : ∀ start replacement text out,
    start.all (· ∉ ascii ".*[]\\^$|\n") →
    '\\'.toUInt8 ∉ replacement → '|'.toUInt8 ∉ replacement → '\n'.toUInt8 ∉ replacement →
    p.sed (substitution start replacement) text = some out →
      out = editLines '\n'.toUInt8 (substitute start replacement) text

/-! ### What is promised -/

/-- The configuration that the daemon reads. -/
def readConfig (file : Option Bytes) : Config := (Config.empty.load file).2

/-- The daemon finds the model under its name, and every other setting as it was. -/
def ReadsBack (before : Option Bytes) (name after : Bytes) : Prop :=
  (readConfig (some after)).get modelKey [] = modelPath name ∧
    ∀ key, key ≠ modelKey →
      (readConfig (some after)).data.lookup key =
        match before with
        | some _ => (readConfig before).data.lookup key
        | none   => if key = ascii "classifier" then some (ascii "onnx") else none

/-- The names and files for which it is kept: the parser reads the name back, and if there
    is a file, the last assignment to `model_path` is one that `sed` replaces by the name
    itself, or has the right value already. -/
def Installable (before : Option Bytes) (name : Bytes) : Prop :=
  ('#'.toUInt8 ∉ name ∧ '\n'.toUInt8 ∉ name ∧ ∀ c ∈ name.getLast?, isSpace c = false) ∧
    ∀ text, before = some text →
      ('\\'.toUInt8 ∉ name ∧ '|'.toUInt8 ∉ name) ∧
        ∃ line, lastLine parseLine modelKey (lines '\n'.toUInt8 text) = some line ∧
          if modelStart <+: line then '&'.toUInt8 ∉ name
          else valueFor parseLine modelKey line = some (modelPath name)

/-! ### Lines that start with `model_path=` -/

/-- The key is read as it is written. -/
theorem modelKey_readable : Readable modelKey where
  hash := by decide
  newline := by decide
  head := isSpace_of_eq_some (c := 'm'.toUInt8) (by decide) (by decide)
  last := isSpace_of_eq_some (c := 'h'.toUInt8) (by decide) (by decide)

/-- A character that is not in the directory stands in the path where it stands in the name. -/
theorem mem_modelPath {c : UInt8} (hdir : c ∉ ascii "/usr/local/share/aie-os/") (name : Bytes) :
    c ∈ modelPath name ↔ c ∈ name := by
  rw [modelPath, List.mem_append, or_iff_right hdir]

/-- The same for the whole setting. -/
theorem mem_setting {c : UInt8} (hstart : c ∉ modelStart)
    (hdir : c ∉ ascii "/usr/local/share/aie-os/") (name : Bytes) :
    c ∈ modelStart ++ modelPath name ↔ c ∈ name := by
  rw [List.mem_append, or_iff_right hstart, mem_modelPath hdir]

/-- A line that starts with `model_path=` is an assignment to the key. -/
theorem parseLine_modelStart (rest : Bytes) :
    parseLine (modelStart ++ rest) =
      some (modelKey, trim (rest.takeWhile (· ≠ '#'.toUInt8))) := by
  rw [show modelStart = modelKey ++ ['='.toUInt8] by decide, List.append_assoc]
  exact parseLine_assignment modelKey_readable (by decide) (by decide) rest

/-- Its value is the trimmed text before a comment. -/
theorem valueFor_modelStart (rest : Bytes) :
    valueFor parseLine modelKey (modelStart ++ rest) =
      some (trim (rest.takeWhile (· ≠ '#'.toUInt8))) := by
  rw [valueFor_eq_some, parseLine_modelStart]

/-- To no other key. -/
theorem valueFor_modelStart_ne {key : Bytes} (hkey : key ≠ modelKey) (rest : Bytes) :
    valueFor parseLine key (modelStart ++ rest) = none := by
  simp [valueFor, parseLine_modelStart, Ne.symm hkey]

/-- A replacement is expanded part by part. -/
theorem expand_append (line a b : Bytes) :
    expand line (a ++ b) = expand line a ++ expand line b := List.flatMap_append

/-- Without `&` it stands for itself. -/
theorem expand_of_not_mem {line a : Bytes} (ha : '&'.toUInt8 ∉ a) : expand line a = a := by
  induction a with
  | nil => rfl
  | cons c a ih =>
    rw [List.mem_cons, not_or] at ha
    have htail : expand line a = a := ih ha.2
    simp only [expand, List.flatMap_cons, if_neg (Ne.symm ha.1)] at htail ⊢
    rw [htail, List.singleton_append]

/-- It is made of the replacement and the line. -/
theorem mem_expand {line a : Bytes} {c : UInt8} (hc : c ∈ expand line a) : c ∈ a ∨ c ∈ line := by
  obtain ⟨d, hd, hc⟩ := List.mem_flatMap.mp hc
  split at hc
  · exact .inr hc
  · rw [List.mem_singleton] at hc
    exact .inl (hc ▸ hd)

/-- What the script's substitution makes of a line. -/
def replaceModel (name : Bytes) : Bytes → Bytes :=
  substitute modelStart (modelStart ++ modelPath name)

/-- A replaced line starts with `model_path=` again. -/
theorem replaceModel_of_start {line : Bytes} (hline : modelStart <+: line) (name : Bytes) :
    replaceModel name line = modelStart ++ expand line (modelPath name) := by
  rw [replaceModel, substitute, if_pos hline, expand_append, expand_of_not_mem (by decide)]

/-- Every other line is left alone. -/
theorem replaceModel_of_other {line : Bytes} (hline : ¬ modelStart <+: line)
    (name : Bytes) : replaceModel name line = line := by
  rw [replaceModel, substitute, if_neg hline]

/-- The substitution is an edit of the list of lines. -/
theorem lines_replaceModel {name : Bytes} (hname : '\n'.toUInt8 ∉ name) (text : Bytes) :
    lines '\n'.toUInt8 (editLines '\n'.toUInt8 (replaceModel name) text) =
      (lines '\n'.toUInt8 text).map (replaceModel name) := by
  apply lines_editLines
  · -- a replaced line is one line
    intro line hline
    unfold replaceModel substitute
    split
    · intro hmem
      rcases mem_expand hmem with hmem | hmem
      · exact hname ((mem_setting (by decide) (by decide) name).mp hmem)
      · exact hline hmem
    · exact hline
  · -- and is not empty
    intro line hnil
    by_cases hline : modelStart <+: line
    · rw [replaceModel_of_start hline] at hnil
      exact absurd (List.append_eq_nil_iff.mp hnil).1 (by decide)
    · rwa [replaceModel_of_other hline] at hnil

/-- **Frame.** The substitution leaves every other key as it was. -/
theorem lookup_other {name key : Bytes} (hname : '\n'.toUInt8 ∉ name) (hkey : key ≠ modelKey)
    (text : Bytes) :
    (readConfig (some (editLines '\n'.toUInt8 (replaceModel name) text))).data.lookup key =
      (readConfig (some text)).data.lookup key := by
  show (assignAll parseLine _ (lines _ (editLines _ _ _))).lookup key = _
  rw [lines_replaceModel hname]
  apply lookup_assignAll_map
  intro line _
  by_cases hline : modelStart <+: line
  · -- neither the old line nor the new one speaks of the key
    rw [replaceModel_of_start hline, valueFor_modelStart_ne hkey]
    obtain ⟨rest, rfl⟩ := hline
    rw [valueFor_modelStart_ne hkey]
  · rw [replaceModel_of_other hline]

/-- The value of `model_path` is that of the last assignment, as `sed` left it. -/
theorem lookup_modelKey {name : Bytes} (hname : '\n'.toUInt8 ∉ name) (text : Bytes) :
    (readConfig (some (editLines '\n'.toUInt8 (replaceModel name) text))).data.lookup modelKey =
      (lastLine parseLine modelKey (lines '\n'.toUInt8 text)).bind fun line =>
        valueFor parseLine modelKey (replaceModel name line) := by
  show (assignAll parseLine _ (lines _ (editLines _ _ _))).lookup modelKey = _
  rw [lines_replaceModel hname, lookup_assignAll, lastLine_map]
  · simp [empty, Option.bind_map]
  · intro line _
    by_cases hline : modelStart <+: line
    · rw [replaceModel_of_start hline, valueFor_modelStart]
      obtain ⟨rest, rfl⟩ := hline
      rw [valueFor_modelStart]
      rfl
    · rw [replaceModel_of_other hline]

/-! ### The value read back -/

/-- Which names are read back as they were written. -/
theorem readable_modelPath_iff (name : Bytes) :
    Readable (modelPath name) ↔
      '#'.toUInt8 ∉ name ∧ '\n'.toUInt8 ∉ name ∧ ∀ c ∈ name.getLast?, isSpace c = false := by
  have hlast : (∀ c ∈ (modelPath name).getLast?, isSpace c = false) ↔
      ∀ c ∈ name.getLast?, isSpace c = false := by
    rcases List.eq_nil_or_concat name with rfl | ⟨init, last, rfl⟩
    · exact iff_of_true
        (isSpace_of_eq_some (show _ = some '/'.toUInt8 by decide) (by decide)) (by simp)
    · simp [modelPath]
  have hhash := (mem_modelPath (c := '#'.toUInt8) (by decide) name).not
  have hnewline := (mem_modelPath (c := '\n'.toUInt8) (by decide) name).not
  constructor
  · intro h
    exact ⟨hhash.mp h.hash, hnewline.mp h.newline, hlast.mp h.last⟩
  · rintro ⟨hname, hline, hend⟩
    exact
      { hash := hhash.mpr hname
        newline := hnewline.mpr hline
        head := isSpace_of_eq_some (show _ = some '/'.toUInt8 from rfl) (by decide)
        last := hlast.mpr hend }

/-- The default for a missing key is not the path of a model. -/
theorem get_modelKey_iff (cfg : Config) (name : Bytes) :
    cfg.get modelKey [] = modelPath name ↔ cfg.data.lookup modelKey = some (modelPath name) := by
  have hne : modelPath name ≠ [] := by
    intro hnil
    exact absurd (List.append_eq_nil_iff.mp hnil).1 (by decide)
  unfold Config.get
  cases hlookup : cfg.data.lookup modelKey with
  | none => simpa using hne.symm
  | some val => simp

/-- A replaced line is read as the name exactly if the name has no `&`. -/
theorem valueFor_replaceModel_iff {line name : Bytes} (hline : modelStart <+: line)
    (hname : Readable (modelPath name)) :
    valueFor parseLine modelKey (replaceModel name line) = some (modelPath name) ↔
      '&'.toUInt8 ∉ name := by
  rw [replaceModel_of_start hline, valueFor_modelStart, Option.some.injEq]
  constructor
  · intro hval hamp
    -- the first `&` of the name became the start of the replaced line
    obtain ⟨init, last, rfl, hinit⟩ := List.eq_append_cons_of_mem hamp
    obtain ⟨rest, rfl⟩ := hline
    have hdir : '&'.toUInt8 ∉ modelPath init := (mem_modelPath (by decide) init).not.mpr hinit
    have hpath : modelPath (init ++ '&'.toUInt8 :: last)
        = modelPath init ++ '&'.toUInt8 :: last := by
      simp [modelPath]
    have hexpand : expand (modelStart ++ rest) (modelPath init ++ '&'.toUInt8 :: last)
        = (modelPath init ++ modelKey) ++
          '='.toUInt8 :: (rest ++ expand (modelStart ++ rest) last) := by
      rw [expand_append, expand_of_not_mem hdir]
      simp [expand, show modelStart = modelKey ++ ['='.toUInt8] by decide]
    have hhash : '#'.toUInt8 ∉ modelPath init ++ modelKey := by
      intro hc
      rcases List.mem_append.mp hc with hc | hc
      · exact hname.hash (hpath ▸ List.mem_append_left _ hc)
      · exact absurd hc (by decide)
    have hhead : ∀ c ∈ (modelPath init ++ modelKey).head?, isSpace c = false :=
      isSpace_of_eq_some (show _ = some '/'.toUInt8 from rfl) (by decide)
    rw [hpath, hexpand, trim_takeWhile_append hhash hhead, List.append_assoc,
      List.append_cancel_left_eq] at hval
    exact absurd (List.cons.inj hval).1 (by decide)
  · intro hamp
    rw [expand_of_not_mem ((mem_modelPath (by decide) name).not.mpr hamp)]
    exact hname.trim_takeWhile

/-! ### A new file -/

/-- The two lines of a new file. -/
theorem lines_newConfig {name : Bytes} (hname : '\n'.toUInt8 ∉ name) :
    lines '\n'.toUInt8 (newConfig name) =
      [modelStart ++ modelPath name, ascii "classifier=onnx"] := by
  have hfirst : '\n'.toUInt8 ∉ modelStart ++ modelPath name :=
    (mem_setting (by decide) (by decide) name).not.mpr hname
  rw [newConfig, show ascii "\nclassifier=onnx\n" = '\n'.toUInt8 :: ascii "classifier=onnx\n" by
    decide, lines_append_cons hfirst]
  congr 1

/-- A new file sets `model_path` and `classifier`. -/
theorem lookup_newConfig {name : Bytes} (hname : '\n'.toUInt8 ∉ name) (key : Bytes) :
    (readConfig (some (newConfig name))).data.lookup key =
      if key = modelKey then some (trim ((modelPath name).takeWhile (· ≠ '#'.toUInt8)))
      else if key = ascii "classifier" then some (ascii "onnx") else none := by
  show (assignAll parseLine _ (lines _ _)).lookup key = _
  have hclassifier : parseLine (ascii "classifier=onnx")
      = some (ascii "classifier", ascii "onnx") := by decide
  rw [lines_newConfig hname]
  simp only [assignAll, List.foldl_cons, List.foldl_nil, lookup_assign, valueFor, hclassifier,
    parseLine_modelStart]
  by_cases hkey : key = modelKey
  · subst hkey
    rw [if_neg (by decide), if_pos rfl, if_pos rfl]
    rfl
  · by_cases hcls : key = ascii "classifier"
    · subst hcls
      rw [if_pos rfl, if_neg hkey]
      rfl
    · rw [if_neg (Ne.symm hcls), if_neg (Ne.symm hkey), if_neg hkey, if_neg hcls]
      rfl

/-! ### The script -/

/-- A successful run copied a file with a name, which `basename` printed. -/
theorem basename_of_run {p : Programs} (hp : p.Documented) {path after : Bytes}
    {before : Option Bytes} (hrun : installModel p [path] before = some after) :
    p.basename path = some (fileName path ++ ['\n'.toUInt8]) := by
  simp only [installModel] at hrun
  split at hrun
  · rename_i hok
    obtain ⟨out, hout, -⟩ := Option.bind_eq_some_iff.mp hrun
    rw [hout, hp.basename_path path out (hp.testFile_name path hok.1)
      (hp.cp_operand path _ hok.2.2) hout]
  · cases hrun

/-- The command substitution keeps a name that has no newline. -/
theorem rdropWhile_newline {name : Bytes} (hname : '\n'.toUInt8 ∉ name) :
    (name ++ ['\n'.toUInt8]).rdropWhile (· = '\n'.toUInt8) = name := by
  rw [List.rdropWhile_concat_pos _ _ _ (by decide), rdropWhile_of_not_mem hname]

/-- Without a file, the script writes the new one. -/
theorem after_of_new {p : Programs} (hp : p.Documented) {path after : Bytes}
    (hrun : installModel p [path] none = some after) (hname : '\n'.toUInt8 ∉ fileName path) :
    after = newConfig (fileName path) := by
  have hbase := basename_of_run hp hrun
  simp only [installModel, hbase, Option.bind_some, rdropWhile_newline hname] at hrun
  split_ifs at hrun
  exact (Option.some.inj hrun).symm

/-- With a file, it edits the lines, if the name is an ordinary replacement. -/
theorem after_of_edit {p : Programs} (hp : p.Documented) {path text after : Bytes}
    (hrun : installModel p [path] (some text) = some after)
    (hbackslash : '\\'.toUInt8 ∉ fileName path) (hbar : '|'.toUInt8 ∉ fileName path)
    (hnewline : '\n'.toUInt8 ∉ fileName path) :
    after = editLines '\n'.toUInt8 (replaceModel (fileName path)) text := by
  have hbase := basename_of_run hp hrun
  simp only [installModel, hbase, Option.bind_some, rdropWhile_newline hnewline] at hrun
  split_ifs at hrun
  apply hp.sed_substitution _ _ _ _ (by decide) _ _ _ hrun
  · exact (mem_setting (by decide) (by decide) _).not.mpr hbackslash
  · exact (mem_setting (by decide) (by decide) _).not.mpr hbar
  · exact (mem_setting (by decide) (by decide) _).not.mpr hnewline

/-! ### Reading back -/

/-- A name that is read back is readable. -/
theorem ReadsBack.readable {before : Option Bytes} {name after : Bytes}
    (h : ReadsBack before name after) : Readable (modelPath name) :=
  load_readable ((get_modelKey_iff _ name).mp h.1)

/-- From a new file the daemon reads the name back. -/
theorem readsBack_newConfig {name : Bytes} (hname : Readable (modelPath name))
    (hnewline : '\n'.toUInt8 ∉ name) : ReadsBack none name (newConfig name) := by
  constructor
  · rw [get_modelKey_iff, lookup_newConfig hnewline, if_pos rfl, hname.trim_takeWhile]
  · intro key hkey
    rw [lookup_newConfig hnewline, if_neg hkey]

/-- After the substitution, only the last assignment to `model_path` decides. -/
theorem readsBack_editLines_iff {name : Bytes} (hname : Readable (modelPath name))
    (hnewline : '\n'.toUInt8 ∉ name) (text : Bytes) :
    ReadsBack (some text) name (editLines '\n'.toUInt8 (replaceModel name) text) ↔
      ∃ line, lastLine parseLine modelKey (lines '\n'.toUInt8 text) = some line ∧
        if modelStart <+: line then '&'.toUInt8 ∉ name
        else valueFor parseLine modelKey line = some (modelPath name) := by
  have hline : ∀ line,
      valueFor parseLine modelKey (replaceModel name line) = some (modelPath name) ↔
        if modelStart <+: line then '&'.toUInt8 ∉ name
        else valueFor parseLine modelKey line = some (modelPath name) := by
    intro line
    split
    · rename_i hstart
      exact valueFor_replaceModel_iff hstart hname
    · rename_i hstart
      rw [replaceModel_of_other hstart]
  have hother := fun (key : Bytes) (hkey : key ≠ modelKey) => lookup_other hnewline hkey text
  simp only [ReadsBack, get_modelKey_iff, lookup_modelKey hnewline, Option.bind_eq_some_iff, hline]
  exact and_iff_left hother

/-- **Installation.** After a successful run the daemon finds the model under its name, and
    every other setting as it was, if the name and the file are installable.  If the name
    has no backslash and no bar, or goes into a new file, only then. -/
theorem install_model_reads_back (p : Programs) (hp : p.Documented) (path : Bytes)
    (before : Option Bytes) (after : Bytes) (hrun : installModel p [path] before = some after) :
    (Installable before (fileName path) → ReadsBack before (fileName path) after) ∧
      ((before.isSome → '\\'.toUInt8 ∉ fileName path ∧ '|'.toUInt8 ∉ fileName path) →
        ReadsBack before (fileName path) after → Installable before (fileName path)) := by
  constructor
  · rintro ⟨hread, hfile⟩
    have hname : Readable (modelPath (fileName path)) := (readable_modelPath_iff _).mpr hread
    cases before with
    | none =>
      rw [after_of_new hp hrun hread.2.1]
      exact readsBack_newConfig hname hread.2.1
    | some text =>
      obtain ⟨⟨hbackslash, hbar⟩, hlast⟩ := hfile text rfl
      rw [after_of_edit hp hrun hbackslash hbar hread.2.1]
      exact (readsBack_editLines_iff hname hread.2.1 text).mpr hlast
  · -- `sed` edited the file as documented, so what is read back decides
    intro hplain hback
    have hread := (readable_modelPath_iff _).mp hback.readable
    refine ⟨hread, ?_⟩
    rintro text rfl
    obtain ⟨hbackslash, hbar⟩ := hplain rfl
    refine ⟨⟨hbackslash, hbar⟩, ?_⟩
    rw [after_of_edit hp hrun hbackslash hbar hread.2.1] at hback
    exact (readsBack_editLines_iff hback.readable hread.2.1 text).mp hback

/-- Programs that behave as documented. -/
private def tools : Programs where
  testFile path := decide (fileName path ≠ [])
  mkdir _ := true
  cp path _ := decide (IsOperand path)
  basename path := some (fileName path ++ ['\n'.toUInt8])
  sed script text :=
    let body := script.drop 3
    let start := body.takeWhile (· ≠ '.'.toUInt8)
    let replacement := ((body.dropWhile (· ≠ '.'.toUInt8)).drop 3).dropLast
    some (editLines '\n'.toUInt8 (substitute start replacement) text)
  cat _ := true
  chmod _ := true

/-- They do. -/
private theorem tools_documented : tools.Documented where
  testFile_name _ h := of_decide_eq_true h
  cp_operand _ _ h := of_decide_eq_true h
  basename_path _ _ _ _ h := (Option.some.inj h).symm
  sed_substitution start replacement text out hstart _ _ _ h := by
    have hpos : ∀ c ∈ start, decide (c ≠ '.'.toUInt8) = true := by
      intro c hc
      have hplain := List.all_eq_true.mp hstart c hc
      rw [decide_eq_true_eq] at hplain ⊢
      rintro rfl
      exact absurd (by decide) hplain
    -- the script without its `s|^`
    have hbody : (substitution start replacement).drop 3
        = start ++ '.'.toUInt8 :: (ascii "*|" ++ (replacement ++ ['|'.toUInt8])) := by
      simp [substitution, ascii]
    rw [← Option.some.inj h]
    simp only [hbody, List.takeWhile_append_of_pos hpos, List.dropWhile_append_of_pos hpos]
    simp [ascii]

/-- A file with the setting `model_path`, in the spelling that the script expects. -/
theorem install_model_reads_back_replaced :
    ReadsBack (some (ascii "model_path=/old\n")) (ascii "m.onnx")
      (ascii "model_path=/usr/local/share/aie-os/m.onnx\n") :=
  (install_model_reads_back tools tools_documented (ascii "/tmp/m.onnx")
    (some (ascii "model_path=/old\n")) _ (by decide)).1
    ⟨⟨by decide, by decide, isSpace_of_eq_some (c := 'x'.toUInt8) (by decide) (by decide)⟩,
      fun text htext => by
        cases htext
        exact ⟨by decide, ascii "model_path=/old", by decide, by decide⟩⟩

/-- With spaces around the `=` the script changes nothing, and reports success. -/
theorem install_model_reads_back_not_spaced :
    ¬ ∀ p : Programs, p.Documented → ∀ path before after,
      installModel p [path] before = some after → ReadsBack before (fileName path) after := by
  intro hall
  have hback := hall tools tools_documented (ascii "/tmp/m.onnx")
    (some (ascii "model_path = /old\n")) (ascii "model_path = /old\n") (by decide)
  exact absurd hback.1 (by decide)

end AieOs
