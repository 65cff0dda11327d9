import AieOs.Daemon.Startup
import AieOs.Packaging.InstallModel

namespace AieOs

open Lib Config ConfiguredDaemon

/-!
# From `install_model.sh` to the daemon

A new configuration file gets the line `classifier=onnx`; in an existing one the script edits
the lines that start with `model_path=`, and no others.  Where that one asks for the heuristic
classifier, or for none, the daemon never looks at the model that was installed; nor does it
where `model_path` is missing, or empty in another spelling.

* `decidesByHeuristics_iff` — when a daemon that has started never uses a model;
* `installed_model_unused_iff` — when that is so after a successful installation.
-/

/-- Nothing can be opened under the empty path. -/
def EmptyPathFails : Event → Prop
  | .telemetry _ calls => ∀ i, ((calls i).onnx []).fileGood = false
  | .push _            => True

/-- In every run, whatever model files there are, the daemon behaves as the one with the
    heuristic classifier. -/
def DecidesByHeuristics (nodes : DeviceNodes) (s : ConfiguredDaemon) : Prop :=
  ∀ es, (∀ ev ∈ es, EmptyPathFails ev) → ∃ classifier, s.runAll es
    = some ⟨classifier, (run heuristicStep (.start nodes s.sample) es).sample,
        (run heuristicStep (.start nodes s.sample) es).daemon⟩

/-- The file is not one that leads to a model: it leaves the daemon with the heuristic
    classifier, or the last assignment to `model_path`, if there is one, is empty and not
    spelled as `sed` expects. -/
def AsksForNoModel (text : Bytes) : Prop :=
  (readConfig (some text)).get (ascii "classifier") (ascii "heuristic") ≠ ascii "onnx" ∨
    ∀ line ∈ lastLine parseLine modelKey (lines '\n'.toUInt8 text),
      ¬ modelStart <+: line ∧ valueFor parseLine modelKey line = some []

/-! ### The daemon -/

/-- The model that a configuration asks for, by its two settings. -/
theorem mem_configuredModel_iff {conf : Option Bytes} {path : Bytes} :
    path ∈ configuredModel conf ↔
      (readConfig conf).get (ascii "classifier") (ascii "heuristic") = ascii "onnx" ∧
        (readConfig conf).get modelKey [] = path := by
  by_cases honnx : (readConfig conf).get (ascii "classifier") (ascii "heuristic") = ascii "onnx"
  · have hclassifier : configuredClassifier conf = .onnx ((readConfig conf).get modelKey []) .new :=
      if_pos honnx
    simp [configuredModel, hclassifier, honnx]
  · have hclassifier : configuredClassifier conf = .heuristic := if_neg honnx
    simp [configuredModel, hclassifier, honnx]

/-- Every path but the empty one is that of a model without inputs. -/
private def noInputs : ClassifyCall :=
  ⟨⟨0, 0⟩, ⟨0, 0⟩, fun path => ⟨!path.isEmpty, ⟨[], [], []⟩, fun _ => false, fun _ => false,
    fun _ => [], ⟨0, 0⟩, ⟨0, 0⟩⟩⟩

/-- The first batch ends the daemon: there is no name to pass to `Run`. -/
private theorem runAll_noInputs (c : UInt8) (path : Bytes) (nodes : DeviceNodes)
    (sample : AiTaskTelemetry) :
    (⟨.onnx (c :: path) .new, sample, .initialised nodes⟩ : ConfiguredDaemon).runAll
      (List.replicate 10 (.telemetry .timeout fun _ => noInputs)) = none := rfl

/-- A daemon that has started never uses a model exactly if none is configured, or one without
    a path. -/
theorem decidesByHeuristics_iff {e : Startup} {sample : AiTaskTelemetry} {s : ConfiguredDaemon}
    (hs : init e sample = (0, some s)) :
    DecidesByHeuristics e.nodes s ↔ ∀ path ∈ configuredModel e.conf, path = [] := by
  rw [eq_of_init hs]
  constructor
  · intro h path hpath
    cases path with
    | nil => rfl
    | cons c path =>
      -- under every other path there is a model that ends the daemon
      have hfails : ∀ ev ∈ List.replicate 10 (Event.telemetry .timeout fun _ => noInputs),
          EmptyPathFails ev := by
        intro ev hev
        rw [List.eq_of_mem_replicate hev]
        exact fun _ => rfl
      obtain ⟨_, hrun⟩ := h _ hfails
      have hclassifier : configuredClassifier e.conf = .onnx (c :: path) .new := by
        obtain hconf | ⟨modelPath, hconf⟩ := configuredClassifier_new e.conf
        · simp [configuredModel, hconf] at hpath
        · simp only [configuredModel, hconf, Option.mem_some_iff] at hpath
          rw [hconf, hpath]
      rw [hclassifier, runAll_noInputs] at hrun
      cases hrun
  · intro hempty es hes
    refine @Unloaded.runAll _ ⟨_, _, _⟩ (unloaded_configuredClassifier e.conf) es ?_
    intro ev hev
    cases ev with
    | telemetry poll calls =>
      intro path hpath i hloads
      rw [hempty path hpath] at hloads
      have hgood := hes _ hev i
      rw [hloads.1] at hgood
      cases hgood
    | push ret => trivial

/-! ### The script -/

/-- The name is an ordinary one: it has no newline and, where `sed` is to insert it, nothing
    that ends or escapes the replacement. -/
def OrdinaryName (before : Option Bytes) (name : Bytes) : Prop :=
  '\n'.toUInt8 ∉ name ∧ (before.isSome → '\\'.toUInt8 ∉ name ∧ '|'.toUInt8 ∉ name)

section
variable {p : Programs} {path after : Bytes} {before : Option Bytes}

/-- The two settings are two. -/
theorem classifier_ne_modelKey : ascii "classifier" ≠ modelKey := by decide

/-- A value that starts like the directory is not empty. -/
theorem trim_modelPath_ne_nil (rest : Bytes) :
    trim ((ascii "/usr/local/share/aie-os/" ++ rest).takeWhile (· ≠ '#'.toUInt8)) ≠ [] := by
  have hmem : '/'.toUInt8 ∈
      (ascii "/usr/local/share/aie-os/" ++ rest).takeWhile (· ≠ '#'.toUInt8) := by
    rw [List.takeWhile_append_of_pos (forall_ne_of_not_mem (by decide))]
    exact List.mem_append_left _ (by decide)
  exact List.ne_nil_of_mem (mem_trim hmem (by decide))

/-- Which path the daemon finds after the substitution. -/
theorem get_modelKey_eq_nil_iff {name : Bytes} (hname : '\n'.toUInt8 ∉ name) (text : Bytes) :
    (readConfig (some (editLines '\n'.toUInt8 (replaceModel name) text))).get modelKey [] = [] ↔
      ∀ line ∈ lastLine parseLine modelKey (lines '\n'.toUInt8 text),
        ¬ modelStart <+: line ∧ valueFor parseLine modelKey line = some [] := by
  rw [Config.get, lookup_modelKey hname]
  cases hlast : lastLine parseLine modelKey (lines '\n'.toUInt8 text) with
  | none => simp
  | some line =>
    have hsome : (valueFor parseLine modelKey line).isSome := by
      simpa using List.find?_some hlast
    obtain ⟨val, hval⟩ := Option.isSome_iff_exists.mp hsome
    by_cases hstart : modelStart <+: line
    · -- the line has the path of the installed model now
      have hne := trim_modelPath_ne_nil (expand line name)
      rw [Option.bind_some, replaceModel_of_start hstart, valueFor_modelStart, modelPath,
        expand_append, expand_of_not_mem (a := ascii "/usr/local/share/aie-os/") (by decide)]
      exact iff_of_false hne fun h => (h line rfl).1 hstart
    · rw [Option.bind_some, replaceModel_of_other hstart, hval]
      simp [hstart, hval]

/-- Which model the daemon is to load after an installation. -/
theorem configuredModel_after (hp : p.Documented)
    (hrun : installModel p [path] before = some after)
    (hname : OrdinaryName before (fileName path)) :
    (∀ model ∈ configuredModel (some after), model = []) ↔
      ∃ text, before = some text ∧ AsksForNoModel text := by
  obtain ⟨hnewline, hplain⟩ := hname
  -- no model is configured, or one without a path
  have hall : (∀ model ∈ configuredModel (some after), model = []) ↔
      (readConfig (some after)).get (ascii "classifier") (ascii "heuristic") ≠ ascii "onnx" ∨
        (readConfig (some after)).get modelKey [] = [] := by
    simp only [mem_configuredModel_iff, and_imp, ne_eq, ← imp_iff_not_or]
    exact ⟨fun h honnx => h _ honnx rfl, fun h model honnx hmodel => hmodel ▸ h honnx⟩
  rw [hall]
  cases before with
  | none =>
    have hne := trim_modelPath_ne_nil (fileName path)
    rw [after_of_new hp hrun hnewline, Config.get, Config.get, lookup_newConfig hnewline,
      lookup_newConfig hnewline, if_neg classifier_ne_modelKey, if_pos rfl, if_pos rfl]
    simpa [modelPath] using hne
  | some text =>
    obtain ⟨hbackslash, hbar⟩ := hplain rfl
    rw [after_of_edit hp hrun hbackslash hbar hnewline, get_modelKey_eq_nil_iff hnewline,
      Config.get, lookup_other hnewline classifier_ne_modelKey]
    simp only [Option.some.injEq, exists_eq_left', AsksForNoModel, Config.get]

/-- **Installed and unused.** A daemon that starts after a successful installation never uses
    a model exactly if there was a configuration file before, which led to none. -/
theorem installed_model_unused_iff (hp : p.Documented)
    (hrun : installModel p [path] before = some after)
    (hname : OrdinaryName before (fileName path)) {e : Startup} (he : e.conf = some after)
    {sample : AiTaskTelemetry} {s : ConfiguredDaemon} (hs : init e sample = (0, some s)) :
    DecidesByHeuristics e.nodes s ↔ ∃ text, before = some text ∧ AsksForNoModel text := by
  rw [decidesByHeuristics_iff hs, he]
  exact configuredModel_after hp hrun hname

end

/-- Programs for a machine whose configuration file is empty. -/
private def emptyFileTools : Programs where
  testFile path := decide (fileName path ≠ [])
  mkdir _ := true
  cp path _ := decide (IsOperand path)
  basename path := some (fileName path ++ ['\n'.toUInt8])
  sed _ text := if text = [] then some [] else none
  cat _ := true
  chmod _ := true

/-- They behave as documented. -/
private theorem emptyFileTools_documented : emptyFileTools.Documented where
  testFile_name _ h := of_decide_eq_true h
  cp_operand _ _ h := of_decide_eq_true h
  basename_path _ _ _ _ h := (Option.some.inj h).symm
  sed_substitution start replacement text out _ _ _ _ h := by
    obtain ⟨rfl, hout⟩ : text = [] ∧ [] = out := by simpa [emptyFileTools] using h
    rw [← hout]
    rfl

/-- The machine after the installation of `/tmp/m.onnx`. -/
private def emptyFile : Startup := ⟨0, 0, 0, 0, some [], ⟨false, false, false, []⟩⟩

/-- With an empty file the script reports success, and the daemon does without the model. -/
theorem installed_model_unused_iff_empty_file :
    DecidesByHeuristics emptyFile.nodes
      ⟨.heuristic, .zero, AieDaemon.initialised emptyFile.nodes⟩ :=
  (@installed_model_unused_iff emptyFileTools (ascii "/tmp/m.onnx") [] (some [])
    emptyFileTools_documented (by decide) ⟨by decide, by decide⟩ emptyFile rfl .zero _ rfl).mpr
    ⟨[], rfl, .inl (by decide)⟩

end AieOs
