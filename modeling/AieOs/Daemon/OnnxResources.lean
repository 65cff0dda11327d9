import AieOs.Daemon.OnnxLifecycle
import AieOs.Lib.Ownership

namespace AieOs

open Lib

/-!
# What an `OnnxClassifier` owns

`load_model` creates an environment, an allocator and a session, and may stop before any of
them.  The destructor deletes the first two, if they are there; the session is a member, and
goes after the body of the destructor.

* `OnnxClassifier.life` — all that a classifier acquires and releases;
* `OnnxClassifier.session_outlives_env_iff` — everything is released once, and when the
  environment goes before a session that was made from it.
-/

/-- An object of ONNX Runtime that a member of `OnnxClassifier` refers to. -/
inductive OnnxObject
  | env | allocator | session
  deriving DecidableEq, Repr

/-- The object that a call makes for a member, if it does not throw. -/
def LoadCall.creates : LoadCall → Option OnnxObject
  | .env       => some .env
  | .allocator => some .allocator
  | .session   => some .session
  | _          => none

/-- Loading the model gets as far as its session. -/
def OnnxEnv.CreatesSession (env : OnnxEnv) : Prop :=
  env.fileGood = true ∧
    ∀ call ∈ [LoadCall.env, .allocator, .sessionOptions, .setIntraOpNumThreads,
      .setGraphOptimizationLevel, .session], env.loadThrows call = false

namespace OnnxClassifier

/-! ### Uses -/

/-- The calls that take effect. -/
def effective (throws : LoadCall → Bool)
    (calls : List (LoadCall × (OnnxClassifier → OnnxClassifier))) :
    List (LoadCall × (OnnxClassifier → OnnxClassifier)) :=
  calls.takeWhile fun call => !throws call.1

/-- What calls that take effect acquire. -/
def acquired (calls : List (LoadCall × (OnnxClassifier → OnnxClassifier))) :
    List (Use OnnxObject) :=
  calls.filterMap fun call => call.1.creates.map .acquire

/-- What `load_model` acquires. -/
def loadUses (env : OnnxEnv) (c : OnnxClassifier) : List (Use OnnxObject) :=
  if c.loaded || c.loadFailed then []
  else if !env.fileGood then []
  else acquired (effective env.loadThrows (loadCalls env.model))

/-- What a call of `classify` acquires. -/
def uses (c : OnnxClassifier) (e : OnnxCall) : List (Use OnnxObject) :=
  if !c.loaded && !c.loadFailed then loadUses e.env c else []

/-- What the destructor releases, and after it the destruction of the members. -/
def destroy (c : OnnxClassifier) : List (Use OnnxObject) :=
  (if c.allocator then [.release .allocator] else []) ++
  (if c.env then [.release .env] else []) ++
  -- `std::unique_ptr<Ort::Session> session_`
  (if c.session then [.release .session] else [])

/-- All uses of a classifier on which `classify` is called some times. -/
def life (es : List OnnxCall) : List (Use OnnxObject) :=
  outputs step uses new es ++ (run step new es).destroy

/-- The environment is released while the session is held. -/
def SessionOutlivesEnv (us : List (Use OnnxObject)) : Prop :=
  ∃ before after held, us = before ++ .release .env :: after ∧
    holdings 0 before = some held ∧ .session ∈ held

/-! ### Loading -/

/-- `tryCalls` applies the calls before the first that throws. -/
theorem tryCalls_snd (throws : LoadCall → Bool)
    (calls : List (LoadCall × (OnnxClassifier → OnnxClassifier))) (c : OnnxClassifier) :
    (tryCalls throws calls c).2
      = (effective throws calls).foldl (fun c call => call.2 c) c := by
  induction calls generalizing c with
  | nil => rfl
  | cons call rest ih =>
    cases hthrow : throws call.1 with
    | true => simp [tryCalls, effective, hthrow]
    | false =>
      have hrest := ih (call.2 c)
      simpa [tryCalls, effective, hthrow] using hrest

/-- The call makes nothing for a member. -/
structure Quiet (call : LoadCall × (OnnxClassifier → OnnxClassifier)) : Prop where
  creates : call.1.creates = none
  destroy : ∀ c, (call.2 c).destroy = c.destroy

/-- Quiet calls acquire nothing. -/
theorem acquired_quiet {calls : List (LoadCall × (OnnxClassifier → OnnxClassifier))}
    (h : ∀ call ∈ calls, Quiet call) : acquired calls = [] := by
  refine List.filterMap_eq_nil_iff.mpr fun call hcall => ?_
  rw [(h call hcall).creates, Option.map_none]

/-- Quiet calls leave the destructor what it had to release. -/
theorem destroy_quiet {calls : List (LoadCall × (OnnxClassifier → OnnxClassifier))}
    (h : ∀ call ∈ calls, Quiet call) (c : OnnxClassifier) :
    (calls.foldl (fun c call => call.2 c) c).destroy = c.destroy := by
  induction calls generalizing c with
  | nil => rfl
  | cons call rest ih =>
    rw [List.forall_mem_cons] at h
    rw [List.foldl_cons, ih h.2, h.1.destroy]

/-- The calls up to the one that makes the session. -/
def creatingCalls : List (LoadCall × (OnnxClassifier → OnnxClassifier)) :=
  [(.env, fun c => { c with env := true }),
    (.allocator, fun c => { c with allocator := true }),
    (.sessionOptions, id),
    (.setIntraOpNumThreads, id),
    (.setGraphOptimizationLevel, id),
    (.session, fun c => { c with session := true })]

/-- The others ask the session for what it knows. -/
theorem loadCalls_eq (model : OnnxModel) :
    ∃ rest, loadCalls model = creatingCalls ++ rest ∧ ∀ call ∈ rest, Quiet call := by
  refine ⟨(loadCalls model).drop 6, rfl, fun call hcall => ?_⟩
  have hquiet : call.1.creates = none ∧ ∀ c, (call.2 c).destroy = c.destroy := by
    simp only [loadCalls, List.cons_append, List.nil_append, List.drop_succ_cons, List.drop_zero,
      List.append_assoc, List.mem_cons, List.mem_append, List.mem_mapIdx] at hcall
    rcases hcall with rfl | ⟨i, hi, rfl⟩ | rfl | ⟨i, hi, rfl⟩ | hinfo
    · exact ⟨rfl, fun _ => rfl⟩
    · exact ⟨rfl, fun _ => rfl⟩
    · exact ⟨rfl, fun _ => rfl⟩
    · exact ⟨rfl, fun _ => rfl⟩
    · -- the shape of the first input
      split at hinfo
      · simp only [List.mem_cons, List.not_mem_nil, or_false] at hinfo
        rcases hinfo with rfl | rfl | rfl <;> exact ⟨rfl, fun _ => rfl⟩
      · cases hinfo
  exact ⟨hquiet.1, hquiet.2⟩

/-- What is acquired by a load that stops after the calls `done`, and released in the end. -/
def usesAfter (done : List (LoadCall × (OnnxClassifier → OnnxClassifier))) :
    List (Use OnnxObject) :=
  acquired done ++ (done.foldl (fun c call => call.2 c) new).destroy

/-- The uses of a classifier with a session. -/
def sessionLife : List (Use OnnxObject) :=
  [.acquire .env, .acquire .allocator, .acquire .session,
    .release .allocator, .release .env, .release .session]

/-- Without one, there may be an environment, and an allocator. -/
def EarlierLife (us : List (Use OnnxObject)) : Prop :=
  us = [] ∨ us = [.acquire .env, .release .env] ∨
    us = [.acquire .env, .acquire .allocator, .release .allocator, .release .env]

/-- If none of the creating calls throws, there is a session. -/
theorem usesAfter_creatingCalls {throws : LoadCall → Bool}
    {rest : List (LoadCall × (OnnxClassifier → OnnxClassifier))}
    (hrest : ∀ call ∈ rest, Quiet call)
    (h : ∀ call ∈ creatingCalls, throws call.1 = false) :
    usesAfter (effective throws (creatingCalls ++ rest)) = sessionLife := by
  have hdone : effective throws (creatingCalls ++ rest)
      = creatingCalls ++ effective throws rest :=
    List.takeWhile_append_of_pos fun call hcall => by rw [h call hcall]; rfl
  have hquiet : ∀ call ∈ effective throws rest, Quiet call := fun call hcall =>
    hrest call (List.takeWhile_subset _ hcall)
  rw [usesAfter, hdone, List.foldl_append, destroy_quiet hquiet, acquired, List.filterMap_append,
    ← acquired, ← acquired, acquired_quiet hquiet]
  rfl

/-- The calls that take effect, by the first call. -/
theorem effective_cons (throws : LoadCall → Bool)
    (call : LoadCall × (OnnxClassifier → OnnxClassifier))
    (calls : List (LoadCall × (OnnxClassifier → OnnxClassifier))) :
    effective throws (call :: calls)
      = if throws call.1 then [] else call :: effective throws calls := by
  cases hthrow : throws call.1 <;> simp [effective, hthrow]

/-- If one of them throws, there is none. -/
theorem usesAfter_of_throws {throws : LoadCall → Bool}
    {rest : List (LoadCall × (OnnxClassifier → OnnxClassifier))}
    (h : ¬ ∀ call ∈ creatingCalls, throws call.1 = false) :
    EarlierLife (usesAfter (effective throws (creatingCalls ++ rest))) := by
  simp only [creatingCalls, List.cons_append, effective_cons]
  -- one case for each call that may be the first to throw
  split_ifs with henv hallocator hopts hthreads hlevel hsession
  · exact .inl rfl
  · exact .inr (.inl rfl)
  · exact .inr (.inr rfl)
  · exact .inr (.inr rfl)
  · exact .inr (.inr rfl)
  · exact .inr (.inr rfl)
  · refine absurd ?_ h
    simp [creatingCalls, henv, hallocator, hopts, hthreads, hlevel, hsession]

/-- The life of a classifier after its first call. -/
theorem uses_append_destroy (e : OnnxCall) :
    uses new e ++ (step new e).destroy = sessionLife ∧ e.env.CreatesSession ∨
      EarlierLife (uses new e ++ (step new e).destroy) ∧ ¬ e.env.CreatesSession := by
  have huses : uses new e = loadUses e.env new := rfl
  have hstep : step new e = (new.loadModel e.env).2 := step_eq new e
  rw [huses, hstep]
  by_cases hgood : e.env.fileGood = true
  · obtain ⟨rest, hcalls, hrest⟩ := loadCalls_eq e.env.model
    -- the calls that take effect decide both what is acquired and what is released
    have hlife : loadUses e.env new ++ (new.loadModel e.env).2.destroy
        = usesAfter (effective e.env.loadThrows (creatingCalls ++ rest)) := by
      have hsnd := tryCalls_snd e.env.loadThrows (loadCalls e.env.model) new
      rw [usesAfter, ← hcalls, ← hsnd]
      simp only [loadUses, loadModel, hgood]
      generalize tryCalls e.env.loadThrows (loadCalls e.env.model) new = result
      obtain ⟨_ | _, c⟩ := result <;> rfl
    have hcreates : e.env.CreatesSession ↔
        ∀ call ∈ creatingCalls, e.env.loadThrows call.1 = false := by
      simp [OnnxEnv.CreatesSession, creatingCalls, hgood]
    rw [hlife, hcreates]
    by_cases hthrow : ∀ call ∈ creatingCalls, e.env.loadThrows call.1 = false
    · exact .inl ⟨usesAfter_creatingCalls hrest hthrow, hthrow⟩
    · exact .inr ⟨usesAfter_of_throws hthrow, hthrow⟩
  · -- without the file nothing is created
    refine .inr ⟨.inl ?_, fun hcreates => hgood hcreates.1⟩
    simp only [loadUses, loadModel, hgood]
    rfl

/-! ### The whole life -/

/-- A settled object acquires nothing more. -/
theorem Settled.uses_eq {c : OnnxClassifier} (h : c.Settled) (e : OnnxCall) : uses c e = [] := by
  rcases h with hloaded | hfailed
  · simp [uses, hloaded]
  · simp [uses, hfailed]

/-- Only the first call acquires anything. -/
theorem life_cons (e : OnnxCall) (es : List OnnxCall) :
    life (e :: es) = uses new e ++ (step new e).destroy := by
  have hsettled := settled_step reached_new e
  -- the first call settles whether there is a model
  have hnone : outputs step uses (step new e) es = [] := by
    generalize step new e = c at hsettled
    induction es with
    | nil => rfl
    | cons e' es ih => rw [outputs, hsettled.uses_eq, hsettled.step_eq, ih, List.nil_append]
  rw [life, outputs, hnone, List.append_nil, run_cons, hsettled.run_eq]

/-- Without a session everything is released once. -/
theorem EarlierLife.balanced {us : List (Use OnnxObject)} (h : EarlierLife us) :
    Balanced us := by
  rcases h with rfl | rfl | rfl <;> decide

/-- A session that was never made outlives nothing. -/
theorem EarlierLife.not_outlives {us : List (Use OnnxObject)} (h : EarlierLife us) :
    ¬ SessionOutlivesEnv us := by
  rintro ⟨before, after, held, hus, hheld, hmem⟩
  -- a session that is held was acquired, and these lives acquire none
  have hacquired : .acquire .session ∈ us :=
    hus ▸ List.mem_append_left _
      ((acquire_mem_of_mem_holdings hheld hmem).resolve_left (Multiset.notMem_zero _))
  rcases h with rfl | rfl | rfl <;> simp at hacquired

/-- The destructor releases the environment, and only then the session. -/
theorem sessionLife_outlives : SessionOutlivesEnv sessionLife :=
  ⟨[.acquire .env, .acquire .allocator, .acquire .session, .release .allocator],
    [.release .session], {.session, .env}, rfl, by decide, by decide⟩

/-- **Objects.** However often `classify` is called, and wherever it fails, a classifier
    releases what it acquired, once each; but the environment is released under a session made
    from it, unless the first call stopped before the session. -/
theorem session_outlives_env_iff (es : List OnnxCall) :
    Balanced (life es) ∧
      (SessionOutlivesEnv (life es) ↔ ∃ e ∈ es.head?, e.env.CreatesSession) := by
  cases es with
  | nil =>
    have hlife : EarlierLife (life []) := .inl rfl
    exact ⟨hlife.balanced, iff_of_false hlife.not_outlives (by simp)⟩
  | cons e es =>
    rw [life_cons]
    rcases uses_append_destroy e with ⟨hlife, hcreates⟩ | ⟨hlife, hcreates⟩
    · rw [hlife]
      exact ⟨by decide, iff_of_true sessionLife_outlives ⟨e, rfl, hcreates⟩⟩
    · refine ⟨hlife.balanced, iff_of_false hlife.not_outlives ?_⟩
      rintro ⟨e', he', h⟩
      obtain rfl := Option.some.inj he'
      exact hcreates h

end OnnxClassifier

end AieOs
