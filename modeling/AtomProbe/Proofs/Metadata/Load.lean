import AtomProbe.Metadata.Load
import AtomProbe.Proofs.Files.Path
import AtomProbe.Proofs.Files.Tree
import AtomProbe.World

/-!
# `AtomProbe.Proofs.Metadata.Load`: what loading a store does, said without running it

Loading an input changes nothing but the journal. Both its result and
its reports follow from the files alone:

- `Store.loaded`: the store, or nothing where the input is passed over;
- `Store.loadReports`: what is reported on the way.

`Store.attempt_load` says that a run does exactly this, from any world.
-/

set_option autoImplicit false

namespace AtomProbe

namespace World

/-- The world with more records, in order. -/
def reportAll (w : World) (records : List Record) : World := records.foldl report w

@[simp] theorem files_report (w : World) (r : Record) : (w.report r).files = w.files := by
  rw [report]
  split <;> rfl

@[simp] theorem files_reportAll (w : World) (records : List Record) :
    (w.reportAll records).files = w.files := by
  induction records generalizing w with
  | nil => rfl
  | cons r rs ih => exact (ih (w.report r)).trans (files_report w r)

@[simp] theorem reportAll_nil (w : World) : w.reportAll [] = w := rfl

theorem reportAll_append (w : World) (rs qs : List Record) :
    w.reportAll (rs ++ qs) = (w.reportAll rs).reportAll qs := by
  simp [reportAll]

end World

/-! ### Running actions that can fail -/

/-- A run, from a world, of an action that can fail. -/
def attempt {ε α : Type} (c : ExceptT ε (StateM World) α) (w : World) : Except ε α × World :=
  c.run.run w

theorem attempt_bind {ε α β : Type} (c : ExceptT ε (StateM World) α)
    (f : α → ExceptT ε (StateM World) β) (w : World) :
    attempt (c >>= f) w =
      match attempt c w with
      | (.ok x, w') => attempt (f x) w'
      | (.error e, w') => (.error e, w') := by
  simp only [attempt, ExceptT.run_bind, StateT.run_bind]
  rcases c.run.run w with ⟨result, w'⟩
  cases result <;> rfl

theorem attempt_liftExcept {ε α : Type} (x : Except ε α) (w : World) :
    attempt (liftExcept x) w = (x, w) := by
  cases x <;> rfl

theorem attempt_forReports {ε α : Type} (xs : List α) (f : α → Record) (w : World) :
    attempt (ε := ε) (forIn xs PUnit.unit fun x _ => do
      Journal.report (f x)
      pure (ForInStep.yield PUnit.unit)) w = (.ok ⟨⟩, w.reportAll (xs.map f)) := by
  induction xs generalizing w with
  | nil => rfl
  | cons x xs ih =>
    rw [List.forIn_cons]
    exact ih (w.report (f x))

namespace Store

/-- The store of the file under a path. -/
def fileStore (files : FileTree) (path : String) : Except MetadataError Store :=
  match files.read path >>= Storage.decode with
  | .error e => .error (.file e)
  | .ok text => ofText text

/-- The store of an input, unless it is passed over. -/
def loaded (files : FileTree) (endings : List String) (path : String) :
    Except MetadataError (Option Store) :=
  if isAccepted endings path && files.isPresent path then some <$> fileStore files path
  else .ok none

/-- The reports of the pairs of a document that are left out. -/
def skippedReports (value : Yaml.Value) : List Record :=
  (skipped value).map fun above => ⟨.detail, skippedText above⟩

/-- The reports of a store of a file of the given size. -/
def storeReports (path : String) (size : Nat) (store : Store) : List Record :=
  ⟨.info, s!"Extracted {store.size} keys from {path} ({Text.byteSize size})"⟩ ::
    store.toList.map fun (key, value) => ⟨.detail, s!"key: {key}, value: {value.display}"⟩

/-- The reports of loading an input. -/
def loadReports (files : FileTree) (endings : List String) (path : String) : List Record :=
  if isAccepted endings path then
    if files.isPresent path then
      match files.read path >>= Storage.decode with
      | .error _ => []
      | .ok text =>
        match parse text with
        | .error _ => []
        | .ok value =>
          skippedReports value ++
            match ofValue value with
            | .error _ => []
            | .ok store => storeReports path text.utf8ByteSize store
    else [⟨.warning, s!"File {path} not found, skipping"⟩]
  else
    [⟨.warning, path ++ " is not an accepted input (expected a name ending in " ++
      " or ".intercalate endings ++ "), skipping"⟩]

/-! ### Loading -/

theorem attempt_readSized (path : String) (w : World) :
    attempt (readSized path) w =
      if w.files.isPresent path then
        match w.files.read path >>= Storage.decode with
        | .error e => (.error (.file e), w)
        | .ok text =>
          match parse text with
          | .error e => (.error e, w)
          | .ok value =>
            ((ofValue value).map (·, text.utf8ByteSize), w.reportAll (skippedReports value))
      else (.error (.missingFile path), w) := by
  have hpresent : attempt (ε := MetadataError) (Storage.isPresent path) w =
    (.ok (w.files.isPresent path), w) := rfl
  have hread : attempt (ε := MetadataError) (ExceptT.lift (Storage.readText path)) w =
    (.ok (w.files.read path >>= Storage.decode), w) := rfl
  simp only [readSized, attempt_bind, hpresent]
  -- the file is there, is read, is text, and is parsed, or the first of these fails
  cases w.files.isPresent path with
  | false => rfl
  | true =>
    change attempt (_ >>= _) w = _
    simp only [hread, attempt_liftExcept, attempt_bind, if_true]
    cases w.files.read path >>= Storage.decode with
    | error e => rfl
    | ok text =>
      have hok : (Except.ok text).mapError MetadataError.file = .ok text := rfl
      rw [hok]
      dsimp only
      cases parse text with
      | error e => rfl
      | ok value =>
        have hskipped : attempt (ε := MetadataError)
            (forIn (skipped value) PUnit.unit fun above _ => do
            Journal.detail (skippedText above)
            pure (ForInStep.yield PUnit.unit)) w =
            (.ok PUnit.unit, w.reportAll (skippedReports value)) :=
          attempt_forReports (skipped value) (fun above => ⟨.detail, skippedText above⟩) w
        dsimp only
        rw [hskipped]
        cases ofValue value <;> rfl

theorem attempt_storeReports (path : String) (size : Nat) (store : Store) (w : World) :
    attempt (ε := MetadataError) (do
      Journal.info s!"Extracted {store.size} keys from {path} ({Text.byteSize size})"
      for (key, value) in store.toList do
        Journal.detail s!"key: {key}, value: {value.display}"
      return some store) w = (.ok (some store), w.reportAll (storeReports path size store)) := by
  have hpairs : attempt (ε := MetadataError) (forIn store.toList PUnit.unit fun x _ =>
      match x with
      | (key, value) => do
        Journal.detail s!"key: {key}, value: {value.display}"
        pure (ForInStep.yield PUnit.unit))
      (w.report ⟨.info, s!"Extracted {store.size} keys from {path} ({Text.byteSize size})"⟩) =
      (.ok ⟨⟩, w.reportAll (storeReports path size store)) :=
    attempt_forReports store.toList
      (fun pair => ⟨.detail, s!"key: {pair.1}, value: {pair.2.display}"⟩) _
  rw [attempt_bind]
  change attempt (_ >>= fun _ => pure (some store)) (w.report _) = _
  rw [attempt_bind, hpairs]
  rfl

theorem error_of_parse {text : String} {e : MetadataError} (h : parse text = .error e) :
    ∃ cause, e = .document cause := by
  rw [parse] at h
  cases hvalue : Yaml.Value.ofText text with
  | error cause =>
    rw [hvalue] at h
    cases h
    exact ⟨cause, rfl⟩
  | ok value =>
    rw [hvalue] at h
    cases h

theorem error_of_ofValue {value : Yaml.Value} {e : MetadataError}
    (h : ofValue value = .error e) : e = .rootNotMapping := by
  rw [ofValue] at h
  split at h <;> cases h
  rfl

theorem attempt_load (endings : List String) (path : String) (w : World) :
    attempt (load endings path) w =
      (loaded w.files endings path, w.reportAll (loadReports w.files endings path)) := by
  simp only [load, loaded, loadReports]
  cases isAccepted endings path with
  | false => rfl
  | true =>
    simp only [if_true, Bool.true_and, attempt_bind]
    have hlift : attempt (ExceptT.lift (readSized (m := StateM World) path).run :
        ExceptT MetadataError (StateM World) _) w =
        (.ok (attempt (readSized path) w).1, (attempt (readSized path) w).2) := rfl
    rw [hlift, attempt_readSized]
    cases w.files.isPresent path with
    | false => rfl
    | true =>
      simp only [if_true, fileStore, ofText]
      cases w.files.read path >>= Storage.decode with
      | error e => rfl
      | ok text =>
        dsimp only
        cases hparse : parse text with
        | error e =>
          -- this is not the error of a missing file, which alone is passed over
          obtain ⟨cause, rfl⟩ := error_of_parse hparse
          rfl
        | ok value =>
          show _ = (some <$> ofValue value, _)
          dsimp only
          cases hstore : ofValue value with
          | error e =>
            cases error_of_ofValue hstore
            rw [List.append_nil]
            rfl
          | ok store =>
            rw [World.reportAll_append]
            exact attempt_storeReports path text.utf8ByteSize store _

/-! ### Files that are loaded -/

/-- Whether a single name is accepted depends on how it ends. -/
theorem isAccepted_name {name : String} (hname : Path.IsName name) (hdots : name ≠ "..")
    (endings : List String) :
    isAccepted endings name = endings.any fun ending => ending.toList.isSuffixOf name.toList := by
  rw [isAccepted, Path.fileName?_name hname hdots]
  rfl

/-- It does not depend on the directory. -/
theorem isAccepted_below {name : String} (hname : Path.IsName name) (directory : String)
    (endings : List String) :
    isAccepted endings (directory ++ "/" ++ name) = isAccepted endings name := by
  rw [isAccepted, isAccepted, Path.fileName?_below hname]

/-- A file can be loaded in two steps: its text, and the store of that. -/
theorem exists_fileStore {files : FileTree} {path text : String} {P : Store → Bool}
    (hread : (files.read path >>= Storage.decode).toOption = some text)
    (h : (ofText text).toOption.any P = true) :
    ∃ store, fileStore files path = .ok store ∧ P store = true := by
  rw [fileStore]
  cases hcontent : files.read path >>= Storage.decode with
  | error e =>
    rw [hcontent] at hread
    cases hread
  | ok content =>
    rw [hcontent] at hread
    obtain rfl : content = text := Option.some.inj hread
    cases hstore : ofText content with
    | error e =>
      rw [hstore] at h
      cases h
    | ok store => exact ⟨store, hstore, by rwa [hstore] at h⟩

/-- An accepted file that can be read is not passed over. -/
theorem exists_loaded {files : FileTree} {endings : List String} {path text : String}
    {P : Store → Bool} (haccepted : isAccepted endings path = true)
    (hread : (files.read path >>= Storage.decode).toOption = some text)
    (h : (ofText text).toOption.any P = true) :
    ∃ store, loaded files endings path = .ok (some store) ∧ P store = true := by
  have hpresent : files.isPresent path = true := by
    cases hcontent : files.read path with
    | ok content => exact FileTree.isPresent_of_read hcontent
    | error e =>
      rw [hcontent] at hread
      cases hread
  obtain ⟨store, hstore, hP⟩ := exists_fileStore hread h
  refine ⟨store, ?_, hP⟩
  rw [loaded, haccepted, hpresent, hstore]
  rfl

end Store

end AtomProbe
