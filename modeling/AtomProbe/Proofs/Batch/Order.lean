import AtomProbe.Proofs.Batch.Progress

/-!
# `AtomProbe.Proofs.Batch.Order`: the order of entries does not matter

The entries of a batch have nothing in common but the files. Where no
entry reads what another one writes, it does not matter in which order
they are converted.

* `Steady.converts`: converting an entry leaves all that another one
  depends on as it was.
* `convertsAll_iff`: so entries are converted in order exactly if each of
  them would be converted on its own.
* `ConvertsAll.at?_eq_alone`: and what they leave is what each of them
  would leave on its own.

Neither side of the last two mentions an order.
-/

set_option autoImplicit false

namespace AtomProbe

/-- Whether two trees hold the same at each location. -/
structure FileTree.Same (t t' : FileTree) : Prop where
  workingDirectory : t'.workingDirectory = t.workingDirectory
  at? : ∀ location, t'.at? location = t.at? location

namespace Batch

open FileTree

/-- Whether no entry is made of a file that is the template of an entry. -/
def Apart (config : Config) (entries : List Entry) (files : FileTree) : Prop :=
  ∀ entry ∈ entries, ∀ source ∈ entry.sources files, ∀ other ∈ entries, ∀ location,
    files.place (config.templatePath other.id) = .ok location → files.follow source ≠ .ok location

theorem Apart.perm {config : Config} {entries entries' : List Entry} {files : FileTree}
    (h : Apart config entries files) (hperm : entries'.Perm entries) :
    Apart config entries' files :=
  fun entry hentry source hsource other hother =>
    h entry (hperm.subset hentry) source hsource other (hperm.subset hother)

/-! ### What an entry leaves to the others -/

/-- Whether all that entries depend on is as it was. -/
structure Steady (config : Config) (entries : List Entry) (before after : FileTree) : Prop where
  directories : SameDirectories before after
  sources : ∀ entry ∈ entries, ∀ source ∈ entry.sources before, before.SameUnder after source
  output : before.isPresent config.output = true → after.isPresent config.output = true

section
variable {config : Config} {entries : List Entry} {files before after : FileTree}

theorem Steady.refl (config : Config) (entries : List Entry) (files : FileTree) :
    Steady config entries files files :=
  ⟨.refl files, fun _ _ source _ => .refl files source, fun h => h⟩

/-- Where the directories are the same, templates have the same places. -/
theorem Converts.place_eq_of_sameDirectories {entry : Entry} {template : Template}
    (h : Converts config entry before template after) (hsame : SameDirectories before files)
    (id : UInt32) :
    files.place (config.templatePath id) = before.place (config.templatePath id) := by
  obtain ⟨location, hplace, -⟩ := h.written
  rw [Config.place_templatePath h.output_ne, Config.place_templatePath h.output_ne]
  exact Config.follow_eq_of_place h.output_ne hsame hplace id

/-- An entry is converted alike in other files that are the same to it. -/
theorem Converts.exists_of_sameDirectories {entry : Entry} {template : Template}
    (h : Converts config entry before template after) (hsame : SameDirectories before files)
    (houtput : files.isPresent config.output = true)
    (hresult : entry.result (.ofFiles files) = entry.result (.ofFiles before)) :
    ∃ after', Converts config entry files template after' := by
  have hwrite : ∃ after', files.write (config.templatePath entry.id) (bytes template) =
      .ok after' := by
    obtain ⟨location, hplace, hdirectory⟩ := exists_write_iff.1 ⟨after, h.write⟩
    rw [exists_write_iff, h.place_eq_of_sameDirectories hsame]
    exact ⟨location, hplace, fun hat => hdirectory ((hsame.directories location).1 hat)⟩
  obtain ⟨after', hwrite⟩ := hwrite
  exact ⟨after', houtput, hresult.trans h.result, hwrite⟩

namespace Steady

variable {entry : Entry} {template : Template}

theorem result_eq (h : Steady config entries files before) (hentry : entry ∈ entries) :
    entry.result (.ofFiles before) = entry.result (.ofFiles files) :=
  Entry.result_congr_of_sources (h.sources entry hentry)

/-- What is converted in files that are still the same to all entries
would have been converted before. -/
theorem exists_before (h : Steady config entries files before) (hentry : entry ∈ entries)
    (houtput : files.isPresent config.output = true)
    (hconverts : Converts config entry before template after) :
    ∃ after', Converts config entry files template after' :=
  hconverts.exists_of_sameDirectories h.directories.symm houtput (h.result_eq hentry).symm

theorem exists_after (h : Steady config entries files before) (hentry : entry ∈ entries)
    (hconverts : Converts config entry files template after) :
    ∃ after', Converts config entry before template after' :=
  hconverts.exists_of_sameDirectories h.directories (h.output hconverts.isPresent)
    (h.result_eq hentry)

/-- An entry that is converted leaves all that entries depend on. -/
theorem converts (h : Steady config entries files before) (hapart : Apart config entries files)
    (hentry : entry ∈ entries) (hconverts : Converts config entry before template after) :
    Steady config entries files after := by
  obtain ⟨location, hplace, hwritten⟩ := hconverts.written
  refine ⟨h.directories.trans hwritten.directories, fun other hother source hsource => ?_,
    fun houtput => hwritten.isPresent (h.output houtput)⟩
  refine (h.sources other hother source hsource).trans (hwritten.sameUnder fun hfollow => ?_)
  -- the source would lead to the place of a template in the first files, too
  have hfirst := h.directories.symm.follow_eq_ok hfollow
  have hplace' := (hconverts.place_eq_of_sameDirectories h.directories.symm entry.id).trans hplace
  exact hapart other hother source hsource entry hentry location hplace' hfirst

/-- So do entries in order. -/
theorem convertsAll (h : Steady config entries files before) (hapart : Apart config entries files)
    {done : List Entry} (hdone : done ⊆ entries)
    (hconverts : ConvertsAll config done before after) : Steady config entries files after := by
  induction hconverts with
  | nil files => exact h
  | cons hentry hlater ih =>
    rw [List.cons_subset] at hdone
    exact ih (h.converts hapart hdone.1 hentry) hdone.2

end Steady

end

/-! ### Entries in order -/

section
variable {config : Config} {entries : List Entry} {files before after : FileTree}

/-- Entries in order are converted, if each of them is converted on its
own. Induction on the entries; the files stay as they were to the later
ones. -/
theorem exists_convertsAll (hapart : Apart config entries files) {done : List Entry}
    (hdone : done ⊆ entries) (h : Steady config entries files before)
    (hall : ∀ entry ∈ done, ∃ template after, Converts config entry files template after) :
    ∃ after, ConvertsAll config done before after := by
  induction done generalizing before with
  | nil => exact ⟨before, .nil before⟩
  | cons entry done ih =>
    rw [List.cons_subset] at hdone
    rw [List.forall_mem_cons] at hall
    obtain ⟨⟨template, _, hentry⟩, hlater⟩ := hall
    obtain ⟨between, hconverts⟩ := h.exists_after hdone.1 hentry
    obtain ⟨after, hrest⟩ := ih hdone.2 (h.converts hapart hdone.1 hconverts) hlater
    exact ⟨after, .cons hconverts hrest⟩

/-- Each of the entries that are converted in order is converted on its
own. -/
theorem ConvertsAll.exists_converts (hapart : Apart config entries files) {done : List Entry}
    (hdone : done ⊆ entries) (h : Steady config entries files before)
    (houtput : files.isPresent config.output = true)
    (hconverts : ConvertsAll config done before after) :
    ∀ entry ∈ done, ∃ template after, Converts config entry files template after := by
  induction hconverts with
  | nil files => exact fun entry hentry => (List.not_mem_nil hentry).elim
  | cons hentry hlater ih =>
    rw [List.cons_subset] at hdone
    obtain ⟨after', hfirst⟩ := h.exists_before hdone.1 houtput hentry
    rw [List.forall_mem_cons]
    exact ⟨⟨_, after', hfirst⟩, ih hdone.2 (h.converts hapart hdone.1 hentry)⟩

/-- Entries are converted in order exactly if each of them would be
converted on its own. -/
theorem convertsAll_iff (hapart : Apart config entries files) :
    (∃ after, ConvertsAll config entries files after) ↔
      ∀ entry ∈ entries, ∃ template after, Converts config entry files template after := by
  constructor
  · rintro ⟨after, h⟩
    cases h with
    | nil => exact fun entry hentry => (List.not_mem_nil hentry).elim
    | cons hentry hlater =>
      -- the directory of the templates is there before the first entry
      exact ConvertsAll.exists_converts hapart (List.Subset.refl _) (.refl ..) hentry.isPresent
        (.cons hentry hlater)
  · exact exists_convertsAll hapart (List.Subset.refl _) (.refl ..)

/-- Where the template of an entry lies, entries in order leave what the
entry alone would leave. -/
theorem ConvertsAll.at?_eq_alone (hapart : Apart config entries files)
    (h : ConvertsAll config entries files after) (hnodup : (entries.map (·.id)).Nodup)
    {entry : Entry} (hentry : entry ∈ entries) {template : Template} {alone : FileTree}
    (halone : Converts config entry files template alone) {location : Location}
    (hplace : files.place (config.templatePath entry.id) = .ok location) :
    after.at? location = alone.at? location := by
  obtain ⟨first, later, rfl⟩ := List.append_of_mem hentry
  obtain ⟨before, hfirst, hrest⟩ := h.of_append
  cases hrest with
  | @cons _ _ _ between _ template' hconverts hlater =>
    have hsteady : Steady config (first ++ entry :: later) files before :=
      (Steady.refl ..).convertsAll hapart (List.subset_append_left ..) hfirst
    obtain rfl : template' = template :=
      Except.ok.inj (hconverts.result.symm.trans ((hsteady.result_eq hentry).trans halone.result))
    rw [List.map_append, List.map_cons, List.nodup_append, List.nodup_cons] at hnodup
    obtain ⟨-, ⟨hlaterIds, -⟩, hfirstIds⟩ := hnodup
    have hothers {id : UInt32} (hid : files.place (config.templatePath id) = .ok location) :
        id = entry.id :=
      Config.eq_of_place halone.output_ne hid hplace
    -- neither the entries before nor those behind write there
    have hbefore : before.at? location = files.at? location :=
      hfirst.at?_eq fun other hother hid =>
        hfirstIds other.id (List.mem_map_of_mem hother) entry.id List.mem_cons_self (hothers hid)
    have hafter : after.at? location = between.at? location := by
      refine hlater.at?_eq fun other hother hid => hlaterIds ?_
      rw [hconverts.place_eq, hfirst.place_eq] at hid
      exact hothers hid ▸ List.mem_map_of_mem hother
    rw [hafter, at?_of_write hconverts.write ((hfirst.place_eq entry.id).trans hplace), hbefore,
      at?_of_write halone.write hplace]

theorem ConvertsAll.workingDirectory (h : ConvertsAll config entries before after) :
    after.workingDirectory = before.workingDirectory := by
  induction h with
  | nil files => rfl
  | cons hentry hlater ih =>
    obtain ⟨location, -, hwritten⟩ := hentry.written
    rw [ih, hwritten.directories.workingDirectory]

/-- Entries in another order leave the same. -/
theorem ConvertsAll.same_of_perm {entries' : List Entry} {after' : FileTree}
    (hapart : Apart config entries files) (hperm : entries'.Perm entries)
    (hnodup : (entries.map (·.id)).Nodup) (h : ConvertsAll config entries files after)
    (h' : ConvertsAll config entries' files after') : after.Same after' := by
  have hapart' := hapart.perm hperm
  have hnodup' : (entries'.map (·.id)).Nodup := (hperm.map _).nodup_iff.2 hnodup
  refine ⟨h'.workingDirectory.trans h.workingDirectory.symm, fun location => ?_⟩
  by_cases hplace : ∃ entry ∈ entries, files.place (config.templatePath entry.id) = .ok location
  · obtain ⟨entry, hentry, hplace⟩ := hplace
    obtain ⟨template, alone, halone⟩ := (convertsAll_iff hapart).1 ⟨after, h⟩ entry hentry
    rw [h.at?_eq_alone hapart hnodup hentry halone hplace,
      h'.at?_eq_alone hapart' hnodup' (hperm.symm.subset hentry) halone hplace]
  · rw [h.at?_eq fun entry hentry heq => hplace ⟨entry, hentry, heq⟩,
      h'.at?_eq fun entry hentry heq => hplace ⟨entry, hperm.subset hentry, heq⟩]

end

/-! ### A batch -/

/-- Only the directory of the templates matters to an entry. -/
theorem ConvertsAll.congr {config config' : Config} (houtput : config'.output = config.output)
    {entries : List Entry} {before after : FileTree}
    (h : ConvertsAll config entries before after) : ConvertsAll config' entries before after := by
  have hpath (id : UInt32) : config'.templatePath id = config.templatePath id := by
    rw [Config.templatePath, Config.templatePath, houtput]
  induction h with
  | nil files => exact .nil files
  | cons hentry hlater ih =>
    exact .cons ⟨houtput ▸ hentry.isPresent, hentry.result, hpath _ ▸ hentry.write⟩ ih

theorem convertsAll_of_answer {config : Config} {w : World} (h : answer config w = .ok ()) :
    ConvertsAll config config.entries w.files (attempt (run config) w).2.files := by
  obtain ⟨ops, result, hdoes, hcourse⟩ :=
    exists_run_of_valid ((answer_eq_ok_iff config w).1 h).1 w
  rw [answer, attempt_of_does hdoes] at h
  rw [attempt_of_does hdoes]
  subst h
  exact hcourse.converts.1

section
variable {config config' : Config} (hperm : config'.entries.Perm config.entries)
include hperm

theorem validate_of_perm : config'.validate = .ok () ↔ config.validate = .ok () := by
  have hids := hperm.map (·.id)
  rw [Config.validate_eq_ok_iff, Config.validate_eq_ok_iff]
  refine and_congr (not_congr ?_) (and_congr hids.nodup_iff ?_)
  · rw [← List.length_eq_zero_iff, ← List.length_eq_zero_iff, hperm.length_eq]
  · exact forall_congr' fun id => imp_congr_left hids.mem_iff

/-- The order of the entries does not matter where no input, and no file
of the workflow that an input names, is the template of an entry. The
batch succeeds in one order exactly if it does in another one, and then
leaves the same at each location. It does so exactly if the configuration
is valid, each entry can be converted on its own, and the receiver takes
all messages. -/
theorem run_of_perm (houtput : config'.output = config.output) (w : World)
    (hapart : Apart config config.entries w.files) :
    (answer config' w = .ok () ↔ answer config w = .ok ()) ∧
      (answer config w = .ok () ↔ config.validate = .ok () ∧
        (∀ entry ∈ config.entries, ∃ template after, Converts config entry w.files template after) ∧
        ∀ j, w.receiver.left = some j → 2 * config.entries.length ≤ j) ∧
      (answer config w = .ok () →
        (attempt (run config) w).2.files.Same (attempt (run config') w).2.files) := by
  have hapart' := hapart.perm hperm
  have hall : (∃ after, ConvertsAll config' config'.entries w.files after) ↔
      ∃ after, ConvertsAll config config.entries w.files after := by
    have hconfig : (∃ after, ConvertsAll config' config'.entries w.files after) ↔
        ∃ after, ConvertsAll config config'.entries w.files after :=
      exists_congr fun after => ⟨fun h => h.congr houtput.symm, fun h => h.congr houtput⟩
    -- neither side mentions an order once each entry is taken on its own
    rw [hconfig, convertsAll_iff hapart, convertsAll_iff hapart']
    exact forall_congr' fun entry => imp_congr_left hperm.mem_iff
  have hiff : answer config' w = .ok () ↔ answer config w = .ok () := by
    rw [answer_eq_ok_iff, answer_eq_ok_iff, validate_of_perm hperm, hall, hperm.length_eq]
  refine ⟨hiff, by rw [answer_eq_ok_iff, convertsAll_iff hapart], ?_⟩
  intro hok
  have hfirst := convertsAll_of_answer hok
  have hsecond : ConvertsAll config config'.entries w.files (attempt (run config') w).2.files :=
    (convertsAll_of_answer (hiff.2 hok)).congr houtput.symm
  have hnodup := Config.nodup_ids_of_validate ((answer_eq_ok_iff config w).1 hok).1
  exact hfirst.same_of_perm hapart hperm hnodup hsecond

end

/-- Two entries, of which the first one has a notebook. -/
def measurements : Config :=
  ⟨"out", false, [⟨1, some "eln_data.yaml", none, none⟩, ⟨2, none, none, none⟩]⟩

/-- The same entries in the other order. -/
def rearranged : Config := ⟨"out", false, measurements.entries.reverse⟩

/-- A notebook that names a file of the workflow, and the directory of the
templates. -/
def laboratory : FileTree where
  workingDirectory := []
  entries := [
    (["out"], .directory),
    (["eln_data.yaml"], .file "workflow: {raw_dat_file: run.rhit}".toUTF8),
    (["run.rhit"], .file .empty)]

theorem sources_laboratory :
    measurements.entries.map (Entry.sources laboratory) = [["eln_data.yaml", "run.rhit"], []] := by
  have hname : Path.IsName "eln_data.yaml" := by decide
  have haccepted : Store.isAccepted Source.Input.notebook.endings "eln_data.yaml" = true := by
    rw [Store.isAccepted_name hname (by decide)]
    decide
  have hread : (laboratory.read "eln_data.yaml" >>= Storage.decode).toOption =
      some "workflow: {raw_dat_file: run.rhit}" := by
    decide
  obtain ⟨store, hloaded, hworkflow⟩ := Store.exists_loaded haccepted hread
    (P := fun store =>
      (Source.Parser.input .notebook "" (some store)).workflowFiles == ["run.rhit"])
    (by decide +kernel)
  show ["eln_data.yaml" :: (Source.Parser.input .notebook ((Path.parent? "eln_data.yaml").getD "")
    (Store.loaded laboratory Source.Input.notebook.endings "eln_data.yaml").toOption.join
      ).workflowFiles ++ [], []] = _
  rw [Path.parent?_name hname, hloaded]
  show ["eln_data.yaml" :: (Source.Parser.input .notebook "" (some store)).workflowFiles ++ [],
    []] = _
  rw [eq_of_beq hworkflow]
  rfl

/-- The notebook and the file of the workflow lie outside of the directory
of the templates. -/
theorem apart_laboratory : Apart measurements measurements.entries laboratory := by
  intro entry hentry source hsource other hother location hplace hfollow
  have hplaces : ∀ other ∈ measurements.entries,
      (laboratory.place (measurements.templatePath other.id)).toOption.bind List.getLast? =
        some "out" := by
    decide
  have hfollows : ∀ source ∈ ["eln_data.yaml", "run.rhit"],
      (laboratory.follow source).toOption.bind List.getLast? ≠ some "out" := by
    decide
  have hmem : source ∈ ["eln_data.yaml", "run.rhit"] := by
    have hsources : entry.sources laboratory ∈ [["eln_data.yaml", "run.rhit"], []] :=
      sources_laboratory ▸ List.mem_map_of_mem hentry
    rw [List.mem_cons, List.mem_singleton] at hsources
    rcases hsources with heq | heq <;> rw [heq] at hsource
    · exact hsource
    · exact (List.not_mem_nil hsource).elim
  have hlocation := hplaces other hother
  rw [hplace] at hlocation
  refine hfollows source hmem ?_
  rw [hfollow]
  exact hlocation

/-- A notebook that names a file of the workflow may come first or last. -/
theorem run_of_perm_laboratory :
    rearranged.entries.Perm measurements.entries ∧ rearranged.output = measurements.output ∧
      Apart measurements measurements.entries laboratory ∧
      (answer rearranged (.ofFiles laboratory) = .ok () ↔
        answer measurements (.ofFiles laboratory) = .ok ()) ∧
      (answer measurements (.ofFiles laboratory) = .ok () →
        (attempt (run measurements) (.ofFiles laboratory)).2.files.Same
          (attempt (run rearranged) (.ofFiles laboratory)).2.files) := by
  have hperm : rearranged.entries.Perm measurements.entries := List.reverse_perm _
  have hrun := run_of_perm hperm rfl (.ofFiles laboratory) apart_laboratory
  exact ⟨hperm, rfl, apart_laboratory, hrun.1, hrun.2.2⟩

end Batch

end AtomProbe
