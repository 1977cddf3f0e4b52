import AtomProbe.Config.Reader
import AtomProbe.Proofs.Batch
import AtomProbe.Proofs.Yaml.Schema
import AtomProbe.Proofs.Yaml.Tree.Value
import Mathlib.Data.List.Nodup

/-!
# `AtomProbe.Proofs.Config.Document`: a configuration that is written is read back

The text of a configuration stands for the configuration
(`ofText_document`), and so does the file that it is written to
(`read_of_write`).

Writer and reader decide independently. The writer puts a text between
quotes where a reader without a schema would take it for something else;
the reader asks for a path, an identifier or a truth value, whatever the
scalar looks like. A path that is missing is the only null without
quotes, so it is told from the path `null`, and from the empty one. None
of the arguments looks into a text: what is known of its style is
`Tree.Styled`.
-/

set_option autoImplicit false

namespace AtomProbe.Config

open Yaml (Document)

/-! ### Scalars of a configuration -/

/-- A text without quotes is neither empty nor a null. -/
theorem not_isNull_of_styleOf {s : String} (h : Yaml.Tree.styleOf s.toList = .plain) :
    s ≠ "" ∧ Yaml.Schema.isNull s = false := by
  have hstyled := Yaml.Tree.styled s.toList
  rw [h] at hstyled
  cases hstyled with
  | plain hne hadmits htext =>
    have hempty : s ≠ "" := fun heq => hne (by rw [heq]; rfl)
    refine ⟨hempty, Bool.eq_false_iff.2 fun hnull => ?_⟩
    -- the schema takes a null for nothing, so it is not written without quotes
    have hresolve : Yaml.Schema.resolve s = .ok .null := by
      rw [Yaml.Schema.resolve, if_pos (by simp [hnull])]
      rfl
    rw [Yaml.Tree.readsAsText, String.ofList_toList, hresolve] at htext
    simp at htext

/-- A path is read as itself in every style, and a missing one as
missing. -/
theorem readOptionalText_optionalPath (d : Document) (path : Option String) :
    readOptionalText d (optionalPath path).node = .ok path := by
  cases path with
  | none => rfl
  | some path =>
    show (if Yaml.Tree.styleOf path.toList ≠ .plain then Except.ok (some path)
      else .ok (if path = "" || Yaml.Schema.isNull path then none else some path)) = _
    by_cases hstyle : Yaml.Tree.styleOf path.toList = .plain
    · obtain ⟨hempty, hnull⟩ := not_isNull_of_styleOf hstyle
      simp [hstyle, hempty, hnull]
    · rw [if_pos hstyle]

theorem readBoolean_word (d : Document) (b : Bool) :
    readBoolean d (Yaml.Tree.node (.word (if b then "true" else "false"))) = .ok b := by
  cases b <;> rfl

/-- The digits of an identifier are read as the identifier. -/
theorem readId_word (d : Document) (id : UInt32) :
    readId d (Yaml.Tree.node (.word (toString id.toNat))) = .ok id := by
  have hlist : (toString id.toNat).toList = Nat.toDigits 10 id.toNat := Nat.toList_repr
  obtain ⟨c, cs, hcs, hdigit⟩ := Decimal.head_toDigits_isDigit id.toNat
  have hminus : c ≠ '-' := (Decimal.not_sign_of_isDigit hdigit).2
  have hword : Decimal.toUInt32? (id.toNat : Int) = some id := by
    have hlt : (id.toNat : Int) < Int.pow 2 32 := by
      have hpow : Int.pow 2 32 = ((2 ^ 32 : Nat) : Int) := by decide
      rw [hpow, Int.ofNat_lt]
      exact id.toNat_lt
    rw [Decimal.toUInt32?, if_pos ⟨Int.natCast_nonneg _, hlt⟩, Int.toNat_natCast,
      UInt32.ofNat_toNat]
  have hread : (Yaml.Schema.integer? (c :: cs)).bind Decimal.toUInt32? = some id := by
    rw [← hcs, (Yaml.Schema.integer?_toDigits id.toNat).1, Option.bind_some, hword]
  have htyped : readTyped d Yaml.Value.integerTag (Yaml.Tree.node (.word (toString id.toNat))) =
      .ok (toString id.toNat) := rfl
  rw [readId, htyped]
  simp only [bind, Except.bind]
  rw [hlist, hcs, hread, List.head?_cons]
  -- the first digit is no sign
  split
  · next heq => exact absurd (Option.some.inj heq) hminus
  · next hsome _ =>
    cases hsome
    rfl
  · next hnone _ => cases hnone

/-! ### Records -/

theorem mapM_readText_pairNodes (d : Document) (pairs : List (String × Yaml.Tree)) :
    ((Yaml.Tree.pairNodes pairs).mapM fun pair => do return (← readText d pair.1, pair.2)) =
      .ok (pairs.map fun pair => (pair.1, pair.2.node)) := by
  induction pairs with
  | nil => rfl
  | cons pair pairs ih =>
    rw [Yaml.Tree.pairNodes, List.mapM_cons, ih]
    rfl

/-- The fields of a record that is written are found by their names, if
all of them are known and none is given twice. -/
theorem readFields_mapping (d : Document) {names : List String} {pairs : List (String × Yaml.Tree)}
    (hkeys : (pairs.map Prod.fst).Nodup) (hnames : ∀ pair ∈ pairs, pair.1 ∈ names) :
    readFields d names (Yaml.Tree.node (.mapping pairs)) =
      .ok (pairs.map fun pair => (pair.1, pair.2.node)) := by
  have hnamed := mapM_readText_pairNodes d pairs
  have hknown : (pairs.map fun pair => (pair.1, (pair.2.node : Part))).filter
      (fun field => names.contains field.1) = pairs.map fun pair => (pair.1, pair.2.node) := by
    rw [List.filter_eq_self]
    intro field hfield
    obtain ⟨pair, hpair, rfl⟩ := List.mem_map.1 hfield
    simpa using hnames pair hpair
  have honce : (pairs.map fun pair => (pair.1, (pair.2.node : Part))).any (fun field =>
      1 < (pairs.map fun pair => (pair.1, (pair.2.node : Part))).countP (·.1 == field.1)) =
        false := by
    rw [List.any_eq_false]
    intro field _
    have hcount : (pairs.map fun pair => (pair.1, (pair.2.node : Part))).countP
        (·.1 == field.1) = (pairs.map Prod.fst).count field.1 := by
      rw [List.countP_map, List.count, List.countP_map]
      rfl
    have hle := List.nodup_iff_count_le_one.1 hkeys field.1
    simp only [hcount, decide_eq_true_eq]
    omega
  -- the names are read, those that are known are kept, and none of them comes twice
  show (((Yaml.Tree.pairNodes pairs).mapM fun pair => do
    return (← readText d pair.1, pair.2)) >>= fun named =>
      if (named.filter fun field => names.contains field.1).any fun field =>
          1 < (named.filter fun field => names.contains field.1).countP (·.1 == field.1) then
        throw .duplicateKey
      else pure (named.filter fun field => names.contains field.1)) = _
  rw [hnamed]
  simp only [bind, Except.bind, hknown, honce]
  rfl

/-- The names of the fields of an entry. -/
def entryNames : List String := ["entry_id", "eln_path", "oasis_config_path", "cameca_path"]

/-- The names of the fields of a configuration. -/
def names : List String := ["output_path", "verbose", "entries"]

/-- A record whose fields have exactly the given names, each once, is
read by these names. -/
theorem readFields_of_map_fst (d : Document) {names : List String}
    {pairs : List (String × Yaml.Tree)}
    (hpairs : pairs.map Prod.fst = names) (hnames : names.Nodup) :
    readFields d names (Yaml.Tree.node (.mapping pairs)) =
      .ok (pairs.map fun pair => (pair.1, pair.2.node)) :=
  readFields_mapping d (hpairs ▸ hnames) fun _ hpair => hpairs ▸ List.mem_map_of_mem hpair

theorem readEntry_entryTree (d : Document) (entry : Entry) :
    readEntry d (entryTree entry).node = .ok entry := by
  have hfields : readFields d entryNames (entryTree entry).node = _ :=
    readFields_of_map_fst d rfl (by decide)
  have hid := readId_word d entry.id
  have hnotebook := readOptionalText_optionalPath d entry.notebook
  have hdeployment := readOptionalText_optionalPath d entry.deployment
  have hvendor := readOptionalText_optionalPath d entry.vendor
  show readFields d entryNames (entryTree entry).node >>= _ = _
  rw [hfields]
  show (do
    let id ← readId d (Yaml.Tree.node (.word (toString entry.id.toNat)))
    let notebook ← readOptionalText d (optionalPath entry.notebook).node
    let deployment ← readOptionalText d (optionalPath entry.deployment).node
    let vendor ← readOptionalText d (optionalPath entry.vendor).node
    return (⟨id, notebook, deployment, vendor⟩ : Entry)) = Except.ok entry
  rw [hid, hnotebook, hdeployment, hvendor]
  rfl

theorem mapM_readEntry (d : Document) (entries : List Entry) :
    (Yaml.Tree.itemNodes (entries.map entryTree)).mapM (readEntry d) = .ok entries := by
  induction entries with
  | nil => rfl
  | cons entry entries ih =>
    rw [List.map_cons, Yaml.Tree.itemNodes, List.mapM_cons, readEntry_entryTree, ih]
    rfl

/-! ### Whole configurations -/

/-- The pairs of a configuration. -/
def pairs (config : Config) : List (String × Yaml.Tree) := [
  ("output_path", .text config.output),
  ("verbose", .word (if config.isVerbose then "true" else "false")),
  ("entries", .sequence (config.entries.map entryTree))]

theorem ofDocument_pairs (config : Config) (d : Document)
    (hroot : d.root = Yaml.Tree.node (.mapping config.pairs)) : ofDocument d = .ok config := by
  have hnames : names.Nodup := by decide
  have hfields : readFields d names (Yaml.Tree.node (.mapping config.pairs)) = _ :=
    readFields_of_map_fst d rfl hnames
  have hverbose := readBoolean_word d config.isVerbose
  have hentries := mapM_readEntry d config.entries
  show readFields d names d.root >>= _ = _
  rw [hroot, hfields]
  show (do
    let output ← readText d (Yaml.Tree.node (.text config.output))
    let isVerbose ← readBoolean d
      (Yaml.Tree.node (.word (if config.isVerbose then "true" else "false")))
    let entries ← (Yaml.Tree.itemNodes (config.entries.map entryTree)).mapM (readEntry d)
    return (⟨output, isVerbose, entries⟩ : Config)) = Except.ok config
  rw [hverbose, hentries]
  rfl

theorem isProper_word {depth : Nat} {s : String} {v : Yaml.Scalar} (h : Yaml.Tree.Spells s v) :
    Yaml.Tree.IsProper depth (.word s) :=
  .word depth h.ne_empty h.admitsPlain h.resolve

theorem isProper_optionalPath (depth : Nat) (path : Option String) :
    (optionalPath path).IsProper depth := by
  cases path with
  | none => exact isProper_word Yaml.Tree.spells_null
  | some path => exact .text depth path

theorem isProper_entryTree (depth : Nat) (entry : Entry) :
    (entryTree entry).IsProper (depth + 1) := by
  have hid : Yaml.Tree.IsProper depth (.word (toString entry.id.toNat)) := by
    have hspells := Yaml.Tree.spells_natural entry.id.toUInt64
    rw [UInt32.toNat_toUInt64] at hspells
    exact isProper_word hspells
  refine .mapping (show entryNames.Nodup by decide) ?_
  simp only [List.forall_mem_cons]
  exact ⟨hid, isProper_optionalPath depth _, isProper_optionalPath depth _,
    isProper_optionalPath depth _, by simp⟩

theorem isProper_pairs (config : Config) (depth : Nat) :
    Yaml.Tree.IsProper (depth + 3) (.mapping config.pairs) := by
  refine .mapping (show names.Nodup by decide) ?_
  simp only [pairs, List.forall_mem_cons]
  refine ⟨.text _ _, isProper_word (Yaml.Tree.spells_boolean _), .sequence ?_, by simp⟩
  intro item hitem
  obtain ⟨entry, -, rfl⟩ := List.mem_map.1 hitem
  exact isProper_entryTree depth entry

/-- The text of a configuration stands for the configuration. -/
theorem ofText_document (config : Config) : ofText config.document = .ok config := by
  have hdocument : Document.ofText config.document = _ :=
    Document.ofText_node (isProper_pairs config 0)
  have hread : ofDocument ⟨Yaml.Tree.node (.mapping config.pairs), []⟩ = .ok config :=
    ofDocument_pairs config _ rfl
  rw [ofText, hdocument]
  show (ofDocument ⟨Yaml.Tree.node (.mapping config.pairs), []⟩).mapError ConfigError.document = _
  rw [hread]
  rfl

/-! ### Files -/

/-- A text that was written as bytes is found in them. -/
theorem decode_toUTF8 (text : String) : Storage.decode text.toUTF8 = .ok text := by
  have htext : String.fromUTF8? text.toUTF8 = some text := dif_pos text.isValidUTF8
  rw [Storage.decode, htext]

/-- The configuration in the file under a path. -/
def stored (files : FileTree) (path : String) : Except ConfigError Config :=
  if files.isPresent path then
    match files.read path >>= Storage.decode with
    | .error e => .error (.file e)
    | .ok text => ofText text
  else .error (.missingFile path)

/-- Reading a configuration changes nothing. -/
theorem attempt_read (path : String) (w : World) :
    attempt (read path) w = (stored w.files path, w) := by
  have hpresent : attempt (ε := ConfigError) (Storage.isPresent path) w =
      (.ok (w.files.isPresent path), w) := rfl
  have hcontent : attempt (ε := ConfigError) (ExceptT.lift (Storage.readText path)) w =
      (.ok (w.files.read path >>= Storage.decode), w) := rfl
  rw [read, stored, attempt_bind, hpresent]
  cases w.files.isPresent path with
  | false => rfl
  | true =>
    show attempt (ExceptT.lift (Storage.readText path) >>= _) w = _
    rw [attempt_bind, hcontent]
    cases w.files.read path >>= Storage.decode with
    | error e => rfl
    | ok text => exact attempt_liftExcept (ofText text) w

theorem reads_read (path : String) (w : World) :
    Reads w [path] (read path).run (read path).run := by
  have hmem : path ∈ [path] := List.mem_cons_self
  refine (Reads.isPresent hmem).lift.bind_run ?_
  intro isPresent _
  cases isPresent with
  | false => exact .pure w [path] _
  | true =>
    refine (Reads.readText hmem).lift.bind_run ?_
    intro content _
    exact (Reads.ofExcept w [path] _).bind_run fun text _ => .ofExcept w [path] _

theorem attempt_write (config : Config) (path : String) (w : World) :
    attempt (config.write path) w =
      match w.files.write path config.document.toUTF8 with
      | .error e => (.error (.file e), w)
      | .ok files => (.ok (), { w with files := files }) :=
  Batch.attempt_writeText ConfigError.file path config.document w

/-- A file with the text of a configuration holds the configuration. -/
theorem stored_of_find {config : Config} {files : FileTree} {path : String}
    (h : files.find path = .ok (.file config.document.toUTF8)) :
    stored files path = .ok config := by
  have hpresent : files.isPresent path = true := by rw [FileTree.isPresent, h]; rfl
  have hread : files.read path = .ok config.document.toUTF8 := by rw [FileTree.read, h]; rfl
  have hdecode : (files.read path >>= Storage.decode) = .ok config.document := by
    rw [hread]
    simp only [bind, Except.bind, decode_toUTF8]
  rw [stored, if_pos hpresent, hdecode]
  exact ofText_document config

/-- A configuration can be written wherever a file can be, and is read back
from there. Only a device keeps nothing of what is written. -/
theorem read_of_write (config : Config) (path : String) (w : World)
    (hdevice : w.files.find path ≠ .ok .sink) :
    ((attempt (config.write path) w).1 = .ok () ↔
        ∃ location, w.files.place path = .ok location ∧ w.files.at? location ≠ some .directory) ∧
      ((attempt (config.write path) w).1 = .ok () →
        (attempt (read path) (attempt (config.write path) w).2).1 = .ok config) := by
  rw [← @FileTree.exists_write_iff _ _ config.document.toUTF8, attempt_write]
  cases hfiles : w.files.write path config.document.toUTF8 with
  | error e =>
    -- nothing is written, and the file system says why
    constructor
    · constructor
      · intro h
        cases h
      · rintro ⟨files, h⟩
        cases h
    · intro h
      cases h
  | ok files =>
    refine ⟨iff_of_true rfl ⟨files, rfl⟩, ?_⟩
    intro _
    show (attempt (read path) { w with files := files }).1 = _
    rw [attempt_read]
    exact stored_of_find ((FileTree.find_of_write hfiles).resolve_right hdevice)

/-- Paths that are spelled like something else, or that take more than a
line. -/
def lookalikes : Config where
  output := "null"
  isVerbose := true
  entries := [⟨1, some "", none, some "~"⟩, ⟨4294967295, some "it's\n1e3", some "0x1F", none⟩]

theorem read_of_write_lookalikes :
    (attempt (lookalikes.write "batch.yaml") (.ofFiles ⟨[], []⟩)).1 = .ok () ∧
      (attempt (read "batch.yaml")
        (attempt (lookalikes.write "batch.yaml") (.ofFiles ⟨[], []⟩)).2).1 = .ok lookalikes := by
  have hwrite : (attempt (lookalikes.write "batch.yaml") (.ofFiles ⟨[], []⟩)).1 = .ok () := by
    rw [attempt_write]
    rfl
  have hdevice : (World.ofFiles ⟨[], []⟩).files.find "batch.yaml" ≠ .ok .sink := by
    rintro ⟨⟩
  exact ⟨hwrite, (read_of_write lookalikes "batch.yaml" (.ofFiles ⟨[], []⟩) hdevice).2 hwrite⟩

end AtomProbe.Config
