import Scriptlet.Proofs.Tables
import Scriptlet.Settings.Sources
import Scriptlet.Settings.Strict

/-!
A library that reads a text on its own, beside one that loads the text as a file. They are any two
that keep three laws: the second brings the document of the first into a tree of its own, and reads
there what the first one reads. It may read more, such as a count from a string of digits. The two
that the program runs with keep these laws.
-/

namespace Scriptlet

namespace Settings

/-- No variable names a setting: none starts with the lead, in whatever letter case. -/
def NamesNoSetting (environment : Dotenv.Environment) : Prop :=
  ∀ entry ∈ environment, "snippet_".toList.isPrefixOf (Text.toLower entry.1).toList = false

/-- The two libraries, and the tree that the second makes of a document of the first. -/
structure Libraries where
  documents : DocumentLibrary
  layers : LayerLibrary
  tree : documents.Value → layers.Value

namespace Libraries

/-- What the libraries are known to do. Nothing is said about what else the tree takes for a count or
for a kind of eviction. -/
structure Lawful (l : Libraries) : Prop where
  /-- A file of the format, with nothing beside it, is read with the same grammar. -/
  file : ∀ {files environment path text}, files path = some text →
    extension? path = some "toml" → NamesNoSetting environment →
      l.layers.build? files environment (sources (some path)) =
        (l.documents.read? text).map l.tree
  /-- What is written as a count is one in the tree. -/
  count : ∀ {v n}, l.documents.reader.count? v = some n →
    l.layers.reader.count? (l.tree v) = some n
  /-- What is written as a kind of eviction is one in the tree. -/
  choice : ∀ {v name}, l.documents.reader.choice? evictionNames v = some name →
    l.layers.reader.choice? evictionNames (l.tree v) = some name

/-- At each of the names the tree of a value has what the value has. -/
def KeepsFields (l : Libraries) (names : List String) (v : l.documents.Value) : Prop :=
  Option.Rel (fun given shown => ∀ name ∈ names, shown name = (given name).map l.tree)
    (l.documents.reader.fields? names v) (l.layers.reader.fields? names (l.tree v))

/-- A section of a document. -/
def section? (l : Libraries) (name : String) (document : l.documents.Value) :
    Option l.documents.Value := do
  (← l.documents.reader.fields? sectionNames document) name

/-- The sections and the settings of a document stand in its tree under their names, and nothing
else does. -/
structure Keeps (l : Libraries) (document : l.documents.Value) : Prop where
  sections : l.KeepsFields sectionNames document
  cache : ∀ cache ∈ l.section? "cache" document, l.KeepsFields cacheNames cache
  runner : ∀ runner ∈ l.section? "runner" document, l.KeepsFields runnerNames runner

end Libraries

end Settings

/-! ### The libraries that the program runs with -/

namespace Toml

/-- The node is a table, open for more fields. -/
def Node.IsTable : Node → Prop
  | .table .. => True
  | _ => False

theorem Node.addHere_table {direct : Bool} {key : String} {v : Toml} {node changed : Node}
    (h : node.addHere direct key v = some changed) : changed.IsTable := by
  cases node with
  | table i d fields =>
      rw [addHere] at h
      split at h
      · cases h
      · cases h
        trivial
  | value v => cases h
  | tables items => cases h

theorem Node.openHere_table {key : String} {node changed : Node}
    (h : node.openHere key = some changed) : changed.IsTable := by
  cases node with
  | table i d fields =>
      rw [openHere] at h
      split at h
      · cases h
        trivial
      · cases h
        trivial
      · cases h
  | value v => cases h
  | tables items => cases h

theorem Node.appendHere_table {key : String} {node changed : Node}
    (h : node.appendHere key = some changed) : changed.IsTable := by
  cases node with
  | table i d fields =>
      rw [appendHere] at h
      split at h
      · cases h
        trivial
      · cases h
        trivial
      · cases h
  | value v => cases h
  | tables items => cases h

/-- A change at a path makes a table, if the change at its end does. -/
theorem Node.change_table {dotted : Bool} {f : Node → Option Node}
    (hf : ∀ {node changed}, f node = some changed → changed.IsTable)
    {path : List String} {node changed : Node} (h : node.change dotted f path = some changed) :
    changed.IsTable := by
  cases path with
  | nil => exact hf h
  | cons key path =>
      cases node with
      | table i d fields =>
          have hmade {child? : Option Node}
              (h : (child? >>= fun child => some (Node.table i d (setField key child fields))) =
                some changed) : changed.IsTable := by
            obtain ⟨child, -, hchild⟩ := Option.bind_eq_some_iff.mp h
            cases hchild
            trivial
          rw [change] at h
          split at h
          · exact hmade h
          · exact hmade h
          · split at h
            · exact hmade h
            · exact hmade h
      | value v => cases h
      | tables items => cases h

theorem Draft.take_table {d d' : Draft} {statement : Statement} (h : d.take statement = some d') :
    d'.root.IsTable := by
  cases statement with
  | pair key v =>
      obtain ⟨root, hroot, hd⟩ := Option.bind_eq_some_iff.mp h
      cases hd
      exact Node.change_table (Node.change_table Node.addHere_table) hroot
  | header key =>
      obtain ⟨root, hroot, hd⟩ := Option.bind_eq_some_iff.mp h
      cases hd
      exact Node.change_table Node.openHere_table hroot
  | listHeader key =>
      obtain ⟨root, hroot, hd⟩ := Option.bind_eq_some_iff.mp h
      cases hd
      exact Node.change_table Node.appendHere_table hroot

theorem Draft.takeAll_table {statements : List Statement} {d d' : Draft} (hd : d.root.IsTable)
    (h : statements.foldlM take d = some d') : d'.root.IsTable := by
  induction statements generalizing d with
  | nil =>
      cases h
      exact hd
  | cons statement more ih =>
      obtain ⟨taken, htaken, hrest⟩ := Option.bind_eq_some_iff.mp h
      exact ih (take_table htaken) hrest

/-- The root of a document is a table. -/
theorem read?_table {text : String} {document : Toml} (h : read? text = some document) :
    ∃ fields, document = .table fields := by
  obtain ⟨statements, -, hdocument⟩ := Option.bind_eq_some_iff.mp h
  obtain ⟨draft, hdraft, rfl⟩ := Option.map_eq_some_iff.mp hdocument
  have htable : draft.root.IsTable := Draft.takeAll_table (d := {}) trivial hdraft
  cases hroot : draft.root with
  | table i d fields => exact ⟨Node.fieldsToToml fields, rfl⟩
  | value v => simp [hroot, Node.IsTable] at htable
  | tables items => simp [hroot, Node.IsTable] at htable

end Toml

namespace Layered

open Settings (NamesNoSetting)

/-- The tree of a document, in which its fields have been laid over nothing one by one. -/
def ofDocument : Toml → Layered
  | .table fields => overlay (fieldsOfToml fields) (.table [])
  | v => ofToml v

def libraries : Settings.Libraries where
  documents := Toml.library
  layers := library
  tree := ofDocument

/-- A key that the tree takes as it is: a path of one step, in lower case. -/
def IsPlainKey (key : String) : Prop :=
  pathOf key = [.field key] ∧ Text.toLower key = key

instance (key : String) : Decidable (IsPlainKey key) :=
  inferInstanceAs (Decidable (_ ∧ _))

/-- The names that settings have are plain keys. -/
theorem plain_names :
    ∀ name ∈ Settings.sectionNames ++ Settings.cacheNames ++ Settings.runnerNames ++
        Settings.evictionNames, IsPlainKey name := by
  decide +kernel

variable {files : Files} {environment : Dotenv.Environment}

theorem ofSource?_file {path text : String} (hfile : files path = some text)
    (hpath : Settings.extension? path = some "toml") :
    ofSource? files environment (.file path true) =
      (Toml.read? text).map fun document => (ofToml document).fields := by
  have hfind : Settings.find? files path = some (text, .toml) := by
    rw [Settings.find?, hfile, hpath]
    rfl
  rw [ofSource?, hfind]
  rfl

theorem ofSource?_variables (h : NamesNoSetting environment) :
    ofSource? files environment (.variables "SNIPPET" "_" "__" true) = some [] := by
  have hlead : Text.toLower ("SNIPPET" ++ "_") = "snippet_" := by decide +kernel
  rw [ofSource?, Option.some_inj, List.filterMap_eq_nil_iff]
  intro entry hentry
  simp only [hlead, h entry hentry]
  rfl

/-- With nothing in the environment that names a setting, what is built of a file is the tree of
its document. -/
theorem build?_file {path text : String} (hfile : files path = some text)
    (hpath : Settings.extension? path = some "toml") (henvironment : NamesNoSetting environment) :
    library.build? files environment (Settings.sources (some path)) =
      (Toml.read? text).map ofDocument := by
  have hbuild : library.build? files environment (Settings.sources (some path)) =
      (Toml.read? text).map fun document => overlay (ofToml document).fields (.table []) := by
    change (ofSource? files environment (.file path true)).map (overlay · (.table [])) >>=
      (fun root => (ofSource? files environment (.variables "SNIPPET" "_" "__" true)).map
        (overlay · root) >>= some) = _
    rw [ofSource?_file hfile hpath, ofSource?_variables henvironment]
    cases Toml.read? text <;> rfl
  refine hbuild.trans (Option.map_congr fun document hdocument => ?_)
  obtain ⟨fields, rfl⟩ := Toml.read?_table hdocument
  rfl

/-- The tree of a table with one field has one field, of the same name if the name is plain. -/
theorem ofDocument_single {name : String} (h : IsPlainKey name) (value : Toml) :
    ∃ shown, ofDocument (.table [(name, value)]) = .table [(name, shown)] := by
  have htree : ofDocument (.table [(name, value)]) = put name (ofToml value) (.table []) := by
    simp [ofDocument, fieldsOfToml, overlay, h.1, putAt, change]
  rw [htree, put.eq_def, h.2]
  split
  · exact ⟨_, rfl⟩
  · exact ⟨_, rfl⟩

/-- A kind of eviction stands in the tree under its name, be it a text or the one field of a
table. -/
theorem choice?_ofDocument {v : Toml} {name : String}
    (h : Toml.choice? Settings.evictionNames v = some name) :
    choice? Settings.evictionNames (ofDocument v) = some name := by
  have hlru := plain_names "lru" (by decide)
  have hfifo := plain_names "fifo" (by decide)
  have hfound {given : String} (hgiven : Settings.evictionNames.find? (· = given) = some name) :
      given = name ∧ IsPlainKey name ∧
        Settings.evictionNames.find? (Text.toLower · = name) = some name := by
    have hsame : name = given := by simpa using List.find?_some hgiven
    have hname : name = "lru" ∨ name = "fifo" := by
      simpa [Settings.evictionNames] using List.mem_of_find?_eq_some hgiven
    refine ⟨hsame.symm, ?_⟩
    obtain rfl | rfl := hname
    · exact ⟨hlru, by simp [Settings.evictionNames, hlru.2]⟩
    · exact ⟨hfifo, by simp [Settings.evictionNames, hlru.2, hfifo.2]⟩
  have hsingle {value : Toml} (hplain : IsPlainKey name)
      (hfind : Settings.evictionNames.find? (Text.toLower · = name) = some name) :
      choice? Settings.evictionNames (ofDocument (.table [(name, value)])) = some name := by
    obtain ⟨shown, htree⟩ := ofDocument_single hplain value
    rw [htree, choice?, hplain.2, hfind]
  rw [Toml.choice?.eq_def] at h
  split at h
  · obtain ⟨rfl, hplain, hfind⟩ := hfound h
    simpa [ofDocument, ofToml, choice?, hplain.2] using hfind
  · obtain ⟨rfl, hplain, hfind⟩ := hfound h
    exact hsingle hplain hfind
  · obtain ⟨rfl, hplain, hfind⟩ := hfound h
    exact hsingle hplain hfind
  · cases h

theorem libraries_lawful : libraries.Lawful where
  file := build?_file
  count := by
    intro v n h
    cases v with
    | integer m => exact h
    | _ => cases h
  choice := choice?_ofDocument

/-! ### Documents that the tree keeps -/

/-- A table that gives each of its keys once, all of them plain, and has such values only. -/
def HasPlainFields (p : Toml → Prop) : Toml → Prop
  | .table fields => (fields.map (·.1)).Nodup ∧ ∀ field ∈ fields, IsPlainKey field.1 ∧ p field.2
  | _ => False

instance (p : Toml → Prop) [DecidablePred p] : DecidablePred (HasPlainFields p)
  | .table _ => inferInstanceAs (Decidable (_ ∧ _))
  | .string _ | .integer _ | .float _ | .boolean _ | .moment _ | .array _ =>
      inferInstanceAs (Decidable False)

/-- A value that holds no other values. -/
def IsLeaf : Toml → Prop
  | .array _ | .table _ => False
  | _ => True

instance : DecidablePred IsLeaf
  | .array _ | .table _ => inferInstanceAs (Decidable False)
  | .string _ | .integer _ | .float _ | .boolean _ | .moment _ => inferInstanceAs (Decidable True)

/-- A document of sections, which hold leaves. -/
abbrev IsSectioned : Toml → Prop := HasPlainFields (HasPlainFields IsLeaf)

/-- Put under a key that is not there yet, the value is added as its tree. -/
def IsAdded (v : Toml) : Prop :=
  ∀ {key root}, IsPlainKey key → key ∉ root.map (·.1) →
    put key (ofToml v) (.table root) = .table (root ++ [(key, ofDocument v)])

theorem isAdded_of_leaf {v : Toml} (h : IsLeaf v) : IsAdded v := by
  intro key root hkey hnew
  cases v with
  | table fields => exact h.elim
  | array items => exact h.elim
  | _ => simp only [ofToml, put, fields, hkey.2, ofDocument, setField_of_not_mem hnew]

/-- Under plain keys, laying fields over a tree is putting them there one by one. -/
theorem overlay_eq_putAll {fields : List (String × Toml)} (h : ∀ field ∈ fields, IsPlainKey field.1)
    (root : Layered) : overlay (fieldsOfToml fields) root = putAll (fieldsOfToml fields) root := by
  induction fields generalizing root with
  | nil => rfl
  | cons field more ih =>
      obtain ⟨key, v⟩ := field
      have hput : putAt (pathOf key) (ofToml v) root = put key (ofToml v) root := by
        rw [(h (key, v) List.mem_cons_self).1]
        rfl
      rw [fieldsOfToml, putAll, ← ih (fun field hfield => h field (List.mem_cons_of_mem _ hfield)),
        ← hput]
      rfl

theorem putAll_added {fields : List (String × Toml)} (root : List (String × Layered))
    (hnodup : (root.map (·.1) ++ fields.map (·.1)).Nodup)
    (h : ∀ field ∈ fields, IsPlainKey field.1 ∧ IsAdded field.2) :
    putAll (fieldsOfToml fields) (.table root) =
      .table (root ++ fields.map fun field => (field.1, ofDocument field.2)) := by
  induction fields generalizing root with
  | nil => simp [fieldsOfToml, putAll]
  | cons field more ih =>
      obtain ⟨key, v⟩ := field
      obtain ⟨hkey, hv⟩ := h (key, v) List.mem_cons_self
      have hnew : key ∉ root.map (·.1) := fun hmem =>
        List.disjoint_of_nodup_append hnodup hmem List.mem_cons_self
      rw [fieldsOfToml, putAll, hv hkey hnew, ih]
      · simp
      · simpa using hnodup
      · exact fun field hfield => h field (List.mem_cons_of_mem _ hfield)

/-- The tree of a table with plain fields. -/
theorem ofDocument_table {p : Toml → Prop} (hp : ∀ v, p v → IsAdded v)
    {fields : List (String × Toml)} (h : HasPlainFields p (.table fields)) :
    ofDocument (.table fields) =
      .table (fields.map fun field => (field.1, ofDocument field.2)) := by
  rw [ofDocument, overlay_eq_putAll fun field hfield => (h.2 field hfield).1,
    putAll_added [] h.1 fun field hfield => (h.2 field hfield).imp_right (hp _)]
  rfl

theorem isAdded_of_plain {p : Toml → Prop} {v : Toml} (h : HasPlainFields p v) : IsAdded v := by
  intro key root hkey hnew
  cases v with
  | table fields =>
      have hnone : root.lookup key = none := lookup_eq_none_iff_not_mem.mpr hnew
      rw [ofDocument, overlay_eq_putAll fun field hfield => (h.2 field hfield).1, ofToml, put]
      simp only [hkey.2, Layered.fields, hnone, Option.getD_none, setField_of_not_mem hnew]
  | _ => exact h.elim

theorem keepsFields_of_plain {p : Toml → Prop} (hp : ∀ v, p v → IsAdded v) {v : Toml}
    (h : HasPlainFields p v) (names : List String) : libraries.KeepsFields names v := by
  cases v with
  | table fields =>
      change Option.Rel _ (some _) (namedFields? names (ofDocument (.table fields)))
      rw [ofDocument_table hp h]
      exact .some fun name _ => lookup_map_snd
  | _ => exact h.elim

/-- The tree keeps a document of sections with plain keys. -/
theorem keeps_of_sectioned {document : Toml} (h : IsSectioned document) :
    libraries.Keeps document := by
  have hleaf : ∀ v, IsLeaf v → IsAdded v := fun _ => isAdded_of_leaf
  have hsection {name : String} {v : Toml} (hv : libraries.section? name document = some v) :
      HasPlainFields IsLeaf v := by
    cases document with
    | table fields =>
        have hmem : (name, v) ∈ fields := (lookup_eq_some_iff_mem h.1).mp hv
        exact (h.2 _ hmem).2
    | _ => exact h.elim
  exact {
    sections := keepsFields_of_plain (fun _ => isAdded_of_plain) h _
    cache := fun cache hcache => keepsFields_of_plain hleaf (hsection hcache) _
    runner := fun runner hrunner => keepsFields_of_plain hleaf (hsection hrunner) _ }

end Layered

end Scriptlet
