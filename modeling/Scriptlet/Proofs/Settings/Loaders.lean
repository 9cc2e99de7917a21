import Scriptlet.Proofs.Settings.Libraries

/-!
A text that one library reads against the same text as a file that another library loads. The
settings are the same, as long as the second library does not take for a setting what the first
one does not.
-/

namespace Scriptlet

/-! ### Strict and lenient readings -/

/-- A lenient reading comes to what the strict one comes to, unless something is coerced: then the
strict one refuses. -/
def AgreeUnless {α : Type} (coerced : Bool) (strict lenient : Option α) : Prop :=
  if coerced then strict = none else lenient = strict

namespace AgreeUnless

variable {α β : Type} {coerced coerced' : Bool} {strict lenient : Option α}

theorem bind {f g : α → Option β} (h : AgreeUnless coerced strict lenient)
    (hf : ∀ a, strict = some a → AgreeUnless coerced' (f a) (g a)) :
    AgreeUnless (coerced || coerced') (strict.bind f) (lenient.bind g) := by
  cases coerced with
  | true =>
      have hnone : strict = none := h
      rw [hnone]
      rfl
  | false =>
      have hsame : lenient = strict := h
      rw [hsame, Bool.false_or]
      cases hstrict : strict with
      | none =>
          cases coerced' <;> rfl
      | some a => exact hf a hstrict

theorem bind_some (h : AgreeUnless coerced strict lenient) (f : α → β) :
    AgreeUnless coerced (strict.bind fun a => some (f a)) (lenient.bind fun a => some (f a)) := by
  have hbind := h.bind fun a _ => show AgreeUnless false (some (f a)) (some (f a)) from rfl
  rwa [Bool.or_false] at hbind

/-- What is read strictly is read leniently, and what is read leniently only is coerced. -/
theorem of_read (h : ∀ a, strict = some a → lenient = some a) :
    AgreeUnless (strict.isNone && lenient.isSome) strict lenient := by
  cases strict with
  | some a => exact h a rfl
  | none => cases lenient <;> rfl

end AgreeUnless

namespace Settings

namespace Libraries

/-! ### What only the tree takes -/

def isCoercedCount (l : Libraries) (v : l.documents.Value) : Bool :=
  (l.documents.reader.count? v).isNone && (l.layers.reader.count? (l.tree v)).isSome

def isCoercedEviction (l : Libraries) (v : l.documents.Value) : Bool :=
  (eviction? l.documents.reader v).isNone && (eviction? l.layers.reader (l.tree v)).isSome

def isCoercedCache (l : Libraries) (cache : l.documents.Value) : Bool :=
  (l.documents.reader.fields? cacheNames cache).any fun fields =>
    (fields "max_entries").any l.isCoercedCount ||
      ((fields "time_to_live_secs").any l.isCoercedCount ||
        (fields "eviction").any l.isCoercedEviction)

def isCoercedRunner (l : Libraries) (runner : l.documents.Value) : Bool :=
  (l.documents.reader.fields? runnerNames runner).any fun fields =>
    (fields "timeout_ms").any l.isCoercedCount

/-- Some setting of a document is coerced: the tree takes it and the document library does not. -/
def isCoerced (l : Libraries) (document : l.documents.Value) : Bool :=
  (l.documents.reader.fields? sectionNames document).any fun sections =>
    (sections "cache").any l.isCoercedCache || (sections "runner").any l.isCoercedRunner

/-! ### One setting, one section, one document -/

variable {l : Libraries}

theorem Lawful.count_agree (h : l.Lawful) (v : l.documents.Value) :
    AgreeUnless (l.isCoercedCount v) (l.documents.reader.count? v)
      (l.layers.reader.count? (l.tree v)) :=
  .of_read fun _ => h.count

theorem Lawful.eviction_agree (h : l.Lawful) (v : l.documents.Value) :
    AgreeUnless (l.isCoercedEviction v) (eviction? l.documents.reader v)
      (eviction? l.layers.reader (l.tree v)) := by
  refine .of_read fun kind hkind => ?_
  obtain ⟨name, hname, hnamed⟩ := Option.bind_eq_some_iff.mp hkind
  exact Option.bind_eq_some_iff.mpr ⟨name, h.choice hname, hnamed⟩

/-- A field that may be missing, of a document and of its tree. -/
theorem field_agree {α : Type} {coerced : l.documents.Value → Bool}
    {strict : l.documents.Value → Option α} {lenient : l.layers.Value → Option α} (default : α)
    {v : Option l.documents.Value}
    (h : ∀ a ∈ v, AgreeUnless (coerced a) (strict a) (lenient (l.tree a))) :
    AgreeUnless (v.any coerced) (field strict default v)
      (field lenient default (v.map l.tree)) := by
  cases v with
  | none => rfl
  | some a => exact h a rfl

/-- A structure whose fields are read one after the other, of a document and of its tree. -/
theorem fields_agree {α : Type} {names : List String} {v : l.documents.Value}
    (hkeeps : l.KeepsFields names v) {coerced : (String → Option l.documents.Value) → Bool}
    {strict : (String → Option l.documents.Value) → Option α}
    {lenient : (String → Option l.layers.Value) → Option α}
    (h : ∀ given shown, l.documents.reader.fields? names v = some given →
      (∀ name ∈ names, shown name = (given name).map l.tree) →
        AgreeUnless (coerced given) (strict given) (lenient shown)) :
    AgreeUnless ((l.documents.reader.fields? names v).any coerced)
      ((l.documents.reader.fields? names v).bind strict)
      ((l.layers.reader.fields? names (l.tree v)).bind lenient) := by
  rw [KeepsFields] at hkeeps
  generalize hgiven : l.documents.reader.fields? names v = given at hkeeps h
  generalize l.layers.reader.fields? names (l.tree v) = shown at hkeeps
  cases hkeeps with
  | none => rfl
  | some hfields => exact h _ _ rfl hfields

theorem Lawful.withCache?_agree (h : l.Lawful) {cache : l.documents.Value}
    (hkeeps : l.KeepsFields cacheNames cache) (s : Settings) :
    AgreeUnless (l.isCoercedCache cache) (withCache? l.documents.reader s cache)
      (withCache? l.layers.reader s (l.tree cache)) := by
  refine fields_agree hkeeps fun given shown _ hshown => ?_
  rw [hshown "max_entries" (by decide), hshown "time_to_live_secs" (by decide),
    hshown "eviction" (by decide)]
  refine (field_agree none fun v _ => h.count_agree v).bind fun maxEntries _ => ?_
  refine (field_agree none fun v _ => h.count_agree v).bind fun timeToLiveSecs _ => ?_
  exact (field_agree .lru fun v _ => h.eviction_agree v).bind_some _

theorem Lawful.withRunner?_agree (h : l.Lawful) {runner : l.documents.Value}
    (hkeeps : l.KeepsFields runnerNames runner) (s : Settings) :
    AgreeUnless (l.isCoercedRunner runner) (withRunner? l.documents.reader s runner)
      (withRunner? l.layers.reader s (l.tree runner)) := by
  refine fields_agree hkeeps fun given shown _ hshown => ?_
  rw [hshown "timeout_ms" (by decide)]
  exact (field_agree none fun v _ => h.count_agree v).bind_some _

theorem Lawful.ofValue?_agree (h : l.Lawful) {document : l.documents.Value}
    (hkeeps : l.Keeps document) :
    AgreeUnless (l.isCoerced document) (ofValue? l.documents.reader document)
      (ofValue? l.layers.reader (l.tree document)) := by
  refine fields_agree hkeeps.sections fun given shown hgiven hshown => ?_
  have hsection (name : String) : l.section? name document = given name := by
    rw [section?, hgiven]
    rfl
  rw [hshown "cache" (by decide), hshown "runner" (by decide)]
  refine AgreeUnless.bind (field_agree ({} : Settings) fun cache hcache => ?_) fun s _ => ?_
  · exact h.withCache?_agree (hkeeps.cache cache (hsection "cache" ▸ hcache)) {}
  · refine field_agree s fun runner hrunner => ?_
    exact h.withRunner?_agree (hkeeps.runner runner (hsection "runner" ▸ hrunner)) s

end Libraries

/-! ### The two loaders -/

/-- Which of the two refusals there is does not matter to what is accepted and to the bounds. -/
theorem checked_agree (read : Option Settings) :
    (∀ s, checked .load read = .ok s ↔ checked .parse read = .ok s) ∧
      ∀ bound, checked .load read = .error (.zero bound) ↔
        checked .parse read = .error (.zero bound) := by
  cases read with
  | none => simp [checked]
  | some s => exact ⟨fun _ => Iff.rfl, fun _ => Iff.rfl⟩

/-- Take a text, on its own in a file, whose document the tree keeps. Whatever settings the text has
as it is written, or whichever of its bounds is zero, loading the file comes to the same. If a
setting is coerced the text is refused as it is written. If none is, the two come to the same
settings, or fail both, and a bound that one of them finds to be zero so does the other. -/
theorem loaders_agree {l : Libraries} (h : l.Lawful) {files : Files}
    {environment : Dotenv.Environment} {path text : String} (hfile : files path = some text)
    (hpath : extension? path = some "toml") (henvironment : NamesNoSetting environment)
    (hkeeps : ∀ document ∈ l.documents.read? text, l.Keeps document) :
    let written := ofText l.documents text
    let loaded := loadFrom l.layers files environment (some path)
    (∀ s, written = .ok s → loaded = .ok s) ∧
      (∀ bound, written = .error (.zero bound) → loaded = .error (.zero bound)) ∧
      (∀ document ∈ l.documents.read? text, l.isCoerced document = true →
        written = .error .parse) ∧
      ((∀ document ∈ l.documents.read? text, l.isCoerced document = false) →
        (∀ s, loaded = .ok s ↔ written = .ok s) ∧
          ∀ bound, loaded = .error (.zero bound) ↔ written = .error (.zero bound)) := by
  intro written loaded
  have hloaded : loaded = checked .load ((l.documents.read? text).map l.tree >>=
      ofValue? l.layers.reader) := by
    rw [← h.file hfile hpath henvironment]
    rfl
  have hrefused : ∀ document ∈ l.documents.read? text, l.isCoerced document = true →
      written = .error .parse := by
    intro document hdocument hcoerced
    have hagree := h.ofValue?_agree (hkeeps document hdocument)
    rw [hcoerced] at hagree
    have hnone : ofValue? l.documents.reader document = none := hagree
    change checked .parse (l.documents.read? text >>= ofValue? l.documents.reader) = _
    rw [Option.mem_def.mp hdocument, Option.bind_eq_bind, Option.bind_some, hnone]
    rfl
  have hsame : (∀ document ∈ l.documents.read? text, l.isCoerced document = false) →
      (∀ s, loaded = .ok s ↔ written = .ok s) ∧
        ∀ bound, loaded = .error (.zero bound) ↔ written = .error (.zero bound) := by
    intro hstrict
    have hread : (l.documents.read? text).map l.tree >>= ofValue? l.layers.reader =
        l.documents.read? text >>= ofValue? l.documents.reader := by
      cases hdocument : l.documents.read? text with
      | none => rfl
      | some document =>
          have hagree := h.ofValue?_agree (hkeeps document hdocument)
          rw [hstrict document hdocument] at hagree
          exact hagree
    rw [hloaded, hread]
    exact checked_agree _
  -- What is not refused as it is written has no setting that is coerced.
  have hstrict (hwritten : written ≠ .error .parse) :
      ∀ document ∈ l.documents.read? text, l.isCoerced document = false := by
    intro document hdocument
    rw [← Bool.not_eq_true]
    exact fun hcoerced => hwritten (hrefused document hdocument hcoerced)
  refine ⟨fun s hs => ?_, fun bound hbound => ?_, hrefused, hsame⟩
  · have hne : written ≠ .error .parse := by simp [hs]
    exact ((hsame (hstrict hne)).1 s).mpr hs
  · have hne : written ≠ .error .parse := by simp [hbound]
    exact ((hsame (hstrict hne)).2 bound).mpr hbound

/-- A single file. -/
def Files.single (path text : String) : Files :=
  fun name => if name = path then some text else none

deriving instance DecidableEq for Except

theorem loaders_agree_on_bounds :
    let text := "[cache]\nmax_entries = 12\neviction = \"fifo\""
    let written := ofText Toml.library text
    let loaded := loadFrom Layered.library (Files.single "c.toml" text) [("PATH", "/bin")]
      (some "c.toml")
    loaded = .ok { maxEntries := some 12, eviction := .fifo } ∧
      (∀ s, loaded = .ok s ↔ written = .ok s) ∧
      ∀ bound, loaded = .error (.zero bound) ↔ written = .error (.zero bound) := by
  intro text written loaded
  have hsectioned : ∀ document ∈ Toml.read? text, Layered.IsSectioned document := by
    decide +kernel
  have hstrict : ∀ document ∈ Layered.libraries.documents.read? text,
      Layered.libraries.isCoerced document = false := by
    decide +kernel
  have hagree := loaders_agree Layered.libraries_lawful
    (show Files.single "c.toml" text "c.toml" = some text from rfl) (by decide +kernel)
    (show NamesNoSetting [("PATH", "/bin")] by unfold NamesNoSetting; decide +kernel)
    fun document hdocument => Layered.keeps_of_sectioned (hsectioned document hdocument)
  exact ⟨hagree.1 _ (by decide +kernel), hagree.2.2.2 hstrict⟩

/-- Libraries that keep the laws may differ otherwise, as those of the program do. A quoted number, a
truth value and a kind in capital letters are only taken loosely. A section in other letter case and
a path as a key are only found in the tree, and a date has no fields there. -/
theorem loaders_differ :
    ∃ l : Libraries, l.Lawful ∧
      let written := ofText l.documents
      let loaded (text : String) :=
        loadFrom l.layers (Files.single "c.toml" text) [] (some "c.toml")
      (written "[cache]\nmax_entries = \"12\"" = .error .parse ∧
        loaded "[cache]\nmax_entries = \"12\"" = .ok { maxEntries := some 12 }) ∧
      (written "cache.max_entries = false" = .error .parse ∧
        loaded "cache.max_entries = false" = .error (.zero .maxEntries)) ∧
      (written "cache.eviction = \"FIFO\"" = .error .parse ∧
        loaded "cache.eviction = \"FIFO\"" = .ok { eviction := .fifo }) ∧
      (written "Cache.max_entries = 5" = .ok {} ∧
        loaded "Cache.max_entries = 5" = .ok { maxEntries := some 5 }) ∧
      (written "\"runner.timeout_ms\" = 5" = .ok {} ∧
        loaded "\"runner.timeout_ms\" = 5" = .ok { timeoutMs := some 5 }) ∧
      written "cache = 1979-05-27" = .ok {} ∧ loaded "cache = 1979-05-27" = .error .load := by
  refine ⟨Layered.libraries, Layered.libraries_lawful, ?_⟩
  decide +kernel

end Settings

end Scriptlet
