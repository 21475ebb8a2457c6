import EngineBridge.Settings.FromJson
import EngineBridge.Proofs.Json.Printing
import EngineBridge.Proofs.Settings.Document

/-! Settings that a document leaves out. Sections and settings may be missing, stand in any order
and have anything unknown among them: what is there counts, and the rest has its default. -/
namespace EngineBridge

namespace Json.Tree

def ofNamed (named : List (String × Tree)) : Tree := .object (named.map fun f => (some f.1, f.2))

/-- Whether a tree is an object that has these fields, in any order, and any others of names that
are not taken. -/
def IsAmong (t : Tree) (own : List (String × Tree)) (taken : List String) : Prop :=
  ∃ named others, t = ofNamed named ∧ named.Perm (own ++ others) ∧ ∀ f ∈ others, f.1 ∉ taken

theorem fields?_ofNamed (named : List (String × Tree)) :
    Document.fields? (ofNamed named) = some named := by
  change (named.map fun f => (some f.1, f.2)).mapM
    (fun f : Option String × Tree => f.1.map (·, f.2)) = _
  induction named with
  | nil => rfl
  | cons f rest ih =>
    rw [List.map_cons, List.mapM_cons, ih]
    rfl

theorem readRecord_of_isAmong {σ ι : Type} {fields : List (Document.Field Tree σ)} {own : List ι}
    {name : ι → String} {value : ι → Tree} {change : ι → σ → σ} {t : Tree}
    (h : Document.Settles fields own name value change)
    (ht : t.IsAmong (own.map fun i => (name i, value i)) (fields.map (·.name))) (start : σ) :
    Document.readRecord fields start t = some (own.foldl (fun s i => change i s) start) := by
  obtain ⟨named, others, rfl, hperm, hothers⟩ := ht
  have hitems : Document.items? (ofNamed named) = none := rfl
  unfold Document.readRecord
  rw [hitems, fields?_ofNamed]
  exact h.readFields_eq hperm hothers start

end Json.Tree

theorem Json.fieldTrees_eq (fields : List (String × Json)) :
    fieldTrees fields = fields.map fun f => (some f.1, f.2.tree) := by
  induction fields with
  | nil => rfl
  | cons f rest ih => rw [fieldTrees, ih, List.map_cons]

theorem Json.isAmong_tree {ι : Type} {own : List ι} {name : ι → String} {value : ι → Json}
    {fields : List (String × Json)} (others : List (String × Json)) {taken : List String}
    (hperm : fields.Perm (own.map (fun i => (name i, value i)) ++ others))
    (hothers : ∀ f ∈ others, f.1 ∉ taken) :
    (Json.object fields).tree.IsAmong (own.map fun i => (name i, (value i).tree)) taken := by
  refine ⟨fields.map fun f => (f.1, f.2.tree), others.map fun f => (f.1, f.2.tree), ?_, ?_, ?_⟩
  · rw [tree, fieldTrees_eq, Tree.ofNamed, List.map_map]
    rfl
  · have htrees := hperm.map fun f => (f.1, f.2.tree)
    rwa [List.map_append, List.map_map] at htrees
  · rw [List.forall_mem_map]
    exact hothers

inductive Section where
  | display
  | output
  | engine
  | logging
  deriving DecidableEq

inductive Setting where
  | scaleFactor
  | framesDir
  | echoStdout
  | program
  | frames
  | width
  | height
  | level
  | engineLevel
  deriving DecidableEq

namespace Section

def all : List Section := [.display, .output, .engine, .logging]

def name : Section → String
  | .display => "display"
  | .output => "output"
  | .engine => "engine"
  | .logging => "logging"

def settings : Section → List Setting
  | .display => [.scaleFactor]
  | .output => [.framesDir, .echoStdout]
  | .engine => [.program, .frames, .width, .height]
  | .logging => [.level, .engineLevel]

end Section

namespace Setting

def name : Setting → String
  | .scaleFactor => "scale_factor"
  | .framesDir => "frames_dir"
  | .echoStdout => "echo_stdout"
  | .program => "program"
  | .frames => "frames"
  | .width => "width"
  | .height => "height"
  | .level => "level"
  | .engineLevel => "engine_level"

def home : Setting → Section
  | .scaleFactor => .display
  | .framesDir | .echoStdout => .output
  | .program | .frames | .width | .height => .engine
  | .level | .engineLevel => .logging

end Setting

theorem Section.home_of_mem_settings {σ : Section} {f : Setting} (h : f ∈ σ.settings) :
    f.home = σ := by
  revert f
  cases σ <;> decide

/-- What a document leaves out: whole sections, and settings of the others. -/
structure Omission where
  sections : List Section := []
  settings : List Setting := []

def Omission.Covers (k : Omission) (f : Setting) : Prop := f.home ∈ k.sections ∨ f ∈ k.settings

instance (k : Omission) (f : Setting) : Decidable (k.Covers f) :=
  inferInstanceAs (Decidable (_ ∨ _))

namespace Settings

def value (s : Settings) : Setting → Json
  | .scaleFactor => .float s.display.scaleFactor
  | .framesDir =>
    match s.output.framesDir with
    | some dir => .text dir
    | none => .null
  | .echoStdout => .bool s.output.echoStdout
  | .program => .text s.engine.program.name
  | .frames => .int s.engine.frames.toNat
  | .width => .int s.engine.width.toNat
  | .height => .int s.engine.height.toNat
  | .level => .text s.logging.level
  | .engineLevel => .text s.logging.engineLevel

theorem toJson_eq (s : Settings) :
    s.toJson = .object (Section.all.map fun σ =>
      (σ.name, .object (σ.settings.map fun f => (f.name, s.value f)))) := rfl

/-- The settings with the default for whatever is left out. -/
def without (s : Settings) (k : Omission) : Settings :=
  let pick {α : Type} (f : Setting) (get : Settings → α) : α :=
    if k.Covers f then get {} else get s
  { display := { scaleFactor := pick .scaleFactor (·.display.scaleFactor) }
    output := {
      framesDir := pick .framesDir (·.output.framesDir)
      echoStdout := pick .echoStdout (·.output.echoStdout) }
    engine := {
      program := pick .program (·.engine.program)
      frames := pick .frames (·.engine.frames)
      width := pick .width (·.engine.width)
      height := pick .height (·.engine.height) }
    logging := {
      level := pick .level (·.logging.level)
      engineLevel := pick .engineLevel (·.logging.engineLevel) } }

def IsSection (s : Settings) (k : Omission) (σ : Section) (t : Json.Tree) : Prop :=
  t.IsAmong ((σ.settings.filter (· ∉ k.settings)).map fun f => (f.name, (s.value f).tree))
    (σ.settings.map Setting.name)

/-- Whether a tree is a document of the settings without what is left out, in any order, with any
other fields in it and in its sections. -/
def IsPartial (s : Settings) (k : Omission) (t : Json.Tree) : Prop :=
  ∃ parts : Section → Json.Tree, (∀ σ ∉ k.sections, s.IsSection k σ (parts σ)) ∧
    t.IsAmong ((Section.all.filter (· ∉ k.sections)).map fun σ => (σ.name, parts σ))
      (Section.all.map Section.name)

end Settings

/-- Whether the reader takes what the writer makes of a number for that number. -/
def Json.ReadsBack (x : Float) : Prop :=
  ∀ n, Json.Numeral.parse? (Json.renderFloat x).toList = some n → n.asFloat? = some x

namespace Json

theorem number?_tree {x : Float} (hfinite : x.isFinite) (hback : ReadsBack x) :
    Document.number? (Json.float x).tree = some x := by
  obtain ⟨n, htree, hn⟩ := tree_float hfinite
  rw [htree]
  exact hback n hn.parse?

theorem word?_tree (n : UInt32) : Document.word? (Json.int n.toNat).tree = some n := by
  have hlt := n.toNat_lt
  have hvalue : (Numeral.ofInt n.toNat).value? = some (.int n.toNat) :=
    Numeral.value?_ofInt (by omega) (by omega)
  change ((Numeral.ofInt n.toNat).value?.bind asInt?).bind Word.unsigned? = _
  rw [hvalue, Option.bind_some, asInt?, Option.bind_some, Word.unsigned?_toNat]

theorem ofDocument?_tree (p : DemoProgram) :
    DemoProgram.ofDocument? (Json.text p.name).tree = some p := by
  cases p <;> rfl

end Json

def DisplaySettings.take (s : DisplaySettings) : Setting → DisplaySettings → DisplaySettings
  | .scaleFactor, d => { d with scaleFactor := s.scaleFactor }
  | _, d => d

def OutputSettings.take (s : OutputSettings) : Setting → OutputSettings → OutputSettings
  | .framesDir, o => { o with framesDir := s.framesDir }
  | .echoStdout, o => { o with echoStdout := s.echoStdout }
  | _, o => o

def EngineSettings.take (s : EngineSettings) : Setting → EngineSettings → EngineSettings
  | .program, e => { e with program := s.program }
  | .frames, e => { e with frames := s.frames }
  | .width, e => { e with width := s.width }
  | .height, e => { e with height := s.height }
  | _, e => e

def LoggingSettings.take (s : LoggingSettings) : Setting → LoggingSettings → LoggingSettings
  | .level, l => { l with level := s.level }
  | .engineLevel, l => { l with engineLevel := s.engineLevel }
  | _, l => l

namespace Settings

open Document

variable (s : Settings)

theorem settles_display (hfinite : s.display.scaleFactor.isFinite)
    (hback : Json.ReadsBack s.display.scaleFactor) :
    Settles DisplaySettings.fields Section.display.settings Setting.name
      (fun f => (s.value f).tree) s.display.take where
  distinct := by decide
  reads := by
    rintro f (_ | ⟨_, ⟨⟩⟩)
    exact ⟨_, rfl, read_field (Json.number?_tree hfinite hback)⟩
  commutes := by
    intro f _ g _ d
    cases f <;> cases g <;> rfl

theorem settles_output : Settles OutputSettings.fields Section.output.settings Setting.name
    (fun f => (s.value f).tree) s.output.take where
  distinct := by decide
  reads := by
    rintro f (_ | ⟨_, _ | ⟨_, ⟨⟩⟩⟩)
    · refine ⟨_, rfl, read_field ?_⟩
      unfold value
      cases s.output.framesDir <;> rfl
    · exact ⟨_, rfl, read_field rfl⟩
  commutes := by
    intro f _ g _ o
    cases f <;> cases g <;> rfl

theorem settles_engine : Settles EngineSettings.fields Section.engine.settings Setting.name
    (fun f => (s.value f).tree) s.engine.take where
  distinct := by decide
  reads := by
    rintro f (_ | ⟨_, _ | ⟨_, _ | ⟨_, _ | ⟨_, ⟨⟩⟩⟩⟩⟩)
    · exact ⟨_, rfl, read_field (Json.ofDocument?_tree s.engine.program)⟩
    · exact ⟨_, rfl, read_field (Json.word?_tree s.engine.frames)⟩
    · exact ⟨_, rfl, read_field (Json.word?_tree s.engine.width)⟩
    · exact ⟨_, rfl, read_field (Json.word?_tree s.engine.height)⟩
  commutes := by
    intro f _ g _ e
    cases f <;> cases g <;> rfl

theorem settles_logging : Settles LoggingSettings.fields Section.logging.settings Setting.name
    (fun f => (s.value f).tree) s.logging.take where
  distinct := by decide
  reads := by
    rintro f (_ | ⟨_, _ | ⟨_, ⟨⟩⟩⟩)
    · exact ⟨_, rfl, read_field rfl⟩
    · exact ⟨_, rfl, read_field rfl⟩
  commutes := by
    intro f _ g _ l
    cases f <;> cases g <;> rfl

variable {s} {k : Omission} {t : Json.Tree}

theorem readRecord_of_isSection {σ : Type} {fields : List (Field Json.Tree σ)} {place : Section}
    {take : Setting → σ → σ}
    (h : Settles fields place.settings Setting.name (fun f => (s.value f).tree) take)
    (hnames : fields.map (·.name) = place.settings.map Setting.name)
    (hkept : place ∉ k.sections) (ht : s.IsSection k place t) (start : σ) :
    readRecord fields start t =
      some (place.settings.foldl (fun r f => if k.Covers f then r else take f r) start) := by
  unfold IsSection at ht
  rw [← hnames] at ht
  rw [Json.Tree.readRecord_of_isAmong (h.filter _) ht, List.foldl_filter]
  congr 1
  refine List.foldl_ext _ _ _ fun r f hf => ?_
  have hcovers : k.Covers f ↔ f ∈ k.settings :=
    or_iff_right (by rwa [Section.home_of_mem_settings hf])
  by_cases hleft : f ∈ k.settings <;> simp [hcovers, hleft]

theorem readRecord_display (hfinite : s.display.scaleFactor.isFinite)
    (hback : Json.ReadsBack s.display.scaleFactor) (hkept : Section.display ∉ k.sections)
    (ht : s.IsSection k .display t) :
    readRecord DisplaySettings.fields {} t = some (s.without k).display := by
  rw [readRecord_of_isSection (s.settles_display hfinite hback) rfl hkept ht]
  simp only [Section.settings, List.foldl_cons, List.foldl_nil, without]
  split_ifs <;> rfl

theorem readRecord_output (hkept : Section.output ∉ k.sections) (ht : s.IsSection k .output t) :
    readRecord OutputSettings.fields {} t = some (s.without k).output := by
  rw [readRecord_of_isSection s.settles_output rfl hkept ht]
  simp only [Section.settings, List.foldl_cons, List.foldl_nil, without]
  split_ifs <;> rfl

theorem readRecord_engine (hkept : Section.engine ∉ k.sections) (ht : s.IsSection k .engine t) :
    readRecord EngineSettings.fields {} t = some (s.without k).engine := by
  rw [readRecord_of_isSection s.settles_engine rfl hkept ht]
  simp only [Section.settings, List.foldl_cons, List.foldl_nil, without]
  split_ifs <;> rfl

theorem readRecord_logging (hkept : Section.logging ∉ k.sections) (ht : s.IsSection k .logging t) :
    readRecord LoggingSettings.fields {} t = some (s.without k).logging := by
  rw [readRecord_of_isSection s.settles_logging rfl hkept ht]
  simp only [Section.settings, List.foldl_cons, List.foldl_nil, without]
  split_ifs <;> rfl

def take (s : Settings) : Section → Settings → Settings
  | .display, r => { r with display := s.display }
  | .output, r => { r with output := s.output }
  | .engine, r => { r with engine := s.engine }
  | .logging, r => { r with logging := s.logging }

theorem settles_sections (hfinite : s.display.scaleFactor.isFinite)
    (hback : Json.ReadsBack s.display.scaleFactor) {parts : Section → Json.Tree}
    (hparts : ∀ σ ∉ k.sections, s.IsSection k σ (parts σ)) :
    Settles fields (Section.all.filter (· ∉ k.sections)) Section.name parts
      (s.without k).take where
  distinct := (show (Section.all.map Section.name).Nodup by decide).sublist
    (List.filter_sublist.map _)
  reads := by
    intro σ hσ
    have hkept : σ ∉ k.sections := of_decide_eq_true (List.mem_filter.mp hσ).2
    have ht := hparts σ hkept
    cases σ with
    | display => exact ⟨_, rfl, read_field (readRecord_display hfinite hback hkept ht)⟩
    | output => exact ⟨_, rfl, read_field (readRecord_output hkept ht)⟩
    | engine => exact ⟨_, rfl, read_field (readRecord_engine hkept ht)⟩
    | logging => exact ⟨_, rfl, read_field (readRecord_logging hkept ht)⟩
  commutes := by
    intro σ _ τ _ r
    cases σ <;> cases τ <;> rfl

theorem take_without_of_mem {σ : Section} (h : σ ∈ k.sections) (r : Settings) :
    (s.without k).take σ r = ({} : Settings).take σ r := by
  have hcovers : ∀ f ∈ σ.settings, k.Covers f := fun f hf =>
    .inl (Section.home_of_mem_settings hf ▸ h)
  cases σ <;> simp_all [take, without, Section.settings]

theorem foldl_take_without :
    (Section.all.filter (· ∉ k.sections)).foldl (fun r σ => (s.without k).take σ r) {} =
      s.without k := by
  rw [List.foldl_filter]
  have hstep (r : Settings) (σ : Section) (hr : ({} : Settings).take σ r = r) :
      (if decide (σ ∉ k.sections) = true then (s.without k).take σ r else r) =
        (s.without k).take σ r := by
    by_cases h : σ ∈ k.sections
    · rw [if_neg (by simpa using h), take_without_of_mem h, hr]
    · rw [if_pos (by simpa using h)]
  simp only [Section.all, List.foldl_cons, List.foldl_nil]
  rw [hstep _ .display rfl, hstep _ .output rfl, hstep _ .engine rfl, hstep _ .logging rfl]
  rfl

theorem ofDocument?_of_isPartial (hfinite : s.display.scaleFactor.isFinite)
    (hback : Json.ReadsBack s.display.scaleFactor) (ht : s.IsPartial k t) :
    ofDocument? t = some (s.without k) := by
  obtain ⟨parts, hparts, ht⟩ := ht
  have hread := Json.Tree.readRecord_of_isAmong (settles_sections hfinite hback hparts) ht {}
  rwa [foldl_take_without] at hread

theorem without_nothing (s : Settings) : s.without {} = s := rfl

theorem isPartial_tree (s : Settings) : s.IsPartial {} s.toJson.tree := by
  let part (σ : Section) : Json := .object (σ.settings.map fun f => (f.name, s.value f))
  rw [toJson_eq]
  refine ⟨fun σ => (part σ).tree, fun σ _ => Json.isAmong_tree [] ?_ nofun,
    Json.isAmong_tree [] ?_ nofun⟩
  · simp
  · simp [part]

theorem isFinite_toJson (h : s.display.scaleFactor.isFinite) : s.toJson.IsFinite := by
  refine ⟨⟨h, trivial⟩, ⟨?_, trivial, trivial⟩, ⟨trivial, trivial, trivial, trivial, trivial⟩,
    ⟨trivial, trivial, trivial⟩, trivial⟩
  cases s.output.framesDir <;> trivial

/-- Settings with parts left out, with others added, and in any order and layout, are read with the
default for each part that is missing and the rest as it is. What is added need not have a value. -/
theorem ofJson?_of_isPartial (s : Settings) (hfinite : s.display.scaleFactor.isFinite)
    (hback : Json.ReadsBack s.display.scaleFactor) :
    (∀ (k : Omission) (t : Json.Tree), s.IsPartial k t →
      ofDocument? t = some (s.without k) ∧
      ∀ text : String, Json.Written t.tokens text.toList → ofJson? text = some (s.without k)) ∧
    s.without {} = s ∧ ofJson? s.toJson.renderPretty = some s := by
  have hread {t : Json.Tree} {text : String} (htext : Json.Written t.tokens text.toList) :
      ofJson? text = ofDocument? t := by
    unfold ofJson?
    rw [Json.Tree.ofText?_of_written htext]
    rfl
  refine ⟨fun k t ht => ?_, s.without_nothing, ?_⟩
  · have hdocument := ofDocument?_of_isPartial hfinite hback ht
    exact ⟨hdocument, fun text htext => (hread htext).trans hdocument⟩
  · rw [hread (Json.written_renderPretty (isFinite_toJson hfinite))]
    exact ofDocument?_of_isPartial hfinite hback s.isPartial_tree

/-- A document from back to front, with a stranger in it and one in a section. -/
theorem ofJson?_of_isPartial_reversed :
    ofJson? (Json.object [
      ("extra", .list [.bool true, .object []]),
      ("engine", .object [("height", .int 7), ("shade", .null), ("program", .text "gradient")]),
      ("display", .object [("scale_factor", .float 1.5)])]).renderPretty =
      some {
        display := { scaleFactor := 1.5 }
        engine := { program := .gradient, height := 7 } } := by
  let s : Settings := {
    display := { scaleFactor := 1.5 }
    output := { framesDir := some "frames", echoStdout := false }
    engine := { program := .gradient, frames := 2, width := 5, height := 7 } }
  let k : Omission := { sections := [.output, .logging], settings := [.frames, .width] }
  let display : List (String × Json) := [("scale_factor", .float 1.5)]
  let engine : List (String × Json) :=
    [("height", .int 7), ("shade", .null), ("program", .text "gradient")]
  let extra : Json := .list [.bool true, .object []]
  let v : List (String × Json) :=
    [("extra", extra), ("engine", .object engine), ("display", .object display)]
  let part : Section → Json
    | .engine => .object engine
    | _ => .object display
  have hpartial : s.IsPartial k (Json.object v).tree := by
    refine ⟨fun σ => (part σ).tree, fun σ hσ => ?_,
      Json.isAmong_tree [("extra", extra)] (List.reverse_perm [_, _, _]) (by decide)⟩
    cases σ with
    | display => exact Json.isAmong_tree [] (.refl _) nofun
    | engine =>
      exact Json.isAmong_tree [("shade", .null)] (List.perm_append_singleton _ [_, _]) (by decide)
    | output | logging => exact absurd hσ (by decide)
  have hback : Json.ReadsBack 1.5 := by
    intro n hn
    have hparse : Json.Numeral.parse? (Json.renderFloat 1.5).toList =
        some ⟨false, [1], [5], none⟩ := by decide +kernel
    obtain rfl := Option.some.inj (hparse.symm.trans hn)
    decide +kernel
  have hfinite : (1.5 : Float).isFinite := by decide +kernel
  have hwritten := Json.written_renderPretty (v := .object v)
    ⟨⟨trivial, trivial, trivial⟩, ⟨trivial, trivial, trivial, trivial⟩, ⟨hfinite, trivial⟩, trivial⟩
  exact ((ofJson?_of_isPartial s hfinite hback).1 k _ hpartial).2 _ hwritten

end Settings

end EngineBridge
