import PipeBlocks.Proofs.FileSystem
import PipeBlocks.World

/-! What the parts of a run do to a world.

Each part has one equation: what it gives in a world and the world after it (`exec`). Reading
changes nothing, reporting only adds to the diagnostics, and printing only to the output; so what
is read does not depend on what came before, as long as no file is written. -/
namespace PipeBlocks

/-- A text and the name under which a run knows it. -/
structure Document where
  name : Text
  text : Text
deriving DecidableEq, Repr

/-- An excluded document stays as it is. -/
theorem Expander.code_of_skipped {p : Expander} {d : Document}
    (h : (p.expand d.text d.name).skipped = true) : (p.expand d.text d.name).code = d.text := by
  unfold expand at h ⊢
  split at h
  · rfl
  · cases h

theorem Expander.skipped_expand (p : Expander) (d : Document) :
    (p.expand d.text d.name).skipped = p.exclusions.excludes d.name := by
  unfold expand Exclusions.excludes
  cases p.exclusions.firstMatch? d.name <;> rfl

namespace World

def told (w : World) (ds : List Diagnostic) : World := { w with diagnostics := w.diagnostics ++ ds }

def printed (w : World) (t : Text) : World := { w with output := w.output ++ t }

@[simp] theorem told_nil (w : World) : w.told [] = w := by simp [told]

@[simp] theorem told_told (w : World) (ds ds' : List Diagnostic) :
    (w.told ds).told ds' = w.told (ds ++ ds') := by simp [told]

def textOf (w : World) (name : Text) : Except Failure Text :=
  (w.files.read name).mapError (.readingFile name)

def inputText (w : World) : Except Failure Text := w.input.read.mapError .readingInput

/-- The settings that the arguments come to. -/
def settings (w : World) (a : CommandLine.Arguments) : Except Failure Config :=
  match a.config with
  | none => .ok (a.override {})
  | some path =>
    match Config.ofFile path (w.files.read path) with
    | .ok c => .ok (a.override c)
    | .error e => .error (.loadingConfig path e)

/-- What a run with the given files reads, if all of it can be read: the files, or standard input
if there are none. -/
def Reads (w : World) (files : List Text) (docs : List Document) : Prop :=
  if files = [] then ∃ t, w.inputText = .ok t ∧ docs = [⟨inputName, t⟩]
  else docs.map (·.name) = files ∧ ∀ d ∈ docs, w.textOf d.name = .ok d.text

end World

namespace Run
open CommandLine (Arguments)

/-! ### Parts of a run -/

section Exec
variable {α β : Type}

/-- What a part of a run gives in a world, and the world after it. -/
def exec (x : RunM (StateM World) α) (w : World) : Except Failure α × World := (ExceptT.run x).run w

theorem exec_pure (a : α) (w : World) : exec (pure a) w = (.ok a, w) := rfl

theorem exec_throw (e : Failure) (w : World) : exec (throw e : RunM _ α) w = (.error e, w) := rfl

/-- What cannot fail, as a part of a run. -/
theorem exec_lift (x : StateM World α) (w : World) :
    exec (liftM x) w = (.ok (x.run w).1, (x.run w).2) :=
  rfl

theorem exec_bind (x : RunM (StateM World) α) (f : α → RunM (StateM World) β) (w : World) :
    exec (x >>= f) w = match exec x w with
      | (.ok a, w') => exec (f a) w'
      | (.error e, w') => (.error e, w') := by
  unfold exec
  rw [ExceptT.run_bind, StateT.run_bind]
  show (match (ExceptT.run x).run w with | (r, w') => _ : Except Failure β × World) = _
  rcases (ExceptT.run x).run w with ⟨_ | _, w'⟩ <;> rfl

theorem exec_map (g : α → β) (x : RunM (StateM World) α) (w : World) :
    exec (g <$> x) w = (g <$> (exec x w).1, (exec x w).2) := by
  rw [map_eq_pure_bind, exec_bind]
  rcases exec x w with ⟨_ | _, w'⟩ <;> rfl

theorem exec_lift_bind (x : StateM World α) (f : α → RunM (StateM World) β) (w : World) :
    exec (liftM x >>= f) w = exec (f (x.run w).1) (x.run w).2 := by
  rw [exec_bind, exec_lift]

end Exec

section ForM
variable {g : Text → RunM (StateM World) Unit} {w : World}

theorem exec_forM_cons (name : Text) (names : List Text) (w : World) :
    exec ((name :: names).forM g) w = match exec (g name) w with
      | (.ok _, w') => exec (names.forM g) w'
      | (.error e, w') => (.error e, w') := by
  show exec (g name >>= fun _ => names.forM g) w = _
  rw [exec_bind]
  rcases exec (g name) w with ⟨_ | _, w'⟩ <;> rfl

theorem exec_forM_append {names : List Text} {w' : World} (h : exec (names.forM g) w = (.ok (), w'))
    (rest : List Text) : exec ((names ++ rest).forM g) w = exec (rest.forM g) w' := by
  induction names generalizing w with
  | nil =>
    cases h
    rfl
  | cons name names ih =>
    rw [List.cons_append, exec_forM_cons]
    rw [exec_forM_cons] at h
    rcases hg : exec (g name) w with ⟨e | u, w₁⟩
    · rw [hg] at h
      cases h
    · rw [hg] at h
      exact ih h

/-- At a name that fails, all ends. -/
theorem exec_forM_of_error {rest : List Text}
    (h : ∀ name ∈ rest.head?, ∃ e, exec (g name) w = (.error e, w)) :
    ∃ r, exec (rest.forM g) w = (r, w) ∧ (r = .ok () ↔ rest = []) := by
  cases rest with
  | nil => exact ⟨.ok (), rfl, by simp⟩
  | cons name rest =>
    obtain ⟨e, he⟩ := h name rfl
    exact ⟨.error e, by rw [exec_forM_cons, he], by simp⟩

end ForM

/-! ### Reading and writing -/

theorem run_readFile (name : Text) (w : World) :
    (Host.readFile name : StateM World _).run w = (w.files.read name, w) := rfl

theorem run_readInput (w : World) : (Host.readInput : StateM World _).run w = (w.input.read, w) := rfl

theorem exec_read (name : Text) (w : World) : exec (Run.read name) w = (w.textOf name, w) := by
  unfold Run.read World.textOf
  rw [exec_lift_bind, run_readFile]
  cases w.files.read name with
  | ok t => exact exec_pure t w
  | error e => exact exec_throw (.readingFile name e) w

theorem textOf_eq_ok_iff {w : World} {name t : Text} :
    w.textOf name = .ok t ↔ w.files.text? name = some t := by
  rw [FileSystem.text?_eq_some_iff]
  unfold World.textOf
  cases w.files.read name <;> simp [Except.mapError]

/-- What begins with a file that cannot be read ends there. -/
theorem exec_read_bind {α : Type} {w : World} {name : Text} (h : w.files.text? name = none)
    (f : Text → RunM (StateM World) α) : ∃ e, exec (Run.read name >>= f) w = (.error e, w) := by
  rw [exec_bind, exec_read]
  cases ht : w.textOf name with
  | error e => exact ⟨e, rfl⟩
  | ok t =>
    rw [textOf_eq_ok_iff, h] at ht
    cases ht

theorem exec_readInput (w : World) : exec Run.readInput w = (w.inputText, w) := by
  unfold Run.readInput World.inputText
  rw [exec_lift_bind, run_readInput]
  cases w.input.read with
  | ok t => exact exec_pure t w
  | error e => exact exec_throw (.readingInput e) w

theorem exec_resolve (a : Arguments) (w : World) : exec (Run.resolve a) w = (w.settings a, w) := by
  unfold Run.resolve World.settings
  cases a.config with
  | none => rfl
  | some path =>
    dsimp only
    rw [exec_lift_bind, run_readFile]
    dsimp only
    cases Config.ofFile path (w.files.read path) with
    | ok c => exact exec_pure (a.override c) w
    | error e => exact exec_throw (.loadingConfig path e) w

theorem run_writeFile (path t : Text) (w : World) :
    (Host.writeFile path t : StateM World _).run w = match w.files.write path t with
      | .ok files => (.ok (), { w with files })
      | .error e => (.error e, w) := by
  show (do
    match w.files.write path t with
    | .ok files =>
      set { w with files }
      return .ok ()
    | .error e => return .error e : StateM World (Except FileError Unit)).run w = _
  cases w.files.write path t <;> rfl

/-! ### Reporting -/

section Report
variable (f : Log.Filter) (p : Expander)

/-- What an entry adds to the diagnostics. -/
def shown (e : Log.Entry) : List Diagnostic := if f.shows e then [.log e] else []

theorem run_log (e : Log.Entry) (w : World) :
    (Run.log f e : StateM World Unit).run w = ((), w.told (shown f e)) := by
  unfold Run.log shown
  split
  · rfl
  · rw [World.told_nil]
    rfl

theorem run_bind {α β : Type} (x : StateM World α) (g : α → StateM World β) (w : World) :
    (x >>= g).run w = (g (x.run w).1).run (x.run w).2 := rfl

/-- Actions that only report, one after another. -/
theorem run_forM_of_told {α : Type} {g : α → StateM World Unit} {ds : α → List Diagnostic}
    (hg : ∀ a w, (g a).run w = ((), w.told (ds a))) (l : List α) (w : World) :
    (l.forM g).run w = ((), w.told (l.flatMap ds)) := by
  induction l generalizing w with
  | nil =>
    rw [List.flatMap_nil, World.told_nil]
    rfl
  | cons a rest ih =>
    show (g a >>= fun _ => rest.forM g).run w = _
    rw [run_bind, hg, ih, World.told_told, List.flatMap_cons]

/-- What is reported of a document. -/
def reports (d : Document) : List Diagnostic :=
  let expansion := p.expand d.text d.name
  expansion.events.flatMap (fun e => shown f (.ofEvent e)) ++
    if expansion.skipped then shown f (.excludedFile d.name)
    else expansion.replacements.map (.replaced d.name)

theorem run_expandDocument (d : Document) (w : World) :
    (expandDocument f p d.name d.text : StateM World Expansion).run w =
      (p.expand d.text d.name, w.told (reports f p d)) := by
  have hevents := run_forM_of_told (fun e => run_log f (.ofEvent e)) (p.expand d.text d.name).events w
  have hrecords (w : World) :
      ((p.expand d.text d.name).replacements.forM fun r =>
          (Host.diagnose (.replaced d.name r) : StateM World Unit)).run w =
        ((), w.told ((p.expand d.text d.name).replacements.flatMap fun r => [.replaced d.name r])) :=
    run_forM_of_told (fun _ _ => rfl) _ w
  unfold expandDocument reports
  dsimp only
  rw [run_bind, hevents]
  split
  · rw [run_bind, run_log, World.told_told]
    rfl
  · rw [run_bind, hrecords, World.told_told, List.map_eq_flatMap]
    rfl

/-! ### Documents -/

/-- The world after the expansions of documents were printed. -/
def afterPrinting (docs : List Document) (w : World) : World :=
  { w with
    output := w.output ++ docs.flatMap fun d => (p.expand d.text d.name).code
    diagnostics := w.diagnostics ++ docs.flatMap (reports f p) }

@[simp] theorem afterPrinting_nil (w : World) : afterPrinting f p [] w = w := by
  simp [afterPrinting]

theorem afterPrinting_cons (d : Document) (docs : List Document) (w : World) :
    afterPrinting f p (d :: docs) w = afterPrinting f p docs (afterPrinting f p [d] w) := by
  simp [afterPrinting]

theorem exec_expandDocument_print (d : Document) (w : World) :
    exec (do let expansion ← (expandDocument f p d.name d.text : StateM World Expansion)
             (Host.print expansion.code : StateM World Unit)) w =
      (.ok (), afterPrinting f p [d] w) := by
  rw [exec_lift_bind, run_expandDocument, exec_lift]
  simp only [afterPrinting, World.told, List.flatMap_singleton]
  rfl

theorem exec_printFile {d : Document} {w : World} (h : w.textOf d.name = .ok d.text) :
    exec (printFile f p d.name) w = (.ok (), afterPrinting f p [d] w) := by
  unfold printFile
  rw [exec_bind, exec_read, h]
  exact exec_expandDocument_print f p d w

/-- Files are printed one after another. -/
theorem exec_forM_printFile {docs : List Document} {w : World}
    (h : ∀ d ∈ docs, w.textOf d.name = .ok d.text) :
    exec ((docs.map (·.name)).forM (printFile f p)) w = (.ok (), afterPrinting f p docs w) := by
  induction docs generalizing w with
  | nil =>
    rw [List.map_nil, afterPrinting_nil]
    exact exec_pure () w
  | cons d rest ih =>
    show exec (printFile f p d.name >>= fun _ => (rest.map (·.name)).forM (printFile f p)) w = _
    rw [exec_bind, exec_printFile f p (h d (List.mem_cons_self ..)), afterPrinting_cons f p d rest]
    exact ih fun d hd => h d (List.mem_cons_of_mem _ hd)

end Report

/-! ### Runs -/

section Perform
variable {setting : Option Text} {a : Arguments} {c : Config} {w : World}

/-- The world in which the settings were reported. -/
def afterSettings (setting : Option Text) (a : Arguments) (c : Config) (w : World) : World :=
  w.told (shown (.ofSetting setting a.verbose) (.resolvedConfig c))

theorem exec_perform_of_error {e : Failure} (hc : w.settings a = .error e) :
    exec (perform setting a) w = (.error e, w) := by
  unfold perform
  dsimp only
  rw [exec_bind, exec_resolve, hc]

/-- What a run does once the settings are reported. -/
def performWith (f : Log.Filter) (p : Expander) (a : Arguments) : RunM (StateM World) Unit :=
  if a.listPipes then listPipes p a.files
  else if a.files = [] then do
    let content ← readInput
    let expansion ← (expandDocument f p inputName content : StateM World Expansion)
    (Host.print expansion.code : StateM World Unit)
  else if a.inPlace then a.files.forM (updateFile f p)
  else a.files.forM (printFile f p)

theorem exec_perform (hc : w.settings a = .ok c) :
    exec (perform setting a) w =
      exec (performWith (.ofSetting setting a.verbose) c.expander a) (afterSettings setting a c w) := by
  unfold perform
  dsimp only
  rw [exec_bind, exec_resolve, hc]
  dsimp only
  rw [exec_lift_bind, run_log]
  rfl

theorem exec_perform_of_listPipes (hc : w.settings a = .ok c) (h : a.listPipes = true) :
    exec (perform setting a) w =
      exec (listPipes c.expander a.files) (afterSettings setting a c w) := by
  rw [exec_perform hc, performWith, if_pos h]

/-- What a run does with files: it updates them or prints them. -/
theorem exec_perform_of_files (hc : w.settings a = .ok c) (hl : a.listPipes = false)
    (hfiles : a.files ≠ []) :
    exec (perform setting a) w =
      exec (a.files.forM ((if a.inPlace then updateFile else printFile)
        (.ofSetting setting a.verbose) c.expander)) (afterSettings setting a c w) := by
  rw [exec_perform hc, performWith, if_neg (by simp [hl]), if_neg hfiles]
  cases a.inPlace <;> rfl

/-- A run that only prints reads all documents and prints what each expands to. -/
theorem exec_perform_of_print (hc : w.settings a = .ok c) (hl : a.listPipes = false)
    (hi : a.inPlace = false) {docs : List Document} (hdocs : w.Reads a.files docs) :
    exec (perform setting a) w = (.ok (), afterPrinting (.ofSetting setting a.verbose) c.expander docs
      (afterSettings setting a c w)) := by
  unfold World.Reads at hdocs
  split at hdocs
  · rename_i hfiles
    obtain ⟨t, ht, rfl⟩ := hdocs
    have hinput : (afterSettings setting a c w).inputText = .ok t := ht
    rw [exec_perform hc, performWith, if_neg (by simp [hl]), if_pos hfiles, exec_bind, exec_readInput,
      hinput]
    exact exec_expandDocument_print _ _ ⟨inputName, t⟩ _
  · rename_i hfiles
    obtain ⟨hnames, hread⟩ := hdocs
    rw [exec_perform_of_files hc hl hfiles, hi, ← hnames]
    exact exec_forM_printFile _ _ hread

end Perform

/-- A run ends with a success, or with a failure that it reports. -/
theorem run_of_parse {setting : Option Text} {args : List Text} {a : Arguments}
    (h : CommandLine.parse args = .ok (.run a)) (w : World) :
    w.run setting args = match exec (perform setting a) w with
      | (.ok (), w') => (.success, w')
      | (.error e, w') => (.failure, w'.told [.failure e]) := by
  unfold World.run PipeBlocks.run
  rw [h]
  dsimp only
  rw [run_bind]
  unfold exec
  rcases StateT.run (ExceptT.run (perform setting a : RunM (StateM World) Unit)) w with ⟨_ | _, w'⟩ <;>
    rfl

/-- How a run ends that performs what it was asked for. -/
def exitOf : Except Failure Unit → Exit
  | .ok () => .success
  | .error _ => .failure

/-- A failure is reported, and that is all that comes after. -/
theorem run_of_exec {args : List Text} {a : Arguments}
    (h : CommandLine.parse args = .ok (.run a)) (setting : Option Text) (w : World) :
    ∃ ds, w.run setting args =
      (exitOf (exec (perform setting a) w).1, (exec (perform setting a) w).2.told ds) := by
  rw [run_of_parse h]
  rcases exec (perform setting a) w with ⟨e | u, w'⟩
  · exact ⟨[.failure e], rfl⟩
  · exact ⟨[], by rw [World.told_nil]; rfl⟩

end Run
end PipeBlocks
