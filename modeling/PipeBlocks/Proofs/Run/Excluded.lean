import PipeBlocks.Proofs.Run.InPlace
import PipeBlocks.Proofs.Run.Listing

/-! What excluded files can do to a run.

Two runs of one command line, on files that are the same except for those that are listed and
excluded, go on alike (`Alike`): no such file is written, and what is written elsewhere is the same
in both. A listing run does not read excluded files. A run in place does, before it leaves them
alone, so an excluded file that cannot be read stops it: the two runs end alike if each excluded
file can be read in both or in neither (`excluded_files_do_not_matter`). -/
namespace PipeBlocks
namespace FileSystem

/-! ### Files that are the same except at some places -/

/-- The place of a listed file, all of whose names are excluded. -/
def Hidden (fs : FileSystem) (x : Exclusions) (names : List Text) (l : Location) : Prop :=
  (∃ name ∈ names, fs.location? name = some l) ∧
    ∀ name ∈ names, fs.location? name = some l → x.excludes name = true

/-- Those places, one after another. -/
def hiddenPlaces (fs : FileSystem) (x : Exclusions) (names : List Text) : List Location :=
  (names.filterMap fs.location?).filter fun l =>
    names.all fun name => fs.location? name ≠ some l || x.excludes name

theorem mem_hiddenPlaces_iff {fs : FileSystem} {x : Exclusions} {names : List Text} {l : Location} :
    l ∈ fs.hiddenPlaces x names ↔ fs.Hidden x names l := by
  simp [hiddenPlaces, Hidden, List.mem_filter, ← imp_iff_not_or]

/-- The files are the same except at some places, from which nothing leads on. -/
structure SameOutside (S : Location → Prop) (fs fs' : FileSystem) : Prop where
  workingDirectory : fs.workingDirectory = fs'.workingDirectory
  outside : ∀ l, ¬ S l → fs.node? l = fs'.node? l ∧ fs.refusal? l = fs'.refusal? l
  inside : ∀ l, S l → fs.way? l = none ∧ fs'.way? l = none

/-- At those places there is a text in both or in neither. -/
structure Alike (S : Location → Prop) (fs fs' : FileSystem) : Prop extends SameOutside S fs fs' where
  readable : ∀ l, S l → (fs.textAt? l).isSome = (fs'.textAt? l).isSome

section Same
variable {S : Location → Prop} {fs fs' : FileSystem} {name : Text}

theorem SameOutside.sameWays (h : SameOutside S fs fs') : SameWays fs fs' := by
  refine ⟨h.workingDirectory, fun l => ?_⟩
  by_cases hl : S l
  · rw [(h.inside l hl).1, (h.inside l hl).2]
  · unfold way?
    rw [(h.outside l hl).1]

theorem SameOutside.text?_eq (h : SameOutside S fs fs')
    (hname : ∀ l, fs.location? name = some l → ¬ S l) : fs.text? name = fs'.text? name :=
  text?_congr h.sameWays fun l hl => (h.outside l (hname l hl)).1

theorem SameOutside.writable_iff (h : SameOutside S fs fs')
    (hname : ∀ l, fs.location? name = some l → ¬ S l) : fs.Writable name ↔ fs'.Writable name := by
  unfold Writable
  rw [← location?_congr h.sameWays]
  exact forall_congr' fun l => forall_congr' fun hl => by rw [(h.outside l (hname l hl)).2]

/-- A name leads to one of the places, or the same text is read in both. -/
theorem SameOutside.cases (h : SameOutside S fs fs') (name : Text) :
    (∃ l, fs.location? name = some l ∧ S l) ∨
      (∀ l, fs.location? name = some l → ¬ S l) ∧ fs.text? name = fs'.text? name := by
  by_cases hS : ∃ l, fs.location? name = some l ∧ S l
  · exact .inl hS
  · have hname : ∀ l, fs.location? name = some l → ¬ S l := fun l hl hl' => hS ⟨l, hl, hl'⟩
    exact .inr ⟨hname, h.text?_eq hname⟩

theorem Alike.isSome_text? (h : Alike S fs fs') (name : Text) :
    (fs.text? name).isSome = (fs'.text? name).isSome := by
  rcases h.cases name with ⟨l, hl, hS⟩ | ⟨-, heq⟩
  · have hl' : fs'.location? name = some l := by rw [← location?_congr h.sameWays, hl]
    rw [text?_of_location? hl, text?_of_location? hl']
    exact h.readable l hS
  · rw [heq]

end Same
end FileSystem

open FileSystem

section Update
variable {S : Location → Prop} {fs fs' : FileSystem} {p : Expander} {d : Document}

/-- An excluded document is not written back. -/
theorem Expander.update_of_excludes (hx : p.exclusions.excludes d.name = true) (fs : FileSystem) :
    p.update d fs = fs := by
  unfold update
  exact if_pos (Expander.code_of_skipped ((Expander.skipped_expand p d).trans hx))

/-- The same update elsewhere leaves the files alike. -/
theorem FileSystem.Alike.update (h : Alike S fs fs') (hd : fs.text? d.name = some d.text)
    (hd' : fs'.text? d.name = some d.text) (hS : ∀ l, fs.location? d.name = some l → ¬ S l) :
    Alike S (p.update d fs) (p.update d fs') := by
  have hlocation := location?_congr h.sameWays d.name
  have hnode {l : Location} (hl : S l) : (p.update d fs).node? l = fs.node? l := by
    rw [node?_update hd, if_neg fun heq => hS l heq hl]
  have hnode' {l : Location} (hl : S l) : (p.update d fs').node? l = fs'.node? l := by
    rw [node?_update hd', ← hlocation, if_neg fun heq => hS l heq hl]
  refine ⟨⟨?_, fun l hl => ?_, fun l hl => ?_⟩, fun l hl => ?_⟩
  · rw [(keeps_update p d fs).1, (keeps_update p d fs').1, h.workingDirectory]
  · obtain ⟨hsame, hrefusal⟩ := h.outside l hl
    rw [node?_update hd, node?_update hd', ← hlocation, hsame, refusal?_update, refusal?_update,
      hrefusal]
    exact ⟨rfl, rfl⟩
  · unfold way?
    rw [hnode hl, hnode' hl]
    exact h.inside l hl
  · rw [textAt?_congr (hnode hl), textAt?_congr (hnode' hl)]
    exact h.readable l hl

end Update

/-! ### Two runs over the files -/

namespace Run
open CommandLine (Arguments)

/-- Two runs end alike: in the same way, with the same output and related files. -/
structure EndAlike (R : FileSystem → FileSystem → Prop) (x x' : Except Failure Unit × World) :
    Prop where
  exit : exitOf x.1 = exitOf x'.1
  output : x.2.output = x'.2.output
  files : R x.2.files x'.2.files

theorem EndAlike.run {R : FileSystem → FileSystem → Prop} {setting : Option Text} {args : List Text}
    {a : Arguments} {w w' : World}
    (h : EndAlike R (exec (perform setting a) w) (exec (perform setting a) w'))
    (hargs : CommandLine.parse args = .ok (.run a)) :
    (w.run setting args).1 = (w'.run setting args).1 ∧
    (w.run setting args).2.output = (w'.run setting args).2.output ∧
    R (w.run setting args).2.files (w'.run setting args).2.files := by
  obtain ⟨ds, hrun⟩ := run_of_exec hargs setting w
  obtain ⟨ds', hrun'⟩ := run_of_exec hargs setting w'
  rw [hrun, hrun']
  exact ⟨h.exit, h.output, h.files⟩

section Updating
variable {S : Location → Prop} (f : Log.Filter) (p : Expander) {w w' : World}

theorem sameWays_exec_updateFile (name : Text) (w : World) :
    SameWays w.files (exec (updateFile f p name) w).2.files := by
  rcases updateFile_outcome f p name w with ⟨t, ht, hok⟩ | ⟨e, ds, herror⟩
  · rw [hok]
    exact sameWays_update (d := ⟨name, t⟩) ht
  · rw [herror]
    exact .refl w.files

/-- Updating one file, a failure or not, keeps two worlds alike. -/
theorem endAlike_updateFile (h : Alike S w.files w'.files) (ho : w.output = w'.output) {name : Text}
    (hname : p.exclusions.excludes name = false → ∀ l, w.files.location? name = some l → ¬ S l) :
    EndAlike (Alike S) (exec (updateFile f p name) w) (exec (updateFile f p name) w') := by
  have hreadable := h.isSome_text? name
  cases ht : w.files.text? name with
  | none =>
    have ht' : w'.files.text? name = none := by simpa [ht] using hreadable
    obtain ⟨e, he⟩ := exec_updateFile_unreadable f p ht
    obtain ⟨e', he'⟩ := exec_updateFile_unreadable f p ht'
    rw [he, he']
    exact ⟨rfl, ho, h⟩
  | some t =>
    rw [ht] at hreadable
    obtain ⟨t', ht'⟩ := Option.isSome_iff_exists.mp hreadable.symm
    rcases h.cases name with ⟨l, hl, hS⟩ | ⟨hS, heq⟩
    · -- The texts may differ, but neither is written back.
      have hx : p.exclusions.excludes name = true := by
        by_contra hx
        exact hname (by simpa using hx) l hl hS
      have hkept (t : Text) : (p.expand t name).code = t :=
        Expander.code_of_skipped (d := ⟨name, t⟩) ((Expander.skipped_expand p ⟨name, t⟩).trans hx)
      rw [exec_updateFile f p (d := ⟨name, t⟩) ht fun hne => absurd (hkept t) hne,
        exec_updateFile f p (d := ⟨name, t'⟩) ht' fun hne => absurd (hkept t') hne]
      refine ⟨rfl, ho, ?_⟩
      show Alike S (p.update ⟨name, t⟩ w.files) (p.update ⟨name, t'⟩ w'.files)
      rw [Expander.update_of_excludes hx, Expander.update_of_excludes hx]
      exact h
    · obtain rfl : t = t' := by rw [← Option.some_inj, ← ht, ← ht', heq]
      have hwritable := h.writable_iff hS
      by_cases hw : (p.expand t name).code ≠ t → w.files.Writable name
      · rw [exec_updateFile f p (d := ⟨name, t⟩) ht hw,
          exec_updateFile f p (d := ⟨name, t⟩) ht' fun hne => hwritable.mp (hw hne)]
        exact ⟨rfl, ho, h.update ht ht' hS⟩
      · -- Writing is refused in both.
        obtain ⟨hcode, hw⟩ := Classical.not_imp.mp hw
        obtain ⟨e, ds, he⟩ := exec_updateFile_refused f p (d := ⟨name, t⟩) ht hcode hw
        obtain ⟨e', ds', he'⟩ := exec_updateFile_refused f p (d := ⟨name, t⟩) ht' hcode
          fun hw' => hw (hwritable.mpr hw')
        rw [he, he']
        exact ⟨rfl, ho, h⟩

theorem endAlike_forM_updateFile {names : List Text} (h : Alike S w.files w'.files)
    (ho : w.output = w'.output)
    (hnames : ∀ name ∈ names, p.exclusions.excludes name = false →
      ∀ l, w.files.location? name = some l → ¬ S l) :
    EndAlike (Alike S) (exec (names.forM (updateFile f p)) w)
      (exec (names.forM (updateFile f p)) w') := by
  induction names generalizing w w' with
  | nil => exact ⟨rfl, ho, h⟩
  | cons name rest ih =>
    have hstep := endAlike_updateFile f p h ho (hnames name (List.mem_cons_self ..))
    have hlocation := location?_congr (sameWays_exec_updateFile f p name w)
    rw [exec_forM_cons, exec_forM_cons]
    generalize exec (updateFile f p name) w = x at hstep hlocation
    generalize exec (updateFile f p name) w' = x' at hstep
    obtain ⟨e | u, v⟩ := x <;> obtain ⟨e' | u', v'⟩ := x'
    case error.error => exact hstep
    case error.ok => exact absurd hstep.exit nofun
    case ok.error => exact absurd hstep.exit nofun
    case ok.ok =>
      -- Names lead where they led before the step, so what is left keeps away from the places too.
      refine ih hstep.files hstep.output fun n hn hx l hl => ?_
      rw [← hlocation] at hl
      exact hnames n (List.mem_cons_of_mem name hn) hx l hl

/-- Files can be read after an update as they could before. -/
theorem isSome_text?_update {d : Document} {fs : FileSystem} (h : fs.text? d.name = some d.text)
    (name : Text) : ((p.update d fs).text? name).isSome = (fs.text? name).isSome := by
  by_cases hl : ∃ l, fs.location? name = some l ∧ fs.location? d.name = some l
  · obtain ⟨l, hname, hd⟩ := hl
    have hname' : (p.update d fs).location? name = some l := by
      rw [location?_update h, hname]
    rw [text?_of_location? hname', text?_of_location? hname, ← text?_of_location? hd, h,
      textAt?_eq_some_iff.mpr (by rw [node?_update h, if_pos hd])]
    rfl
  · rw [text?_update_of_ne h fun l hname hd => hl ⟨l, hname, hd⟩]

/-- Updating succeeds only if all files can be read, excluded or not. -/
theorem isSome_text?_of_success {names : List Text} {w : World}
    (h : exitOf (exec (names.forM (updateFile f p)) w).1 = .success) :
    ∀ name ∈ names, (w.files.text? name).isSome = true := by
  induction names generalizing w with
  | nil => exact nofun
  | cons name rest ih =>
    rw [exec_forM_cons] at h
    rcases updateFile_outcome f p name w with ⟨t, ht, hok⟩ | ⟨e, ds, herror⟩
    · rw [hok] at h
      refine List.forall_mem_cons.mpr ⟨by rw [ht]; rfl, fun n hn => ?_⟩
      rw [← isSome_text?_update p (d := ⟨name, t⟩) ht n]
      exact ih h n hn
    · rw [herror] at h
      cases h

/-- Updating succeeds if all files can be read and written. -/
theorem success_of_forall {names : List Text} {w : World}
    (h : ∀ name ∈ names, (w.files.text? name).isSome = true ∧ w.files.Writable name) :
    exitOf (exec (names.forM (updateFile f p)) w).1 = .success := by
  induction names generalizing w with
  | nil => rfl
  | cons name rest ih =>
    obtain ⟨⟨hreadable, hw⟩, hrest⟩ := List.forall_mem_cons.mp h
    obtain ⟨t, ht⟩ := Option.isSome_iff_exists.mp hreadable
    rw [exec_forM_cons, exec_updateFile f p (d := ⟨name, t⟩) ht fun _ => hw]
    refine ih fun n hn => ?_
    show ((p.update ⟨name, t⟩ w.files).text? n).isSome = true ∧ (p.update ⟨name, t⟩ w.files).Writable n
    rw [isSome_text?_update p (d := ⟨name, t⟩) ht, writable_update (d := ⟨name, t⟩) ht]
    exact hrest n hn

end Updating

/-! ### Two listing runs -/

theorem toOption_textOf (w : World) (name : Text) : (w.textOf name).toOption = w.files.text? name := by
  unfold World.textOf FileSystem.text?
  cases w.files.read name <;> rfl

theorem toOption_mapM_textOf {w w' : World} {names : List Text}
    (h : ∀ name ∈ names, w.files.text? name = w'.files.text? name) :
    (names.mapM w.textOf).toOption = (names.mapM w'.textOf).toOption := by
  induction names with
  | nil => rfl
  | cons name rest ih =>
    have hrest := ih fun n hn => h n (List.mem_cons_of_mem name hn)
    have hname := h name (List.mem_cons_self ..)
    rw [← toOption_textOf, ← toOption_textOf] at hname
    rw [List.mapM_cons, List.mapM_cons, toOption_bind, toOption_bind, hname]
    congr 1
    funext t
    rw [toOption_bind, toOption_bind, hrest]

/-- The listed names depend on the files that are not excluded. -/
theorem toOption_listed {w w' : World} {p : Expander} {names : List Text} (hinput : w.input = w'.input)
    (h : ∀ name ∈ names, p.exclusions.excludes name = false →
      w.files.text? name = w'.files.text? name) :
    (w.listed p names).toOption = (w'.listed p names).toOption := by
  unfold World.listed World.inputText World.namesIn
  split
  · rw [hinput]
  · rw [toOption_bind, toOption_bind, toOption_mapM_textOf fun name hname => ?_]
    obtain ⟨hmem, hx⟩ := List.mem_filter.mp hname
    exact h name hmem (by simpa using hx)

theorem endAlike_listPipes {R : FileSystem → FileSystem → Prop} (p : Expander) {names : List Text}
    {w w' : World} (hfiles : R w.files w'.files) (ho : w.output = w'.output)
    (h : (w.listed p names).toOption = (w'.listed p names).toOption) :
    EndAlike R (exec (listPipes p names) w) (exec (listPipes p names) w') := by
  rw [exec_listPipes, exec_listPipes]
  generalize w.listed p names = x at h
  generalize w'.listed p names = x' at h
  obtain e | listed := x <;> obtain e' | listed' := x'
  case error.error => exact ⟨rfl, ho, hfiles⟩
  case error.ok => cases h
  case ok.error => cases h
  case ok.ok =>
    obtain rfl : listed = listed' := Option.some.inj h
    exact ⟨rfl, congrArg (· ++ _) ho, hfiles⟩

end Run

section Runs
open Run
open CommandLine (Arguments)
variable {w : World} {fs' : FileSystem} {a : Arguments} {c : Config} {args : List Text}

/-- **Excluded files do not matter, except that a run in place reads them.** Take two runs of a
command line that lists or rewrites in place, with the same settings, on files that are the same
except for those that are listed under excluded names. If the run lists, or if each excluded file
can be read in both or in neither, the runs end in the same way, print the same and leave all other
files the same. But a run in place succeeds only if all its files can be read, the excluded ones
too, and it does if they can be written as well. -/
theorem excluded_files_do_not_matter (setting : Option Text)
    (hargs : CommandLine.parse args = .ok (.run a)) (hmode : a.inPlace = true ∨ a.listPipes = true)
    (hc : w.settings a = .ok c) (hc' : { w with files := fs' }.settings a = .ok c)
    (hsame : SameOutside (w.files.Hidden c.exclusions a.files) w.files fs') :
    ((a.inPlace = true → ∀ name ∈ a.files, c.exclusions.excludes name = true →
        (w.files.text? name).isSome = (fs'.text? name).isSome) →
      (w.run setting args).1 = ({ w with files := fs' }.run setting args).1 ∧
      (w.run setting args).2.output = ({ w with files := fs' }.run setting args).2.output ∧
      ∀ l, ¬ w.files.Hidden c.exclusions a.files l →
        (w.run setting args).2.files.node? l =
          ({ w with files := fs' }.run setting args).2.files.node? l) ∧
    (a.inPlace = true →
      ((w.run setting args).1 = .success →
        ∀ name ∈ a.files, (w.files.text? name).isSome = true) ∧
      ((∀ name ∈ a.files, (w.files.text? name).isSome = true ∧ w.files.Writable name) →
        (w.run setting args).1 = .success)) := by
  have hincluded : ∀ name ∈ a.files, c.exclusions.excludes name = false →
      ∀ l, w.files.location? name = some l → ¬ w.files.Hidden c.exclusions a.files l := by
    intro name hname hx l hl hhidden
    rw [hhidden.2 name hname hl] at hx
    cases hx
  have haccepted := CommandLine.accepted_of_parse hargs
  refine ⟨fun hreadable => ?_, fun hinPlace => ?_⟩
  · suffices hend : EndAlike (SameOutside (w.files.Hidden c.exclusions a.files))
        (exec (perform setting a) w) (exec (perform setting a) { w with files := fs' }) by
      obtain ⟨hexit, houtput, hfiles⟩ := hend.run hargs
      exact ⟨hexit, houtput, fun l hl => (hfiles.outside l hl).1⟩
    cases hlist : a.listPipes with
    | true =>
      rw [exec_perform_of_listPipes hc hlist, exec_perform_of_listPipes hc' hlist]
      exact endAlike_listPipes c.expander hsame rfl <| toOption_listed rfl fun name hname hx =>
        hsame.text?_eq (hincluded name hname hx)
    | false =>
      have hinPlace : a.inPlace = true := by simpa [hlist] using hmode
      have hfiles := haccepted.files_of_inPlace hinPlace
      have halike : Alike (w.files.Hidden c.exclusions a.files) w.files fs' := by
        refine { hsame with readable := fun l hl => ?_ }
        obtain ⟨⟨name, hname, hlocation⟩, hx⟩ := hl
        have hlocation' : fs'.location? name = some l := by
          rw [← location?_congr hsame.sameWays, hlocation]
        rw [← text?_of_location? hlocation, ← text?_of_location? hlocation']
        exact hreadable hinPlace name hname (hx name hname hlocation)
      rw [exec_perform_of_files hc hlist hfiles, exec_perform_of_files hc' hlist hfiles, hinPlace,
        if_pos rfl]
      have halike' : Alike (w.files.Hidden c.exclusions a.files) (afterSettings setting a c w).files
          (afterSettings setting a c { w with files := fs' }).files := halike
      obtain ⟨hexit, houtput, hfiles⟩ := endAlike_forM_updateFile (.ofSetting setting a.verbose)
        c.expander halike' rfl hincluded
      exact ⟨hexit, houtput, hfiles.toSameOutside⟩
  · have hfiles := haccepted.files_of_inPlace hinPlace
    have hlist : a.listPipes = false := by simpa [hinPlace] using haccepted.one_mode
    obtain ⟨ds, hrun⟩ := run_of_exec hargs setting w
    rw [hrun, exec_perform_of_files hc hlist hfiles, hinPlace, if_pos rfl]
    exact ⟨fun h => isSome_text?_of_success _ _ (w := afterSettings setting a c w) h,
      fun h => success_of_forall _ _ (w := afterSettings setting a c w) h⟩

theorem FileSystem.node?_cons_of_ne {l l' : Location} (h : l' ≠ l) (n : Node)
    (nodes : List (Location × Node)) (directory : Location) (refusals : List (Location × FileError)) :
    (⟨(l, n) :: nodes, directory, refusals⟩ : FileSystem).node? l' =
      (⟨nodes, directory, refusals⟩ : FileSystem).node? l' := by
  have hkey : (l' == l) = false := beq_eq_false_iff_ne.mpr h
  unfold node?
  rw [List.lookup_cons, hkey]

/-- The excluded file, given from the root, has another text in the second run. The next file is
rewritten as before, and at the last one, which cannot be written, both runs end. -/
theorem excluded_files_do_not_matter_other_text :
    let others : List (Location × Node) := [(["gen".toList], .directory), (["work".toList], .directory),
      (["work".toList, "B.svelte".toList], .file (.text "\x7bb | f\x7d".toList)),
      (["C.svelte".toList], .file (.text "\x7bc | f\x7d".toList))]
    let refusals := [(["C.svelte".toList], FileError.other "Permission denied (os error 13)")]
    let place : Location := ["gen".toList, "A.svelte".toList]
    let w : World :=
      { files :=
          ⟨(place, .file (.text "\x7ba | g\x7d".toList)) :: others, ["work".toList], refusals⟩ }
    let fs' : FileSystem := ⟨(place, .file (.text [])) :: others, ["work".toList], refusals⟩
    let args := ["-i".toList, "-x".toList, "gen".toList, "/gen/A.svelte".toList, "B.svelte".toList,
      "../C.svelte".toList]
    let a : Arguments :=
      { files := ["/gen/A.svelte".toList, "B.svelte".toList, "../C.svelte".toList]
        exclude := ["gen".toList]
        inPlace := true }
    let c : Config := { exclude := ["gen".toList] }
    CommandLine.parse args = .ok (.run a) ∧ a.inPlace = true ∧ w.settings a = .ok c ∧
      { w with files := fs' }.settings a = .ok c ∧
      SameOutside (w.files.Hidden c.exclusions a.files) w.files fs' ∧
      (w.run none args).1 = .failure ∧
      (w.run none args).2.files.text? "B.svelte".toList = some "\x7bf(b)\x7d".toList ∧
      (w.run none args).1 = ({ w with files := fs' }.run none args).1 ∧
      ∀ l, l ≠ place → (w.run none args).2.files.node? l =
        ({ w with files := fs' }.run none args).2.files.node? l := by
  intro others refusals place w fs' args a c
  have hargs : CommandLine.parse args = .ok (.run a) := by decide +kernel
  have hplaces : w.files.hiddenPlaces c.exclusions a.files = [place] := by decide +kernel
  have hhidden (l : Location) : w.files.Hidden c.exclusions a.files l ↔ l = place := by
    rw [← mem_hiddenPlaces_iff, hplaces, List.mem_singleton]
  have hsame : SameOutside (w.files.Hidden c.exclusions a.files) w.files fs' := by
    refine ⟨rfl, fun l hl => ?_, fun l hl => ?_⟩
    · rw [hhidden] at hl
      exact ⟨(node?_cons_of_ne hl _ others _ _).trans (node?_cons_of_ne hl _ others _ _).symm, rfl⟩
    · rw [(hhidden l).mp hl]
      decide +kernel
  have hc : w.settings a = .ok c := rfl
  have hc' : { w with files := fs' }.settings a = .ok c := rfl
  obtain ⟨hagree, -⟩ := excluded_files_do_not_matter none hargs (.inl rfl) hc hc' hsame
  obtain ⟨hexit, -, hfiles⟩ := hagree fun _ => by decide +kernel
  exact ⟨hargs, rfl, hc, hc', hsame, by decide +kernel, by decide +kernel, hexit,
    fun l hl => hfiles l (by rwa [hhidden])⟩

/-- The excluded file is missing in the second run, which fails and does not rewrite the other file. -/
theorem missing_excluded_file_stops_run :
    let others : List (Location × Node) :=
      [(["B.svelte".toList], .file (.text "\x7ba|f\x7d".toList))]
    let w : World := { files := ⟨(["gen.svelte".toList], .file (.text [])) :: others, [], []⟩ }
    let w' : World := { files := ⟨others, [], []⟩ }
    let args := ["-i".toList, "-x".toList, "gen.svelte".toList, "gen.svelte".toList, "B.svelte".toList]
    let a : Arguments :=
      { files := ["gen.svelte".toList, "B.svelte".toList]
        exclude := ["gen.svelte".toList]
        inPlace := true }
    let c : Config := { exclude := ["gen.svelte".toList] }
    CommandLine.parse args = .ok (.run a) ∧ w.settings a = .ok c ∧ w'.settings a = .ok c ∧
      SameOutside (w.files.Hidden c.exclusions a.files) w.files w'.files ∧
      (w.run none args).1 = .success ∧ (w'.run none args).1 = .failure ∧
      (w.run none args).2.files.text? "B.svelte".toList = some "\x7bf(a)\x7d".toList ∧
      (w'.run none args).2.files.text? "B.svelte".toList = some "\x7ba|f\x7d".toList := by
  intro others w w' args a c
  have hplaces : w.files.hiddenPlaces c.exclusions a.files = [["gen.svelte".toList]] := by
    decide +kernel
  have hhidden (l : Location) :
      w.files.Hidden c.exclusions a.files l ↔ l = ["gen.svelte".toList] := by
    rw [← mem_hiddenPlaces_iff, hplaces, List.mem_singleton]
  have hsame : SameOutside (w.files.Hidden c.exclusions a.files) w.files w'.files := by
    refine ⟨rfl, fun l hl => ?_, fun l hl => ?_⟩
    · exact ⟨node?_cons_of_ne (fun h => hl ((hhidden l).mpr h)) _ others [] [], rfl⟩
    · rw [(hhidden l).mp hl]
      decide +kernel
  exact ⟨by decide +kernel, rfl, rfl, hsame, by decide +kernel, by decide +kernel, by decide +kernel,
    by decide +kernel⟩

end Runs
end PipeBlocks
