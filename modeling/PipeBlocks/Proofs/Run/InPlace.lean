import PipeBlocks.Proofs.CommandLine
import PipeBlocks.Proofs.FileSystem
import PipeBlocks.Proofs.Run.World

/-! What a run that rewrites its files does, beside what the same run prints.

One file is updated at a time, and all that changes is what is at the place its name leads to
(`node?_update`). So files that lead to different places do not see each other's updates, and the
run in place leaves in the files what the other run prints, up to the first file that cannot be
read (`inPlace_refines_printing`). -/
namespace PipeBlocks

/-! ### One file -/

/-- The files after a document was written back to where it was read. -/
def Expander.update (p : Expander) (d : Document) (fs : FileSystem) : FileSystem :=
  let code := (p.expand d.text d.name).code
  if code = d.text then fs
  else
    match fs.location? d.name with
    | none => fs
    | some l => fs.set l (.file (.text code))

section Update
open FileSystem
variable {p : Expander} {d : Document} {fs : FileSystem}

/-- An update changes what is at one place, and leaves the expansion there. -/
theorem node?_update (h : fs.text? d.name = some d.text) (l : Location) :
    (p.update d fs).node? l =
      if fs.location? d.name = some l then some (.file (.text (p.expand d.text d.name).code))
      else fs.node? l := by
  obtain ⟨place, hplace, htext⟩ := exists_location? h
  unfold Expander.update
  simp only [hplace]
  split
  · rename_i hcode
    rw [hcode]
    split
    · rename_i heq
      rw [← Option.some.inj heq, textAt?_eq_some_iff.mp htext]
    · rfl
  · simp only [node?_set (ne_nil_of_textAt? htext), Option.some.injEq, eq_comm]

/-- An update changes nothing but nodes. -/
theorem keeps_update (p : Expander) (d : Document) (fs : FileSystem) :
    (p.update d fs).workingDirectory = fs.workingDirectory ∧
      (p.update d fs).refusals = fs.refusals := by
  unfold Expander.update
  dsimp only
  split
  · exact ⟨rfl, rfl⟩
  · split <;> exact ⟨rfl, rfl⟩

theorem refusal?_update (p : Expander) (d : Document) (fs : FileSystem) (l : Location) :
    (p.update d fs).refusal? l = fs.refusal? l := by
  unfold refusal?
  rw [(keeps_update p d fs).2]

/-- A file is replaced by a file, so paths lead where they led before. -/
theorem sameWays_update (h : fs.text? d.name = some d.text) : SameWays fs (p.update d fs) := by
  refine ⟨(keeps_update p d fs).1.symm, fun l => ?_⟩
  unfold way?
  rw [node?_update h]
  split
  · rename_i hl
    rw [text?_of_location? hl, textAt?_eq_some_iff] at h
    rw [h]
    rfl
  · rfl

theorem location?_update (h : fs.text? d.name = some d.text) (path : Text) :
    (p.update d fs).location? path = fs.location? path :=
  (location?_congr (sameWays_update h) path).symm

theorem writable_update (h : fs.text? d.name = some d.text) {path : Text} :
    (p.update d fs).Writable path ↔ fs.Writable path := by
  simp only [Writable, location?_update h, refusal?_update]

/-- Other places can be read as before. -/
theorem text?_update_of_ne (h : fs.text? d.name = some d.text) {path : Text}
    (hne : ∀ l, fs.location? path = some l → fs.location? d.name ≠ some l) :
    (p.update d fs).text? path = fs.text? path := by
  refine (text?_congr (sameWays_update h) fun l hl => ?_).symm
  rw [node?_update h, if_neg (hne l hl)]

/-- What is read back is the expansion. -/
theorem text?_update_self (h : fs.text? d.name = some d.text) :
    (p.update d fs).text? d.name = some (p.expand d.text d.name).code := by
  obtain ⟨place, hplace, -⟩ := exists_location? h
  have hplace' : (p.update d fs).location? d.name = some place := by
    rw [location?_update h, hplace]
  rw [text?_of_location? hplace', textAt?_eq_some_iff, node?_update h, if_pos hplace]

/-- An update is what writing does, if that is not refused. -/
theorem write_update (h : fs.text? d.name = some d.text) (hw : fs.Writable d.name)
    (hcode : (p.expand d.text d.name).code ≠ d.text) :
    fs.write d.name (p.expand d.text d.name).code = .ok (p.update d fs) := by
  obtain ⟨place, hplace, htext⟩ := exists_location? h
  rw [write_of_allowed hplace htext (hw place hplace)]
  unfold Expander.update
  simp only [hplace, if_neg hcode]

/-! ### One file after another -/

/-- The files after documents were written back, one after another. -/
def Expander.updateAll (p : Expander) (docs : List Document) (fs : FileSystem) : FileSystem :=
  docs.foldl (fun fs d => p.update d fs) fs

/-- The documents are in the files, each at a place of its own that can be written. -/
structure Apart (docs : List Document) (fs : FileSystem) : Prop where
  reads : ∀ d ∈ docs, fs.text? d.name = some d.text
  writable : ∀ d ∈ docs, fs.Writable d.name
  nodup : ((docs.map (·.name)).filterMap fs.location?).Nodup

variable {docs : List Document}

theorem Apart.ne_of_mem (h : Apart (d :: docs) fs) {e : Document} (he : e ∈ docs) (l : Location)
    (hl : fs.location? e.name = some l) : fs.location? d.name ≠ some l := by
  intro hd
  have hnodup := h.nodup
  rw [List.map_cons, List.filterMap_cons_some hd, List.nodup_cons] at hnodup
  exact hnodup.1 (List.mem_filterMap.mpr ⟨e.name, List.mem_map_of_mem he, hl⟩)

/-- An update of the first document leaves the others where they are. -/
theorem Apart.tail (h : Apart (d :: docs) fs) (p : Expander) : Apart docs (p.update d fs) := by
  have hd := h.reads d (List.mem_cons_self ..)
  refine ⟨fun e he => ?_, fun e he => ?_, ?_⟩
  · rw [text?_update_of_ne hd (h.ne_of_mem he)]
    exact h.reads e (List.mem_cons_of_mem d he)
  · exact (writable_update hd).mpr (h.writable e (List.mem_cons_of_mem d he))
  · rw [funext (location?_update hd)]
    exact h.nodup.sublist (((List.sublist_cons_self d docs).map _).filterMap _)

theorem sameWays_updateAll (p : Expander) (h : Apart docs fs) :
    SameWays fs (p.updateAll docs fs) := by
  induction docs generalizing fs with
  | nil => exact .refl fs
  | cons d rest ih =>
    exact (sameWays_update (h.reads d (List.mem_cons_self ..))).trans (ih (h.tail p))

/-- Nothing is changed except where the documents are. -/
theorem node?_updateAll_of_ne (p : Expander) (h : Apart docs fs) {l : Location}
    (hl : ∀ d ∈ docs, fs.location? d.name ≠ some l) : (p.updateAll docs fs).node? l = fs.node? l := by
  induction docs generalizing fs with
  | nil => rfl
  | cons d rest ih =>
    have hd := h.reads d (List.mem_cons_self ..)
    have hrest := ih (h.tail p) fun e he => by
      rw [location?_update hd]
      exact hl e (List.mem_cons_of_mem d he)
    show (p.updateAll rest (p.update d fs)).node? l = _
    rw [hrest, node?_update hd, if_neg (hl d (List.mem_cons_self ..))]

theorem text?_updateAll_of_ne (p : Expander) (h : Apart docs fs) {path : Text}
    (hne : ∀ d ∈ docs, ∀ l, fs.location? path = some l → fs.location? d.name ≠ some l) :
    (p.updateAll docs fs).text? path = fs.text? path :=
  (text?_congr (sameWays_updateAll p h) fun l hl =>
    (node?_updateAll_of_ne p h fun d hd => hne d hd l hl).symm).symm

/-- Each document's file holds its expansion in the end. -/
theorem text?_updateAll (p : Expander) (h : Apart docs fs) :
    ∀ d ∈ docs, (p.updateAll docs fs).text? d.name = some (p.expand d.text d.name).code := by
  induction docs generalizing fs with
  | nil => exact nofun
  | cons d rest ih =>
    have hd := h.reads d (List.mem_cons_self ..)
    rintro e he
    show (p.updateAll rest (p.update d fs)).text? e.name = _
    rcases List.mem_cons.mp he with rfl | he
    · -- Written first, and not touched by the updates that come after.
      rw [text?_updateAll_of_ne p (h.tail p), text?_update_self hd]
      intro e' he' l hl hl'
      rw [location?_update hd] at hl hl'
      exact h.ne_of_mem he' l hl' hl
    · exact ih (h.tail p) e he

end Update

/-! ### The run over the files -/

namespace Run

section Files
variable (f : Log.Filter) (p : Expander) {w : World}

/-- What is reported of a document that is written back. -/
def updateReports (d : Document) : List Diagnostic :=
  reports f p d ++ if (p.expand d.text d.name).code = d.text then [] else shown f (.updatedFile d.name)

/-- The world after documents were written back, one after another. -/
def afterUpdating (docs : List Document) (w : World) : World :=
  { w with
    files := p.updateAll docs w.files
    diagnostics := w.diagnostics ++ docs.flatMap (updateReports f p) }

theorem afterUpdating_cons (d : Document) (docs : List Document) (w : World) :
    afterUpdating f p (d :: docs) w = afterUpdating f p docs (afterUpdating f p [d] w) := by
  simp [afterUpdating, Expander.updateAll]

/-- A document that expands to another text is written back, if that is not refused. -/
theorem exec_updateFile_of_ne {d : Document} (h : w.files.text? d.name = some d.text)
    (hcode : (p.expand d.text d.name).code ≠ d.text) :
    exec (updateFile f p d.name) w =
      match w.files.write d.name (p.expand d.text d.name).code with
      | .ok files => (.ok (), { w with files }.told (reports f p d ++ shown f (.updatedFile d.name)))
      | .error e => (.error (.writingFile d.name e), w.told (reports f p d)) := by
  have hskipped : (p.expand d.text d.name).skipped = false := by
    by_contra hskipped
    exact hcode (Expander.code_of_skipped (by simpa using hskipped))
  have hfiles : (w.told (reports f p d)).files = w.files := rfl
  unfold updateFile
  rw [exec_bind, exec_read, textOf_eq_ok_iff.mpr h]
  dsimp only
  rw [exec_lift_bind, run_expandDocument]
  dsimp only
  rw [if_pos (by simp [hcode, hskipped]), exec_lift_bind, run_writeFile, hfiles]
  cases w.files.write d.name (p.expand d.text d.name).code with
  | error e => exact exec_throw (.writingFile d.name e) (w.told (reports f p d))
  | ok files =>
    dsimp only
    rw [exec_lift, run_log]
    simp [World.told]

theorem exec_updateFile {d : Document} (h : w.files.text? d.name = some d.text)
    (hw : (p.expand d.text d.name).code ≠ d.text → w.files.Writable d.name) :
    exec (updateFile f p d.name) w = (.ok (), afterUpdating f p [d] w) := by
  by_cases hcode : (p.expand d.text d.name).code = d.text
  · have hfiles : p.updateAll [d] w.files = w.files := by
      simp [Expander.updateAll, Expander.update, hcode]
    unfold updateFile
    rw [exec_bind, exec_read, textOf_eq_ok_iff.mpr h]
    dsimp only
    rw [exec_lift_bind, run_expandDocument]
    dsimp only
    rw [if_neg (by simp [hcode]), exec_pure, afterUpdating, hfiles]
    simp [updateReports, hcode, World.told]
  · rw [exec_updateFile_of_ne f p h hcode, write_update h (hw hcode) hcode]
    simp [afterUpdating, Expander.updateAll, updateReports, hcode, World.told]

/-- A document that expands to another text stays as it is if writing is refused. -/
theorem exec_updateFile_refused {d : Document} (h : w.files.text? d.name = some d.text)
    (hcode : (p.expand d.text d.name).code ≠ d.text) (hw : ¬ w.files.Writable d.name) :
    ∃ e ds, exec (updateFile f p d.name) w = (.error e, w.told ds) := by
  obtain ⟨place, hplace, htext⟩ := FileSystem.exists_location? h
  cases hcause : w.files.refusal? place with
  | none =>
    refine absurd (fun l hl => ?_) hw
    rw [hplace] at hl
    rw [← Option.some.inj hl, hcause]
  | some cause =>
    rw [exec_updateFile_of_ne f p h hcode, FileSystem.write_of_refused hplace htext hcause]
    exact ⟨_, _, rfl⟩

/-- Files are written back one after another. -/
theorem exec_forM_updateFile {docs : List Document} (h : Apart docs w.files) :
    exec ((docs.map (·.name)).forM (updateFile f p)) w = (.ok (), afterUpdating f p docs w) := by
  induction docs generalizing w with
  | nil =>
    have hnone : afterUpdating f p [] w = w := by simp [afterUpdating, Expander.updateAll]
    rw [List.map_nil, hnone]
    exact exec_pure () w
  | cons d rest ih =>
    have htail : Apart rest (afterUpdating f p [d] w).files := h.tail p
    have hd : d ∈ d :: rest := List.mem_cons_self ..
    rw [List.map_cons, exec_forM_cons, exec_updateFile f p (h.reads d hd) fun _ => h.writable d hd,
      afterUpdating_cons f p d rest]
    exact ih htail

theorem exec_updateFile_unreadable {name : Text} (h : w.files.text? name = none) :
    ∃ e, exec (updateFile f p name) w = (.error e, w) :=
  exec_read_bind h _

/-- A file is read and updated, or all ends and the files stay as they are. -/
theorem updateFile_outcome (name : Text) (w : World) :
    (∃ t, w.files.text? name = some t ∧
      exec (updateFile f p name) w = (.ok (), afterUpdating f p [⟨name, t⟩] w)) ∨
    ∃ e ds, exec (updateFile f p name) w = (.error e, w.told ds) := by
  cases ht : w.files.text? name with
  | none =>
    obtain ⟨e, he⟩ := exec_updateFile_unreadable f p ht
    exact .inr ⟨e, [], by rw [he, World.told_nil]⟩
  | some t =>
    by_cases hw : (p.expand t name).code ≠ t → w.files.Writable name
    · exact .inl ⟨t, rfl, exec_updateFile f p (d := ⟨name, t⟩) ht hw⟩
    · obtain ⟨hcode, hw⟩ := Classical.not_imp.mp hw
      exact .inr (exec_updateFile_refused f p (d := ⟨name, t⟩) ht hcode hw)

theorem exec_printFile_unreadable {name : Text} (h : w.files.text? name = none) :
    ∃ e, exec (printFile f p name) w = (.error e, w) :=
  exec_read_bind h _

end Files
end Run

/-! ### Up to the first file that cannot be read -/

/-- The documents are in the named files, up to the first that cannot be read; from there on are
the names that are left. -/
structure FileSystem.ReadsUpTo (fs : FileSystem) (names : List Text) (docs : List Document)
    (left : List Text) : Prop where
  names_eq : names = docs.map (·.name) ++ left
  reads : ∀ d ∈ docs, fs.text? d.name = some d.text
  stops : ∀ name ∈ left.head?, fs.text? name = none

theorem FileSystem.exists_readsUpTo (fs : FileSystem) (names : List Text) :
    ∃ docs left, fs.ReadsUpTo names docs left := by
  induction names with
  | nil => exact ⟨[], [], rfl, nofun, nofun⟩
  | cons name rest ih =>
    cases ht : fs.text? name with
    | none => exact ⟨[], name :: rest, rfl, nofun, fun n hn => by rw [← Option.some.inj hn, ht]⟩
    | some t =>
      obtain ⟨docs, left, hnames, hreads, hstops⟩ := ih
      refine ⟨⟨name, t⟩ :: docs, left, by simp [hnames], ?_, hstops⟩
      rintro d hd
      rcases List.mem_cons.mp hd with rfl | hd
      · exact ht
      · exact hreads d hd

section Runs
open Run
open CommandLine (Arguments)
variable {w : World} {names : List Text} {docs : List Document} {left : List Text}

/-- Files at different places that can be written are apart, and the names that are left lead
elsewhere. -/
theorem FileSystem.ReadsUpTo.apart {fs : FileSystem} (h : fs.ReadsUpTo names docs left)
    (hdistinct : (names.filterMap fs.location?).Nodup) (hw : ∀ name ∈ names, fs.Writable name) :
    Apart docs fs ∧
      ∀ name ∈ left, ∀ d ∈ docs, ∀ l, fs.location? name = some l → fs.location? d.name ≠ some l := by
  rw [h.names_eq, List.filterMap_append, List.nodup_append] at hdistinct
  obtain ⟨hdocs, -, hne⟩ := hdistinct
  refine ⟨⟨h.reads, fun d hd => hw d.name ?_, hdocs⟩, fun name hname d hd l hl hl' => ?_⟩
  · rw [h.names_eq]
    exact List.mem_append_left _ (List.mem_map_of_mem hd)
  exact hne l (List.mem_filterMap.mpr ⟨d.name, List.mem_map_of_mem hd, hl'⟩) l
    (List.mem_filterMap.mpr ⟨name, hname, hl⟩) rfl

/-- Updating files stops at the first that cannot be read. -/
theorem exec_forM_updateFile_upTo (f : Log.Filter) (p : Expander)
    (h : w.files.ReadsUpTo names docs left)
    (hdistinct : (names.filterMap w.files.location?).Nodup)
    (hw : ∀ name ∈ names, w.files.Writable name) :
    ∃ r, exec (names.forM (updateFile f p)) w = (r, afterUpdating f p docs w) ∧
      (r = .ok () ↔ left = []) := by
  obtain ⟨hapart, hleft⟩ := h.apart hdistinct hw
  rw [h.names_eq, exec_forM_append (exec_forM_updateFile f p hapart)]
  refine exec_forM_of_error fun name hname => exec_updateFile_unreadable f p ?_
  show (p.updateAll docs w.files).text? name = none
  rw [text?_updateAll_of_ne p hapart (hleft name (List.mem_of_mem_head? hname)), h.stops name hname]

theorem exec_forM_printFile_upTo (f : Log.Filter) (p : Expander)
    (h : w.files.ReadsUpTo names docs left) :
    ∃ r, exec (names.forM (printFile f p)) w = (r, afterPrinting f p docs w) ∧
      (r = .ok () ↔ left = []) := by
  have hreads : ∀ d ∈ docs, w.textOf d.name = .ok d.text :=
    fun d hd => textOf_eq_ok_iff.mpr (h.reads d hd)
  rw [h.names_eq, exec_forM_append (exec_forM_printFile f p hreads)]
  exact exec_forM_of_error fun name hname => exec_printFile_unreadable f p (h.stops name hname)

theorem exitOf_eq {r : Except Failure Unit} (h : r = .ok () ↔ left = []) :
    exitOf r = if left = [] then .success else .failure := by
  cases r with
  | ok u => rw [if_pos (h.mp rfl)]; rfl
  | error e => rw [if_neg fun hleft => nomatch h.mpr hleft]; rfl

/-- **Rewriting in place is printing, into the files.** Take a run in place, and the same run
without the switch, on files that are at different places and can be written. Both read the same
documents, up to the first file that cannot be read, and both end with a failure if there is such a
file. The run in place prints nothing; it leaves in each file that it read the expansion, which is
the text itself if the file is excluded, and nothing else is changed. The other run changes no file,
and prints those expansions in order. If there are no settings, both fail and do nothing. -/
theorem inPlace_refines_printing (setting : Option Text) {args args' : List Text} {a : Arguments}
    (hargs : CommandLine.parse args = .ok (.run a)) (hinPlace : a.inPlace = true)
    (hargs' : CommandLine.parse args' = .ok (.run { a with inPlace := false }))
    (hdistinct : (a.files.filterMap w.files.location?).Nodup)
    (hw : ∀ name ∈ a.files, w.files.Writable name) :
    (a.files ≠ [] ∧ a.listPipes = false) ∧
    (∀ e, w.settings a = .error e →
      ((w.run setting args).1 = .failure ∧ (w.run setting args).2.files = w.files ∧
        (w.run setting args).2.output = w.output) ∧
      (w.run setting args').1 = .failure ∧ (w.run setting args').2.files = w.files ∧
        (w.run setting args').2.output = w.output) ∧
    ∃ docs left, w.files.ReadsUpTo a.files docs left ∧ ∀ c, w.settings a = .ok c →
      let codeOf (d : Document) : Text := (c.expander.expand d.text d.name).code
      ((w.run setting args).1 = (if left = [] then .success else .failure) ∧
        (w.run setting args).2.output = w.output ∧
        (∀ d ∈ docs, (w.run setting args).2.files.text? d.name = some (codeOf d) ∧
          (c.exclusions.excludes d.name = true → codeOf d = d.text)) ∧
        (∀ name ∈ left, (w.run setting args).2.files.text? name = w.files.text? name) ∧
        ∀ l, (∀ d ∈ docs, w.files.location? d.name ≠ some l) →
          (w.run setting args).2.files.node? l = w.files.node? l) ∧
      (w.run setting args').1 = (w.run setting args).1 ∧
        (w.run setting args').2.files = w.files ∧
        (w.run setting args').2.output = w.output ++ docs.flatMap codeOf := by
  have haccepted := CommandLine.accepted_of_parse hargs
  have hfiles : a.files ≠ [] := haccepted.files_of_inPlace hinPlace
  have hlist : a.listPipes = false := by
    simpa [hinPlace] using haccepted.one_mode
  refine ⟨⟨hfiles, hlist⟩, fun e hc => ?_, ?_⟩
  · have hc' : w.settings { a with inPlace := false } = .error e := hc
    obtain ⟨ds, hrun⟩ := run_of_exec hargs setting w
    obtain ⟨ds', hrun'⟩ := run_of_exec hargs' setting w
    rw [hrun, hrun', exec_perform_of_error hc, exec_perform_of_error hc']
    exact ⟨⟨rfl, rfl, rfl⟩, rfl, rfl, rfl⟩
  · obtain ⟨docs, left, hdocs⟩ := w.files.exists_readsUpTo a.files
    refine ⟨docs, left, hdocs, fun c hc => ?_⟩
    have hc' : w.settings { a with inPlace := false } = .ok c := hc
    obtain ⟨hapart, hleft⟩ := hdocs.apart hdistinct hw
    let f := Log.Filter.ofSetting setting a.verbose
    let ready := afterSettings setting a c w
    have hready : ready.files.ReadsUpTo a.files docs left := hdocs
    obtain ⟨r, hr, hrleft⟩ := exec_forM_updateFile_upTo f c.expander hready hdistinct hw
    obtain ⟨r', hr', hrleft'⟩ := exec_forM_printFile_upTo f c.expander hready
    have hperform : exec (perform setting a) w = (r, afterUpdating f c.expander docs ready) := by
      rw [exec_perform_of_files hc hlist hfiles, hinPlace, if_pos rfl, hr]
    have hperform' : exec (perform setting { a with inPlace := false }) w =
        (r', afterPrinting f c.expander docs ready) :=
      (exec_perform_of_files hc' hlist hfiles).trans hr'
    obtain ⟨ds, hrun⟩ := run_of_exec hargs setting w
    obtain ⟨ds', hrun'⟩ := run_of_exec hargs' setting w
    rw [hrun, hrun', hperform, hperform', exitOf_eq hrleft, exitOf_eq hrleft']
    refine ⟨⟨rfl, rfl, fun d hd => ⟨text?_updateAll c.expander hapart d hd, fun hx => ?_⟩,
      fun name hname => text?_updateAll_of_ne c.expander hapart (hleft name hname),
      fun l hl => node?_updateAll_of_ne c.expander hapart hl⟩, rfl, rfl, rfl⟩
    exact Expander.code_of_skipped ((Expander.skipped_expand c.expander d).trans hx)

/-- The first file is reached by a link and the second from the root. The second is excluded and the
third is missing, so the fourth stays as it is. -/
theorem inPlace_refines_printing_midway :
    let w : World :=
      { files :=
          { nodes := [(["src".toList], .directory), (["lib".toList], .directory),
              (["src".toList, "A.svelte".toList], .file (.text "\x7ba | f:1\x7d".toList)),
              (["lib".toList, "B.svelte".toList], .file (.text "\x7bb | g\x7d".toList)),
              (["work".toList], .directory), (["work".toList, "now".toList], .link "../src".toList),
              (["work".toList, "D.svelte".toList], .file (.text "\x7bd | h\x7d".toList))]
            workingDirectory := ["work".toList] } }
    let args := ["-x".toList, "lib/".toList, "now/A.svelte".toList, "/lib/B.svelte".toList,
      "C.svelte".toList, "D.svelte".toList]
    let a : Arguments :=
      { files := ["now/A.svelte".toList, "/lib/B.svelte".toList, "C.svelte".toList, "D.svelte".toList],
        exclude := ["lib/".toList] }
    let c : Config := { exclude := ["lib/".toList] }
    CommandLine.parse ("-i".toList :: args) = .ok (.run { a with inPlace := true }) ∧
      CommandLine.parse args = .ok (.run a) ∧ (a.files.filterMap w.files.location?).Nodup ∧
      (∀ name ∈ a.files, w.files.Writable name) ∧ w.settings a = .ok c ∧
      (w.run none args).1 = .failure ∧
      (w.run none ("-i".toList :: args)).2.files.text? "/src/A.svelte".toList =
        some "\x7bf(a, 1)\x7d".toList ∧
      (w.run none ("-i".toList :: args)).2.files.text? "D.svelte".toList =
        some "\x7bd | h\x7d".toList ∧
      (w.run none args).2.output = "\x7bf(a, 1)\x7d\x7bb | g\x7d".toList ∧
      (w.run none args).1 = (w.run none ("-i".toList :: args)).1 ∧
      ∃ docs left, w.files.ReadsUpTo a.files docs left ∧
        (w.run none args).2.output = docs.flatMap fun d => (c.expander.expand d.text d.name).code := by
  intro w args a c
  have hargs : CommandLine.parse ("-i".toList :: args) = .ok (.run { a with inPlace := true }) := by
    decide +kernel
  have hargs' : CommandLine.parse args = .ok (.run a) := by decide +kernel
  have hdistinct : (a.files.filterMap w.files.location?).Nodup := by decide +kernel
  have hw : ∀ name ∈ a.files, w.files.Writable name := fun _ _ _ _ => rfl
  have hc : w.settings a = .ok c := rfl
  obtain ⟨-, -, docs, left, hdocs, hruns⟩ :=
    inPlace_refines_printing none hargs rfl hargs' hdistinct hw
  obtain ⟨-, hexit, -, houtput⟩ := hruns c hc
  exact ⟨hargs, hargs', hdistinct, hw, hc, by decide +kernel, by decide +kernel, by decide +kernel,
    by decide +kernel, hexit, docs, left, hdocs, houtput⟩

end Runs
end PipeBlocks
