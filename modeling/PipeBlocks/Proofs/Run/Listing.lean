import PipeBlocks.Proofs.CommandLine
import PipeBlocks.Proofs.Document.Called
import PipeBlocks.Proofs.Names
import PipeBlocks.Proofs.Run.World

/-! What a listing run prints, beside what the same run prints without listing.

A listing run prints the names that the documents call, one on a line. They are the names that the
other run calls, document by document (`Expander.Calls`), except that a listing run has no name for
standard input: an exclusion that matches that name keeps the other run from replacing anything,
and does nothing here (`listPipes_calls`).

The names are printed only once all the texts are read, and as a set: in which order the files are
given, and how often, does not matter, and if one of them cannot be read nothing is printed
(`listPipes_union`). -/
namespace PipeBlocks

/-- The expansion of the document calls the name: it is that of a stage of a replaced block. -/
def Expander.Calls (p : Expander) (d : Document) (name : Text) : Prop :=
  ∃ r ∈ (p.debugging.expand d.text d.name).replacements, ∃ b, Block.parse? r.before r.offset = some b ∧
    ∃ s ∈ stages b.chain, name = p.options.namePrefix ++ s.name

/-- An excluded document calls nothing. -/
theorem Expander.calls_iff {p : Expander} {d : Document} {name : Text} :
    p.Calls d name ↔ p.exclusions.excludes d.name = false ∧ name ∈ p.calledNames d.text := by
  unfold Calls Exclusions.excludes
  cases hx : p.exclusions.firstMatch? d.name with
  | some pattern =>
    have hx' : p.debugging.exclusions.firstMatch? d.name = some pattern := hx
    simp [Expander.expand, hx']
  | none =>
    rw [mem_calledNames_iff_recorded hx]
    simp

namespace World

/-- The names in the files that are not excluded. -/
def namesIn (w : World) (p : Expander) (files : List Text) : Except Failure (List Text) := do
  let texts ← (files.filter fun name => !p.exclusions.excludes name).mapM w.textOf
  return texts.flatMap p.calledNames

/-- The names that a listing run collects. -/
def listed (w : World) (p : Expander) (files : List Text) : Except Failure (List Text) :=
  if files = [] then p.calledNames <$> w.inputText else w.namesIn p files

theorem mapM_textOf {w : World} {docs : List Document} (h : ∀ d ∈ docs, w.textOf d.name = .ok d.text) :
    (docs.map (·.name)).mapM w.textOf = .ok (docs.map (·.text)) := by
  induction docs with
  | nil => rfl
  | cons d rest ih =>
    rw [List.map_cons, List.mapM_cons, h d (List.mem_cons_self ..),
      ih fun d hd => h d (List.mem_cons_of_mem _ hd)]
    rfl

theorem listed_of_reads {w : World} {files : List Text} {docs : List Document}
    (h : w.Reads files docs) (p : Expander) :
    w.listed p files = .ok ((docs.filter fun d => files = [] || !p.exclusions.excludes d.name).flatMap
      fun d => p.calledNames d.text) := by
  unfold Reads at h
  unfold listed
  split at h
  · rename_i hfiles
    obtain ⟨t, ht, rfl⟩ := h
    rw [if_pos hfiles, ht]
    simp [hfiles]
  · rename_i hfiles
    obtain ⟨rfl, hread⟩ := h
    rw [if_neg hfiles, namesIn, List.filter_map,
      mapM_textOf fun d hd => hread d (List.mem_of_mem_filter hd)]
    simp only [hfiles, decide_false, Bool.false_or]
    show Except.ok ((List.map _ _).flatMap p.calledNames) = _
    rw [List.flatMap_map]
    rfl

end World

namespace Run

theorem exec_namesInFiles (p : Expander) (files : List Text) (w : World) :
    exec (namesInFiles p files) w = (w.namesIn p files, w) := by
  induction files with
  | nil => rfl
  | cons name rest ih =>
    unfold namesInFiles World.namesIn
    split
    · rename_i h
      rw [ih, List.filter_cons_of_neg (by simp [h]), World.namesIn]
    · rename_i h
      rw [List.filter_cons_of_pos (by simp [h]), List.mapM_cons, exec_bind, exec_read]
      cases w.textOf name with
      | error e => rfl
      | ok t =>
        dsimp only
        rw [exec_bind, ih, World.namesIn]
        cases (rest.filter fun name => !p.exclusions.excludes name).mapM w.textOf <;> rfl

theorem exec_listPipes (p : Expander) (files : List Text) (w : World) :
    exec (listPipes p files) w = match w.listed p files with
      | .ok names => (.ok (), w.printed ((Names.ofList names).flatMap (· ++ ['\n'])))
      | .error e => (.error e, w) := by
  unfold listPipes World.listed
  dsimp only
  by_cases hfiles : files = []
  · rw [if_pos hfiles, if_pos hfiles, exec_bind, exec_map, exec_readInput]
    cases w.inputText <;> rfl
  · rw [if_neg hfiles, if_neg hfiles, exec_bind, exec_namesInFiles]
    cases w.namesIn p files <;> rfl

end Run

/-! ### Listing and rewriting -/

section Listing
variable {w : World} {files : List Text} {docs : List Document} {p : Expander}

/-- The names that a listing run prints, once all documents are read. -/
def listedNames (p : Expander) (files : List Text) (docs : List Document) : List Text :=
  Names.ofList ((docs.filter fun d => files = [] || !p.exclusions.excludes d.name).flatMap
    fun d => p.calledNames d.text)

theorem mem_listedNames_iff {name : Text} : name ∈ listedNames p files docs ↔
    ∃ d ∈ docs, (files = [] ∨ p.exclusions.excludes d.name = false) ∧ name ∈ p.calledNames d.text := by
  simp [listedNames, and_assoc]

theorem World.Reads.name_eq (h : w.Reads [] docs) : ∀ d ∈ docs, d.name = inputName := by
  obtain ⟨t, -, rfl⟩ := h
  simp

/-- The listed names are the called ones, unless standard input is excluded and has names. -/
theorem listedNames_agree_iff (h : w.Reads files docs) :
    (∀ name, name ∈ listedNames p files docs ↔ ∃ d ∈ docs, p.Calls d name) ↔
      files ≠ [] ∨ p.exclusions.excludes inputName = false ∨ ∀ d ∈ docs, p.calledNames d.text = [] := by
  simp only [mem_listedNames_iff, Expander.calls_iff]
  by_cases hfiles : files = []
  · subst hfiles
    have hname := h.name_eq
    constructor
    · intro hagree
      right
      by_cases hx : p.exclusions.excludes inputName = true
      · right
        intro d hd
        rw [List.eq_nil_iff_forall_not_mem]
        intro name hmem
        obtain ⟨d', hd', hx', -⟩ := (hagree name).mp ⟨d, hd, .inl rfl, hmem⟩
        rw [hname d' hd', hx] at hx'
        cases hx'
      · left
        simpa using hx
    · rintro (h | hx | hnone) name
      · exact absurd rfl h
      · constructor
        · rintro ⟨d, hd, -, hmem⟩
          exact ⟨d, hd, by rw [hname d hd, hx], hmem⟩
        · rintro ⟨d, hd, -, hmem⟩
          exact ⟨d, hd, .inl rfl, hmem⟩
      · constructor
        · rintro ⟨d, hd, -, hmem⟩
          rw [hnone d hd] at hmem
          cases hmem
        · rintro ⟨d, hd, -, hmem⟩
          rw [hnone d hd] at hmem
          cases hmem
  · simp [hfiles]

/-- **What listing prints.** A run that lists and the same run without listing, which prints what
the documents expand to, both succeed when everything can be read. The listed names are those that
the other run calls, if the documents are files. If they are standard input, an exclusion does not
count: the names differ when standard input is excluded and has any. -/
theorem listPipes_calls (setting : Option Text) {args args' : List Text}
    {a : CommandLine.Arguments} {c : Config} (hargs : CommandLine.parse args = .ok (.run a))
    (hlist : a.listPipes = true)
    (hargs' : CommandLine.parse args' = .ok (.run { a with listPipes := false }))
    (hc : w.settings a = .ok c) (hdocs : w.Reads a.files docs) :
    ∃ names : List Text,
      ((w.run setting args).1 = .success ∧ (w.run setting args).2.files = w.files ∧
        (w.run setting args).2.output = w.output ++ names.flatMap (· ++ ['\n'])) ∧
      ((w.run setting args').1 = .success ∧
        (w.run setting args').2.output =
          w.output ++ docs.flatMap fun d => (c.expander.debugging.expand d.text d.name).code) ∧
      ((∀ name, name ∈ names ↔ ∃ d ∈ docs, c.expander.Calls d name) ↔
        a.files ≠ [] ∨ c.exclusions.excludes inputName = false ∨
          ∀ d ∈ docs, c.expander.calledNames d.text = []) ∧
      (a.files = [] → ∀ name, name ∈ names ↔ ∃ d ∈ docs, name ∈ c.expander.calledNames d.text) := by
  have hlisted : (Run.afterSettings setting a c w).listed c.expander a.files = .ok _ :=
    World.listed_of_reads hdocs c.expander
  have hinPlace : a.inPlace = false := by
    have := (CommandLine.accepted_of_parse hargs).one_mode
    simpa [hlist] using this
  have hc' : w.settings { a with listPipes := false } = .ok c := hc
  have hrun : w.run setting args = (.success, (Run.afterSettings setting a c w).printed
      ((listedNames c.expander a.files docs).flatMap (· ++ ['\n']))) := by
    rw [Run.run_of_parse hargs, Run.exec_perform_of_listPipes hc hlist, Run.exec_listPipes, hlisted]
    rfl
  have hrun' : w.run setting args' = (.success, Run.afterPrinting (.ofSetting setting a.verbose)
      c.expander docs (Run.afterSettings setting { a with listPipes := false } c w)) := by
    rw [Run.run_of_parse hargs', Run.exec_perform_of_print hc' rfl hinPlace hdocs]
  refine ⟨listedNames c.expander a.files docs, ?_, ?_, listedNames_agree_iff hdocs, ?_⟩
  · rw [hrun]
    exact ⟨rfl, rfl, rfl⟩
  · refine ⟨by rw [hrun'], ?_⟩
    rw [hrun']
    simp only [Expander.code_debugging]
    rfl
  · intro hfiles name
    rw [mem_listedNames_iff]
    simp [hfiles]

/-- One file is given from the root and one from the directory above. The second is excluded, so its
name is not listed. -/
theorem listPipes_calls_excluded :
    let w : World :=
      { files :=
          { nodes := [(["src".toList], .directory), (["lib".toList], .directory),
              (["src".toList, "A.svelte".toList], .file (.text "\x7ba | f:1\x7d".toList)),
              (["lib".toList, "B.svelte".toList], .file (.text "\x7bb | g\x7d".toList))]
            workingDirectory := ["src".toList] } }
    let args := ["-x".toList, "lib/".toList, "/src/A.svelte".toList, "../lib/B.svelte".toList]
    let a : CommandLine.Arguments :=
      { files := ["/src/A.svelte".toList, "../lib/B.svelte".toList], exclude := ["lib/".toList] }
    let c : Config := { exclude := ["lib/".toList] }
    let docs : List Document := [⟨"/src/A.svelte".toList, "\x7ba | f:1\x7d".toList⟩,
      ⟨"../lib/B.svelte".toList, "\x7bb | g\x7d".toList⟩]
    CommandLine.parse ("--list-pipes".toList :: args) = .ok (.run { a with listPipes := true }) ∧
      CommandLine.parse args = .ok (.run a) ∧ w.settings a = .ok c ∧ w.Reads a.files docs ∧
      (w.run none ("--list-pipes".toList :: args)).2.output = "f\n".toList ∧
      (w.run none args).2.output = "\x7bf(a, 1)\x7d\x7bb | g\x7d".toList ∧
      ∃ names : List Text,
        (w.run none ("--list-pipes".toList :: args)).2.output = names.flatMap (· ++ ['\n']) ∧
        ∀ name, name ∈ names ↔ ∃ d ∈ docs, c.expander.Calls d name := by
  intro w args a c docs
  have hargs : CommandLine.parse ("--list-pipes".toList :: args) =
      .ok (.run { a with listPipes := true }) := by decide +kernel
  have hargs' : CommandLine.parse args = .ok (.run a) := by decide +kernel
  have hc : w.settings a = .ok c := rfl
  have hdocs : w.Reads a.files docs := ⟨rfl, by decide +kernel⟩
  obtain ⟨names, ⟨-, -, houtput⟩, -, hagree, -⟩ :=
    listPipes_calls none hargs rfl hargs' hc hdocs
  refine ⟨hargs, hargs', hc, hdocs, by decide +kernel, by decide +kernel, names, houtput, ?_⟩
  exact hagree.mpr (.inl (by decide))

/-- Standard input is excluded: a name is listed that the other run does not call. -/
theorem listPipes_lists_excluded_input :
    let w : World := { input := .text "\x7ba|f\x7d".toList }
    let p : Expander := { exclusions := ⟨["stdin".toList]⟩ }
    (w.run none ["--list-pipes".toList, "-x".toList, "stdin".toList]).2.output = "f\n".toList ∧
      (w.run none ["-x".toList, "stdin".toList]).2.output = "\x7ba|f\x7d".toList ∧
      ∀ name, ¬ p.Calls ⟨inputName, "\x7ba|f\x7d".toList⟩ name := by
  intro w p
  refine ⟨by decide +kernel, by decide +kernel, fun name => ?_⟩
  rw [Expander.calls_iff]
  rintro ⟨hx, -⟩
  exact absurd hx (by decide +kernel)

end Listing

/-! ### Files as a set -/

section Union

/-- A traversal gives what each element gives, or it fails at one of them. -/
theorem mapM_outcome {ε α β : Type} (f : α → Except ε β) (l : List α) :
    (∃ out, l.mapM f = .ok out ∧ l.map f = out.map .ok) ∨
      ∃ e, l.mapM f = .error e ∧ ∃ x ∈ l, f x = .error e := by
  induction l with
  | nil => exact .inl ⟨[], rfl, rfl⟩
  | cons x rest ih =>
    rw [List.mapM_cons]
    cases hx : f x with
    | error e => exact .inr ⟨e, rfl, x, List.mem_cons_self .., hx⟩
    | ok y =>
      rcases ih with ⟨ys, hys, hmap⟩ | ⟨e, he, x', hmem, hx'⟩
      · refine .inl ⟨y :: ys, ?_, ?_⟩
        · rw [hys]
          rfl
        · rw [List.map_cons, hx, hmap, List.map_cons]
      · refine .inr ⟨e, ?_, x', List.mem_cons_of_mem _ hmem, hx'⟩
        rw [he]
        rfl

variable {w : World} {p : Expander} {files files' : List Text}

/-- What a run is given to read, by name: the files, or standard input if there are none. -/
def World.inputs (w : World) (files : List Text) : List (Text × Except Failure Text) :=
  if files = [] then [(inputName, w.inputText)] else files.map fun name => (name, w.textOf name)

/-- The text is that of an input that is not excluded. -/
def World.Lists (w : World) (p : Expander) (files : List Text) (t : Text) : Prop :=
  ∃ i ∈ w.inputs files, p.exclusions.excludes i.1 = false ∧ i.2 = .ok t

/-- Each input is excluded or can be read. -/
def World.Listable (w : World) (p : Expander) (files : List Text) : Prop :=
  ∀ i ∈ w.inputs files, p.exclusions.excludes i.1 = true ∨ ∃ t, i.2 = .ok t

theorem World.mem_inputs_congr (h : ∀ x, x ∈ files' ↔ x ∈ files) (i : Text × Except Failure Text) :
    i ∈ w.inputs files' ↔ i ∈ w.inputs files := by
  have hnil : files' = [] ↔ files = [] := by simp only [List.eq_nil_iff_forall_not_mem, h]
  unfold World.inputs
  by_cases hfiles : files = []
  · rw [if_pos hfiles, if_pos (hnil.mpr hfiles)]
  · rw [if_neg hfiles, if_neg fun h' => hfiles (hnil.mp h')]
    simp only [List.mem_map, h]

theorem World.lists_congr (h : ∀ x, x ∈ files' ↔ x ∈ files) (t : Text) :
    w.Lists p files' t ↔ w.Lists p files t := by
  simp only [World.Lists, World.mem_inputs_congr h]

theorem World.listable_congr (h : ∀ x, x ∈ files' ↔ x ∈ files) :
    w.Listable p files' ↔ w.Listable p files := by
  simp only [World.Listable, World.mem_inputs_congr h]

/-- The names are those in the inputs that are not excluded, unless that is standard input. -/
theorem World.listed_eq (hinput : files = [] → p.exclusions.excludes inputName = false) :
    w.listed p files = (fun texts => texts.flatMap p.calledNames) <$>
      ((w.inputs files).filter fun i => !p.exclusions.excludes i.1).mapM (·.2) := by
  unfold World.listed World.inputs
  by_cases hfiles : files = []
  · have hkept : ([(inputName, w.inputText)].filter fun i => !p.exclusions.excludes i.1) =
        [(inputName, w.inputText)] := List.filter_cons_of_pos (by simp [hinput hfiles])
    rw [if_pos hfiles, if_pos hfiles, hkept, List.mapM_cons]
    cases w.inputText with
    | error e => rfl
    | ok t =>
      show _ = Except.ok ([t].flatMap p.calledNames)
      rw [List.flatMap_singleton]
      rfl
  · rw [if_neg hfiles, if_neg hfiles, List.filter_map, List.mapM_map]
    rfl

/-- Either all can be read, and the names of all the texts are collected, or none are. -/
theorem World.listed_outcome (w : World)
    (hinput : files = [] → p.exclusions.excludes inputName = false) :
    (w.Listable p files ∧ ∃ names, w.listed p files = .ok names ∧
      ∀ name, name ∈ names ↔ ∃ t, w.Lists p files t ∧ name ∈ p.calledNames t) ∨
    (¬ w.Listable p files ∧ ∃ e, w.listed p files = .error e) := by
  rw [World.listed_eq hinput]
  rcases mapM_outcome (·.2) ((w.inputs files).filter fun i => !p.exclusions.excludes i.1) with
    ⟨texts, htexts, hmap⟩ | ⟨e, he, i, hi, hread⟩
  · have hlists (t : Text) : t ∈ texts ↔ w.Lists p files t := by
      have hmem : Except.ok t ∈ texts.map (Except.ok : Text → Except Failure Text) ↔ t ∈ texts := by
        simp
      rw [← hmem, ← hmap]
      simp [World.Lists, and_assoc]
    refine .inl ⟨fun i hi => ?_, texts.flatMap p.calledNames, by rw [htexts]; rfl,
      fun name => by simp only [List.mem_flatMap, hlists]⟩
    by_cases hx : p.exclusions.excludes i.1 = true
    · exact .inl hx
    · have hmem : i.2 ∈ texts.map .ok := by
        rw [← hmap]
        exact List.mem_map_of_mem (List.mem_filter.mpr ⟨hi, by simpa using hx⟩)
      obtain ⟨t, -, ht⟩ := List.mem_map.mp hmem
      exact .inr ⟨t, ht.symm⟩
  · obtain ⟨hi, hx⟩ := List.mem_filter.mp hi
    refine .inr ⟨fun h => ?_, e, by rw [he]; rfl⟩
    rcases h i hi with hx' | ⟨t, ht⟩
    · simp [hx'] at hx
    · rw [ht] at hread
      cases hread

/-- How a listing run ends and what it prints, by what it collects. -/
theorem run_of_listPipes (setting : Option Text) {args : List Text} {a : CommandLine.Arguments}
    {c : Config} (hargs : CommandLine.parse args = .ok (.run a)) (hlist : a.listPipes = true)
    (hc : w.settings a = .ok c) :
    (∀ names, w.listed c.expander a.files = .ok names → (w.run setting args).1 = .success ∧
      (w.run setting args).2.files = w.files ∧ (w.run setting args).2.output =
        w.output ++ (Names.ofList names).flatMap (· ++ ['\n'])) ∧
    (∀ e, w.listed c.expander a.files = .error e → (w.run setting args).1 = .failure ∧
      (w.run setting args).2.files = w.files ∧ (w.run setting args).2.output = w.output) := by
  have hlisted : (Run.afterSettings setting a c w).listed c.expander a.files =
      w.listed c.expander a.files := rfl
  rw [Run.run_of_parse hargs, Run.exec_perform_of_listPipes hc hlist, Run.exec_listPipes, hlisted]
  constructor
  · intro names hnames
    rw [hnames]
    exact ⟨rfl, rfl, rfl⟩
  · intro e he
    rw [he]
    exact ⟨rfl, rfl, rfl⟩

/-- **Listing is a union, all or nothing.** Take a run that lists files, or standard input under a
name that is not excluded. If each input is excluded or can be read, the names printed are those of
the texts that are not excluded, each once, in the order of their bytes. If some other input cannot
be read, wherever it stands among the files, the run fails and prints nothing. Either way a run with
the same files in another order, or repeated, ends and prints the same. -/
theorem listPipes_union (setting : Option Text) {args : List Text} {a : CommandLine.Arguments}
    {c : Config} (hargs : CommandLine.parse args = .ok (.run a)) (hlist : a.listPipes = true)
    (hc : w.settings a = .ok c) (hinput : a.files = [] → c.exclusions.excludes inputName = false) :
    (w.Listable c.expander a.files → ∃ names : List Text,
      names.Pairwise (·.bytes < ·.bytes) ∧
      (∀ name, name ∈ names ↔
        ∃ t, w.Lists c.expander a.files t ∧ name ∈ c.expander.calledNames t) ∧
      (w.run setting args).1 = .success ∧ (w.run setting args).2.files = w.files ∧
      (w.run setting args).2.output = w.output ++ names.flatMap (· ++ ['\n'])) ∧
    (¬ w.Listable c.expander a.files →
      (w.run setting args).1 = .failure ∧ (w.run setting args).2.files = w.files ∧
      (w.run setting args).2.output = w.output) ∧
    (∀ args' files', CommandLine.parse args' = .ok (.run { a with files := files' }) →
      (∀ x, x ∈ files' ↔ x ∈ a.files) →
      (w.run setting args').1 = (w.run setting args).1 ∧
      (w.run setting args').2.output = (w.run setting args).2.output) := by
  obtain ⟨hok, herror⟩ := run_of_listPipes setting hargs hlist hc
  have houtcome := w.listed_outcome (p := c.expander) hinput
  refine ⟨fun h => ?_, fun h => ?_, fun args' files' hargs' hfiles => ?_⟩
  · rcases houtcome with ⟨-, names, hnames, hmem⟩ | ⟨hnot, -⟩
    · refine ⟨Names.ofList names, ?_, fun name => Names.mem_ofList.trans (hmem name), hok names hnames⟩
      exact (Names.pairwise_ofList names).imp Text.bytes_lt_bytes
    · exact absurd h hnot
  · rcases houtcome with ⟨hlistable, -⟩ | ⟨-, e, he⟩
    · exact absurd hlistable h
    · exact herror e he
  · have hc' : w.settings { a with files := files' } = .ok c := hc
    obtain ⟨hok', herror'⟩ := run_of_listPipes setting hargs' hlist hc'
    have hnil : files' = [] → a.files = [] := by
      simp only [List.eq_nil_iff_forall_not_mem, hfiles, imp_self]
    have houtcome' := w.listed_outcome (p := c.expander) fun h => hinput (hnil h)
    have hlistable : w.Listable c.expander files' ↔ w.Listable c.expander a.files :=
      World.listable_congr hfiles
    rcases houtcome with ⟨h, names, hnames, hmem⟩ | ⟨h, e, he⟩ <;>
      rcases houtcome' with ⟨h', names', hnames', hmem'⟩ | ⟨h', e', he'⟩
    · have hset : Names.ofList names' = Names.ofList names := by
        apply Names.ofList_eq_of_mem_iff
        intro name
        rw [hmem, hmem']
        simp only [World.lists_congr hfiles]
      obtain ⟨hexit, -, houtput⟩ := hok names hnames
      obtain ⟨hexit', -, houtput'⟩ := hok' names' hnames'
      exact ⟨by rw [hexit, hexit'], by rw [houtput, houtput', hset]⟩
    · exact absurd (hlistable.mpr h) h'
    · exact absurd (hlistable.mp h') h
    · obtain ⟨hexit, -, houtput⟩ := herror e he
      obtain ⟨hexit', -, houtput'⟩ := herror' e' he'
      exact ⟨by rw [hexit, hexit'], by rw [houtput, houtput']⟩

/-- A file that is excluded need not be readable, and the other files, one of them by its path from
the root, are given in two ways. Without the exclusion the run fails. -/
theorem listPipes_union_repeated :
    let w : World :=
      { files :=
          { nodes := [(["work".toList], .directory),
              (["work".toList, "b.svelte".toList], .file (.text "\x7bb | g | f\x7d".toList)),
              (["a.svelte".toList], .file (.text "\x7ba | f:1\x7d".toList)),
              (["work".toList, "gen".toList], .file (.bytes ⟨#[255]⟩))]
            workingDirectory := ["work".toList] } }
    let options := ["--list-pipes".toList, "-x".toList, "gen".toList]
    let files := ["b.svelte".toList, "gen".toList, "/a.svelte".toList]
    let files' := ["/a.svelte".toList, "b.svelte".toList, "/a.svelte".toList, "gen".toList]
    let a : CommandLine.Arguments :=
      { files := files, listPipes := true, exclude := ["gen".toList] }
    let c : Config := { exclude := ["gen".toList] }
    CommandLine.parse (options ++ files) = .ok (.run a) ∧
      CommandLine.parse (options ++ files') = .ok (.run { a with files := files' }) ∧
      w.settings a = .ok c ∧ w.Listable c.expander a.files ∧ (∀ x, x ∈ files' ↔ x ∈ a.files) ∧
      (w.run none (options ++ files)).1 = .success ∧
      (w.run none (options ++ files)).2.output = "f\ng\n".toList ∧
      (w.run none (options ++ files')).2.output = "f\ng\n".toList ∧
      (w.run none ("--list-pipes".toList :: files)).1 = .failure ∧
      (w.run none ("--list-pipes".toList :: files)).2.output = [] := by
  intro w options files files' a c
  have hargs : CommandLine.parse (options ++ files) = .ok (.run a) := by decide +kernel
  have hargs' : CommandLine.parse (options ++ files') = .ok (.run { a with files := files' }) := by
    decide +kernel
  have hc : w.settings a = .ok c := rfl
  have hreadable : ∀ i ∈ w.inputs a.files,
      c.expander.exclusions.excludes i.1 = true ∨ i.2.toOption.isSome = true := by decide +kernel
  have hlistable : w.Listable c.expander a.files := by
    refine fun i hi => (hreadable i hi).imp_right fun h => ?_
    cases ht : i.2 with
    | error e =>
      rw [ht] at h
      cases h
    | ok t => exact ⟨t, rfl⟩
  have hmem : ∀ x, x ∈ files' ↔ x ∈ a.files := by
    intro x
    simp only [a, files, files', List.mem_cons, List.not_mem_nil, or_false]
    grind
  have houtput : (w.run none (options ++ files)).2.output = "f\ng\n".toList := by decide +kernel
  obtain ⟨hlists, -, hsame⟩ := listPipes_union none hargs rfl hc nofun
  obtain ⟨names, -, -, hexit, -⟩ := hlists hlistable
  refine ⟨hargs, hargs', hc, hlistable, hmem, hexit, houtput, ?_, by decide +kernel, by decide +kernel⟩
  rw [(hsame _ files' hargs' hmem).2, houtput]

/-- No file is given, so the names of no file are expected; the name in standard input is printed. -/
theorem listPipes_lists_input :
    let w : World := { input := .text "\x7ba|f\x7d".toList }
    let a : CommandLine.Arguments := { listPipes := true }
    let c : Config := {}
    CommandLine.parse ["--list-pipes".toList] = .ok (.run a) ∧ w.settings a = .ok c ∧
      (∀ name ∈ a.files, c.exclusions.excludes name = true ∨ ∃ t, w.textOf name = .ok t) ∧
      (w.run none ["--list-pipes".toList]).2.output = "f\n".toList ∧
      ¬ ∃ names : List Text,
        (∀ name, name ∈ names ↔ ∃ file ∈ a.files, c.exclusions.excludes file = false ∧
          ∃ t, w.textOf file = .ok t ∧ name ∈ c.expander.calledNames t) ∧
        (w.run none ["--list-pipes".toList]).2.output = names.flatMap (· ++ ['\n']) := by
  intro w a c
  have houtput : (w.run none ["--list-pipes".toList]).2.output = "f\n".toList := by decide +kernel
  refine ⟨by decide +kernel, rfl, nofun, houtput, ?_⟩
  rintro ⟨names, hmem, hnames⟩
  have hnil : names = [] := by
    rw [List.eq_nil_iff_forall_not_mem]
    intro name h
    obtain ⟨file, hfile, -⟩ := (hmem name).mp h
    cases hfile
  rw [houtput, hnil] at hnames
  cases hnames

end Union

end PipeBlocks
