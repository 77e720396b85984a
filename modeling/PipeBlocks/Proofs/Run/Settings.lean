import PipeBlocks.Proofs.CommandLine.Added
import PipeBlocks.Proofs.Document.Debugging
import PipeBlocks.Proofs.Exclusions
import PipeBlocks.Proofs.Run.World

/-! What the settings of a run come to.

Patterns come from three places, and a path is searched for them in the order in which they are put
together: SvelteKit's, those of the settings file, those of the command line (`patternsOver`). Empty
and repeated ones make no difference (`exclusions_override`). A document that is kept by none of them
is expanded as it would be without exclusions, with a prefix that is the command line's, if it has
one (`code_eq_expand`). So options that only exclude or report more keep what was excluded, and
where a document is still expanded its code is the same (`settings_combine`). -/
namespace PipeBlocks

open CommandLine (Arguments)

/-! ### Exclusions from three places -/

theorem Config.exclusions_eq (c : Config) : c.exclusions =
    .ofInserted ((if c.svelteKitDefaults then Exclusions.svelteKitPatterns else []) ++ c.exclude) := by
  unfold exclusions
  split
  · rw [Exclusions.svelteKit, Exclusions.ofList_eq]
    exact Exclusions.insertAll_ofInserted _ _
  · exact Exclusions.insertAll_ofInserted [] _

/-- All patterns in order: SvelteKit's, if the settings or the arguments want them, those of the
settings, and those of the arguments. -/
def CommandLine.Arguments.patternsOver (a : Arguments) (c : Config) : List Text :=
  (if c.svelteKitDefaults || a.svelteKitDefaults then Exclusions.svelteKitPatterns else []) ++
    c.exclude ++ a.exclude

section Override
variable {a a' : Arguments} {c : Config} {document path pattern : Text}

theorem exclusions_override (a : Arguments) (c : Config) :
    (a.override c).exclusions = .ofInserted (a.patternsOver c) := by
  rw [Config.exclusions_eq, Arguments.patternsOver, List.append_assoc]
  rfl

theorem ne_nil_of_mem_svelteKitPatterns : ∀ q ∈ Exclusions.svelteKitPatterns, q ≠ [] := by
  simp [Exclusions.svelteKitPatterns]

/-- A path is excluded by a pattern from any of the three places. -/
theorem excludes_override_iff :
    (a.override c).exclusions.excludes path = true ↔
      ((c.svelteKitDefaults = true ∨ a.svelteKitDefaults = true) ∧
        ∃ q ∈ Exclusions.svelteKitPatterns, q <:+: path) ∨
      ∃ q, (q ∈ c.exclude ∨ q ∈ a.exclude) ∧ q ≠ [] ∧ q <:+: path := by
  rw [exclusions_override, Exclusions.excludes_ofInserted_iff, ← Bool.or_eq_true]
  unfold Arguments.patternsOver
  constructor
  · rintro ⟨q, hq, hne, hoccurs⟩
    rw [List.append_assoc, List.mem_append, List.mem_append] at hq
    rcases hq with hq | hq
    · split at hq
      · rename_i hdefaults
        exact .inl ⟨hdefaults, q, hq, hoccurs⟩
      · cases hq
    · exact .inr ⟨q, hq, hne, hoccurs⟩
  · rintro (⟨hdefaults, q, hq, hoccurs⟩ | ⟨q, hq, hne, hoccurs⟩)
    · refine ⟨q, ?_, ne_nil_of_mem_svelteKitPatterns q hq, hoccurs⟩
      rw [if_pos hdefaults]
      exact List.mem_append_left _ (List.mem_append_left _ hq)
    · refine ⟨q, ?_, hne, hoccurs⟩
      rw [List.append_assoc]
      exact List.mem_append_right _ (List.mem_append.mpr hq)

/-- More patterns exclude more. -/
theorem CommandLine.Arguments.Adds.excludes (h : a.Adds a')
    (hx : (a.override c).exclusions.excludes path = true) :
    (a'.override c).exclusions.excludes path = true := by
  rw [excludes_override_iff] at hx ⊢
  rcases hx with ⟨hdefaults, hoccurs⟩ | ⟨q, hq, hoccurs⟩
  · exact .inl ⟨hdefaults.imp_right h.svelteKitDefaults, hoccurs⟩
  · exact .inr ⟨q, hq.imp_right fun hq => h.exclude.subset hq, hoccurs⟩

end Override

/-! ### Documents -/

namespace Expander
variable {p : Expander} {path pattern : Text}

/-- The pattern that is reported is the one that matches. -/
theorem expand_eq_skipping_iff {document : Text} :
    p.expand document path =
        { code := document, skipped := true, events := [.skipping path pattern] } ↔
      p.exclusions.firstMatch? path = some pattern := by
  constructor
  · intro h
    cases hx : p.exclusions.firstMatch? path with
    | none =>
      rw [expand_eq hx] at h
      cases congrArg (·.skipped) h
    | some q =>
      rw [expand_of_excluded hx] at h
      cases h
      rfl
  · intro hx
    exact expand_of_excluded hx document

/-- A document that is not excluded is expanded as it is without exclusions. -/
theorem code_eq_expand (hx : p.exclusions.excludes path = false) (document : Text) (debug : Bool) :
    (p.expand document path).code = PipeBlocks.expand document ⟨p.options.namePrefix, debug⟩ := by
  have hnone : p.exclusions.firstMatch? path = none := by simpa [Exclusions.excludes] using hx
  -- Debugging changes no code, so it is put on in both.
  unfold PipeBlocks.expand
  rw [← code_debugging, expand_eq (p := p.debugging) hnone, ← code_debugging (ofOptions _),
    expand_eq rfl]
  rfl

end Expander

/-! ### More that is excluded or reported -/

section Adds
variable {a a' : Arguments} {c : Config} {document path : Text}

theorem skipped_override (a : Arguments) (c : Config) (document path : Text) :
    ((a.override c).expander.expand document path).skipped = (a.override c).exclusions.excludes path :=
  Expander.skipped_expand _ ⟨path, document⟩

namespace CommandLine.Arguments.Adds

theorem namePrefix_override (h : a.Adds a') :
    (a'.override c).namePrefix = (a.override c).namePrefix := by
  simp [Arguments.override, h.namePrefix]

/-- What is skipped stays skipped. -/
theorem skipped (h : a.Adds a')
    (hs : ((a.override c).expander.expand document path).skipped = true) :
    ((a'.override c).expander.expand document path).skipped = true := by
  rw [skipped_override] at hs ⊢
  exact h.excludes hs

/-- What is still not skipped has the same code. -/
theorem code_eq (h : a.Adds a')
    (hs' : ((a'.override c).expander.expand document path).skipped = false) :
    ((a'.override c).expander.expand document path).code =
      ((a.override c).expander.expand document path).code := by
  have hs : ((a.override c).expander.expand document path).skipped = false := by
    rw [Bool.eq_false_iff] at hs' ⊢
    exact fun hs => hs' (h.skipped hs)
  rw [skipped_override] at hs hs'
  -- Debugging may differ, so both are compared with an expansion that has it off.
  calc ((a'.override c).expander.expand document path).code
      = expand document ⟨(a'.override c).namePrefix, false⟩ :=
        Expander.code_eq_expand (p := (a'.override c).expander) hs' document false
    _ = expand document ⟨(a.override c).namePrefix, false⟩ := by rw [h.namePrefix_override]
    _ = ((a.override c).expander.expand document path).code :=
        (Expander.code_eq_expand (p := (a.override c).expander) hs document false).symm

end CommandLine.Arguments.Adds

end Adds

/-! ### Settings -/

/-- The settings file that the arguments name holds these settings; without one they are the
default. -/
def World.Loads (w : World) (a : Arguments) (c : Config) : Prop :=
  match a.config with
  | none => c = {}
  | some path => Config.ofFile path (w.files.read path) = .ok c

theorem World.Loads.settings_eq {w : World} {a : Arguments} {c : Config} (h : w.Loads a c) :
    w.settings a = .ok (a.override c) := by
  unfold World.Loads at h
  unfold World.settings
  cases ha : a.config with
  | none =>
    simp only [ha] at h
    rw [h]
  | some path =>
    simp only [ha] at h
    simp only [h]

theorem World.Loads.adds {w : World} {a a' : Arguments} {c : Config} (h : w.Loads a c)
    (hadds : a.Adds a') : w.Loads a' c := by
  unfold World.Loads
  rw [hadds.config]
  exact h

namespace Run

/-- **Settings combine.** The settings of a run are those of the settings file, or the default, with
the arguments on top. A document is skipped if its path contains one of SvelteKit's patterns, and the
file or the arguments want them, or a pattern of the file or of the arguments that is not empty; the
pattern that is reported is the first in the order SvelteKit, file, arguments. Any other document is
expanded with the arguments' prefix, if there is one, and else with the file's. With more options
that only exclude or report, what was skipped is skipped, and what is still not skipped has the
same code; such are the arguments of a command line to which these options are added. -/
theorem settings_combine {w : World} {a : Arguments} {c : Config} (hc : w.Loads a c) :
    let p := (a.override c).expander
    exec (resolve a) w = (.ok (a.override c), w) ∧
    (∀ document path,
      ((p.expand document path).skipped = true ↔
        ((c.svelteKitDefaults = true ∨ a.svelteKitDefaults = true) ∧
          ∃ q ∈ Exclusions.svelteKitPatterns, q <:+: path) ∨
        ∃ q, (q ∈ c.exclude ∨ q ∈ a.exclude) ∧ q ≠ [] ∧ q <:+: path) ∧
      (∀ pattern, p.expand document path =
          { code := document, skipped := true, events := [.skipping path pattern] } ↔
        Exclusions.FirstIn (a.patternsOver c) path pattern) ∧
      ((p.expand document path).skipped = false → ∀ debug, (p.expand document path).code =
        PipeBlocks.expand document ⟨a.namePrefix.getD c.namePrefix, debug⟩)) ∧
    (∀ a' : Arguments, a.Adds a' →
      let p' := (a'.override c).expander
      exec (resolve a') w = (.ok (a'.override c), w) ∧
      ∀ document path,
        ((p.expand document path).skipped = true → (p'.expand document path).skipped = true) ∧
        ((p'.expand document path).skipped = false →
          (p'.expand document path).code = (p.expand document path).code)) ∧
    ∀ args args' a', CommandLine.parse args = .ok (.run a) → CommandLine.Extends args args' →
      CommandLine.parse args' = .ok (.run a') → a.Adds a' := by
  intro p
  refine ⟨?_, fun document path => ⟨?_, fun pattern => ?_, fun h debug => ?_⟩, fun a' hadds =>
    ⟨?_, fun document path => ⟨hadds.skipped, hadds.code_eq⟩⟩, fun args args' a' hargs hext hargs' =>
      CommandLine.adds_of_parse hext hargs hargs'⟩
  · rw [exec_resolve, hc.settings_eq]
  · rw [skipped_override, excludes_override_iff]
  · rw [Expander.expand_eq_skipping_iff, ← Exclusions.firstMatch?_ofInserted_eq_some_iff,
      ← exclusions_override]
    rfl
  · rw [skipped_override] at h
    exact Expander.code_eq_expand h document debug
  · rw [exec_resolve, (hc.adds hadds).settings_eq]

/-- The settings file has a prefix, which an empty one replaces, and a pattern that the arguments
repeat; one more option excludes another document and leaves the code of the last one. -/
theorem settings_combine_overridden :
    let w : World :=
      { files :=
          { nodes := [(["p.yaml".toList],
              .file (.text "prefix: file.\nexclude: ['', vendor/]\n".toList))] } }
    let args := ["-c".toList, "p.yaml".toList, "-p".toList, [], "-x".toList, "lib/".toList,
      "--exclude=vendor/".toList]
    let args' := ["-c".toList, "p.yaml".toList, "--sveltekit-defaults".toList, "-p".toList, [],
      "-x".toList, "lib/".toList, "--exclude=vendor/".toList, "-x".toList, "gen/".toList, "-d".toList]
    let a : Arguments :=
      { config := some "p.yaml".toList
        namePrefix := some []
        exclude := ["lib/".toList, "vendor/".toList] }
    let a' : Arguments :=
      { a with
        exclude := ["lib/".toList, "vendor/".toList, "gen/".toList]
        svelteKitDefaults := true
        debug := true }
    let c : Config := { namePrefix := "file.".toList, exclude := [[], "vendor/".toList] }
    let p := (a.override c).expander
    let p' := (a'.override c).expander
    let document : Text := "\x7bx | f\x7d".toList
    w.Loads a c ∧ CommandLine.parse args = .ok (.run a) ∧ CommandLine.parse args' = .ok (.run a') ∧
      CommandLine.Extends args args' ∧ a.Adds a' ∧
      Exclusions.FirstIn (a.patternsOver c) "lib/vendor/A.svelte".toList "vendor/".toList ∧
      (p'.expand document "lib/vendor/A.svelte".toList).skipped = true ∧
      (p.expand document "generated/A.svelte".toList).code = "\x7bf(x)\x7d".toList ∧
      (p'.expand document "generated/A.svelte".toList).skipped = true ∧
      (p'.expand document "A.svelte".toList).code = "\x7bf(x)\x7d".toList := by
  intro w args args' a a' c p p' document
  have hc : w.Loads a c := by
    show Config.ofFile _ _ = _
    decide +kernel
  have hargs : CommandLine.parse args = .ok (.run a) := by decide +kernel
  have hargs' : CommandLine.parse args' = .ok (.run a') := by decide +kernel
  have hext : CommandLine.Extends args args' := by
    refine .keep (by decide) (.keep (by decide) (.add (.switch (.inr (.inl rfl))) ?_))
    refine .keep (by decide) (.keep (by decide) (.keep (by decide) (.keep (by decide) ?_)))
    exact .keep (by decide) (.add (.exclude (.inr rfl) (.inl (by decide)))
      (.add (.letter rfl (.inl rfl)) .nil))
  obtain ⟨-, hdocuments, hadds, hparse⟩ := settings_combine hc
  have ha' := hparse args args' a' hargs hext hargs'
  refine ⟨hc, hargs, hargs', hext, ha', ?_, ?_, ?_, by decide +kernel, ?_⟩
  · exact ((hdocuments document _).2.1 _).mp (by decide +kernel)
  · exact ((hadds a' ha').2 document _).1 (by decide +kernel)
  · rw [(hdocuments document _).2.2 (by decide +kernel) true]
    decide +kernel
  · rw [((hadds a' ha').2 document _).2 (by decide +kernel)]
    decide +kernel

end Run

end PipeBlocks
