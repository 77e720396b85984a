import PipeBlocks.Proofs.Document.Cut
import Mathlib.Data.List.Basic

/-! What debugging adds to an expansion.

With debugging on, an expansion keeps a record of every block that it replaced and tells of every
complete block, in the order of the document: what it was replaced by (`Block.outcome`), as in its
record, or why it was left as it is. With debugging off it tells only the latter. Nothing else
depends on it (`Expander.debugging_only_adds`). -/
namespace PipeBlocks
open Text Scan

/-! ### Events and records of one block -/

/-- What there is to tell of a complete block. -/
def Block.outcome (b : Block) (namePrefix filename : Text) : Event :=
  match b.replacement namePrefix with
  | .ok after => .replaced b.raw after
  | .error e => .unchanged filename b.start b.raw e

/-- The record of a block that can be written as calls. -/
def Block.record? (b : Block) (namePrefix : Text) : Option Record :=
  match b.replacement namePrefix with
  | .ok after => some ⟨b.raw, after, b.start⟩
  | .error _ => none

/-- What a block was replaced by, if the event tells that, with what it was before. -/
def Event.replacement? : Event → Option (Text × Text)
  | .replaced before after => some (before, after)
  | _ => none

def Event.level (e : Event) : Log.Level := (Log.Entry.ofEvent e).level

/-- The event of a block tells what its record holds. -/
theorem Block.replacement?_outcome (b : Block) (namePrefix filename : Text) :
    (b.outcome namePrefix filename).replacement? =
      (b.record? namePrefix).map fun r => (r.before, r.after) := by
  unfold outcome record?
  cases b.replacement namePrefix <;> rfl

/-- The expander with debugging off. -/
def Expander.quiet (p : Expander) : Expander :=
  { p with options := { p.options with debug := false } }

section Block
variable (p : Expander) (filename : Text) (b : Block)

theorem eventsOf_debugging : p.debugging.options.eventsOf filename (.block b) =
    (if b.isComplete then some (b.outcome p.options.namePrefix filename) else none).toList := by
  unfold Options.eventsOf Options.contribution Block.outcome
  dsimp only [Expander.debugging]
  cases b.isComplete with
  | false => rfl
  | true => cases b.replacement p.options.namePrefix <;> rfl

theorem recordsOf_debugging : p.debugging.options.recordsOf (.block b) =
    (if b.isComplete then b.record? p.options.namePrefix else none).toList := by
  unfold Options.recordsOf Options.contribution Block.record?
  dsimp only [Expander.debugging]
  cases b.isComplete with
  | false => rfl
  | true => cases b.replacement p.options.namePrefix <;> rfl

theorem recordsOf_quiet : p.quiet.options.recordsOf (.block b) = [] := by
  unfold Options.recordsOf Options.contribution
  dsimp only [Expander.quiet]
  cases b.isComplete with
  | false => rfl
  | true => cases b.replacement p.options.namePrefix <;> rfl

/-- Without debugging, a block's event is told if it is more than debugging. -/
theorem eventsOf_quiet : p.quiet.options.eventsOf filename (.block b) =
    (p.debugging.options.eventsOf filename (.block b)).filter fun e => e.level != .debug := by
  unfold Options.eventsOf Options.contribution
  dsimp only [Expander.quiet, Expander.debugging]
  cases b.isComplete with
  | false => rfl
  | true => cases b.replacement p.options.namePrefix <;> rfl

end Block

/-! ### Events and records of a document -/

section Document
variable {p : Expander} {filename : Text} (hx : p.exclusions.firstMatch? filename = none)
  (document : Text)
include hx

/-- Events are told block by block. -/
theorem Expander.events_expand : (p.expand document filename).events =
    (if p.options.debug then [.processing filename] else []) ++
      (blocks document).flatMap fun b => p.options.eventsOf filename (.block b) := by
  rw [Expander.expand_eq hx, blocks_eq, ← gather_eq_flatMap_blocksFrom fun _ => rfl]

/-- Records are kept block by block. -/
theorem Expander.replacements_expand : (p.expand document filename).replacements =
    (blocks document).flatMap fun b => p.options.recordsOf (.block b) := by
  rw [Expander.expand_eq hx, blocks_eq, ← gather_eq_flatMap_blocksFrom fun _ => rfl]

theorem Expander.events_debugging : (p.debugging.expand document filename).events =
    .processing filename ::
      ((blocks document).filter (·.isComplete)).map (·.outcome p.options.namePrefix filename) := by
  rw [Expander.events_expand (p := p.debugging) hx]
  simp only [eventsOf_debugging]
  rw [← List.filterMap_eq_flatMap_toList, ← List.filterMap_filter, List.filterMap_eq_map']
  rfl

theorem Expander.replacements_debugging : (p.debugging.expand document filename).replacements =
    ((blocks document).filter (·.isComplete)).filterMap (·.record? p.options.namePrefix) := by
  rw [Expander.replacements_expand (p := p.debugging) hx]
  simp only [recordsOf_debugging]
  rw [← List.filterMap_eq_flatMap_toList, ← List.filterMap_filter]

theorem Expander.events_quiet : (p.quiet.expand document filename).events =
    (p.debugging.expand document filename).events.filter fun e => e.level != .debug := by
  rw [Expander.events_expand (p := p.quiet) hx, Expander.events_expand (p := p.debugging) hx]
  simp only [eventsOf_quiet]
  rw [List.filter_append, List.filter_flatMap]
  rfl

theorem Expander.replacements_quiet : (p.quiet.expand document filename).replacements = [] := by
  rw [Expander.replacements_expand (p := p.quiet) hx]
  simp only [recordsOf_quiet]
  simp

end Document

/-! ### With and without debugging -/

theorem Exclusions.firstMatch?_eq_none_iff {e : Exclusions} {path : Text} :
    e.firstMatch? path = none ↔ ∀ q ∈ e.patterns, q.occursIn path = false := by
  simp [firstMatch?]

theorem Exclusions.firstMatch?_eq_some {e : Exclusions} {path pattern : Text} {before after : List Text}
    (hpatterns : e.patterns = before ++ pattern :: after)
    (hbefore : ∀ q ∈ before, q.occursIn path = false) (hpattern : pattern.occursIn path = true) :
    e.firstMatch? path = some pattern := by
  rw [firstMatch?, hpatterns, List.find?_append, List.find?_eq_none.mpr (by simpa using hbefore),
    Option.none_or]
  exact List.find?_cons_of_pos hpattern

/-- An excluded document is returned with one event. -/
theorem Expander.expand_of_excluded {p : Expander} {filename pattern : Text}
    (hx : p.exclusions.firstMatch? filename = some pattern) (document : Text) :
    p.expand document filename =
      { code := document, skipped := true, events := [.skipping filename pattern] } := by
  unfold expand
  rw [hx]

/-- Whatever the file's name, debugging off leaves out what debugging on adds. -/
theorem Expander.quiet_eq (p : Expander) (document filename : Text) :
    (p.quiet.expand document filename).code = (p.debugging.expand document filename).code ∧
    (p.quiet.expand document filename).skipped = (p.debugging.expand document filename).skipped ∧
    (p.quiet.expand document filename).replacements = [] ∧
    (p.quiet.expand document filename).events =
      (p.debugging.expand document filename).events.filter fun e => e.level != .debug := by
  refine ⟨(Expander.code_debugging p.quiet document filename).symm, ?_⟩
  cases hx : p.exclusions.firstMatch? filename with
  | none =>
    refine ⟨?_, replacements_quiet hx document, events_quiet hx document⟩
    rw [Expander.expand_eq (p := p.quiet) hx, Expander.expand_eq (p := p.debugging) hx]
  | some pattern =>
    rw [expand_of_excluded (p := p.quiet) hx, expand_of_excluded (p := p.debugging) hx]
    exact ⟨rfl, rfl, rfl⟩

/-- **Debugging only adds, and tells what was done.** With debugging on and off the code is the
same, and so are the warnings; with debugging off there are no records and no debug events. With
debugging on, a document that is not excluded has one event that it is processed and then one for
each complete block, in order: a warning with its place, text and error, or what it was replaced
by, which is what the records tell, in the same order. An excluded document has one event in either
case, with the first pattern that occurs in its name. -/
theorem Expander.debugging_only_adds (p : Expander) (document filename : Text) :
    let loud := p.debugging.expand document filename
    let quiet := p.quiet.expand document filename
    (loud.code = quiet.code ∧ loud.skipped = quiet.skipped ∧ loud.warnings = quiet.warnings) ∧
    (quiet.replacements = [] ∧ ∀ e ∈ quiet.events, e.level ≠ .debug) ∧
    ((∀ q ∈ p.exclusions.patterns, q.occursIn filename = false) →
      loud.skipped = false ∧
      loud.events = .processing filename ::
        ((blocks document).filter (·.isComplete)).map (·.outcome p.options.namePrefix filename) ∧
      loud.replacements =
        ((blocks document).filter (·.isComplete)).filterMap (·.record? p.options.namePrefix) ∧
      loud.events.filterMap (·.replacement?) = loud.replacements.map fun r => (r.before, r.after)) ∧
    ∀ before pattern after, p.exclusions.patterns = before ++ pattern :: after →
      (∀ q ∈ before, q.occursIn filename = false) → pattern.occursIn filename = true →
      loud.skipped = true ∧ loud.events = [.skipping filename pattern] ∧
        quiet.events = [.skipping filename pattern] := by
  intro loud quiet
  obtain ⟨hcode, hskipped, hrecords, hevents⟩ := p.quiet_eq document filename
  refine ⟨⟨hcode.symm, hskipped.symm, ?_⟩, ⟨hrecords, fun e he => ?_⟩, fun h => ?_,
    fun before pattern after hpatterns hbefore hpattern => ?_⟩
  · show loud.events.filter Event.isWarning = quiet.events.filter Event.isWarning
    rw [hevents, List.filter_filter]
    refine List.filter_congr fun e _ => ?_
    cases e <;> rfl
  · have he' : e ∈ (p.debugging.expand document filename).events.filter fun e => e.level != .debug :=
      hevents ▸ he
    simpa using (List.mem_filter.mp he').2
  · have hx := Exclusions.firstMatch?_eq_none_iff.mpr h
    refine ⟨?_, events_debugging hx document, replacements_debugging hx document, ?_⟩
    · show (p.debugging.expand document filename).skipped = false
      rw [Expander.expand_eq (p := p.debugging) hx]
    · show (p.debugging.expand document filename).events.filterMap _ =
        (p.debugging.expand document filename).replacements.map _
      rw [events_debugging hx, replacements_debugging hx, List.map_filterMap,
        List.filterMap_cons_none rfl, List.filterMap_map]
      refine List.filterMap_congr fun b _ => ?_
      exact b.replacement?_outcome p.options.namePrefix filename
  · have hx := Exclusions.firstMatch?_eq_some hpatterns hbefore hpattern
    have hloud := expand_of_excluded (p := p.debugging) hx document
    have hquiet := expand_of_excluded (p := p.quiet) hx document
    exact ⟨congrArg (·.skipped) hloud, congrArg (·.events) hloud, congrArg (·.events) hquiet⟩

/-- A block that is not complete is silent, one that fails is a warning in both. -/
theorem Expander.debugging_only_adds_mixed :
    let p : Expander := { options := { namePrefix := "u.".toList }, exclusions := ⟨["lib/".toList]⟩ }
    let document : Text := "\x7ba | f\x7d\x7b | g\x7d\x7bb | :x\x7d".toList
    let failed : Event :=
      .unchanged "App.svelte".toList 13 "\x7bb | :x\x7d".toList (.unnamedStage 0 "x".toList)
    (∀ q ∈ p.exclusions.patterns, q.occursIn "App.svelte".toList = false) ∧
      (p.debugging.expand document "App.svelte".toList).events =
        [.processing "App.svelte".toList,
          .replaced "\x7ba | f\x7d".toList "\x7bu.f(a)\x7d".toList, failed] ∧
      (p.quiet.expand document "App.svelte".toList).warnings = [failed] ∧
      (p.debugging.expand document "lib/App.svelte".toList).events =
        [.skipping "lib/App.svelte".toList "lib/".toList] := by
  intro p document failed
  have hx : ∀ q ∈ p.exclusions.patterns, q.occursIn "App.svelte".toList = false := by
    simp only [p, List.forall_mem_singleton]
    decide
  obtain ⟨⟨-, -, hwarnings⟩, -, hevents, -⟩ := p.debugging_only_adds document "App.svelte".toList
  obtain ⟨-, -, -, hexcluded⟩ := p.debugging_only_adds document "lib/App.svelte".toList
  refine ⟨hx, ?_, ?_, (hexcluded [] "lib/".toList [] rfl (by simp) (by decide)).2.1⟩
  · rw [(hevents hx).2.1]
    decide +kernel
  · rw [← hwarnings]
    decide +kernel

end PipeBlocks
