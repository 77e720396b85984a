import Mathlib.Data.List.Induction
import PipeBlocks.Exclusions

/-! What an exclusion list comes to.

However a list was built, all that counts is which texts were inserted since it was last begun anew,
and in which order (`inserted`). Its patterns are their first occurrences without the empty text
(`run_empty`), so a path matches the first of these texts that occurs in it, as if they were
searched as they came. Neither repetitions nor the order decide whether a path is excluded, and what
is inserted later changes no match (`run_follows_insertions`). -/
namespace PipeBlocks

/-! ### Texts in texts -/

theorem Text.occursIn_iff {t u : Text} : t.occursIn u = true ↔ t <:+: u := by
  induction u with
  | nil => simp [occursIn]
  | cons c r ih => rw [occursIn, Bool.or_eq_true, List.isPrefixOf_iff_prefix, ih, List.infix_cons_iff]

/-! ### First occurrences -/

section FirstOccurrences
variable {α : Type} [BEq α] [LawfulBEq α]

theorem eraseDups_concat (l : List α) (a : α) :
    (l ++ [a]).eraseDups = if a ∈ l then l.eraseDups else l.eraseDups ++ [a] := by
  rw [List.eraseDups_append]
  split
  · simp [List.removeAll, *]
  · simp [List.removeAll, List.eraseDups_cons, *]

theorem nodup_eraseDups (l : List α) : l.eraseDups.Nodup := by
  induction l using List.reverseRecOn with
  | nil => exact List.nodup_nil
  | append_singleton l a ih =>
    rw [eraseDups_concat]
    split
    · exact ih
    · rename_i h
      rw [List.nodup_append]
      refine ⟨ih, by simp, ?_⟩
      rintro b hb c hc rfl
      rw [List.mem_singleton.mp hc, List.mem_eraseDups] at hb
      exact h hb

/-- The first that has a property is the same without repetitions. -/
theorem find?_eraseDups (p : α → Bool) (l : List α) : l.eraseDups.find? p = l.find? p := by
  induction l using List.reverseRecOn with
  | nil => rfl
  | append_singleton l a ih =>
    rw [eraseDups_concat, List.find?_append]
    split
    · rename_i h
      rw [ih]
      cases hf : l.find? p with
      | some b => rfl
      | none =>
        -- If nothing before has the property, a repetition has it not either.
        have ha := List.find?_eq_none.mp hf a h
        rw [List.find?_cons_of_neg ha]
        rfl
    · rw [List.find?_append, ih]

end FirstOccurrences

namespace Exclusions

/-! ### What was inserted -/

/-- The texts that a step inserts. -/
def Step.patterns : Step → List Text
  | .clear => []
  | .svelteKit => svelteKitPatterns
  | .replace patterns => patterns
  | .insert pattern => [pattern]
  | .insertAll patterns => patterns

/-- Whether a step begins the list anew. -/
def Step.replaces : Step → Bool
  | .clear | .svelteKit | .replace _ => true
  | .insert _ | .insertAll _ => false

/-- All that is inserted since the list was last begun, if `raw` was before and then come `steps`. -/
def insertedFrom (raw : List Text) (steps : List Step) : List Text :=
  steps.foldl (fun raw s => if s.replaces then s.patterns else raw ++ s.patterns) raw

/-- All that is inserted since the list was last begun, empty texts and repetitions too. -/
def inserted (steps : List Step) : List Text := insertedFrom [] steps

theorem insertedFrom_append (raw : List Text) (steps more : List Step) :
    insertedFrom raw (steps ++ more) = insertedFrom (insertedFrom raw steps) more :=
  List.foldl_append

/-- Steps that begin nothing anew add to what was inserted. -/
theorem insertedFrom_of_not_replaces {more : List Step} (h : ∀ s ∈ more, s.replaces = false)
    (raw : List Text) : insertedFrom raw more = raw ++ more.flatMap Step.patterns := by
  induction more generalizing raw with
  | nil => simp [insertedFrom]
  | cons s more ih =>
    have hs := h s (List.mem_cons_self ..)
    show insertedFrom (if s.replaces then s.patterns else raw ++ s.patterns) more = _
    rw [hs, if_neg Bool.false_ne_true, ih fun s hs => h s (List.mem_cons_of_mem _ hs),
      List.flatMap_cons, List.append_assoc]

/-! ### One step -/

/-- The list that `raw` comes to: its first occurrences, without the empty text. -/
def ofInserted (raw : List Text) : Exclusions := ⟨(raw.filter (· ≠ [])).eraseDups⟩

theorem insert_ofInserted (raw : List Text) (pattern : Text) :
    (ofInserted raw).insert pattern = ofInserted (raw ++ [pattern]) := by
  unfold ofInserted insert
  rw [List.filter_append]
  by_cases hempty : pattern = []
  · simp [hempty]
  · rw [List.filter_cons_of_pos (by simpa using hempty), List.filter_nil, eraseDups_concat]
    by_cases hmem : pattern ∈ raw <;> simp [hempty, hmem]

theorem insertAll_ofInserted (raw patterns : List Text) :
    (ofInserted raw).insertAll patterns = ofInserted (raw ++ patterns) := by
  induction patterns generalizing raw with
  | nil => simp [insertAll]
  | cons pattern patterns ih =>
    show ((ofInserted raw).insert pattern).insertAll patterns = _
    rw [insert_ofInserted, ih, List.append_assoc]
    rfl

theorem ofList_eq (patterns : List Text) : ofList patterns = ofInserted patterns :=
  insertAll_ofInserted [] patterns

/-- Each step comes to what it inserts, behind what was inserted before if it keeps that. -/
theorem apply_ofInserted (raw : List Text) (s : Step) :
    (ofInserted raw).apply s = ofInserted (if s.replaces then s.patterns else raw ++ s.patterns) := by
  cases s with
  | clear => rfl
  | svelteKit => exact ofList_eq svelteKitPatterns
  | replace patterns => exact ofList_eq patterns
  | insert pattern => exact insert_ofInserted raw pattern
  | insertAll patterns => exact insertAll_ofInserted raw patterns

/-! ### Whole runs -/

theorem run_ofInserted (raw : List Text) (steps : List Step) :
    (ofInserted raw).run steps = ofInserted (insertedFrom raw steps) := by
  induction steps generalizing raw with
  | nil => rfl
  | cons s steps ih =>
    show ((ofInserted raw).apply s).run steps = _
    rw [apply_ofInserted, ih]
    rfl

theorem run_empty (steps : List Step) : empty.run steps = ofInserted (inserted steps) :=
  run_ofInserted [] steps

/-- The first text of `raw` that is not empty and occurs in the path. -/
structure FirstIn (raw : List Text) (path pattern : Text) : Prop where
  ne_nil : pattern ≠ []
  occurs : pattern <:+: path
  first : ∃ before after, raw = before ++ pattern :: after ∧ ∀ q ∈ before, q ≠ [] → ¬ q <:+: path

/-- A path is searched for the texts as they were inserted. -/
theorem firstMatch?_ofInserted_eq_some_iff {raw : List Text} {path pattern : Text} :
    (ofInserted raw).firstMatch? path = some pattern ↔ FirstIn raw path pattern := by
  unfold firstMatch? ofInserted
  rw [find?_eraseDups, List.find?_filter, List.find?_eq_some_iff_append]
  simp only [decide_eq_true_eq, Text.occursIn_iff, Bool.not_eq_true', decide_eq_false_iff_not, not_and]
  constructor
  · rintro ⟨⟨hne, hoccurs⟩, before, after, hraw, hbefore⟩
    exact ⟨hne, hoccurs, before, after, hraw, hbefore⟩
  · intro h
    exact ⟨⟨h.ne_nil, h.occurs⟩, h.first⟩

theorem excludes_ofInserted_iff {raw : List Text} {path : Text} :
    (ofInserted raw).excludes path = true ↔ ∃ p ∈ raw, p ≠ [] ∧ p <:+: path := by
  unfold excludes firstMatch? ofInserted
  simp [List.find?_isSome, Text.occursIn_iff, and_assoc]

/-- **A list follows the insertions.** After any steps the patterns are the first occurrences, in order,
of the texts inserted since the list was last begun, without the empty text; none is empty and none
is there twice. A path matches the first of these texts that is not empty and occurs in it. The
same texts in any other order and grouping, and with other repetitions, exclude the same paths, and
steps that only insert more change no match that there is. -/
theorem run_follows_insertions (steps : List Step) :
    (empty.run steps).patterns = ((inserted steps).filter (· ≠ [])).eraseDups ∧
    ((∀ p ∈ (empty.run steps).patterns, p ≠ []) ∧ (empty.run steps).patterns.Nodup) ∧
    (∀ path pattern, (empty.run steps).firstMatch? path = some pattern ↔
      FirstIn (inserted steps) path pattern) ∧
    (∀ steps', (∀ p, p ∈ inserted steps' ↔ p ∈ inserted steps) →
      ∀ path, (empty.run steps').excludes path = (empty.run steps).excludes path) ∧
    ∀ more, (∀ s ∈ more, s.replaces = false) → ∀ path,
      ((empty.run steps).excludes path = true → (empty.run (steps ++ more)).excludes path = true) ∧
      ∀ pattern, (empty.run steps).firstMatch? path = some pattern →
        (empty.run (steps ++ more)).firstMatch? path = some pattern := by
  have hmore (more : List Step) (hmore : ∀ s ∈ more, s.replaces = false) :
      inserted (steps ++ more) = inserted steps ++ more.flatMap Step.patterns := by
    rw [inserted, insertedFrom_append, insertedFrom_of_not_replaces hmore]
    rfl
  simp only [run_empty]
  refine ⟨rfl, ⟨fun p hp => ?_, nodup_eraseDups _⟩,
    fun path pattern => firstMatch?_ofInserted_eq_some_iff, fun steps' h path => ?_,
    fun more h path => ⟨fun hx => ?_, fun pattern hp => ?_⟩⟩
  · have := (List.mem_filter.mp (List.mem_eraseDups.mp hp)).2
    simpa using this
  · rw [Bool.eq_iff_iff, excludes_ofInserted_iff, excludes_ofInserted_iff]
    simp only [h]
  · obtain ⟨p, hp, hoccurs⟩ := excludes_ofInserted_iff.mp hx
    rw [hmore more h]
    exact excludes_ofInserted_iff.mpr ⟨p, List.mem_append_left _ hp, hoccurs⟩
  · rw [firstMatch?_ofInserted_eq_some_iff] at hp ⊢
    obtain ⟨before, after, hraw, hbefore⟩ := hp.first
    rw [hmore more h, hraw, List.append_assoc, List.cons_append]
    exact ⟨hp.ne_nil, hp.occurs, before, _, rfl, hbefore⟩

/-- What was inserted before the list was begun anew is gone; what comes again keeps its place. -/
example : (empty.run [.insert "a/".toList, .replace ["b/".toList, []],
      .insertAll ["c/".toList, "b/".toList], .insert "a/".toList]).patterns =
    ["b/".toList, "c/".toList, "a/".toList] := by decide +kernel

end Exclusions

end PipeBlocks
