import PipeBlocks.Proofs.Chain
import PipeBlocks.Proofs.Text.Join

/-! Arguments written out and read again.

Texts with a comma and a space between them can be told apart again if they are `Tokens`: each is
trimmed and holds no separating comma, and each but the last leaves the scan where it began. The
arguments of any text are tokens, however malformed the text is, because only the last of them can
leave a string or a group open. What reading does not give back is an empty last token, and so
`arguments_join_arguments` says: written out and read again, arguments are the same exactly if they
do not end in an empty one, and otherwise they lose it. -/
namespace PipeBlocks
open Text Scan

/-- The tokens without the last one, if that is empty. -/
def dropEmptyLast (l : List Text) : List Text := if l.getLast? = some [] then l.dropLast else l

theorem dropEmptyLast_concat_nil (l : List Text) : dropEmptyLast (l ++ [[]]) = l := by
  simp [dropEmptyLast]

theorem dropEmptyLast_of_ne {l : List Text} (h : l.getLast? ≠ some []) : dropEmptyLast l = l :=
  if_neg h

/-- Reading arguments needs no rule of its own for blank texts. -/
theorem arguments_eq (t : Text) : arguments t = dropEmptyLast ((split .comma t).map trim) := by
  unfold arguments
  cases ht : t.isBlank with
  | false => rfl
  | true =>
    rw [split, splitFrom_of_whole (whole_of_isBlank (by decide) ht), List.map_singleton,
      (trim_eq_nil_iff t).mpr ht]
    rfl

/-! ### Tokens -/

/-- Texts that can be told apart with a comma and a space between them. -/
structure Tokens (l : List Text) : Prop where
  trimmed : ∀ t ∈ l, t.trim = t
  whole : ∀ t ∈ l, Whole .comma .start t
  closed : ∀ t ∈ l.dropLast, State.start.run t = .start

namespace Tokens
variable {l : List Text}

theorem tail {t u : Text} (h : Tokens (t :: u :: l)) : Tokens (u :: l) :=
  ⟨fun v hv => h.trimmed v (List.mem_cons_of_mem t hv),
    fun v hv => h.whole v (List.mem_cons_of_mem t hv),
    fun v hv => h.closed v (List.mem_cons_of_mem t hv)⟩

theorem dropLast (h : Tokens l) : Tokens l.dropLast :=
  ⟨fun t ht => h.trimmed t (List.dropLast_subset l ht),
    fun t ht => h.whole t (List.dropLast_subset l ht),
    fun t ht => h.closed t (List.dropLast_subset l.dropLast ht)⟩

theorem dropEmptyLast (h : Tokens l) : Tokens (dropEmptyLast l) := by
  unfold PipeBlocks.dropEmptyLast
  split
  · exact h.dropLast
  · exact h

/-- Splitting takes out the commas that joining put in, and trimming the spaces. -/
theorem map_trim_split_join (h : Tokens l) (hl : l ≠ []) :
    (split .comma (join ", ".toList l)).map trim = l := by
  induction l with
  | nil => exact absurd rfl hl
  | cons t rest ih =>
    have ht := h.trimmed t (List.mem_cons_self ..)
    have hwhole := h.whole t (List.mem_cons_self ..)
    cases rest with
    | nil => rw [join, split, splitFrom_of_whole hwhole, List.map_singleton, ht]
    | cons u rest =>
      have cut : CutAt .comma .start (t ++ ',' :: (' ' :: join ", ".toList (u :: rest))) t
          (' ' :: join ", ".toList (u :: rest)) :=
        ⟨rfl, hwhole, h.closed t (List.mem_cons_self ..), rfl, fun hd => absurd hd (by decide)⟩
      have hspace := map_trim_split_append_left (d := .comma) (w := [' ']) (by decide) (by decide)
        (join ", ".toList (u :: rest))
      rw [List.singleton_append, ih h.tail (List.cons_ne_nil u rest)] at hspace
      rw [join, show t ++ ", ".toList ++ join ", ".toList (u :: rest) =
        t ++ ',' :: (' ' :: join ", ".toList (u :: rest)) by simp, split, splitFrom_of_cut cut,
        List.map_cons, ht, hspace]

/-- Tokens are read back, but for an empty one at the end. -/
theorem arguments_join (h : Tokens l) :
    arguments (join ", ".toList l) = PipeBlocks.dropEmptyLast l := by
  by_cases hl : l = []
  · rw [hl]
    rfl
  · rw [arguments_eq, h.map_trim_split_join hl]

end Tokens

/-! ### The tokens of a text -/

theorem tokens_map_trim_split (t : Text) : Tokens ((split .comma t).map trim) := by
  refine ⟨fun u hu => ?_, fun u hu => ?_, ?_⟩
  · obtain ⟨p, -, rfl⟩ := List.mem_map.mp hu
    exact trim_trim p
  · obtain ⟨p, hp, rfl⟩ := List.mem_map.mp hu
    exact (whole_of_mem_split p hp).trim (by decide)
  · -- A piece in front of a cut ends where the scan starts.
    suffices ∀ s, s = .start → ∀ t, ∀ u ∈ ((splitFrom .comma s t).map trim).dropLast,
      State.start.run u = .start from this .start rfl t
    intro s hs t
    induction s, t using split_induction (d := .comma) with
    | whole s t h => simp [splitFrom_of_whole h]
    | cut s t x y cut ih =>
      subst hs
      have hne : (split .comma y).map trim ≠ [] := by simp [split, splitFrom_ne_nil]
      intro u hu
      rw [splitFrom_of_cut cut, List.map_cons, List.dropLast_cons_of_ne_nil hne] at hu
      rcases List.mem_cons.mp hu with rfl | hu
      · exact State.run_trim cut.run_before
      · exact ih rfl u hu

theorem tokens_arguments (t : Text) : Tokens (arguments t) := by
  rw [arguments_eq]
  exact (tokens_map_trim_split t).dropEmptyLast

/-- Arguments end in an empty one exactly if the last two pieces of their text are blank. -/
theorem getLast?_arguments_eq_nil_iff (t : Text) : (arguments t).getLast? = some [] ↔
    ∃ init p q, split .comma t = init ++ [p, q] ∧ p.isBlank = true ∧ q.isBlank = true := by
  obtain ⟨init, q, hq⟩ : ∃ init q, split .comma t = init ++ [q] :=
    ⟨_, _, (List.dropLast_concat_getLast (splitFrom_ne_nil .comma .start t)).symm⟩
  rw [arguments_eq, hq, List.map_append, List.map_singleton]
  by_cases hblank : q.isBlank = true
  · rw [(trim_eq_nil_iff q).mpr hblank, dropEmptyLast_concat_nil, List.getLast?_map]
    constructor
    · intro h
      obtain ⟨p, hp, htrim⟩ := Option.map_eq_some_iff.mp h
      obtain ⟨init', rfl⟩ := List.getLast?_eq_some_iff.mp hp
      exact ⟨init', p, q, by simp, (trim_eq_nil_iff p).mp htrim, hblank⟩
    · rintro ⟨init', p, q', h, hp, -⟩
      rw [List.append_cons init' p] at h
      obtain ⟨rfl, -⟩ := List.append_inj' h rfl
      simp [(trim_eq_nil_iff p).mpr hp]
  · have hne : ((init.map trim) ++ [q.trim]).getLast? ≠ some [] := by
      simpa [trim_eq_nil_iff] using hblank
    rw [dropEmptyLast_of_ne hne]
    constructor
    · intro h
      exact absurd h hne
    · rintro ⟨init', p, q', h, -, hq'⟩
      rw [List.append_cons init' p] at h
      obtain ⟨-, hq⟩ := List.append_inj' h rfl
      rw [List.singleton_inj.mp hq] at hblank
      exact absurd hq' hblank

/-! ### Reading again -/

/-- **Arguments that are written out are read again as they were**, whatever quotes, brackets and
blanks their text holds, exactly if the last of them is not empty. If it is, the text ended in two
blank pieces, of which reading leaves out the last; written out, the other one is the last, and
reading leaves it out too. -/
theorem arguments_join_arguments (t : Text) :
    (arguments (join ", ".toList (arguments t)) = arguments t ↔ (arguments t).getLast? ≠ some []) ∧
    arguments (join ", ".toList (arguments t)) = dropEmptyLast (arguments t) ∧
    ((arguments t).getLast? = some [] ↔
      ∃ init p q, split .comma t = init ++ [p, q] ∧ p.isBlank = true ∧ q.isBlank = true) := by
  have hread := (tokens_arguments t).arguments_join
  refine ⟨⟨fun h hlast => ?_, fun h => ?_⟩, hread, getLast?_arguments_eq_nil_iff t⟩
  · obtain ⟨init, hinit⟩ := List.getLast?_eq_some_iff.mp hlast
    rw [hread, hinit, dropEmptyLast_concat_nil] at h
    simp at h
  · rw [hread, dropEmptyLast_of_ne h]

/-- Of two commas at the end the first leaves an empty argument, which is lost in reading again. -/
theorem arguments_join_empty_last :
    arguments "a,,".toList = ["a".toList, []] ∧
      arguments (join ", ".toList (arguments "a,,".toList)) = ["a".toList] ∧
      ¬ ∀ t, arguments (join ", ".toList (arguments t)) = arguments t := by
  have hfirst : arguments "a,,".toList = ["a".toList, []] := by decide +kernel
  have hagain : arguments (join ", ".toList (arguments "a,,".toList)) = ["a".toList] := by
    decide +kernel
  refine ⟨hfirst, hagain, fun h => ?_⟩
  have := h "a,,".toList
  rw [hagain, hfirst] at this
  exact absurd this (by decide)

end PipeBlocks
