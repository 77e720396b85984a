import PipeBlocks.Proofs.Scan.Steady
import PipeBlocks.Chain

/-! Chains, stages and arguments.

A chain is trimmed when it is cut off, a stage when the chain is split and an argument text when
the name is cut off; none of it matters to what is read (`Stage.parse_trim`, `arguments_trim`,
`stages_trim`). A stage lacks its name exactly if it begins with a colon
(`Stage.name_parse_eq_nil_iff`). The parts of a steady chain are steady, and a name separates
nothing (`steady_of_mem_stages`, `whole_name_of_mem_stages`). All in all, reading the parts of a text
again and again comes to the same as one scan of the whole text (`parts_read_as_whole`). -/
namespace PipeBlocks
open Text Scan

/-! ### Trimming -/

theorem Stage.parse_eq (t : Text) :
    Stage.parse t = match (splitOnce? .colon t).map (Prod.map trim trim) with
      | some (name, args) => ⟨name, args⟩
      | none => ⟨t.trim, []⟩ := by
  unfold Stage.parse
  cases splitOnce? .colon t <;> rfl

theorem Stage.parse_of_whole {t : Text} (h : Whole .colon .start t) :
    Stage.parse t = ⟨t.trim, []⟩ := by
  unfold Whole at h
  simp [Stage.parse, splitOnce?, h]

theorem Stage.parse_of_cut {t x y : Text} (h : CutAt .colon .start t x y) :
    Stage.parse t = ⟨x.trim, y.trim⟩ := by
  simp [Stage.parse, splitOnce?, splitOnceFrom_eq_some_iff.mpr h]

@[simp] theorem Stage.parse_trim (t : Text) : Stage.parse t.trim = Stage.parse t := by
  rw [Stage.parse_eq, Stage.parse_eq, map_trim_splitOnce?_trim (by decide), trim_trim]

@[simp] theorem arguments_trim (t : Text) : arguments t.trim = arguments t := by
  unfold arguments
  rw [isBlank_trim, map_trim_split_trim (by decide)]

@[simp] theorem stages_trim (t : Text) : stages t.trim = stages t := by
  unfold stages
  rw [map_trim_split_trim (by decide)]

/-- A chain's stages are read off its pieces that are not blank. -/
theorem stages_eq (t : Text) :
    stages t = ((split .pipe t).filter fun p => !p.isBlank).map Stage.parse := by
  have hne : (fun p => decide (p ≠ [])) ∘ trim = fun p : Text => !p.isBlank := by
    funext p
    rw [Function.comp_apply, Bool.eq_iff_iff, decide_eq_true_iff, ne_eq, trim_eq_nil_iff]
    simp
  unfold stages
  rw [List.filter_map, List.map_map, hne]
  exact List.map_congr_left fun p _ => Stage.parse_trim p

theorem stages_of_isBlank {t : Text} (h : t.isBlank = true) : stages t = [] := by
  rw [← stages_trim, (trim_eq_nil_iff t).mpr h]
  rfl

theorem stages_of_whole {t : Text} (h : Whole .pipe .start t) (ht : t.isBlank = false) :
    stages t = [Stage.parse t] := by
  rw [stages_eq, split, splitFrom_of_whole h]
  simp [ht]

theorem stages_of_cut {t x y : Text} (h : CutAt .pipe .start t x y) (hx : x.isBlank = false) :
    stages t = Stage.parse x :: stages y := by
  rw [stages_eq, stages_eq, split, splitFrom_of_cut h]
  simp [hx]

/-! ### Names -/

/-- A stage that begins with a colon has no name; what follows the colon are its arguments. -/
theorem Stage.parse_of_trim_eq_cons {t r : Text} (h : t.trim = ':' :: r) :
    Stage.parse t = ⟨[], r.trim⟩ := by
  have cut : CutAt .colon .start t.trim [] r :=
    ⟨h, whole_nil, rfl, rfl, fun hp => absurd hp (by decide)⟩
  rw [← Stage.parse_trim, Stage.parse_of_cut cut, trim_nil]

/-- A stage has no name exactly if it begins with a colon. -/
theorem Stage.name_parse_eq_nil_iff {t : Text} (ht : t.isBlank = false) :
    (Stage.parse t).name = [] ↔ t.trim.head? = some ':' := by
  have hne : t.trim ≠ [] := by simp [trim_eq_nil_iff, ht]
  constructor
  · intro hname
    rw [← Stage.parse_trim] at hname
    rcases whole_or_cut .colon .start t.trim with h | ⟨x, y, h⟩
    · rw [Stage.parse_of_whole h, trim_trim] at hname
      exact absurd hname hne
    · rw [Stage.parse_of_cut h] at hname
      -- A trimmed text begins with no white space, so the blank name is empty.
      cases x with
      | nil => rw [h.eq]; rfl
      | cons c x =>
        have hc := isSpace_of_head?_trim (t := t) (by rw [h.eq]; rfl)
        have hblank := (trim_eq_nil_iff _).mp hname
        rw [isBlank_cons, hc] at hblank
        cases hblank
  · intro hhead
    obtain ⟨r, hr⟩ := List.head?_eq_some_iff.mp hhead
    rw [Stage.parse_of_trim_eq_cons hr]

/-! ### Steady chains -/

theorem whole_name_parse {p : Text} (h : Whole .pipe .start p) :
    Whole .pipe .start (Stage.parse p).name := by
  rcases whole_or_cut .colon .start p with hw | ⟨x, y, cut⟩
  · rw [Stage.parse_of_whole hw]
    exact h.trim (by decide)
  · rw [Stage.parse_of_cut cut]
    rw [cut.eq] at h
    exact (h.of_append_left fun _ => by simp [Delimiter.colon]).trim (by decide)

theorem whole_name_of_mem_stages {t : Text} : ∀ s ∈ stages t, Whole .pipe .start s.name := by
  intro s hs
  rw [stages_eq] at hs
  obtain ⟨p, hp, rfl⟩ := List.mem_map.mp hs
  exact whole_name_parse (whole_of_mem_split p (List.mem_filter.mp hp).1)

/-- The texts of a stage: its name and its arguments. -/
def Stage.texts (s : Stage) : List Text := s.name :: s.arguments

theorem mem_trim_split_of_mem_arguments {t a : Text} (h : a ∈ arguments t) :
    ∃ p ∈ split .comma t, a = p.trim := by
  unfold arguments at h
  split at h
  · cases h
  · have hmem : a ∈ (split .comma t).map trim := by
      dsimp only at h
      split at h
      · exact List.dropLast_subset _ h
      · exact h
    obtain ⟨p, hp, rfl⟩ := List.mem_map.mp hmem
    exact ⟨p, hp, rfl⟩

theorem steady_texts_parse {p : Text} (h : Steady p) : ∀ u ∈ (Stage.parse p).texts, Steady u := by
  have hargs (y : Text) (hy : Steady y) : ∀ u ∈ arguments y, Steady u := by
    intro u hu
    obtain ⟨q, hq, rfl⟩ := mem_trim_split_of_mem_arguments hu
    exact (hy.of_mem_split q hq).trim
  intro u hu
  rcases whole_or_cut .colon .start p with hw | ⟨x, y, cut⟩
  · rw [Stage.parse_of_whole hw] at hu
    rcases List.mem_cons.mp hu with rfl | hu
    · exact h.trim
    · cases hu
  · obtain ⟨hx, hy⟩ := h.of_cut cut
    rw [Stage.parse_of_cut cut] at hu
    rcases List.mem_cons.mp hu with rfl | hu
    · exact hx.trim
    · exact hargs y.trim hy.trim u hu

theorem steady_of_mem_stages {t : Text} (h : Steady t) : ∀ s ∈ stages t, ∀ u ∈ s.texts, Steady u := by
  intro s hs
  rw [stages_eq] at hs
  obtain ⟨p, hp, rfl⟩ := List.mem_map.mp hs
  exact steady_texts_parse (h.of_mem_split p (List.mem_filter.mp hp).1)

/-! ### What stages are made of -/

theorem mem_of_mem_texts_parse {p : Text} {c : Char} :
    ∀ u ∈ (Stage.parse p).texts, c ∈ u → c ∈ p := by
  intro u hu hc
  rcases whole_or_cut .colon .start p with hw | ⟨x, y, cut⟩
  · rw [Stage.parse_of_whole hw] at hu
    rcases List.mem_cons.mp hu with rfl | hu
    · exact mem_of_mem_trim hc
    · cases hu
  · rw [cut.eq, List.mem_append, List.mem_cons]
    rw [Stage.parse_of_cut cut] at hu
    rcases List.mem_cons.mp hu with rfl | hu
    · exact .inl (mem_of_mem_trim hc)
    · obtain ⟨q, hq, rfl⟩ := mem_trim_split_of_mem_arguments hu
      exact .inr (.inr (mem_of_mem_trim (mem_of_mem_splitFrom q hq (mem_of_mem_trim hc))))

/-- No character of a stage is new. -/
theorem mem_of_mem_stages {t : Text} {c : Char} : ∀ s ∈ stages t, ∀ u ∈ s.texts, c ∈ u → c ∈ t := by
  intro s hs u hu hc
  rw [stages_eq] at hs
  obtain ⟨p, hp, rfl⟩ := List.mem_map.mp hs
  exact mem_of_mem_splitFrom p (List.mem_filter.mp hp).1 (mem_of_mem_texts_parse u hu hc)

/-! ### Reading the parts again -/

/-- **A text may be read part by part.** Where one scan of the whole text finds no pipe that
separates, there is no first part to cut off. Else the first part is the first piece, what is cut
off separates where the whole text does, and its stages are those of the other pieces, trimmed or
not. The last piece leaves a string open if the whole text does, and white space around a text is of
no meaning to its stage or its arguments, even if a string is open in it. -/
theorem parts_read_as_whole (t x : Text) :
    (∃ first others, split .pipe t = first :: others ∧
      ((splitOnce? .pipe t = none ∧ others = []) ∨
        others ≠ [] ∧ ∃ rest, splitOnce? .pipe t = some (first, rest) ∧ split .pipe rest = others ∧
          offsets .pipe t =
            first.byteLength :: (offsets .pipe rest).map (· + (first.byteLength + 1)) ∧
          stages rest.trim = stages rest ∧
          stages rest = (others.filter fun p => !p.isBlank).map fun p => Stage.parse p.trim)) ∧
    (∃ init last, split .pipe t = init ++ [last] ∧ leavesStringOpen t = leavesStringOpen last) ∧
    Stage.parse x.trim = Stage.parse x ∧ arguments x.trim = arguments x := by
  refine ⟨?_, ?_, Stage.parse_trim x, arguments_trim x⟩
  · rcases whole_or_cut .pipe .start t with h | ⟨first, rest, cut⟩
    · exact ⟨t, [], splitFrom_of_whole h, .inl ⟨h, rfl⟩⟩
    · have hoffsets : offsetsFrom .pipe 0 .start t = _ := offsetsFrom_of_cut cut 0
      have hpos : 0 + first.byteLength + Delimiter.pipe.char.utf8Size = 0 + (first.byteLength + 1) := by
        rw [Nat.add_assoc]
        rfl
      rw [hpos, offsetsFrom_add, Nat.zero_add] at hoffsets
      refine ⟨first, split .pipe rest, splitFrom_of_cut cut,
        .inr ⟨splitFrom_ne_nil .pipe .start rest, rest, splitOnceFrom_eq_some_iff.mpr cut, rfl,
          hoffsets, stages_trim rest, ?_⟩⟩
      simp only [Stage.parse_trim]
      exact stages_eq rest
  · obtain ⟨init, last, h⟩ := List.eq_nil_or_concat (split .pipe t) |>.resolve_left
      (splitFrom_ne_nil .pipe .start t)
    rw [List.concat_eq_append] at h
    exact ⟨init, last, h, by rw [leavesStringOpen, leavesStringOpen, run_of_split_eq h]⟩

/-- Three pipes are a pair and one that separates; the string that is open in the last piece takes
the pipe in it along, and the white space behind. -/
example : split .pipe "a||b ||| f:' |\u00a0".toList = ["a||b ||".toList, " f:' |\u00a0".toList] ∧
    stages " f:' |\u00a0".toList = [⟨"f".toList, "' |".toList⟩] := by decide +kernel

end PipeBlocks
