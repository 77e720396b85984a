import PipeBlocks.Proofs.Scan.Split
import PipeBlocks.Proofs.Scan.State

/-! Which delimiters separate.

Whether a delimiter separates can be read off the text around it: it stands at depth zero outside
strings, and if it is a pipe, no pipe follows and an even number of pipes stands before it
(`mem_offsetsFrom_iff`). Pipes are paired from the left, so of a run of neighbouring pipes only the
last one can be left over, and it is if their number is odd (`mem_offsets_iff_run`). -/
namespace PipeBlocks.Scan
open Text

variable {d : Delimiter} {s : State} {t : Text} {o : Nat}

/-! ### Runs of pipes -/

/-- How many pipes stand at the end of a text. -/
def pipesAtEnd (t : Text) : Nat := (t.reverse.takeWhile (· == '|')).length

/-- Between `before` and `after` there are `n` pipes, and no more next to them. -/
structure PipeRun (t before : Text) (n : Nat) (after : Text) : Prop where
  eq : t = before ++ List.replicate n '|' ++ after
  starts : before.getLast? ≠ some '|'
  stops : after.head? ≠ some '|'

theorem pipesAtEnd_append_pipes (h : t.getLast? ≠ some '|') (n : Nat) :
    pipesAtEnd (t ++ List.replicate n '|') = n := by
  have hstop : t.reverse.takeWhile (· == '|') = [] := by
    cases hr : t.reverse with
    | nil => rfl
    | cons c r =>
      have hc : c ≠ '|' := by
        rintro rfl
        apply h
        rw [List.getLast?_eq_head?_reverse, hr]
        rfl
      exact List.takeWhile_cons_of_neg (by simpa using hc)
  unfold pipesAtEnd
  rw [List.reverse_append, List.reverse_replicate, List.takeWhile_append_of_pos (by simp), hstop]
  simp

theorem exists_eq_append_pipes (t : Text) :
    ∃ u, t = u ++ List.replicate (pipesAtEnd t) '|' ∧ u.getLast? ≠ some '|' := by
  have hpipes : t.reverse.takeWhile (· == '|') = List.replicate (pipesAtEnd t) '|' := by
    apply List.eq_replicate_of_mem
    intro c hc
    simpa using List.all_eq_true.mp List.all_takeWhile c hc
  refine ⟨(t.reverse.dropWhile (· == '|')).reverse, ?_, ?_⟩
  · have := congrArg List.reverse (List.takeWhile_append_dropWhile (p := (· == '|')) (l := t.reverse))
    rw [hpipes, List.reverse_append, List.reverse_reverse, List.reverse_replicate] at this
    exact this.symm
  · rw [List.getLast?_reverse]
    intro hhead
    have := List.head?_dropWhile_not (· == '|') t.reverse
    rw [hhead] at this
    simp at this

/-- Behind a text that does not begin with a pipe, the pipes at the end are as before. -/
theorem pipesAtEnd_append {x b after : Text} (h : (b ++ '|' :: after).head? ≠ some '|') :
    pipesAtEnd (x ++ b) = pipesAtEnd b := by
  obtain ⟨u, hb, hu⟩ := exists_eq_append_pipes b
  have hne : u ≠ [] := by
    rintro rfl
    apply h
    rw [hb]
    cases pipesAtEnd b <;> rfl
  conv => lhs; rw [hb, ← List.append_assoc]
  refine pipesAtEnd_append_pipes ?_ _
  rw [List.getLast?_eq_some_getLast hne] at hu
  rwa [List.getLast?_append, List.getLast?_eq_some_getLast hne]

theorem isStructural_of_mem_pipes {n : Nat} : ∀ c ∈ List.replicate n '|', isStructural c = false := by
  intro c hc
  rw [List.eq_of_mem_replicate hc]
  rfl

theorem byteLength_pipes (n : Nat) : byteLength (List.replicate n '|') = n := by
  induction n with
  | zero => rfl
  | succ n ih =>
    rw [List.replicate_succ, byteLength_cons, ih]
    exact Nat.add_comm 1 n

/-! ### Whole texts end in pairs -/

/-- A text that does not end in a pipe breaks no pair. -/
theorem Whole.of_append_left_of_getLast? {a b : Text} (h : Whole d s (a ++ b))
    (ha : d.char = '|' → a.getLast? ≠ some '|') : Whole d s a := by
  rcases whole_or_cut d s a with hw | ⟨x, y, cut⟩
  · exact hw
  · have cut' := cut.append (b := b) fun hd hy => by
      refine absurd ?_ (ha hd)
      rw [cut.eq, hy, List.getLast?_concat, hd]
    have hsome := splitOnceFrom_eq_some_iff.mpr cut'
    unfold Whole at h
    rw [h] at hsome
    cases hsome

/-- Pipes that are read in pairs are an even number. -/
theorem even_of_whole_pipes (hd : d.char = '|') {n : Nat}
    (h : Whole d .start (List.replicate n '|')) : n % 2 = 0 := by
  have hs : State.start.separates d '|' = true := separates_iff.mpr ⟨rfl, hd.symm, rfl⟩
  induction n using Nat.strongRecOn with
  | _ n ih =>
    match n with
    | 0 => rfl
    | 1 =>
      have hcut : splitOnceFrom d .start ['|'] = some ([], []) :=
        splitOnceFrom_separator hs fun _ => by simp
      unfold Whole at h
      rw [show List.replicate 1 '|' = ['|'] from rfl, hcut] at h
      cases h
    | n + 2 =>
      have hrest : Whole d .start (List.replicate n '|') := by
        unfold Whole at h ⊢
        rw [List.replicate_succ, List.replicate_succ, splitOnceFrom_pair hs] at h
        simpa using h
      have := ih n (by omega) hrest
      omega

/-- A whole text that is read up to depth zero outside strings ends in pairs of pipes. -/
theorem even_pipesAtEnd_of_whole (hv : s.Valid) (hd : d.char = '|') (h : Whole d s t)
    (hrun : s.run t = .start) : pipesAtEnd t % 2 = 0 := by
  obtain ⟨u, ht, hu⟩ := exists_eq_append_pipes t
  rw [ht] at h
  have hwhole : Whole d s u := h.of_append_left_of_getLast? fun _ => hu
  have hrun' : s.run u = .start := by
    rw [ht, State.run_append] at hrun
    exact (hv.run u).eq_start_of_run isStructural_of_mem_pipes hrun
  have hpipes := h.of_append_right hwhole
  rw [hrun'] at hpipes
  exact even_of_whole_pipes hd hpipes

/-! ### Separators -/

/-- The delimiter between `before` and `after` separates in a text that is read from `s`. -/
structure Separates (d : Delimiter) (s : State) (before after : Text) : Prop where
  run_before : s.run before = .start
  plain : isStructural d.char = false
  single : d.char = '|' → after.head? ≠ some '|'
  unpaired : d.char = '|' → pipesAtEnd before % 2 = 0

theorem CutAt.separates_between {x y : Text} (hv : s.Valid) (h : CutAt d s t x y) :
    Separates d s x y :=
  ⟨h.run_before, h.plain, h.single, fun hd => even_pipesAtEnd_of_whole hv hd h.whole h.run_before⟩

/-- What separates behind the first cut separates in the whole text. -/
theorem CutAt.separates_behind {x y before after : Text} (cut : CutAt d s t x y)
    (hy : y = before ++ d.char :: after) :
    Separates d s (x ++ d.char :: before) after ↔ Separates d .start before after := by
  have hrun : s.run (x ++ d.char :: before) = State.start.run before := by
    rw [State.run_append, cut.run_before, State.run_cons, step_of_separates cut.separates]
  have hpipes (hd : d.char = '|') : pipesAtEnd (x ++ d.char :: before) = pipesAtEnd before := by
    have hhead := cut.single hd
    rw [hy, hd] at hhead
    rw [List.append_cons]
    exact pipesAtEnd_append hhead
  constructor
  · intro h
    exact ⟨hrun ▸ h.run_before, h.plain, h.single, fun hd => hpipes hd ▸ h.unpaired hd⟩
  · intro h
    exact ⟨hrun.trans h.run_before, h.plain, h.single, fun hd => (hpipes hd).symm ▸ h.unpaired hd⟩

/-- No text is whole in which a delimiter separates. -/
theorem Separates.not_whole {before after : Text} (hv : s.Valid) (h : Separates d s before after) :
    ¬ Whole d s (before ++ d.char :: after) := by
  intro hw
  have hs : State.start.separates d d.char = true := separates_iff.mpr ⟨rfl, rfl, h.plain⟩
  by_cases hd : d.char = '|'
  · -- The run of pipes that ends here would be whole, but one of them is left over.
    rw [List.append_cons] at hw
    have hwhole := hw.of_append_left fun _ => h.single hd
    have hrun : s.run (before ++ [d.char]) = .start := by
      rw [State.run_append, h.run_before]
      exact step_of_separates hs
    have heven := even_pipesAtEnd_of_whole hv hd hwhole hrun
    obtain ⟨u, hb, hu⟩ := exists_eq_append_pipes before
    have hnext : pipesAtEnd (before ++ [d.char]) = pipesAtEnd before + 1 := by
      conv => lhs; rw [hb, hd, List.append_assoc, ← List.replicate_succ']
      exact pipesAtEnd_append_pipes hu _
    have := h.unpaired hd
    omega
  · have hwhole := hw.of_append_left fun hd' => absurd hd' hd
    have hrest := hw.of_append_right hwhole
    unfold Whole at hrest
    rw [h.run_before, splitOnceFrom_separator hs fun hd' => absurd hd' hd] at hrest
    cases hrest

/-- **Where a text is cut.** The offsets of a scan are those of the delimiters that separate by what
stands around them. -/
theorem mem_offsetsFrom_iff (hv : s.Valid) (pos : Nat) :
    o ∈ offsetsFrom d pos s t ↔ ∃ before after, t = before ++ d.char :: after ∧
      Separates d s before after ∧ o = pos + before.byteLength := by
  induction s, t using split_induction (d := d) generalizing pos with
  | whole s t hw =>
    rw [offsetsFrom_of_whole hw]
    constructor
    · intro h
      cases h
    · rintro ⟨before, after, rfl, hsep, -⟩
      exact absurd hw (hsep.not_whole hv)
  | cut s t x y cut ih =>
    rw [offsetsFrom_of_cut cut, List.mem_cons, ih State.valid_start _]
    have hpos (before : Text) : pos + x.byteLength + d.char.utf8Size + before.byteLength =
        pos + byteLength (x ++ d.char :: before) := by
      rw [byteLength_append, byteLength_cons]
      omega
    constructor
    · rintro (rfl | ⟨before, after, hy, hsep, rfl⟩)
      · exact ⟨x, y, cut.eq, cut.separates_between hv, rfl⟩
      · refine ⟨x ++ d.char :: before, after, ?_, (cut.separates_behind hy).mpr hsep, hpos before⟩
        rw [cut.eq, hy, List.append_assoc, List.cons_append]
    · rintro ⟨before, after, ht, hsep, rfl⟩
      rw [cut.eq] at ht
      rcases List.append_eq_append_iff.mp ht with ⟨e, hbefore, he⟩ | ⟨e, hx, he⟩
      · cases e with
        | nil => exact .inl (by rw [hbefore, List.append_nil])
        | cons c e =>
          obtain ⟨rfl, hy⟩ := List.cons.inj he
          subst hbefore
          exact .inr ⟨e, after, hy, (cut.separates_behind hy).mp hsep, (hpos e).symm⟩
      · cases e with
        | nil => exact .inl (by rw [hx, List.append_nil])
        | cons c e =>
          -- The delimiter would stand in front of the first cut, in a text that is whole.
          obtain ⟨rfl, hafter⟩ := List.cons.inj he
          have hw := cut.whole
          rw [hx] at hw
          refine absurd hw (Separates.not_whole hv
            ⟨hsep.run_before, hsep.plain, fun hd => ?_, hsep.unpaired⟩)
          have hsingle := hsep.single hd
          rw [hafter] at hsingle
          cases e with
          | nil => exact fun h => nomatch h
          | cons c e => exact hsingle

/-! ### Separators, by the kind of delimiter -/

/-- Reading `before` ends at depth zero outside strings. -/
def AtTopLevel (before : Text) : Prop :=
  (State.start.run before).depth = 0 ∧ (State.start.run before).inString = false

theorem atTopLevel_iff {before : Text} : AtTopLevel before ↔ State.start.run before = .start := by
  unfold AtTopLevel State.start
  cases State.run (.code 0) before <;> simp [State.depth, State.inString]

theorem mem_offsets_iff : o ∈ offsets d t ↔ ∃ before after, t = before ++ d.char :: after ∧
    Separates d .start before after ∧ o = before.byteLength := by
  have h : o ∈ offsets d t ↔ _ := mem_offsetsFrom_iff State.valid_start 0
  simpa only [Nat.zero_add] using h

/-- Quotes and brackets separate nothing. -/
theorem offsets_of_isStructural (h : isStructural d.char = true) (t : Text) : offsets d t = [] := by
  rw [List.eq_nil_iff_forall_not_mem]
  intro o ho
  obtain ⟨before, after, -, hsep, -⟩ := mem_offsets_iff.mp ho
  rw [hsep.plain] at h
  cases h

/-- Any delimiter but the pipe separates wherever it stands at top level. -/
theorem mem_offsets_iff_of_ne (hc : isStructural d.char = false) (hd : d.char ≠ '|') :
    o ∈ offsets d t ↔
      ∃ before after, t = before ++ d.char :: after ∧ AtTopLevel before ∧ o = before.byteLength := by
  simp only [mem_offsets_iff, atTopLevel_iff]
  constructor
  · rintro ⟨before, after, ht, hsep, ho⟩
    exact ⟨before, after, ht, hsep.run_before, ho⟩
  · rintro ⟨before, after, ht, hrun, ho⟩
    exact ⟨before, after, ht, ⟨hrun, hc, fun h => absurd h hd, fun h => absurd h hd⟩, ho⟩

/-- A pipe separates if it is the last of an odd run of pipes at top level. -/
theorem mem_offsets_iff_run (hd : d.char = '|') :
    o ∈ offsets d t ↔ ∃ before n after, PipeRun t before n after ∧ AtTopLevel before ∧
      n % 2 = 1 ∧ o = before.byteLength + (n - 1) := by
  simp only [mem_offsets_iff, atTopLevel_iff, hd]
  constructor
  · rintro ⟨before, after, rfl, hsep, rfl⟩
    obtain ⟨u, hb, hu⟩ := exists_eq_append_pipes before
    have hrun := hsep.run_before
    have heven := hsep.unpaired hd
    rw [hb, State.run_append] at hrun
    refine ⟨u, pipesAtEnd before + 1, after, ⟨?_, hu, hsep.single hd⟩,
      (State.valid_run_start u).eq_start_of_run isStructural_of_mem_pipes hrun, by omega, ?_⟩
    · conv => lhs; rw [hb]
      simp [List.replicate_succ']
    · conv => lhs; rw [hb]
      rw [byteLength_append, byteLength_pipes]
      omega
  · rintro ⟨before, n, after, run, hrun, hodd, rfl⟩
    obtain ⟨k, rfl⟩ : ∃ k, n = k + 1 := ⟨n - 1, by omega⟩
    have hpipes : (State.start).run (List.replicate k '|') = .start :=
      State.run_code_of_plain isStructural_of_mem_pipes 0
    refine ⟨before ++ List.replicate k '|', after, ?_,
      ⟨?_, by rw [hd]; rfl, fun _ => run.stops, fun _ => ?_⟩, ?_⟩
    · rw [run.eq, List.replicate_succ']
      simp
    · rw [State.run_append, hrun, hpipes]
    · rw [pipesAtEnd_append_pipes run.starts]
      omega
    · rw [byteLength_append, byteLength_pipes]
      omega

end PipeBlocks.Scan
