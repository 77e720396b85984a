import PipeBlocks.Proofs.Chain

/-! Scanning behind a stray closer.

A text is *overclosed* if more groups are closed in it than opened, strings apart. The scan is
then below depth zero, where nothing separates, and it stays silent while that is so. But the depth
is only a number: openers that come later, of groups that have nothing to do with the closer, make
up for it, and from there on the scan goes on as if it had begun there
(`silent_while_overclosed`). -/
namespace PipeBlocks.Scan
open Text

variable {d : Delimiter} {s : State}

/-! ### Brackets outside strings -/

/-- The characters of a text that are read outside strings, if reading begins in state `s`. -/
def State.outside (s : State) : Text → Text
  | [] => []
  | c :: r => if s.inString then (s.step c).outside r else c :: (s.step c).outside r

/-- How many groups are opened outside strings. -/
def openers (t : Text) : Nat := (State.start.outside t).countP isOpener

/-- How many groups are closed outside strings. -/
def closers (t : Text) : Nat := (State.start.outside t).countP isCloser

def Overclosed (t : Text) : Prop := openers t < closers t

instance (t : Text) : Decidable (Overclosed t) := inferInstanceAs (Decidable (_ < _))

theorem isCloser_of_isOpener {c : Char} (h : isOpener c = true) : isCloser c = false := by
  simp only [isOpener, Bool.or_eq_true, beq_iff_eq] at h
  rcases h with (rfl | rfl) | rfl <;> rfl

theorem not_bracket_of_isQuote {c : Char} (h : isQuote c = true) :
    isOpener c = false ∧ isCloser c = false := by
  simp only [isQuote, Bool.or_eq_true, beq_iff_eq] at h
  rcases h with rfl | rfl <;> exact ⟨rfl, rfl⟩

/-- The depth is the number of groups opened less the number of groups closed. -/
theorem State.depth_run (s : State) (t : Text) :
    (s.run t).depth = s.depth + (s.outside t).countP isOpener - (s.outside t).countP isCloser := by
  induction t generalizing s with
  | nil => simp [outside, depth]
  | cons c r ih =>
    rw [run_cons, ih]
    fun_cases State.step c s with
    | case1 n hq =>
      obtain ⟨ho, hc⟩ := not_bracket_of_isQuote hq
      simp [outside, inString, step, depth, hq, ho, hc]
    | case2 n hq ho =>
      have hc := isCloser_of_isOpener ho
      simp only [depth, outside, inString, Bool.false_eq_true, ↓reduceIte, step, hq, ho, hc,
        not_false_eq_true, List.countP_cons_of_pos, List.countP_cons_of_neg, Int.natCast_add,
        Int.cast_ofNat_Int]
      omega
    | case3 n hq ho hc =>
      simp only [depth, outside, inString, Bool.false_eq_true, ↓reduceIte, step, hq, ho, hc,
        not_false_eq_true, List.countP_cons_of_pos, List.countP_cons_of_neg, Int.natCast_add,
        Int.cast_ofNat_Int]
      omega
    | case4 n hq ho hc => simp [outside, inString, step, depth, hq, ho, hc]
    | case5 | case6 | case7 | case8 => simp_all [outside, inString, step, depth]

theorem State.outside_append (s : State) (t u : Text) :
    s.outside (t ++ u) = s.outside t ++ (s.run t).outside u := by
  induction t generalizing s with
  | nil => rfl
  | cons c r ih =>
    rw [List.cons_append, outside, outside, run_cons, ih]
    split <;> rfl

theorem overclosed_iff {t : Text} : Overclosed t ↔ (State.start.run t).depth < 0 := by
  have h := State.depth_run .start t
  have hstart : State.start.depth = 0 := rfl
  unfold Overclosed openers closers
  omega

/-- Overclosed texts hold at least a closer. -/
theorem Overclosed.isBlank_eq_false {t : Text} (h : Overclosed t) : t.isBlank = false := by
  rw [Bool.eq_false_iff]
  intro hblank
  have hrun : State.start.run t = .start := State.run_code_of_isBlank hblank 0
  rw [overclosed_iff, hrun] at h
  exact absurd h (by decide)

/-- Only an opener brings the depth back to zero. -/
theorem State.step_eq_start {c : Char} (h : s.depth < 0) (h' : 0 ≤ (s.step c).depth) :
    s.step c = .start := by
  fun_cases State.step c s with
  | case2 n hq ho =>
    have hn : n + 1 = 0 := by
      simp only [depth, step, hq, ho, Bool.false_eq_true, ↓reduceIte] at h h'
      omega
    simp [start, hn]
  | case1 | case3 | case4 | case5 | case6 | case7 | case8 =>
    -- Nothing else makes the depth greater.
    simp_all [depth, step]
    omega

/-! ### Text behind a text -/

/-- What follows a text that does not end where a scan starts is scanned on its own. -/
theorem offsetsFrom_append {x : Text} (h : s.run x ≠ .start) (pos : Nat) (y : Text) :
    offsetsFrom d pos s (x ++ y) =
      offsetsFrom d pos s x ++ offsetsFrom d (pos + x.byteLength) (s.run x) y := by
  induction s, x using split_induction (d := d) generalizing pos with
  | whole s x hw =>
    rw [offsetsFrom_of_whole hw, hw.offsetsFrom_append]
    rfl
  | cut s x a b cut ih =>
    rw [cut.run] at h ⊢
    have cut' := cut.append (b := y) fun _ hb => absurd (by rw [hb]; rfl) h
    have hpos : pos + a.byteLength + d.char.utf8Size + b.byteLength = pos + x.byteLength := by
      rw [cut.eq, byteLength_append, byteLength_cons]
      omega
    rw [offsetsFrom_of_cut cut', offsetsFrom_of_cut cut, ih h, hpos]
    rfl

/-- A whole text behind such a text belongs to its last piece. -/
theorem exists_splitFrom_append {x y : Text} (h : s.run x ≠ .start) (hy : Whole d (s.run x) y) :
    ∃ init last, splitFrom d s x = init ++ [last] ∧ splitFrom d s (x ++ y) = init ++ [last ++ y] := by
  induction s, x using split_induction (d := d) with
  | whole s x hw =>
    exact ⟨[], x, splitFrom_of_whole hw, splitFrom_of_whole (hw.append hy)⟩
  | cut s x a b cut ih =>
    rw [cut.run] at h hy
    have cut' := cut.append (b := y) fun _ hb => absurd (by rw [hb]; rfl) h
    obtain ⟨init, last, hx, hxy⟩ := ih h hy
    exact ⟨a :: init, last, by rw [splitFrom_of_cut cut, split, hx]; rfl,
      by rw [splitFrom_of_cut cut', split, hxy]; rfl⟩

theorem splitOnceFrom_append {x y : Text} (h : s.run x ≠ .start) (hy : Whole d (s.run x) y) :
    splitOnceFrom d s (x ++ y) = (splitOnceFrom d s x).map fun p => (p.1, p.2 ++ y) := by
  rcases whole_or_cut d s x with hw | ⟨a, b, cut⟩
  · rw [hw.append hy, hw]
    rfl
  · rw [cut.run] at h
    have cut' := cut.append (b := y) fun _ hb => absurd (by rw [hb]; rfl) h
    rw [splitOnceFrom_eq_some_iff.mpr cut, splitOnceFrom_eq_some_iff.mpr cut']
    rfl

/-! ### While a text stays overclosed -/

/-- However far one reads on in `y`, what was read is overclosed. -/
def StaysOverclosed (x y : Text) : Prop := ∀ u, u <+: y → Overclosed (x ++ u)

namespace StaysOverclosed
variable {x y : Text}

theorem overclosed (h : StaysOverclosed x y) : Overclosed x := by
  have := h [] List.nil_prefix
  rwa [List.append_nil] at this

theorem whole (h : StaysOverclosed x y) : Whole d (State.start.run x) y := by
  refine whole_of_depth_ne_zero fun u v hy _ => ?_
  have := overclosed_iff.mp (h u ⟨v, hy.symm⟩)
  rw [State.run_append] at this
  omega

end StaysOverclosed

theorem Overclosed.run_ne_start {x : Text} (h : Overclosed x) : State.start.run x ≠ .start := by
  intro hrun
  rw [overclosed_iff, hrun] at h
  exact absurd h (by decide)

/-- The last piece of an overclosed text is overclosed. -/
theorem Overclosed.of_split_eq {x last : Text} {init : List Text} (h : Overclosed x)
    (hx : split d x = init ++ [last]) : Overclosed last := by
  rw [overclosed_iff, run_of_split_eq hx, ← overclosed_iff]
  exact h

/-- No piece is added to a text that stays overclosed, and only the last one grows. -/
theorem StaysOverclosed.exists_split {x y : Text} (h : StaysOverclosed x y) (d : Delimiter) :
    ∃ init last, Overclosed last ∧ split d x = init ++ [last] ∧
      split d (x ++ y) = init ++ [last ++ y] := by
  obtain ⟨init, last, hx, hxy⟩ := exists_splitFrom_append h.overclosed.run_ne_start h.whole
  exact ⟨init, last, h.overclosed.of_split_eq hx, hx, hxy⟩

/-- If nothing is opened behind it, an overclosed text stays overclosed. -/
theorem Overclosed.stays {x y : Text} (h : Overclosed x)
    (hy : ∀ c ∈ (State.start.run x).outside y, isOpener c = false) : StaysOverclosed x y := by
  rintro u ⟨v, rfl⟩
  rw [State.outside_append] at hy
  have hu : ((State.start.run x).outside u).countP isOpener = 0 := by
    rw [List.countP_eq_zero]
    intro c hc
    simp [hy c (List.mem_append_left _ hc)]
  have hdepth := State.depth_run (State.start.run x) u
  rw [overclosed_iff] at h ⊢
  rw [State.run_append]
  omega

/-- Where a text is overclosed no more, the scan stands where it starts. -/
theorem run_eq_start {x y : Text} (hx : Overclosed x) (hxy : ¬ Overclosed (x ++ y))
    (hbefore : ∀ u, u <+: y → u ≠ y → Overclosed (x ++ u)) : State.start.run (x ++ y) = .start := by
  rcases List.eq_nil_or_concat y with rfl | ⟨u, c, rfl⟩
  · rw [List.append_nil] at hxy
    exact absurd hx hxy
  · rw [List.concat_eq_append] at hxy hbefore ⊢
    have hu := hbefore u (List.prefix_append u [c]) (by simp)
    rw [overclosed_iff] at hu hxy
    rw [← List.append_assoc, State.run_append] at hxy ⊢
    exact State.step_eq_start hu (by simpa using hxy)

/-! ### Stages and arguments -/

theorem stages_of_split_eq {t last : Text} {init : List Text} (h : split .pipe t = init ++ [last])
    (hlast : last.isBlank = false) :
    stages t = (init.filter fun p => !p.isBlank).map Stage.parse ++ [Stage.parse last] := by
  rw [stages_eq, h, List.filter_append, List.map_append]
  simp [hlast]

theorem arguments_of_split_eq {t last : Text} {init : List Text} (ht : t.isBlank = false)
    (h : split .comma t = init ++ [last]) (hlast : last.isBlank = false) :
    arguments t = init.map trim ++ [last.trim] := by
  have hne : last.trim ≠ [] := by simp [trim_eq_nil_iff, hlast]
  unfold arguments
  simp [ht, h, hne]

/-- **A text that is overclosed is silent for as long as it stays so.** Behind it no delimiter
separates, no piece, stage or argument is begun, and the last one takes in all that follows. It
stays overclosed if nothing is opened any more. But openers make up for closers: where the last
missing one is read the silence ends, and what follows is scanned as a text of its own. -/
theorem silent_while_overclosed (d : Delimiter) (x y : Text) :
    (Overclosed x → (∀ c ∈ (State.start.run x).outside y, isOpener c = false) → StaysOverclosed x y) ∧
    (StaysOverclosed x y →
      offsets d (x ++ y) = offsets d x ∧ (∀ o ∈ offsets d (x ++ y), o < x.byteLength) ∧
      (∃ init last, split d x = init ++ [last] ∧ split d (x ++ y) = init ++ [last ++ y]) ∧
      splitOnce? d (x ++ y) = (splitOnce? d x).map (fun p => (p.1, p.2 ++ y)) ∧
      (∃ init last, stages x = init ++ [Stage.parse last] ∧
        stages (x ++ y) = init ++ [Stage.parse (last ++ y)]) ∧
      ∃ init last, arguments x = init ++ [last.trim] ∧
        arguments (x ++ y) = init ++ [trim (last ++ y)]) ∧
    (Overclosed x → ¬ Overclosed (x ++ y) → (∀ u, u <+: y → u ≠ y → Overclosed (x ++ u)) →
      ∀ v, offsets d (x ++ y ++ v) =
        offsets d x ++ (offsets d v).map (· + (x ++ y).byteLength)) := by
  refine ⟨Overclosed.stays, fun h => ?_, fun hx hxy hbefore v => ?_⟩
  · have hx := h.overclosed
    have hxy := h y List.prefix_rfl
    have hoffsets : offsets d (x ++ y) = offsets d x := by
      have := offsetsFrom_append (d := d) hx.run_ne_start 0 y
      rwa [offsetsFrom_of_whole h.whole, List.append_nil] at this
    refine ⟨hoffsets, fun o ho => ?_, ?_, splitOnceFrom_append hx.run_ne_start h.whole, ?_, ?_⟩
    · rw [hoffsets] at ho
      have := lt_of_mem_offsetsFrom (d := d) ho
      omega
    · obtain ⟨init, last, -, hsplit, hsplit'⟩ := h.exists_split d
      exact ⟨init, last, hsplit, hsplit'⟩
    · obtain ⟨init, last, hlast, hsplit, hsplit'⟩ := h.exists_split .pipe
      have hblank := hlast.isBlank_eq_false
      exact ⟨_, last, stages_of_split_eq hsplit hblank,
        stages_of_split_eq hsplit' (by simp [hblank])⟩
    · obtain ⟨init, last, hlast, hsplit, hsplit'⟩ := h.exists_split .comma
      have hblank := hlast.isBlank_eq_false
      exact ⟨_, last, arguments_of_split_eq hx.isBlank_eq_false hsplit hblank,
        arguments_of_split_eq hxy.isBlank_eq_false hsplit' (by simp [hblank])⟩
  · have hwhole : Whole d (State.start.run x) y := by
      refine whole_of_depth_ne_zero fun u w hy hw => ?_
      have hu := hbefore u ⟨w, hy.symm⟩ fun hu => hw (by simpa [hu] using hy)
      rw [overclosed_iff, State.run_append] at hu
      omega
    have hsilent := offsetsFrom_append (d := d) hx.run_ne_start 0 (y ++ v)
    have hbehind : offsetsFrom d (0 + x.byteLength) (State.start.run x) (y ++ v) =
        offsetsFrom d (0 + (x ++ y).byteLength) .start v := by
      rw [hwhole.offsetsFrom_append, ← State.run_append, run_eq_start hx hxy hbefore,
        Nat.add_assoc, ← byteLength_append]
    rw [hbehind, offsetsFrom_add, ← List.append_assoc] at hsilent
    exact hsilent

/-- The comma separates although a stray closer stands before it: the bracket that it stands in
makes up for the closer. -/
theorem offset_behind_stray_closer :
    let x : Text := "a)".toList
    let y : Text := "(b, c)".toList
    Overclosed x ∧ x.byteLength ≤ 4 ∧ 4 ∈ offsets .comma (x ++ y) ∧
      arguments (x ++ y) = ["a)(b".toList, "c)".toList] := by
  decide +kernel

/-- Nothing is opened behind the stray closer; the one opener stands in a string. -/
theorem silent_while_overclosed_quoted :
    let x : Text := "a, b)".toList
    let y : Text := ", '(', c".toList
    Overclosed x ∧ (∀ c ∈ (State.start.run x).outside y, isOpener c = false) ∧
      StaysOverclosed x y ∧ offsets .comma (x ++ y) = [1] := by
  intro x y
  have hx : Overclosed x := by decide +kernel
  have hy : ∀ c ∈ (State.start.run x).outside y, isOpener c = false := by
    have : (State.start.run x).outside y = ", ', c".toList := by decide +kernel
    rw [this]
    simp [isOpener]
  obtain ⟨hstays, hsilent, -⟩ := silent_while_overclosed .comma x y
  have h := hstays hx hy
  refine ⟨hx, hy, h, ?_⟩
  rw [(hsilent h).1]
  decide +kernel

end PipeBlocks.Scan
