import PipeBlocks.Scan.Delimiter

/-! Cutting a text at its separators.

A text is *whole* for a delimiter if no separator stands in it. `splitOnceFrom_eq_some_iff` says
where the first cut falls: after a whole part that the scan leaves at depth zero outside strings,
at a delimiter that is not half of a pair. Splitting is cutting again and again
(`splitFrom_of_whole`, `splitFrom_of_cut`), so what is said of all pieces is proved by
`split_induction`: one case for a whole text, one for a cut. Every piece but the last is read from
the state a fresh scan starts in, and that is why the pieces may be scanned again on their own. -/
namespace PipeBlocks.Scan

variable {d : Delimiter} {s : State}

/-! ### Separators -/

theorem separates_iff {c : Char} :
    s.separates d c = true ↔ s = .start ∧ c = d.char ∧ isStructural c = false := by
  simp [State.separates, State.start, and_assoc]

/-- A separator leaves the scan where it is. -/
theorem step_of_separates {c : Char} (h : s.separates d c = true) : s.step c = s := by
  obtain ⟨rfl, -, hc⟩ := separates_iff.mp h
  simp only [isStructural, Bool.or_eq_false_iff] at hc
  simp [State.start, State.step, hc]

/-! ### One step of a split -/

theorem splitOnceFrom_pair (h : s.separates d '|' = true) (r : Text) :
    splitOnceFrom d s ('|' :: '|' :: r) =
      (splitOnceFrom d s r).map fun p => ('|' :: '|' :: p.1, p.2) := by
  rw [splitOnceFrom, if_pos h]

theorem splitOnceFrom_separator {c : Char} {r : Text} (h : s.separates d c = true)
    (hp : c = '|' → r.head? ≠ some '|') : splitOnceFrom d s (c :: r) = some ([], r) := by
  rw [splitOnceFrom, if_pos h]
  intro r' hc hr
  exact hp hc (by rw [hr]; rfl)

theorem splitOnceFrom_skip {c : Char} (h : s.separates d c = false) (r : Text) :
    splitOnceFrom d s (c :: r) =
      (splitOnceFrom d (s.step c) r).map fun p => (c :: p.1, p.2) := by
  rw [splitOnceFrom.eq_def]
  simp only [h]
  rfl

theorem splitFrom_pair (h : s.separates d '|' = true) (r : Text) :
    splitFrom d s ('|' :: '|' :: r) = (splitFrom d s r).modifyHead (['|', '|'] ++ ·) := by
  rw [splitFrom, if_pos h]

theorem splitFrom_separator {c : Char} {r : Text} (h : s.separates d c = true)
    (hp : c = '|' → r.head? ≠ some '|') : splitFrom d s (c :: r) = [] :: splitFrom d s r := by
  rw [splitFrom, if_pos h]
  intro r' hc hr
  exact hp hc (by rw [hr]; rfl)

theorem splitFrom_skip {c : Char} (h : s.separates d c = false) (r : Text) :
    splitFrom d s (c :: r) = (splitFrom d (s.step c) r).modifyHead (c :: ·) := by
  rw [splitFrom.eq_def]
  simp only [h]
  rfl

theorem offsetsFrom_pair (h : s.separates d '|' = true) (pos : Nat) (r : Text) :
    offsetsFrom d pos s ('|' :: '|' :: r) = offsetsFrom d (pos + 2) s r := by
  rw [offsetsFrom, if_pos h]

theorem offsetsFrom_separator {c : Char} {r : Text} (h : s.separates d c = true)
    (hp : c = '|' → r.head? ≠ some '|') (pos : Nat) :
    offsetsFrom d pos s (c :: r) = pos :: offsetsFrom d (pos + c.utf8Size) s r := by
  rw [offsetsFrom, if_pos h]
  intro r' hc hr
  exact hp hc (by rw [hr]; rfl)

theorem offsetsFrom_skip {c : Char} (h : s.separates d c = false) (pos : Nat) (r : Text) :
    offsetsFrom d pos s (c :: r) = offsetsFrom d (pos + c.utf8Size) (s.step c) r := by
  rw [offsetsFrom.eq_def]
  simp only [h]
  rfl

/-! ### Whole texts -/

/-- No separator stands in `t`, read from `s`. -/
def Whole (d : Delimiter) (s : State) (t : Text) : Prop := splitOnceFrom d s t = none

@[simp] theorem whole_nil : Whole d s [] := rfl

/-- Behind a whole text the scan goes on as if it had begun there. -/
theorem Whole.splitOnceFrom_append {a : Text} (h : Whole d s a) (b : Text) :
    splitOnceFrom d s (a ++ b) = (splitOnceFrom d (s.run a) b).map fun p => (a ++ p.1, p.2) := by
  unfold Whole at h
  fun_induction splitOnceFrom d s a with
  | case1 s => simp
  | case2 s r hs ih =>
    rw [List.cons_append, List.cons_append, splitOnceFrom_pair hs, ih (by simpa using h)]
    simp [step_of_separates hs, Function.comp_def]
  | case3 => cases h
  | case4 s c r hs ih =>
    rw [List.cons_append, splitOnceFrom_skip (by simpa using hs), ih (by simpa using h)]
    simp [Function.comp_def]

theorem Whole.append {a b : Text} (ha : Whole d s a) (hb : Whole d (s.run a) b) :
    Whole d s (a ++ b) := by
  unfold Whole at hb ⊢
  rw [ha.splitOnceFrom_append, hb]
  rfl

/-- The rest of a whole text behind a whole part of it is whole. -/
theorem Whole.of_append_right {a b : Text} (h : Whole d s (a ++ b)) (ha : Whole d s a) :
    Whole d (s.run a) b := by
  unfold Whole at h ⊢
  rw [ha.splitOnceFrom_append] at h
  simpa using h

theorem whole_of_not_mem {t : Text} (h : d.char ∉ t) : Whole d s t := by
  induction t generalizing s with
  | nil => rfl
  | cons c r ih =>
    have hc : s.separates d c = false := by
      rw [Bool.eq_false_iff]
      intro hs
      exact h (by rw [← (separates_iff.mp hs).2.1]; exact List.mem_cons_self ..)
    have hr : Whole d (s.step c) r := ih fun hr => h (List.mem_cons_of_mem c hr)
    unfold Whole at hr ⊢
    rw [splitOnceFrom_skip hc, hr]
    rfl

/-- Quotes and brackets never separate. -/
theorem whole_singleton_of_isStructural {c : Char} (h : isStructural c = true) : Whole d s [c] := by
  have hc : s.separates d c = false := by
    rw [Bool.eq_false_iff]
    intro hs
    simp [(separates_iff.mp hs).2.2] at h
  exact splitOnceFrom_skip hc []

/-- Nothing separates but at depth zero. -/
theorem whole_of_depth_ne_zero {t : Text}
    (h : ∀ u v, t = u ++ v → v ≠ [] → (s.run u).depth ≠ 0) : Whole d s t := by
  induction t generalizing s with
  | nil => rfl
  | cons c r ih =>
    have hc : s.separates d c = false := by
      rw [Bool.eq_false_iff]
      intro hs
      refine h [] (c :: r) rfl (List.cons_ne_nil c r) ?_
      rw [(separates_iff.mp hs).1]
      rfl
    have hr : Whole d (s.step c) r := ih fun u v hr hv => h (c :: u) v (by rw [hr]; rfl) hv
    unfold Whole at hr ⊢
    rw [splitOnceFrom_skip hc, hr]
    rfl

/-! ### The first cut -/

/-- `t`, read from `s`, is cut for the first time between `before` and `after`. -/
structure CutAt (d : Delimiter) (s : State) (t before after : Text) : Prop where
  eq : t = before ++ d.char :: after
  whole : Whole d s before
  run_before : s.run before = .start
  plain : isStructural d.char = false
  single : d.char = '|' → after.head? ≠ some '|'

theorem CutAt.separates {t x y : Text} (h : CutAt d s t x y) : State.start.separates d d.char = true :=
  separates_iff.mpr ⟨rfl, rfl, h.plain⟩

theorem CutAt.of_splitOnceFrom {t x y : Text} (h : splitOnceFrom d s t = some (x, y)) :
    CutAt d s t x y := by
  fun_induction splitOnceFrom d s t generalizing x y with
  | case1 => cases h
  | case2 s r hs ih =>
    obtain ⟨⟨x', y'⟩, hr, hxy⟩ := Option.map_eq_some_iff.mp h
    cases hxy
    have cut := ih hr
    refine ⟨by rw [cut.eq]; rfl, ?_, ?_, cut.plain, cut.single⟩
    · exact (splitOnceFrom_pair hs x').trans (by rw [cut.whole]; rfl)
    · simpa [step_of_separates hs] using cut.run_before
  | case3 s c r hp hs =>
    cases h
    obtain ⟨rfl, rfl, hc⟩ := separates_iff.mp hs
    refine ⟨rfl, rfl, rfl, hc, fun hd hy => ?_⟩
    obtain ⟨r', hr'⟩ := List.head?_eq_some_iff.mp hy
    exact hp r' hd hr'
  | case4 s c r hs ih =>
    obtain ⟨⟨x', y'⟩, hr, hxy⟩ := Option.map_eq_some_iff.mp h
    cases hxy
    have cut := ih hr
    refine ⟨by rw [cut.eq]; rfl, ?_, cut.run_before, cut.plain, cut.single⟩
    exact (splitOnceFrom_skip (by simpa using hs) x').trans (by rw [cut.whole]; rfl)

/-- A text is cut for the first time behind a whole part, at a delimiter at depth zero outside
strings that is not half of a pair. -/
theorem splitOnceFrom_eq_some_iff {t x y : Text} :
    splitOnceFrom d s t = some (x, y) ↔ CutAt d s t x y := by
  refine ⟨CutAt.of_splitOnceFrom, fun h => ?_⟩
  rw [h.eq, h.whole.splitOnceFrom_append, h.run_before, splitOnceFrom_separator h.separates h.single]
  simp

/-- A text is whole or has a first cut. -/
theorem whole_or_cut (d : Delimiter) (s : State) (t : Text) :
    Whole d s t ∨ ∃ x y, CutAt d s t x y := by
  cases h : splitOnceFrom d s t with
  | none => exact .inl h
  | some p => exact .inr ⟨p.1, p.2, .of_splitOnceFrom h⟩

/-- What follows a text does not move its first cut, unless it completes a pair. -/
theorem CutAt.append {t x y : Text} (h : CutAt d s t x y) {b : Text}
    (hb : d.char = '|' → y = [] → b.head? ≠ some '|') : CutAt d s (t ++ b) x (y ++ b) := by
  refine ⟨by rw [h.eq]; simp, h.whole, h.run_before, h.plain, fun hd => ?_⟩
  cases y with
  | nil => exact hb hd rfl
  | cons c r => exact h.single hd

/-- Behind the first cut the scan goes on from the start. -/
theorem CutAt.run {t x y : Text} (h : CutAt d s t x y) : s.run t = State.start.run y := by
  rw [h.eq, State.run_append, h.run_before, State.run_cons, step_of_separates h.separates]

theorem CutAt.append_left {t x y a : Text} (ha : Whole d s a) (h : CutAt d (s.run a) t x y) :
    CutAt d s (a ++ t) (a ++ x) y := by
  refine ⟨by rw [h.eq]; simp, ha.append h.whole, ?_, h.plain, h.single⟩
  rw [State.run_append, h.run_before]

/-- The beginning of a whole text is whole, unless a pair is broken there. -/
theorem Whole.of_append_left {a b : Text} (h : Whole d s (a ++ b))
    (hb : d.char = '|' → b.head? ≠ some '|') : Whole d s a := by
  rcases whole_or_cut d s a with ha | ⟨x, y, cut⟩
  · exact ha
  · have hsome := splitOnceFrom_eq_some_iff.mpr (cut.append fun hd _ => hb hd)
    unfold Whole at h
    rw [h] at hsome
    cases hsome

/-! ### All pieces -/

theorem splitFrom_of_whole {t : Text} (h : Whole d s t) : splitFrom d s t = [t] := by
  unfold Whole at h
  fun_induction splitOnceFrom d s t with
  | case1 => rfl
  | case2 s r hs ih =>
    rw [splitFrom_pair hs, ih (by simpa using h)]
    rfl
  | case3 => cases h
  | case4 s c r hs ih =>
    rw [splitFrom_skip (by simpa using hs), ih (by simpa using h)]
    rfl

theorem splitFrom_of_cut {t x y : Text} (h : CutAt d s t x y) :
    splitFrom d s t = x :: split d y := by
  replace h := splitOnceFrom_eq_some_iff.mpr h
  fun_induction splitOnceFrom d s t generalizing x with
  | case1 => cases h
  | case2 s r hs ih =>
    obtain ⟨⟨x', y'⟩, hr, hxy⟩ := Option.map_eq_some_iff.mp h
    cases hxy
    rw [splitFrom_pair hs, ih hr]
    rfl
  | case3 s c r hp hs =>
    cases h
    obtain ⟨rfl, -, -⟩ := separates_iff.mp hs
    rw [splitFrom_separator hs]
    · rfl
    · intro hc hr
      obtain ⟨r', hr'⟩ := List.head?_eq_some_iff.mp hr
      exact hp r' hc hr'
  | case4 s c r hs ih =>
    obtain ⟨⟨x', y'⟩, hr, hxy⟩ := Option.map_eq_some_iff.mp h
    cases hxy
    rw [splitFrom_skip (by simpa using hs), ih hr]
    rfl

/-- The first piece is the whole text or what stands before the first cut. -/
theorem whole_or_cut_of_splitFrom {t first : Text} {rest : List Text}
    (h : splitFrom d s t = first :: rest) :
    (Whole d s t ∧ first = t ∧ rest = []) ∨ ∃ y, CutAt d s t first y ∧ rest = split d y := by
  rcases whole_or_cut d s t with hw | ⟨x, y, cut⟩
  · rw [splitFrom_of_whole hw] at h
    obtain ⟨rfl, rfl⟩ := List.cons.inj h
    exact .inl ⟨hw, rfl, rfl⟩
  · rw [splitFrom_of_cut cut] at h
    obtain ⟨rfl, rfl⟩ := List.cons.inj h
    exact .inr ⟨y, cut, rfl⟩

/-- What holds of whole texts, and of a text if it holds behind the first cut, holds of every text. -/
theorem split_induction {P : State → Text → Prop} (whole : ∀ s t, Whole d s t → P s t)
    (cut : ∀ s t x y, CutAt d s t x y → P .start y → P s t) (s : State) (t : Text) : P s t := by
  induction hn : t.length using Nat.strongRecOn generalizing s t with
  | _ n ih =>
    rcases whole_or_cut d s t with h | ⟨x, y, h⟩
    · exact whole s t h
    · refine cut s t x y h (ih y.length ?_ .start y rfl)
      rw [← hn, h.eq, List.length_append, List.length_cons]
      omega

theorem splitFrom_ne_nil (d : Delimiter) (s : State) (t : Text) : splitFrom d s t ≠ [] := by
  rcases whole_or_cut d s t with h | ⟨x, y, h⟩
  · simp [splitFrom_of_whole h]
  · simp [splitFrom_of_cut h]

/-- The pieces of a text are whole: splitting is final. -/
theorem whole_of_mem_split {t : Text} : ∀ p ∈ split d t, Whole d .start p := by
  suffices ∀ s, s = .start → ∀ t, ∀ p ∈ splitFrom d s t, Whole d .start p from this .start rfl t
  intro s hs t
  induction s, t using split_induction (d := d) with
  | whole s t h =>
    intro p hp
    rw [splitFrom_of_whole h, List.mem_singleton] at hp
    rw [hp, ← hs]
    exact h
  | cut s t x y cut ih =>
    intro p hp
    rw [splitFrom_of_cut cut] at hp
    rcases List.mem_cons.mp hp with rfl | hp
    · rw [← hs]
      exact cut.whole
    · exact ih rfl p hp

/-- The last piece of a text leaves the scan as the text does. -/
theorem run_of_split_eq {x last : Text} {init : List Text} (h : split d x = init ++ [last]) :
    State.start.run last = State.start.run x := by
  suffices ∀ s, s = .start → ∀ x init, splitFrom d s x = init ++ [last] →
    State.start.run last = State.start.run x from this .start rfl x init h
  intro s hs x
  induction s, x using split_induction (d := d) with
  | whole s x hw =>
    intro init hx
    rw [splitFrom_of_whole hw, ← List.nil_append [x]] at hx
    obtain ⟨-, hx⟩ := List.append_inj' hx rfl
    rw [(List.cons.inj hx).1]
  | cut s x a b cut ih =>
    intro init hx
    rw [splitFrom_of_cut cut] at hx
    cases init with
    | nil => exact absurd (List.cons.inj hx).2 (splitFrom_ne_nil d .start b)
    | cons _ init =>
      rw [← hs, cut.run]
      exact hs ▸ ih rfl init (List.cons.inj hx).2

theorem mem_of_mem_splitFrom {t : Text} {c : Char} : ∀ p ∈ splitFrom d s t, c ∈ p → c ∈ t := by
  induction s, t using split_induction (d := d) with
  | whole s t h =>
    intro p hp hc
    rw [splitFrom_of_whole h, List.mem_singleton] at hp
    rwa [← hp]
  | cut s t x y cut ih =>
    intro p hp hc
    rw [splitFrom_of_cut cut] at hp
    rw [cut.eq, List.mem_append, List.mem_cons]
    rcases List.mem_cons.mp hp with rfl | hp
    · exact .inl hc
    · exact .inr (.inr (ih p hp hc))

/-! ### Offsets -/

/-- A whole text adds no offset. -/
theorem Whole.offsetsFrom_append {a : Text} (h : Whole d s a) (pos : Nat) (b : Text) :
    offsetsFrom d pos s (a ++ b) = offsetsFrom d (pos + a.byteLength) (s.run a) b := by
  unfold Whole at h
  fun_induction splitOnceFrom d s a generalizing pos with
  | case1 => rfl
  | case2 s r hs ih =>
    have hsize : '|'.utf8Size = 1 := rfl
    have hpos : pos + 2 + Text.byteLength r = pos + Text.byteLength ('|' :: '|' :: r) := by
      rw [Text.byteLength_cons, Text.byteLength_cons, hsize]
      omega
    rw [List.cons_append, List.cons_append, offsetsFrom_pair hs, ih (by simpa using h), hpos]
    simp [step_of_separates hs]
  | case3 => cases h
  | case4 s c r hs ih =>
    rw [List.cons_append, offsetsFrom_skip (by simpa using hs), ih (by simpa using h),
      Text.byteLength_cons, Nat.add_assoc, State.run_cons]

theorem offsetsFrom_of_whole {t : Text} (h : Whole d s t) (pos : Nat) : offsetsFrom d pos s t = [] := by
  have := h.offsetsFrom_append pos []
  rwa [List.append_nil] at this

/-- The first offset is that of the first cut, and the others are behind it. -/
theorem offsetsFrom_of_cut {t x y : Text} (h : CutAt d s t x y) (pos : Nat) :
    offsetsFrom d pos s t =
      (pos + x.byteLength) :: offsetsFrom d (pos + x.byteLength + d.char.utf8Size) .start y := by
  replace h := splitOnceFrom_eq_some_iff.mpr h
  fun_induction splitOnceFrom d s t generalizing x pos with
  | case1 => cases h
  | case2 s r hs ih =>
    obtain ⟨⟨x', y'⟩, hr, hxy⟩ := Option.map_eq_some_iff.mp h
    cases hxy
    have hsize : '|'.utf8Size = 1 := rfl
    have hx : pos + 2 + x'.byteLength = pos + Text.byteLength ('|' :: '|' :: x') := by
      rw [Text.byteLength_cons, Text.byteLength_cons, hsize]
      omega
    rw [offsetsFrom_pair hs, ih (pos + 2) hr, hx]
  | case3 s c r hp hs =>
    cases h
    obtain ⟨rfl, rfl, -⟩ := separates_iff.mp hs
    rw [offsetsFrom_separator hs]
    · rfl
    · intro hc hr
      obtain ⟨r', hr'⟩ := List.head?_eq_some_iff.mp hr
      exact hp r' hc hr'
  | case4 s c r hs ih =>
    obtain ⟨⟨x', y'⟩, hr, hxy⟩ := Option.map_eq_some_iff.mp h
    cases hxy
    have hx : pos + c.utf8Size + x'.byteLength = pos + Text.byteLength (c :: x') := by
      rw [Text.byteLength_cons]
      omega
    rw [offsetsFrom_skip (by simpa using hs), ih (pos + c.utf8Size) hr, hx]

theorem offsets_eq_nil_iff {t : Text} : offsets d t = [] ↔ Whole d .start t := by
  unfold offsets
  rcases whole_or_cut d .start t with h | ⟨x, y, h⟩
  · simp [offsetsFrom_of_whole h, h]
  · simp [offsetsFrom_of_cut h, Whole, splitOnceFrom_eq_some_iff.mpr h]

/-- There is one piece more than there are separators. -/
theorem length_splitFrom (pos : Nat) (s : State) (t : Text) :
    (splitFrom d s t).length = (offsetsFrom d pos s t).length + 1 := by
  induction s, t using split_induction (d := d) generalizing pos with
  | whole s t h =>
    rw [splitFrom_of_whole h, offsetsFrom_of_whole h]
    rfl
  | cut s t x y cut ih =>
    rw [splitFrom_of_cut cut, offsetsFrom_of_cut cut, List.length_cons, List.length_cons, split, ih]

theorem offsetsFrom_add (pos k : Nat) (s : State) (t : Text) :
    offsetsFrom d (pos + k) s t = (offsetsFrom d pos s t).map (· + k) := by
  induction s, t using split_induction (d := d) generalizing pos with
  | whole s t h =>
    rw [offsetsFrom_of_whole h, offsetsFrom_of_whole h]
    rfl
  | cut s t x y cut ih =>
    rw [offsetsFrom_of_cut cut, offsetsFrom_of_cut cut, List.map_cons, ← ih,
      Nat.add_right_comm pos k, Nat.add_right_comm _ k]

theorem lt_of_mem_offsetsFrom {pos o : Nat} {t : Text} (h : o ∈ offsetsFrom d pos s t) :
    o < pos + t.byteLength := by
  induction s, t using split_induction (d := d) generalizing pos with
  | whole s t hw =>
    rw [offsetsFrom_of_whole hw] at h
    cases h
  | cut s t x y cut ih =>
    have hsize := d.char.utf8Size_pos
    rw [offsetsFrom_of_cut cut] at h
    rw [cut.eq, Text.byteLength_append, Text.byteLength_cons]
    rcases List.mem_cons.mp h with rfl | h
    · omega
    · have := ih h
      omega

theorem le_of_mem_offsetsFrom {pos o : Nat} {t : Text} (h : o ∈ offsetsFrom d pos s t) : pos ≤ o := by
  have hadd := offsetsFrom_add (d := d) 0 pos s t
  rw [Nat.zero_add] at hadd
  rw [hadd] at h
  obtain ⟨k, -, rfl⟩ := List.mem_map.mp h
  exact Nat.le_add_left pos k

/-- A scan goes on behind a separator, so each offset is greater than those before it. -/
theorem pairwise_offsetsFrom (d : Delimiter) (pos : Nat) (s : State) (t : Text) :
    (offsetsFrom d pos s t).Pairwise (· < ·) := by
  induction s, t using split_induction (d := d) generalizing pos with
  | whole s t h =>
    rw [offsetsFrom_of_whole h]
    exact List.Pairwise.nil
  | cut s t x y cut ih =>
    have hsize := d.char.utf8Size_pos
    rw [offsetsFrom_of_cut cut]
    refine List.pairwise_cons.mpr ⟨fun o ho => ?_, ih _⟩
    have := le_of_mem_offsetsFrom (d := d) ho
    omega

end PipeBlocks.Scan
