import PipeBlocks.Proofs.Scan.Trimmed

/-! Steady texts.

A text is *steady* if its scan never drops below depth zero and leaves no string open; groups may
stay open. Steady texts can be put one behind the other and in parentheses, and cutting and
trimming keep them steady. Inside parentheses a steady text cannot separate anything, whatever
delimiters it holds (`Steady.whole_parens`). -/
namespace PipeBlocks.Scan
open Text

variable {d : Delimiter}

structure Steady (t : Text) : Prop where
  nonneg : State.start.NonnegOn t
  closed : (State.start.run t).inString = false

namespace Steady
variable {t u : Text}

/-- A steady text leaves the scan outside strings, with some groups open. -/
theorem run_start (h : Steady t) : ∃ n : Int, 0 ≤ n ∧ State.start.run t = .code n := by
  have hn := h.nonneg.depth_run
  have hc := h.closed
  cases hs : State.start.run t with
  | code n =>
    rw [hs] at hn
    exact ⟨n, hn, rfl⟩
  | string quote escaped depth =>
    rw [hs] at hc
    cases hc

theorem of_plain (h : ∀ c ∈ t, isStructural c = false) : Steady t := by
  refine ⟨fun u hu => ?_, ?_⟩
  · have := State.run_code_of_plain (fun c hc => h c (hu.subset hc)) 0
    rw [State.start, this]
    exact Int.le_refl 0
  · rw [State.start, State.run_code_of_plain h 0]
    rfl

theorem append (ht : Steady t) (hu : Steady u) : Steady (t ++ u) := by
  obtain ⟨n, hn, hrun⟩ := ht.run_start
  rw [← State.raise_start] at hrun
  refine ⟨State.nonnegOn_append.mpr ⟨ht.nonneg, ?_⟩, ?_⟩
  · rw [hrun]
    exact hu.nonneg.raise hn
  · rw [State.run_append, hrun, State.run_raise, State.inString_raise, hu.closed]

theorem parens (h : Steady t) : Steady ('(' :: t ++ [')']) := by
  obtain ⟨n, hn, hrun⟩ := h.run_start
  have hopen : State.start.step '(' = State.start.raise 1 := rfl
  have hinner : (State.start.raise 1).run t = .code (n + 1) := by
    rw [State.run_raise, hrun]
    rfl
  have hclose : (State.code (n + 1)).step ')' = .code n := by
    simp [State.step, isQuote, isOpener, isCloser]
  refine ⟨?_, ?_⟩
  · rw [List.cons_append, State.nonnegOn_cons, State.nonnegOn_append, hopen, hinner,
      State.nonnegOn_cons, hclose, State.nonnegOn_nil]
    exact ⟨Int.le_refl 0, h.nonneg.raise (by decide), Int.add_nonneg hn (by decide), hn⟩
  · rw [List.cons_append, State.run_cons, State.run_append, hopen, hinner, State.run_cons, hclose]
    rfl

theorem trim (h : Steady t) : Steady t.trim := by
  obtain ⟨l, r, hl, hr, ht⟩ := exists_eq_append_trim t
  have hrun : State.start.run l = .start := State.run_code_of_isBlank hl 0
  refine ⟨?_, ?_⟩
  · have hn := h.nonneg
    rw [ht, State.nonnegOn_append, State.nonnegOn_append, hrun] at hn
    exact hn.2.1
  · have hc := h.closed
    rw [ht, State.run_append, State.run_append, hrun] at hc
    rwa [(State.valid_run_start _).inString_run hr] at hc

/-- Both sides of a cut are steady. -/
theorem of_cut {x y : Text} (h : Steady t) (cut : CutAt d .start t x y) : Steady x ∧ Steady y := by
  have hd : State.start.step d.char = .start := step_of_separates cut.separates
  have hn := h.nonneg
  have hc := h.closed
  rw [cut.eq, State.nonnegOn_append, cut.run_before] at hn
  rw [cut.eq, State.run_append, cut.run_before, State.run_cons, hd] at hc
  refine ⟨⟨hn.1, by rw [cut.run_before]; rfl⟩, ⟨?_, hc⟩⟩
  have hy : State.start.NonnegOn ([d.char] ++ y) := hn.2
  rw [State.nonnegOn_append, State.run_cons, hd] at hy
  exact hy.2

theorem of_mem_split (h : Steady t) : ∀ p ∈ split d t, Steady p := by
  suffices ∀ s, s = .start → ∀ t, Steady t → ∀ p ∈ splitFrom d s t, Steady p from this .start rfl t h
  intro s hs t
  induction s, t using split_induction (d := d) with
  | whole s t hw =>
    intro h p hp
    rw [splitFrom_of_whole hw, List.mem_singleton] at hp
    rwa [hp]
  | cut s t x y cut ih =>
    subst hs
    intro h p hp
    obtain ⟨hx, hy⟩ := h.of_cut cut
    rw [splitFrom_of_cut cut] at hp
    rcases List.mem_cons.mp hp with rfl | hp
    · exact hx
    · exact ih rfl hy p hp

/-- A steady text in parentheses is whole. -/
theorem whole_parens (h : Steady t) {n : Int} (hn : 0 ≤ n) :
    Whole d (.code n) ('(' :: t ++ [')']) := by
  obtain ⟨m, hm, hrun⟩ := h.run_start
  have hopen : (State.code n).run ['('] = State.start.raise (n + 1) := by
    simp [State.step, isQuote, isOpener, State.raise_start]
  have hinner : Whole d (State.start.raise (n + 1)) t := by
    refine whole_of_depth_ne_zero fun u v hu _ => ?_
    have := h.nonneg u ⟨v, hu.symm⟩
    rw [State.run_raise, State.depth_raise]
    omega
  have hleft : isStructural '(' = true := by decide
  have hright : isStructural ')' = true := by decide
  exact (whole_singleton_of_isStructural hleft).append
    (hopen ▸ hinner.append (whole_singleton_of_isStructural hright))

end Steady

end PipeBlocks.Scan
