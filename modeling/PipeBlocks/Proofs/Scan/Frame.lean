import PipeBlocks.Proofs.Scan.Trimmed

/-! Texts with a place left open.

A text is *solid* if a scan outside strings passes over it as over a single character of no
meaning: it leaves the scan where it was, nothing separates in it, and trimming stops at it. A
string literal is solid, whatever its body holds (`solid_literal`). A `Frame` is a text with a place
for a solid one. If that place is outside strings, then whatever fills it the text is cut in the
same places: one piece is a frame of its own, filled with the same text, and the others are the same
for all (`Frame.exists_split`). -/
namespace PipeBlocks.Scan
open Text

variable {d : Delimiter} {m : Text}

/-- A text that a scan passes over. -/
structure Solid (m : Text) : Prop where
  run : ∀ n, (State.code n).run m = .code n
  whole : ∀ d n, Whole d (.code n) m
  ne_nil : m ≠ []
  head : ∀ c, m.head? = some c → isSpace c = false ∧ c ≠ '|'
  last : ∀ c, m.getLast? = some c → isSpace c = false

/-! ### Literals -/

/-- A quote, a body and the quote again. -/
def literal (q : Char) (body : Text) : Text := q :: body ++ [q]

variable {q : Char} {w : Text}

/-- What neither ends a string nor hides a character stands in the string. -/
theorem run_string (hquote : q ∉ w) (hescape : '\\' ∉ w) (n : Int) :
    (State.string q false n).run w = .string q false n := by
  induction w with
  | nil => rfl
  | cons c r ih =>
    have hstep : (State.string q false n).step c = .string q false n := by
      have hc : c ≠ '\\' := fun h => hescape (by rw [h]; exact List.mem_cons_self ..)
      have hq : c ≠ q := fun h => hquote (by rw [h]; exact List.mem_cons_self ..)
      simp [State.step, hc, hq]
    rw [State.run_cons, hstep,
      ih (fun h => hquote (List.mem_cons_of_mem c h)) fun h => hescape (List.mem_cons_of_mem c h)]

/-- Nothing separates in a string. -/
theorem whole_string (hquote : q ∉ w) (hescape : '\\' ∉ w) (n : Int) :
    Whole d (.string q false n) w := by
  suffices ∀ u v, w = u ++ v → (State.string q false n).run u ≠ .start by
    rcases whole_or_cut d (.string q false n) w with h | ⟨x, y, cut⟩
    · exact h
    · exact absurd cut.run_before (this x _ cut.eq)
  rintro u v rfl h
  rw [run_string (fun hu => hquote (List.mem_append_left v hu))
    fun hu => hescape (List.mem_append_left v hu)] at h
  cases h

theorem isSpace_of_isQuote (hq : isQuote q = true) : isSpace q = false := by
  rw [Bool.eq_false_iff]
  intro hs
  have := isStructural_of_isSpace hs
  rw [isStructural_of_isQuote hq] at this
  cases this

/-- A string literal is passed over as a whole. -/
theorem solid_literal (hq : isQuote q = true) (hquote : q ∉ w) (hescape : '\\' ∉ w) :
    Solid (literal q w) := by
  have hopen (n : Int) : (State.code n).step q = .string q false n := by simp [State.step, hq]
  have hclose (n : Int) : (State.string q false n).step q = .code n := by
    have hne : q ≠ '\\' := by
      rintro rfl
      exact absurd hq (by decide)
    simp [State.step, hne]
  have hmark (d : Delimiter) (s : State) : Whole d s [q] :=
    whole_singleton_of_isStructural (isStructural_of_isQuote hq)
  refine ⟨fun n => ?_, fun d n => ?_, by simp [literal], fun c hc => ?_, fun c hc => ?_⟩
  · rw [literal, List.cons_append, State.run_cons, hopen, State.run_append,
      run_string hquote hescape, State.run_cons, hclose, State.run_nil]
  · have hbody : Whole d (.string q false n) (w ++ [q]) :=
      (whole_string hquote hescape n).append (hmark d _)
    have hrun : (State.code n).run [q] = .string q false n := hopen n
    exact (hmark d _).append (by rw [hrun]; exact hbody)
  · obtain rfl : q = c := by simpa [literal] using hc
    refine ⟨isSpace_of_isQuote hq, ?_⟩
    rintro rfl
    exact absurd hq (by decide)
  · rw [literal, List.getLast?_concat, Option.some.injEq] at hc
    rw [← hc]
    exact isSpace_of_isQuote hq

/-! ### Frames -/

/-- A text with a place left open between `left` and `right`. -/
structure Frame where
  left : Text
  right : Text

namespace Frame
variable {f : Frame}

def fill (f : Frame) (m : Text) : Text := f.left ++ m ++ f.right

/-- The place is outside strings. -/
def Outside (f : Frame) : Prop := ∃ n, State.start.run f.left = .code n

theorem outside_of_closed (h : leavesStringOpen f.left = false) : f.Outside := by
  unfold leavesStringOpen at h
  cases hs : State.start.run f.left with
  | code n => exact ⟨n, hs⟩
  | string quote escaped depth =>
    rw [hs] at h
    cases h

/-- Whether a string is left open does not depend on what fills the place. -/
theorem Outside.exists_leavesStringOpen (hf : f.Outside) :
    ∃ left, ∀ m, Solid m → leavesStringOpen (f.fill m) = left := by
  obtain ⟨n, hn⟩ := hf
  refine ⟨((State.code n).run f.right).inString, fun m hm => ?_⟩
  rw [leavesStringOpen, fill, State.run_append, State.run_append, hn, hm.run]

/-- Whatever fills the place, the text is whole, or it is first cut before the place or behind it. -/
theorem Outside.whole_or_cut (d : Delimiter) (hf : f.Outside) :
    (∀ m, Solid m → Whole d .start (f.fill m)) ∨
    (∃ x y, y.length < f.left.length ∧ Outside ⟨y, f.right⟩ ∧
      ∀ m, Solid m → CutAt d .start (f.fill m) x (fill ⟨y, f.right⟩ m)) ∨
    ∃ x y, ∀ m, Solid m → CutAt d .start (f.fill m) (fill ⟨f.left, x⟩ m) y := by
  obtain ⟨n, hn⟩ := hf
  rcases Scan.whole_or_cut d .start f.left with hleft | ⟨x, y, cut⟩
  · have hrun (m : Text) (hm : Solid m) : State.start.run (f.left ++ m) = .code n := by
      rw [State.run_append, hn, hm.run]
    have hwhole (m : Text) (hm : Solid m) : Whole d .start (f.left ++ m) :=
      hleft.append (by rw [hn]; exact hm.whole d n)
    rcases Scan.whole_or_cut d (.code n) f.right with hright | ⟨x, y, cut⟩
    · exact .inl fun m hm => (hwhole m hm).append (by rw [hrun m hm]; exact hright)
    · refine .inr (.inr ⟨x, y, fun m hm => ?_⟩)
      exact .append_left (hwhole m hm) (by rw [hrun m hm]; exact cut)
  · refine .inr (.inl ⟨x, y, ?_, ⟨n, by rw [← hn, cut.run]⟩, fun m hm => ?_⟩)
    · rw [cut.eq, List.length_append, List.length_cons]
      omega
    · have hbar : (m ++ f.right).head? ≠ some '|' := by
        rw [List.head?_append, List.head?_eq_some_head hm.ne_nil]
        intro h
        exact (hm.head _ (List.head?_eq_some_head hm.ne_nil)).2 (Option.some.inj h)
      have := cut.append fun _ _ => hbar
      rwa [← List.append_assoc, ← List.append_assoc] at this

/-- Cut at its separators, a filled frame has one piece that is a filled frame, and the other pieces
are the same whatever fills it. -/
theorem Outside.exists_split (d : Delimiter) (hf : f.Outside) :
    ∃ before, ∃ g : Frame, ∃ after, g.Outside ∧
      ∀ m, Solid m → split d (f.fill m) = before ++ g.fill m :: after := by
  -- By the length of what stands before the place, which a cut before it shortens.
  induction hlength : f.left.length using Nat.strongRecOn generalizing f with
  | _ n ih =>
    rcases hf.whole_or_cut d with h | ⟨x, y, hlt, hy, h⟩ | ⟨x, y, h⟩
    · exact ⟨[], f, [], hf, fun m hm => splitFrom_of_whole (h m hm)⟩
    · obtain ⟨before, g, after, hg, hsplit⟩ := ih y.length (by omega) hy rfl
      refine ⟨x :: before, g, after, hg, fun m hm => ?_⟩
      rw [split, splitFrom_of_cut (h m hm), hsplit m hm]
      rfl
    · exact ⟨[], ⟨f.left, x⟩, split d y, hf, fun m hm => splitFrom_of_cut (h m hm)⟩

/-! ### Trimmed frames -/

/-- White space is trimmed before the place and behind it. -/
def trim (f : Frame) : Frame := ⟨trimStart f.left, trimEnd f.right⟩

theorem trim_fill (hm : Solid m) : (f.fill m).trim = f.trim.fill m :=
  trim_around hm.ne_nil (fun c hc => (hm.head c hc).1) hm.last f.left f.right

theorem Outside.trim (hf : f.Outside) : f.trim.Outside := by
  obtain ⟨n, hn⟩ := hf
  have hblank : Text.isBlank (f.left.takeWhile isSpace) = true := by simp [isBlank]
  have hleft := List.takeWhile_append_dropWhile (p := isSpace) (l := f.left)
  rw [← hleft, State.run_append, State.start, State.run_code_of_isBlank hblank] at hn
  exact ⟨n, hn⟩

theorem fill_ne_nil (hm : Solid m) : f.fill m ≠ [] := by simp [fill, hm.ne_nil]

theorem isBlank_fill (hm : Solid m) : (f.fill m).isBlank = false := by
  rw [Bool.eq_false_iff, ne_eq, ← trim_eq_nil_iff, trim_fill hm]
  exact fill_ne_nil hm

end Frame

end PipeBlocks.Scan
