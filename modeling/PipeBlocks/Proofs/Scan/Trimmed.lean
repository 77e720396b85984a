import PipeBlocks.Proofs.Scan.Split
import PipeBlocks.Proofs.Scan.State

/-! Splitting a trimmed text.

White space is neither a delimiter nor of any meaning to the scan, so trimming a text before it is
split moves no cut: the trimmed pieces are the same (`map_trim_split_trim`,
`map_trim_splitOnce?_trim`). This is why pieces may be trimmed between one split and the next. -/
namespace PipeBlocks.Scan
open Text

variable {d : Delimiter} {s : State}

theorem whole_of_isBlank (hd : isSpace d.char = false) {w : Text} (h : w.isBlank = true) :
    Whole d s w :=
  whole_of_not_mem (not_mem_of_isBlank h hd)

theorem head?_ne_of_isBlank {c : Char} (hc : isSpace c = false) {w : Text} (h : w.isBlank = true) :
    w.head? ≠ some c := by
  intro hw
  obtain ⟨r, rfl⟩ := List.head?_eq_some_iff.mp hw
  exact not_mem_of_isBlank h hc (List.mem_cons_self ..)

theorem Whole.trim (hd : isSpace d.char = false) {t : Text} (h : Whole d .start t) :
    Whole d .start t.trim := by
  obtain ⟨l, r, hl, hr, ht⟩ := exists_eq_append_trim t
  have hrun : State.start.run l = .start := State.run_code_of_isBlank hl 0
  rw [ht] at h
  have := h.of_append_right (whole_of_isBlank hd hl)
  rw [hrun] at this
  exact this.of_append_left fun _ => head?_ne_of_isBlank (by decide) hr

/-! ### Trimmed pieces -/

theorem map_trim_splitFrom_append_right (hd : isSpace d.char = false) {w : Text}
    (hw : w.isBlank = true) (s : State) (t : Text) :
    (splitFrom d s (t ++ w)).map trim = (splitFrom d s t).map trim := by
  induction s, t using split_induction (d := d) with
  | whole s t h =>
    rw [splitFrom_of_whole h, splitFrom_of_whole (h.append (whole_of_isBlank hd hw)),
      List.map_singleton, trim_append_right hw, List.map_singleton]
  | cut s t x y h ih =>
    rw [splitFrom_of_cut h, splitFrom_of_cut (h.append fun _ _ => head?_ne_of_isBlank (by decide) hw),
      List.map_cons, List.map_cons]
    exact congrArg _ ih

theorem map_trim_split_append_left (hd : isSpace d.char = false) {w : Text} (hw : w.isBlank = true)
    (t : Text) : (split d (w ++ t)).map trim = (split d t).map trim := by
  have hrun : State.start.run w = .start := State.run_code_of_isBlank hw 0
  have hwhole : Whole d .start w := whole_of_isBlank hd hw
  rcases whole_or_cut d .start t with h | ⟨x, y, h⟩
  · have h' : Whole d .start (w ++ t) := hwhole.append (by rw [hrun]; exact h)
    simp [split, splitFrom_of_whole h, splitFrom_of_whole h', trim_append_left hw]
  · have h' : CutAt d .start (w ++ t) (w ++ x) y := .append_left hwhole (by rw [hrun]; exact h)
    simp [split, splitFrom_of_cut h, splitFrom_of_cut h', trim_append_left hw]

/-- Trimming a text does not change its trimmed pieces. -/
theorem map_trim_split_trim (hd : isSpace d.char = false) (t : Text) :
    (split d t.trim).map trim = (split d t).map trim := by
  obtain ⟨l, r, hl, hr, ht⟩ := exists_eq_append_trim t
  conv => rhs; rw [ht]
  rw [map_trim_split_append_left hd hl]
  exact (map_trim_splitFrom_append_right hd hr .start t.trim).symm

/-- Trimming a text does not change the trimmed parts before and after its first cut. -/
theorem map_trim_splitOnce?_trim (hd : isSpace d.char = false) (t : Text) :
    (splitOnce? d t.trim).map (Prod.map trim trim) = (splitOnce? d t).map (Prod.map trim trim) := by
  obtain ⟨l, r, hl, hr, ht⟩ := exists_eq_append_trim t
  have hrun : State.start.run l = .start := State.run_code_of_isBlank hl 0
  have hwhole : Whole d .start l := whole_of_isBlank hd hl
  rcases whole_or_cut d .start t.trim with h | ⟨x, y, h⟩
  · have h' : Whole d .start t := by
      rw [ht]
      exact hwhole.append (by rw [hrun]; exact h.append (whole_of_isBlank hd hr))
    unfold Whole at h h'
    simp only [splitOnce?, h, h']
  · have h' : CutAt d .start t (l ++ x) (y ++ r) := by
      rw [ht]
      exact .append_left hwhole
        (by rw [hrun]; exact h.append fun _ _ => head?_ne_of_isBlank (by decide) hr)
    simp [splitOnce?, splitOnceFrom_eq_some_iff.mpr h, splitOnceFrom_eq_some_iff.mpr h',
      trim_append_left hl, trim_append_right hr]

end PipeBlocks.Scan
