import PipeBlocks.Proofs.Count
import PipeBlocks.Proofs.Scan.Scanner
import PipeBlocks.Scan.Slices

/-! Splitting by byte positions.

What a scanner finds are the offsets of the text it has to read (`found_standing`), and each of them
stands behind the text that was given out and the piece before it. So no slice between them goes
wrong, and the slices are the pieces (`slicesFrom?_offsetsFrom`). The pieces are whole, so none of
them is split any further, and between them stands nothing but the delimiter
(`split_lossless_final`). -/
namespace PipeBlocks.Scan
open Text

variable {d : Delimiter} {s : State}

/-! ### What is found -/

namespace Scanner

theorem found_of_next_none {sc sc' : Scanner} (h : sc.next = (none, sc')) : sc.found = [] := by
  rw [found]
  split
  · rfl
  · rename_i heq
    rw [h] at heq
    cases heq

theorem found_of_next_some {sc sc' : Scanner} {o : Nat} (h : sc.next = (some o, sc')) :
    sc.found = o :: sc'.found := by
  rw [found]
  split
  · rename_i heq
    rw [h] at heq
    cases heq
  · rename_i heq
    rw [h] at heq
    cases heq
    rfl

theorem found_standing (hv : s.Valid) (given t : Text) :
    (standing d given t s).found = offsetsFrom d given.byteLength s t := by
  induction s, t using split_induction (d := d) generalizing given with
  | whole s t h => rw [found_of_next_none (next_of_whole hv h), offsetsFrom_of_whole h]
  | cut s t x y cut ih =>
    have hpos : (given ++ x ++ [d.char]).byteLength =
        given.byteLength + x.byteLength + d.char.utf8Size := by simp [Nat.add_assoc]
    rw [found_of_next_some (next_of_cut hv cut), offsetsFrom_of_cut cut, ih State.valid_start, hpos]

theorem found_ofText (d : Delimiter) (t : Text) : (ofText d t).found = offsets d t :=
  found_standing State.valid_start [] t

end Scanner

/-! ### Slices -/

section Slices
variable {t x y : Text}

/-- The next piece begins one byte behind a separator. -/
theorem CutAt.byteLength_behind (cut : CutAt d s t x y) (given : Text) :
    given.byteLength + x.byteLength + 1 = (given ++ x ++ [d.char]).byteLength ∧
      given ++ t = given ++ x ++ [d.char] ++ y := by
  refine ⟨?_, by rw [cut.eq]; simp⟩
  rw [byteLength_concat_of_isAscii d.isAscii, byteLength_append]

/-- The slice up to a separator is what stands before it. -/
theorem CutAt.slice?_before (cut : CutAt d s t x y) (given : Text) :
    (given ++ t).slice? given.byteLength (given.byteLength + x.byteLength) = some x := by
  rw [cut.eq, ← List.append_assoc]
  exact slice?_middle given x _

/-- The slice behind a separator is what stands after it. -/
theorem CutAt.dropBytes?_behind (cut : CutAt d s t x y) (given : Text) :
    (given ++ t).dropBytes? (given.byteLength + x.byteLength + 1) = some y := by
  obtain ⟨hpos, ht⟩ := cut.byteLength_behind given
  rw [hpos, ht]
  exact dropBytes?_append _ y

/-- No slice goes wrong, and the slices are the pieces. -/
theorem slicesFrom?_offsetsFrom (given t : Text) :
    slicesFrom? (given ++ t) given.byteLength (offsetsFrom d given.byteLength s t) =
      some (splitFrom d s t) := by
  induction s, t using split_induction (d := d) generalizing given with
  | whole s t h =>
    rw [offsetsFrom_of_whole h, splitFrom_of_whole h, slicesFrom?, dropBytes?_append]
    rfl
  | cut s t x y cut ih =>
    obtain ⟨hpos, ht⟩ := cut.byteLength_behind given
    have hrest := ih (given ++ x ++ [d.char])
    rw [← ht, ← hpos] at hrest
    rw [offsetsFrom_of_cut cut, splitFrom_of_cut cut, slicesFrom?, if_pos (Nat.le_add_right ..),
      cut.slice?_before, utf8Size_of_isAscii d.isAscii, hrest]
    rfl

end Slices

theorem slices?_eq (d : Delimiter) (t : Text) : slices? d t = some (split d t) := by
  unfold slices?
  rw [Scanner.found_ofText]
  exact slicesFrom?_offsetsFrom [] t

theorem sliceOnce?_eq (d : Delimiter) (t : Text) : sliceOnce? d t = some (splitOnce? d t) := by
  unfold sliceOnce? splitOnce?
  rw [Scanner.ofText_eq]
  rcases whole_or_cut d .start t with h | ⟨x, y, cut⟩
  · rw [Scanner.next_of_whole State.valid_start h, h]
  · have hbefore := cut.slice?_before []
    have hbehind := cut.dropBytes?_behind []
    rw [List.nil_append, byteLength_nil, Nat.zero_add] at hbefore hbehind
    rw [Scanner.next_of_cut State.valid_start cut, splitOnceFrom_eq_some_iff.mpr cut,
      byteLength_nil, Nat.zero_add]
    simp [hbefore, hbehind]

/-- **Splitting loses nothing and is final.** Cutting a text by the byte positions that a scanner finds
never goes wrong: no slice is taken backwards, out of range or through a character, neither for all
separators nor for the first one alone. The pieces with the delimiter between them are the text
again, there is one more of them than positions were found, and each piece is all there is of it
when it is split itself. -/
theorem split_lossless_final (d : Delimiter) (t : Text) :
    (slices? d t = some (split d t) ∧ sliceOnce? d t = some (splitOnce? d t)) ∧
    join [d.char] (split d t) = t ∧
    (split d t).length = (Scanner.ofText d t).found.length + 1 ∧
    ∀ p ∈ split d t, split d p = [p] := by
  refine ⟨⟨slices?_eq d t, sliceOnce?_eq d t⟩, join_splitFrom d .start t, ?_, fun p hp => ?_⟩
  · rw [Scanner.found_ofText]
    exact length_splitFrom 0 .start t
  · exact splitFrom_of_whole (whole_of_mem_split p hp)

/-- The third pipe of a run separates, and the piece before it keeps the other two. -/
example : slices? .pipe "é|||b".toList = some ["é||".toList, "b".toList] ∧
    slices? .pipe "é||".toList = some ["é||".toList] := by decide +kernel

end PipeBlocks.Scan
