import PipeBlocks.Scan.Scanner

/-! Cutting a text by byte positions.

A scanner gives the bytes at which the separators of a text stand, and the pieces are the slices
between them. The delimiter is ASCII, so the next piece begins one byte further on. There is no
result if a slice is taken backwards or out of range, or if one of its ends cuts a character. -/
namespace PipeBlocks.Scan

namespace Scanner

/-- A call that finds something has read on. -/
theorem bounds_of_next {s s' : Scanner} {o : Nat} (h : s.next = (some o, s')) :
    s'.bytes = s.bytes ∧ s.pos < s'.pos ∧ s.pos < s.bytes.length := by
  fun_induction next s with
  | case1 => cases h
  | case2 s b hb hlt _ _ ih =>
    obtain ⟨hbytes, hpos, -⟩ := ih h
    dsimp only at hbytes hpos
    exact ⟨hbytes, by omega, hlt⟩
  | case3 s b hb hlt _ _ =>
    obtain ⟨-, rfl⟩ := Prod.mk.inj h
    exact ⟨rfl, Nat.lt_succ_self _, hlt⟩
  | case4 s b hb hlt _ ih =>
    obtain ⟨hbytes, hpos, -⟩ := ih h
    rw [bytes_advance] at hbytes
    rw [pos_advance] at hpos
    exact ⟨hbytes, by omega, hlt⟩

/-- All that is found, up to the first call that finds nothing. -/
def found (s : Scanner) : List Nat :=
  match h : s.next with
  | (none, _) => []
  | (some o, s') =>
    have := bounds_of_next h
    o :: s'.found
termination_by s.bytes.length - s.pos
decreasing_by
  rw [this.1]
  omega

end Scanner

/-- The slices of a text from byte `start` to each of the offsets, and behind the last of them. -/
def slicesFrom? (t : Text) (start : Nat) : List Nat → Option (List Text)
  | [] => do return [← t.dropBytes? start]
  | o :: rest =>
    if start ≤ o then do
      let piece ← t.slice? start o
      return piece :: (← slicesFrom? t (o + 1) rest)
    else none

/-- The slices between the separators that a scanner finds. -/
def slices? (d : Delimiter) (t : Text) : Option (List Text) :=
  slicesFrom? t 0 (Scanner.ofText d t).found

/-- The slices before and after the first separator, if a scanner finds one. -/
def sliceOnce? (d : Delimiter) (t : Text) : Option (Option (Text × Text)) :=
  match (Scanner.ofText d t).next.1 with
  | none => some none
  | some o => do return some (← t.slice? 0 o, ← t.dropBytes? (o + 1))

end PipeBlocks.Scan
