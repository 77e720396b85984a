import PipeBlocks.Proofs.Document.Located
import Mathlib.Data.List.Chain

/-! The segments of a document.

Segments are the document cut into pieces: put together they are the document (`gather_raw`), no
piece of text is empty and no two of them are neighbours (`wellCut_segmentsFrom`). -/
namespace PipeBlocks
open Text

/-! ### Nothing is lost -/

theorem textAdditive_raw : TextAdditive Segment.raw := fun _ _ => rfl

theorem raw_spanSegment (pos : Nat) (t : Text) : (spanSegment pos t).raw = braced t := by
  rcases Scan.whole_or_cut .pipe .start t with h | ⟨x, y, cut⟩
  · rw [spanSegment_of_whole h]
    rfl
  · rw [spanSegment_of_cut cut]
    rfl

theorem gather_raw (pos : Nat) (document : Text) : gather Segment.raw pos document = document := by
  induction document using document_induction generalizing pos with
  | nil => exact gather_nil pos
  | loose c r hs ih =>
    rw [gather_loose textAdditive_raw pos hs, ih]
    rfl
  | span t rest ht ih => rw [gather_braced textAdditive_raw pos ht, raw_spanSegment, ih]

/-! ### Texts among the segments -/

def Segment.isText : Segment → Bool
  | .text _ => true
  | .block _ => false

/-- No text is empty, and no two texts are neighbours. -/
structure WellCut (l : List Segment) : Prop where
  filled : ∀ t, .text t ∈ l → t ≠ []
  apart : l.IsChain fun s s' => ¬ (s.isText = true ∧ s'.isText = true)

namespace WellCut
variable {l : List Segment}

theorem nil : WellCut [] := ⟨fun _ h => (List.not_mem_nil h).elim, .nil⟩

theorem cons_block (h : WellCut l) (b : Block) : WellCut (.block b :: l) := by
  refine ⟨fun t ht => ?_, h.apart.cons fun s _ hs => ?_⟩
  · rcases List.mem_cons.mp ht with ht | ht
    · cases ht
    · exact h.filled t ht
  · cases hs.1

/-- Text in front joins a text that is there, and else stands before a block. -/
theorem prependText (h : WellCut l) {t : Text} (ht : t ≠ []) : WellCut (Segment.prependText t l) := by
  unfold Segment.prependText
  split
  · rename_i u rest
    refine ⟨fun v hv => ?_, h.apart.tail.cons fun s hs => ?_⟩
    · rcases List.mem_cons.mp hv with hv | hv
      · obtain rfl : v = t ++ u := by simpa using hv
        simp [ht]
      · exact h.filled v (List.mem_cons_of_mem _ hv)
    · exact (List.isChain_cons.mp h.apart).1 s hs
  · rename_i hl
    refine ⟨fun v hv => ?_, h.apart.cons fun s hs => ?_⟩
    · rcases List.mem_cons.mp hv with hv | hv
      · obtain rfl : v = t := by simpa using hv
        exact ht
      · exact h.filled v hv
    · obtain ⟨rest, rfl⟩ := List.head?_eq_some_iff.mp hs
      cases s with
      | text u => exact absurd rfl (hl u rest)
      | block b => simp [Segment.isText]

end WellCut

theorem wellCut_segmentsFrom (pos : Nat) (document : Text) : WellCut (segmentsFrom pos document) := by
  induction document using document_induction generalizing pos with
  | nil =>
    rw [segmentsFrom]
    exact .nil
  | loose c r hs ih =>
    rw [segmentsFrom_loose pos hs]
    exact (ih _).prependText (by simp)
  | span t rest ht ih =>
    rw [segmentsFrom_braced pos ht]
    cases Block.parse? (braced t) pos with
    | some b => exact (ih _).cons_block b
    | none => exact (ih _).prependText (by simp [braced])

end PipeBlocks
