import PipeBlocks.Proofs.Document.Located
import PipeBlocks.Expander

/-! What a document expands to.

Code, records and events are each gathered from the segments (`Expander.expand_eq`). A block is
replaced if it is complete and can be written as calls (`Block.Replaced`); a complete block that
cannot is reported, and all else is silent and stays as written. -/
namespace PipeBlocks
open Text Scan

/-! ### The parts of an expansion -/

namespace Options

def codeOf (o : Options) : Segment → Text := fun s => (o.contribution [] s).code

def recordsOf (o : Options) : Segment → List Record := fun s => (o.contribution [] s).replacements

def eventsOf (o : Options) (filename : Text) : Segment → List Event :=
  fun s => (o.contribution filename s).events

end Options

variable {o : Options} {b : Block}

theorem textAdditive_code : TextAdditive o.codeOf := fun _ _ => rfl

theorem textAdditive_records : TextAdditive o.recordsOf := fun _ _ => rfl

theorem textAdditive_events (filename : Text) : TextAdditive (o.eventsOf filename) := fun _ _ => rfl

/-- The file name only appears in the events. -/
theorem Options.contribution_eq (o : Options) (filename : Text) (s : Segment) :
    o.contribution filename s = ⟨o.codeOf s, o.recordsOf s, o.eventsOf filename s⟩ := by
  unfold codeOf recordsOf eventsOf contribution
  cases s with
  | text t => rfl
  | block b =>
    dsimp only
    split
    · split
      · split <;> rfl
      · rfl
    · rfl

theorem Expander.expand_eq {p : Expander} {filename : Text}
    (h : p.exclusions.firstMatch? filename = none) (document : Text) :
    p.expand document filename =
      { code := gather p.options.codeOf 0 document
        replacements := gather p.options.recordsOf 0 document
        events := (if p.options.debug then [.processing filename] else []) ++
          gather (p.options.eventsOf filename) 0 document } := by
  unfold expand
  rw [h]
  simp only [List.flatMap_map, Options.contribution_eq, gather, segments]

theorem expand_eq (document : Text) (o : Options) :
    expand document o = gather o.codeOf 0 document := by
  unfold expand
  rw [Expander.expand_eq rfl]
  rfl

/-! ### Moving a document -/

/-- The record of the same block, `k` bytes further on. -/
def Record.shift (k : Nat) (r : Record) : Record := { r with offset := r.offset + k }

/-- The event for the same block, `k` bytes further on. -/
def Event.shift (k : Nat) : Event → Event
  | .unchanged filename offset block error => .unchanged filename (offset + k) block error
  | e => e

def Contribution.shift (k : Nat) (c : Contribution) : Contribution :=
  { c with replacements := c.replacements.map (Record.shift k), events := c.events.map (Event.shift k) }

/-- A moved segment contributes the same, but for the offsets. -/
theorem Options.contribution_shift (o : Options) (filename : Text) (k : Nat) (s : Segment) :
    o.contribution filename (s.shift k) = (o.contribution filename s).shift k := by
  cases s with
  | text t => rfl
  | block b =>
    have hc : Block.isComplete { b with start := b.start + k } = b.isComplete := rfl
    have hr : Block.replacement { b with start := b.start + k } o.namePrefix =
        b.replacement o.namePrefix := rfl
    simp only [Segment.shift, contribution, hc, hr]
    cases b.isComplete with
    | false => rfl
    | true =>
      cases b.replacement o.namePrefix with
      | ok after => cases o.debug <;> rfl
      | error e => rfl

theorem codeOf_shift (o : Options) (k : Nat) (s : Segment) : o.codeOf (s.shift k) = o.codeOf s := by
  unfold Options.codeOf
  rw [Options.contribution_shift]
  rfl

theorem recordsOf_shift (o : Options) (k : Nat) (s : Segment) :
    o.recordsOf (s.shift k) = (o.recordsOf s).map (Record.shift k) :=
  congrArg Contribution.replacements (o.contribution_shift [] k s)

theorem eventsOf_shift (o : Options) (filename : Text) (k : Nat) (s : Segment) :
    o.eventsOf filename (s.shift k) = (o.eventsOf filename s).map (Event.shift k) :=
  congrArg Contribution.events (o.contribution_shift filename k s)

/-- The code does not depend on where the document stands. -/
theorem gather_codeOf_add (o : Options) (pos k : Nat) (document : Text) :
    gather o.codeOf (pos + k) document = gather o.codeOf pos document := by
  rw [gather_add textAdditive_code]
  simp only [codeOf_shift]

theorem gather_recordsOf_add (o : Options) (pos k : Nat) (document : Text) :
    gather o.recordsOf (pos + k) document = (gather o.recordsOf pos document).map (Record.shift k) :=
  gather_add_map textAdditive_records (recordsOf_shift o k) pos document

theorem gather_eventsOf_add (o : Options) (filename : Text) (pos k : Nat) (document : Text) :
    gather (o.eventsOf filename) (pos + k) document =
      (gather (o.eventsOf filename) pos document).map (Event.shift k) :=
  gather_add_map (textAdditive_events filename) (eventsOf_shift o filename k) pos document

/-! ### What a block contributes -/

theorem codeOf_replaced {after : Text} (h : b.Replaced o.namePrefix after) :
    o.codeOf (.block b) = after := by
  unfold Options.codeOf Options.contribution
  simp only [h.complete, h.replacement, if_true]
  split <;> rfl

theorem recordsOf_replaced {after : Text} (h : b.Replaced o.namePrefix after) :
    o.recordsOf (.block b) = if o.debug then [⟨b.raw, after, b.start⟩] else [] := by
  unfold Options.recordsOf Options.contribution
  simp only [h.complete, h.replacement, if_true]
  split <;> rfl

theorem eventsOf_replaced {after : Text} (h : b.Replaced o.namePrefix after) (filename : Text) :
    o.eventsOf filename (.block b) = if o.debug then [.replaced b.raw after] else [] := by
  unfold Options.eventsOf Options.contribution
  simp only [h.complete, h.replacement, if_true]
  split <;> rfl

/-- A block that is not replaced stays as written and leaves no record. -/
theorem contribution_of_not_replaced (h : ∀ after, ¬ b.Replaced o.namePrefix after) :
    o.codeOf (.block b) = b.raw ∧ o.recordsOf (.block b) = [] := by
  unfold Options.codeOf Options.recordsOf Options.contribution
  dsimp only
  split
  · rename_i hc
    split
    · rename_i after hr
      exact absurd ⟨hc, hr⟩ (h after)
    · exact ⟨rfl, rfl⟩
  · exact ⟨rfl, rfl⟩

/-- A span is replaced by calls, or it stays as written, leaves no record and is replaced nowhere
and under no prefix. -/
theorem replaced_or_kept (o : Options) (pos : Nat) (t : Text) :
    (∃ x y, CutAt .pipe .start t x y ∧ leavesStringOpen t = false ∧ stages y ≠ [] ∧
      Block.Replaced ⟨braced t, x.trim, y.trim, pos⟩ o.namePrefix
        (braced (nest o.namePrefix x.trim (stages y)))) ∨
    (o.codeOf (spanSegment pos t) = braced t ∧ o.recordsOf (spanSegment pos t) = [] ∧
      ∀ pos' b, Block.parse? (braced t) pos' = some b →
        ∀ namePrefix after, ¬ b.Replaced namePrefix after) := by
  rcases whole_or_cut .pipe .start t with hw | ⟨x, y, cut⟩
  · right
    rw [spanSegment_of_whole hw]
    refine ⟨rfl, rfl, fun pos' b hb => ?_⟩
    rw [Block.parse?_braced_of_whole hw] at hb
    cases hb
  · rcases Block.replaced_or_not ⟨braced t, x.trim, y.trim, pos⟩ o.namePrefix with ⟨after, h⟩ | h
    · obtain ⟨-, hclosed, hne, -, rfl⟩ := Block.replaced_iff.mp h
      exact .inl ⟨x, y, cut, hclosed, hne, h⟩
    · right
      obtain ⟨hcode, hrecords⟩ := contribution_of_not_replaced h
      rw [spanSegment_of_cut cut]
      refine ⟨hcode, hrecords, fun pos' b hb namePrefix after hr => ?_⟩
      rw [Block.parse?_braced_of_cut cut, Option.some.injEq] at hb
      rw [← hb] at hr
      obtain ⟨after', h'⟩ := Block.replaced_congr pos o.namePrefix hr
      exact h after' h'

theorem eventsOf_failed {e : CallError} (hc : b.isComplete = true)
    (he : b.replacement o.namePrefix = .error e) (filename : Text) :
    o.eventsOf filename (.block b) = [.unchanged filename b.start b.raw e] := by
  unfold Options.eventsOf Options.contribution
  simp only [hc, he, if_true]

theorem eventsOf_incomplete (hc : b.isComplete = false) (filename : Text) :
    o.eventsOf filename (.block b) = [] := by
  unfold Options.eventsOf Options.contribution
  simp only [hc, Bool.false_eq_true, if_false]

/-- An event tells that a block was replaced, or why a complete one was not. -/
theorem cases_of_mem_eventsOf {filename : Text} {e : Event} (h : e ∈ o.eventsOf filename (.block b)) :
    (∃ after, b.Replaced o.namePrefix after ∧ e = .replaced b.raw after) ∨
    ∃ cause, b.isComplete = true ∧ b.replacement o.namePrefix = .error cause ∧
      e = .unchanged filename b.start b.raw cause := by
  cases hc : b.isComplete with
  | false =>
    rw [eventsOf_incomplete hc] at h
    cases h
  | true =>
    cases hr : b.replacement o.namePrefix with
    | ok after =>
      rw [eventsOf_replaced ⟨hc, hr⟩] at h
      split at h
      · exact .inl ⟨after, ⟨hc, hr⟩, List.mem_singleton.mp h⟩
      · cases h
    | error cause =>
      rw [eventsOf_failed hc hr, List.mem_singleton] at h
      exact .inr ⟨cause, rfl, rfl, h⟩

end PipeBlocks
