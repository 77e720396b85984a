import PipeBlocks.Proofs.Document.Expansion
import PipeBlocks.Proofs.Text.Slice

/-! Replaying the records of an expansion.

With debugging on, an expansion says which spans it replaced and by what. `replay` copies a
document and puts the new texts in at these places. `replay_replacements` says that the records
are exactly the blocks that can be replaced, in order and apart from one another, and that
replaying them gives the code: outside the recorded spans nothing is lost, moved or changed. -/
namespace PipeBlocks
open Text

def Record.stop (r : Record) : Nat := r.offset + r.before.byteLength

/-- The rest of a document from byte `pos` on, with the records' new texts in place of the old.
There is none if a record begins before `pos` or cuts a character. -/
def replayFrom (document : Text) (pos : Nat) : List Record → Option Text
  | [] => document.slice? pos document.byteLength
  | r :: rest =>
    if pos ≤ r.offset then do
      let kept ← document.slice? pos r.offset
      let following ← replayFrom document r.stop rest
      return kept ++ r.after ++ following
    else none

def replay (document : Text) (records : List Record) : Option Text := replayFrom document 0 records

/-! ### Copying -/

/-- Text that no record touches is copied. -/
theorem replayFrom_text (t u v : Text) {records : List Record}
    (h : ∀ r ∈ records, t.byteLength + u.byteLength ≤ r.offset) :
    replayFrom (t ++ u ++ v) t.byteLength records =
      (replayFrom (t ++ u ++ v) (t ++ u).byteLength records).map (u ++ ·) := by
  cases records with
  | nil =>
    rw [replayFrom, replayFrom, slice?_append t u v]
    simp only [byteLength_append]
    omega
  | cons r rest =>
    have hr := h r (List.mem_cons_self ..)
    have hu : (t ++ u).byteLength ≤ r.offset := by rwa [byteLength_append]
    rw [replayFrom, replayFrom, slice?_append t u v hr, if_pos hu, if_pos (by omega)]
    cases (t ++ u ++ v).slice? (t ++ u).byteLength r.offset <;>
      cases replayFrom (t ++ u ++ v) r.stop rest <;> simp

/-- At a record the new text is put in, and copying goes on behind the old one. -/
theorem replayFrom_record (t u v : Text) {after : Text} {records : List Record} :
    replayFrom (t ++ u ++ v) t.byteLength (⟨u, after, t.byteLength⟩ :: records) =
      (replayFrom (t ++ u ++ v) (t ++ u).byteLength records).map (after ++ ·) := by
  have hself := slice?_self t (u ++ v)
  rw [← List.append_assoc] at hself
  rw [replayFrom, if_pos (Nat.le_refl _), hself, Record.stop, ← byteLength_append]
  cases replayFrom (t ++ u ++ v) (t ++ u).byteLength records <;> simp

/-! ### The records of a document -/

variable {o : Options}

theorem mem_recordsOf_iff (hdebug : o.debug = true) {b : Block} {r : Record} :
    r ∈ o.recordsOf (.block b) ↔
      b.Replaced o.namePrefix r.after ∧ r.before = b.raw ∧ r.offset = b.start := by
  rcases b.replaced_or_not o.namePrefix with ⟨after, h⟩ | h
  · rw [recordsOf_replaced h, hdebug, if_pos rfl, List.mem_singleton]
    constructor
    · rintro rfl
      exact ⟨h, rfl, rfl⟩
    · rintro ⟨h', hb, ho⟩
      rw [h.unique h', ← hb, ← ho]
  · rw [(contribution_of_not_replaced h).2]
    constructor
    · intro hr
      cases hr
    · rintro ⟨h', -⟩
      exact absurd h' (h r.after)

theorem mem_records_iff (hdebug : o.debug = true) {pos : Nat} {document : Text} {r : Record} :
    r ∈ gather o.recordsOf pos document ↔ ∃ b ∈ blocksFrom pos document,
      b.Replaced o.namePrefix r.after ∧ r.before = b.raw ∧ r.offset = b.start := by
  rw [gather_eq_flatMap_blocksFrom (fun _ => rfl), List.mem_flatMap]
  simp only [mem_recordsOf_iff hdebug]

theorem le_offset_of_mem_records (hdebug : o.debug = true) {pos : Nat} {document : Text} :
    ∀ r ∈ gather o.recordsOf pos document, pos ≤ r.offset := by
  intro r hr
  obtain ⟨b, hb, -, -, ho⟩ := (mem_records_iff hdebug).mp hr
  rw [ho]
  exact (bounds_of_mem_blocksFrom hb).1

theorem pairwise_records (hdebug : o.debug = true) (pos : Nat) (document : Text) :
    (gather o.recordsOf pos document).Pairwise fun r r' =>
      r.offset < r'.offset ∧ r.stop ≤ r'.offset := by
  rw [gather_eq_flatMap_blocksFrom (fun _ => rfl), List.pairwise_flatMap]
  refine ⟨fun b _ => ?_, ?_⟩
  · rcases b.replaced_or_not o.namePrefix with ⟨after, h⟩ | h
    · rw [recordsOf_replaced h, hdebug, if_pos rfl]
      exact List.pairwise_singleton ..
    · rw [(contribution_of_not_replaced h).2]
      exact .nil
  · refine (pairwise_blocksFrom pos document).imp_of_mem fun {b b'} hb _ hbb' r hr r' hr' => ?_
    obtain ⟨-, hraw, ho⟩ := (mem_recordsOf_iff hdebug).mp hr
    obtain ⟨-, -, ho'⟩ := (mem_recordsOf_iff hdebug).mp hr'
    have hstop : r.stop = b.stop := by rw [Record.stop, Block.stop, hraw, ho]
    have := (bounds_of_mem_blocksFrom hb).2.1
    omega

/-- Replaying the records of the rest of a document gives the rest of the code. -/
theorem replayFrom_records (hdebug : o.debug = true) (before document : Text) :
    replayFrom (before ++ document) before.byteLength
      (gather o.recordsOf before.byteLength document) =
        some (gather o.codeOf before.byteLength document) := by
  induction document using document_induction generalizing before with
  | nil =>
    have := slice?_self before []
    rw [List.append_nil] at this
    rw [gather_nil, gather_nil, replayFrom, List.append_nil, this]
  | loose c r hs ih =>
    have ih := ih (before ++ [c])
    have hlength : (before ++ [c]).byteLength = before.byteLength + c.utf8Size := by
      rw [byteLength_append, byteLength_cons, byteLength_nil, Nat.add_zero]
    rw [hlength] at ih
    rw [gather_loose textAdditive_records _ hs, gather_loose textAdditive_code _ hs]
    rw [show before ++ c :: r = before ++ [c] ++ r by simp]
    rw [show o.recordsOf (.text [c]) = [] from rfl, List.nil_append, replayFrom_text]
    · rw [hlength, ih]
      rfl
    · intro r' hr'
      exact le_offset_of_mem_records hdebug r' hr'
  | span t rest ht ih =>
    have ih := ih (before ++ braced t)
    rw [byteLength_append] at ih
    rw [gather_braced textAdditive_records _ ht, gather_braced textAdditive_code _ ht]
    rw [← List.append_assoc]
    rcases replaced_or_kept o before.byteLength t with ⟨x, y, cut, -, -, h⟩ | ⟨hcode, hrecords, -⟩
    · rw [spanSegment_of_cut cut, recordsOf_replaced h, hdebug, if_pos rfl, codeOf_replaced h,
        List.singleton_append, replayFrom_record, byteLength_append, ih]
      rfl
    · -- The span is text to be copied.
      rw [hcode, hrecords, List.nil_append, replayFrom_text, byteLength_append, ih]
      · rfl
      · intro r' hr'
        exact le_offset_of_mem_records hdebug r' hr'

/-- **The records replay to the code.** With debugging on, the records of a document that is not
excluded are apart from one another and in order; each is a slice of the document that is a block
and can be replaced as it says; each such block has its record, once; and replaying the records
over the document gives the code. -/
theorem replay_replacements {p : Expander} {filename : Text} (hdebug : p.options.debug = true)
    (hx : p.exclusions.firstMatch? filename = none) (document : Text) :
    (p.expand document filename).replacements.Pairwise
      (fun r r' => r.offset < r'.offset ∧ r.stop ≤ r'.offset) ∧
    (∀ r ∈ (p.expand document filename).replacements,
      r.stop ≤ document.byteLength ∧ document.slice? r.offset r.stop = some r.before ∧
      ∃ b ∈ blocks document, b.start = r.offset ∧ b.raw = r.before ∧
        b.isComplete = true ∧ b.replacement p.options.namePrefix = .ok r.after) ∧
    (∀ b ∈ blocks document, ∀ after, b.isComplete = true →
      b.replacement p.options.namePrefix = .ok after →
      (p.expand document filename).replacements.count ⟨b.raw, after, b.start⟩ = 1) ∧
    replay document (p.expand document filename).replacements =
      some (p.expand document filename).code := by
  rw [Expander.expand_eq hx, blocks_eq]
  have hpairwise := pairwise_records hdebug 0 document
  refine ⟨hpairwise, fun r hr => ?_, fun b hb after hcomplete hreplacement => ?_, ?_⟩
  · obtain ⟨b, hb, hreplaced, hraw, ho⟩ := (mem_records_iff hdebug).mp hr
    obtain ⟨before, t, after, -, hdoc, hstart, hbraced, -⟩ := exists_of_mem_blocksFrom hb
    rw [Nat.zero_add] at hstart
    have hoffset : r.offset = before.byteLength := ho.trans hstart
    have hbefore : r.before = braced t := hraw.trans hbraced
    refine ⟨?_, ?_, b, hb, ho.symm, hraw.symm, hreplaced.complete, hreplaced.replacement⟩
    · rw [Record.stop, hoffset, hbefore, hdoc, byteLength_append, byteLength_append]
      omega
    · rw [Record.stop, hoffset, hbefore, hdoc]
      exact slice?_middle before (braced t) after
  · have hnodup : (gather p.options.recordsOf 0 document).Nodup :=
      hpairwise.imp fun {r r'} h hrr' => by
        rw [hrr'] at h
        exact Nat.lt_irrefl _ h.1
    rw [hnodup.count, if_pos]
    exact (mem_records_iff hdebug).mpr ⟨b, hb, ⟨hcomplete, hreplacement⟩, rfl, rfl⟩
  · exact replayFrom_records hdebug [] document

/-- A block that cannot be written as calls stays between two that can. -/
theorem replay_replacements_mixed :
    let p : Expander := { options := { namePrefix := "u.".toList, debug := true } }
    let document : Text := "é\x7ba | f\x7d \x7bb | :x\x7d\x7bc | g:1\x7d".toList
    let x := p.expand document "App.svelte".toList
    p.options.debug = true ∧ p.exclusions.firstMatch? "App.svelte".toList = none ∧
      x.replacements = [⟨"\x7ba | f\x7d".toList, "\x7bu.f(a)\x7d".toList, 2⟩,
        ⟨"\x7bc | g:1\x7d".toList, "\x7bu.g(c, 1)\x7d".toList, 18⟩] ∧
      x.code = "é\x7bu.f(a)\x7d \x7bb | :x\x7d\x7bu.g(c, 1)\x7d".toList ∧
      replay document x.replacements = some x.code := by
  refine ⟨rfl, rfl, ?_, ?_, (replay_replacements rfl rfl _).2.2.2⟩
  · decide +kernel
  · decide +kernel

end PipeBlocks
