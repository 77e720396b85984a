import PipeBlocks.Proofs.Document.Settled
import Mathlib.Algebra.GroupWithZero.Nat
import Mathlib.Logic.Function.Iterate

/-! Expanding uses up pipes.

A block that is replaced loses the pipes that separate in it, of which there is one at least, and
keeps all others; nothing else loses a pipe, and only the prefix could bring in new ones
(`count_gather_codeOf`). So a document with as many pipes as before has lost no block, and is the
document it was. The blocks put in by one expansion may be replaced by the next, but each time
there are fewer pipes: `expand_consumes_pipes` bounds the number of times by the pipes of the
document. -/
namespace PipeBlocks
open Text Scan

/-! ### The blocks that are replaced -/

/-- How many pipes separate in a block. -/
def Block.separators (b : Block) : Nat := (offsets .pipe b.content).length

def Block.isReplaced (b : Block) (namePrefix : Text) : Bool :=
  b.isComplete && (b.replacement namePrefix).toOption.isSome

/-- The blocks of a document that an expansion replaces. -/
def Expander.replacedBlocks (p : Expander) (document : Text) : List Block :=
  (blocks document).filter (·.isReplaced p.options.namePrefix)

theorem Block.isReplaced_iff {b : Block} {namePrefix : Text} :
    b.isReplaced namePrefix = true ↔ ∃ after, b.Replaced namePrefix after := by
  unfold isReplaced
  rw [Bool.and_eq_true]
  constructor
  · rintro ⟨hc, hr⟩
    cases h : b.replacement namePrefix with
    | ok after => exact ⟨after, hc, h⟩
    | error e => simp [h, Except.toOption] at hr
  · rintro ⟨after, hc, hr⟩
    exact ⟨hc, by simp [hr, Except.toOption]⟩

theorem Expander.replacedBlocks_eq_nil_iff {p : Expander} {document : Text} :
    p.replacedBlocks document = [] ↔
      ∀ b ∈ blocks document, ∀ after, ¬ b.Replaced p.options.namePrefix after := by
  simp only [replacedBlocks, List.filter_eq_nil_iff, Block.isReplaced_iff, not_exists]

/-! ### Separating pipes of one block -/

theorem separators_of_raw {b : Block} {t : Text} (h : b.raw = braced t) :
    b.separators = (split .pipe t).length - 1 := by
  rw [Block.separators, Block.content_of_raw h, split, length_splitFrom 0]
  rfl

/-- In every block a pipe separates. -/
theorem separators_pos {pos : Nat} {document : Text} {b : Block} (hb : b ∈ blocksFrom pos document) :
    1 ≤ b.separators := by
  obtain ⟨t, x, y, start, cut, rfl⟩ := exists_cut_of_mem_blocksFrom hb
  have hrest := List.length_pos_iff.mpr (splitFrom_ne_nil .pipe .start y)
  rw [separators_of_raw rfl, split, splitFrom_of_cut cut, List.length_cons, Nat.add_sub_cancel]
  exact hrest

section Documents
variable {o : Options} {document : Text}

/-- What stands in the place of a replaced block has fewer pipes, by those that separate in it. -/
theorem count_codeOf_replaced (hp : '|' ∉ o.namePrefix) {t x y : Text} {pos : Nat}
    (cut : CutAt .pipe .start t x y)
    (h : Block.Replaced ⟨braced t, x.trim, y.trim, pos⟩ o.namePrefix
      (braced (nest o.namePrefix x.trim (stages y)))) :
    (o.codeOf (spanSegment pos t)).count '|' +
      Block.separators ⟨braced t, x.trim, y.trim, pos⟩ = (braced t).count '|' := by
  have hcount := count_nest_of_cut (c := '|') (by decide) (by decide) (by decide) cut o.namePrefix
  have hnoPipe : (o.namePrefix ++ ['(', ')']).count '|' = 0 := by
    simpa [List.count_eq_zero] using hp
  rw [hnoPipe, Nat.mul_zero, Nat.add_zero, List.count_singleton_self, Nat.mul_one] at hcount
  have hbraces (u : Text) : (braced u).count '|' = u.count '|' := by simp [braced]
  rw [spanSegment_of_cut cut, codeOf_replaced h, separators_of_raw rfl, hbraces, hbraces]
  exact hcount

theorem count_codeOf_spanSegment (hp : '|' ∉ o.namePrefix) (pos : Nat) (t : Text) :
    (o.codeOf (spanSegment pos t)).count '|' +
      (((Block.parse? (braced t) pos).toList.filter (·.isReplaced o.namePrefix)).map
        Block.separators).sum = (braced t).count '|' := by
  rcases replaced_or_kept o pos t with ⟨x, y, cut, -, -, hr⟩ | ⟨hcode, -, hkept⟩
  · have hblocks : (Block.parse? (braced t) pos).toList.filter (·.isReplaced o.namePrefix) =
        [⟨braced t, x.trim, y.trim, pos⟩] := by
      rw [Block.parse?_braced_of_cut cut]
      exact List.filter_cons_of_pos (Block.isReplaced_iff.mpr ⟨_, hr⟩)
    rw [hblocks]
    exact count_codeOf_replaced hp cut hr
  · have hblocks : (Block.parse? (braced t) pos).toList.filter (·.isReplaced o.namePrefix) = [] := by
      refine List.filter_eq_nil_iff.mpr fun b hb hreplaced => ?_
      obtain ⟨after, hr⟩ := Block.isReplaced_iff.mp hreplaced
      exact hkept pos b (Option.mem_toList.mp hb) _ after hr
    rw [hcode, hblocks]
    rfl

/-- The pipes of a document are those of its code and those that separate in replaced blocks. -/
theorem count_gather_codeOf (hp : '|' ∉ o.namePrefix) (pos : Nat) (document : Text) :
    (gather o.codeOf pos document).count '|' +
      (((blocksFrom pos document).filter (·.isReplaced o.namePrefix)).map Block.separators).sum =
        document.count '|' := by
  induction document using document_induction generalizing pos with
  | nil => simp [blocksFrom]
  | loose c r hs ih =>
    have ih := ih (pos + c.utf8Size)
    have hcons : (c :: r).count '|' = [c].count '|' + r.count '|' := by
      rw [← List.count_append]
      rfl
    rw [gather_loose textAdditive_code pos hs, blocksFrom_loose pos hs,
      show o.codeOf (.text [c]) = [c] from rfl, List.count_append, hcons]
    omega
  | span t rest ht ih =>
    have ih := ih (pos + (braced t).byteLength)
    have hspan := count_codeOf_spanSegment hp pos t
    rw [gather_braced textAdditive_code pos ht, blocksFrom_braced pos ht, List.filter_append,
      List.map_append, List.sum_append, List.count_append, List.count_append]
    omega

end Documents

/-! ### Documents without a block to replace -/

section Documents
variable {p : Expander} {filename document : Text}

theorem Expander.count_code (hx : p.exclusions.firstMatch? filename = none)
    (hp : '|' ∉ p.options.namePrefix) (document : Text) :
    (p.expand document filename).code.count '|' +
      ((p.replacedBlocks document).map Block.separators).sum = document.count '|' := by
  rw [Expander.expand_eq hx, replacedBlocks, blocks_eq]
  exact count_gather_codeOf hp 0 document

theorem Expander.separators_replacedBlocks (p : Expander) (document : Text) :
    ∀ b ∈ p.replacedBlocks document, 1 ≤ b.separators := by
  intro b hb
  have hb := (List.mem_filter.mp hb).1
  rw [blocks_eq] at hb
  exact separators_pos hb

/-- Each replaced block takes a pipe. -/
theorem Expander.sum_separators_eq_zero_iff :
    ((p.replacedBlocks document).map Block.separators).sum = 0 ↔ p.replacedBlocks document = [] := by
  have hpos := p.separators_replacedBlocks document
  cases h : p.replacedBlocks document with
  | nil => simp
  | cons b rest =>
    have := hpos b (by rw [h]; exact List.mem_cons_self ..)
    rw [List.map_cons, List.sum_cons]
    constructor
    · intro hsum
      omega
    · intro hnil
      cases hnil

theorem Expander.code_eq_iff (hx : p.exclusions.firstMatch? filename = none)
    (hp : '|' ∉ p.options.namePrefix) (document : Text) :
    (p.expand document filename).code = document ↔ p.replacedBlocks document = [] := by
  constructor
  · intro h
    have hcount := Expander.count_code hx hp document
    rw [h] at hcount
    exact Expander.sum_separators_eq_zero_iff.mp (by omega)
  · intro h
    rw [Expander.expand_eq hx]
    refine gather_codeOf_of_not_replaced fun b hb => ?_
    rw [← blocks_eq] at hb
    exact p.replacedBlocks_eq_nil_iff.mp h b hb

theorem Expander.calledNames_eq_nil_iff :
    p.calledNames document = [] ↔ p.replacedBlocks document = [] := by
  rw [replacedBlocks_eq_nil_iff]
  constructor
  · intro h b hb after hr
    obtain ⟨call, hcall, -⟩ := Block.replacement_eq_ok_iff.mp hr.replacement
    obtain ⟨-, hne, -, -⟩ := callExpression_eq_ok_iff.mp hcall
    obtain ⟨s, hs⟩ := List.exists_mem_of_ne_nil _ hne
    have hname := Expander.mem_calledNames_iff.mpr ⟨b, hb, ⟨after, hr⟩, s, hs, rfl⟩
    rw [h] at hname
    cases hname
  · intro h
    rw [List.eq_nil_iff_forall_not_mem]
    intro name hname
    obtain ⟨b, hb, ⟨after, hr⟩, -⟩ := Expander.mem_calledNames_iff.mp hname
    exact h b hb after hr

end Documents

/-! ### Expanding again and again -/

/-- An expansion that changes a document leaves it with fewer pipes. -/
theorem count_expand_lt {o : Options} (hp : '|' ∉ o.namePrefix) {document : Text}
    (h : expand document o ≠ document) : (expand document o).count '|' < document.count '|' := by
  have hx : (Expander.ofOptions o).exclusions.firstMatch? [] = none := rfl
  have hcount := Expander.count_code hx hp document
  have hsum : (((Expander.ofOptions o).replacedBlocks document).map Block.separators).sum ≠ 0 :=
    fun hsum => h ((Expander.code_eq_iff hx hp document).mpr
      (Expander.sum_separators_eq_zero_iff.mp hsum))
  unfold expand
  omega

theorem exists_iterate_expand_fixed {o : Options} (hp : '|' ∉ o.namePrefix) (document : Text) :
    ∃ k ≤ document.count '|',
      expand ((fun d => expand d o)^[k] document) o = (fun d => expand d o)^[k] document := by
  induction hn : document.count '|' using Nat.strongRecOn generalizing document with
  | _ n ih =>
    by_cases h : expand document o = document
    · exact ⟨0, Nat.zero_le n, h⟩
    · have hlt := count_expand_lt hp h
      obtain ⟨k, hk, hfixed⟩ := ih _ (by omega) (expand document o) rfl
      exact ⟨k + 1, by omega, hfixed⟩

/-- **Every replacement uses up pipes.** Under a prefix without pipes, the code of a document that is
not excluded has as many pipes as the document, less those that separate in the replaced blocks, at
least one in each. So the code is the document exactly if no block is replaced, which is when the
document calls nothing; and expanding again and again changes nothing any more after at most as
many times as the document has pipes. -/
theorem expand_consumes_pipes {p : Expander} {filename : Text}
    (hx : p.exclusions.firstMatch? filename = none) (hp : '|' ∉ p.options.namePrefix)
    (document : Text) :
    (p.expand document filename).code.count '|' +
      ((p.replacedBlocks document).map Block.separators).sum = document.count '|' ∧
    (∀ b ∈ p.replacedBlocks document, 1 ≤ b.separators) ∧
    ((p.expand document filename).code = document ↔ p.replacedBlocks document = []) ∧
    ((p.expand document filename).code = document ↔ p.calledNames document = []) ∧
    ∃ k ≤ document.count '|', expand ((fun d => expand d p.options)^[k] document) p.options =
      (fun d => expand d p.options)^[k] document := by
  have hcode := Expander.code_eq_iff hx hp document
  refine ⟨Expander.count_code hx hp document, p.separators_replacedBlocks document, hcode, ?_,
    exists_iterate_expand_fixed hp document⟩
  rw [hcode, Expander.calledNames_eq_nil_iff]

/-- The argument closes the group around it, so the other pipe separates in the block that is put
in, and that is replaced by the next expansion. -/
theorem expand_consumes_pipes_twice :
    let p : Expander := { options := { namePrefix := "u.".toList } }
    let document : Text := "\x7ba | f:b) | c\x7d".toList
    let once : Text := "\x7bu.f(a, b) | c)\x7d".toList
    let twice : Text := "\x7bu.c)(u.f(a, b))\x7d".toList
    p.exclusions.firstMatch? "App.svelte".toList = none ∧ '|' ∉ p.options.namePrefix ∧
      document.count '|' = 2 ∧
      (p.expand document "App.svelte".toList).code = once ∧
      once.count '|' + ((p.replacedBlocks document).map Block.separators).sum = 2 ∧
      expand once p.options = twice ∧ twice.count '|' = 0 ∧
      ∃ k ≤ 2, expand ((fun d => expand d p.options)^[k] document) p.options =
        (fun d => expand d p.options)^[k] document := by
  intro p document once twice
  have hx : p.exclusions.firstMatch? "App.svelte".toList = none := rfl
  have hp : '|' ∉ p.options.namePrefix := by decide
  have hcode : (p.expand document "App.svelte".toList).code = once := by decide +kernel
  obtain ⟨hcount, -, -, -, hfixed⟩ := expand_consumes_pipes hx hp document
  rw [hcode] at hcount
  exact ⟨hx, hp, by decide +kernel, hcode, hcount, by decide +kernel, by decide +kernel, hfixed⟩

end PipeBlocks
