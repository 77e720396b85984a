import PipeBlocks.Proofs.Count
import PipeBlocks.Proofs.Document.Replay

/-! The names that a document calls.

The names are collected in a reading of the blocks of its own, which has to settle for itself what
is replaced. It counts the same blocks as an expansion does: a block that is replaced gives the
names of its stages, and a block that is kept gives none (`mem_calledNames_block_iff`). So the
names can be read off the records of an expansion, and each is called in the record it comes from
(`calledNames_recorded`). -/
namespace PipeBlocks
open Text Scan

/-! ### The names of one block -/

section Block
variable {b : Block} {document : Text} {pos : Nat} {namePrefix after : Text}

theorem Block.calledNames_of_replaced (h : b.Replaced namePrefix after) :
    b.calledNames namePrefix = (stages b.chain).map (namePrefix ++ ·.name) := by
  obtain ⟨call, hcall, -⟩ := Block.replacement_eq_ok_iff.mp h.replacement
  obtain ⟨-, hne, hnamed, -⟩ := callExpression_eq_ok_iff.mp hcall
  have hall : (stages b.chain).all (·.name ≠ []) = true := by simpa using hnamed
  unfold calledNames
  dsimp only
  rw [h.complete, hall, decide_eq_true hne]
  rfl

/-- A block that calls something is replaced. -/
theorem replaced_of_calledNames_ne_nil (hb : b ∈ blocksFrom pos document)
    (h : b.calledNames namePrefix ≠ []) : ∃ after, b.Replaced namePrefix after := by
  obtain ⟨t, x, y, start, -, rfl⟩ := exists_cut_of_mem_blocksFrom hb
  unfold Block.calledNames at h
  dsimp only at h
  split at h
  · rename_i hc
    rw [Bool.and_eq_true, Bool.and_eq_true, List.all_eq_true] at hc
    obtain ⟨⟨hcomplete, hne⟩, hnamed⟩ := hc
    obtain ⟨hx, -, hclosed⟩ := Block.isComplete_of_cut.mp hcomplete
    rw [stages_trim] at hne hnamed
    exact ⟨_, Block.replaced_iff.mpr ⟨hx, hclosed, by simpa using hne, by simpa using hnamed, rfl⟩⟩
  · exact absurd rfl h

theorem calledNames_of_not_replaced (hb : b ∈ blocksFrom pos document)
    (h : ∀ after, ¬ b.Replaced namePrefix after) : b.calledNames namePrefix = [] := by
  by_cases hc : b.calledNames namePrefix = []
  · exact hc
  · obtain ⟨after, hr⟩ := replaced_of_calledNames_ne_nil hb hc
    exact absurd hr (h after)

/-- The names of a block are those of its stages, if it is replaced. -/
theorem mem_calledNames_block_iff (hb : b ∈ blocksFrom pos document) {name : Text} :
    name ∈ b.calledNames namePrefix ↔ (∃ after, b.Replaced namePrefix after) ∧
      ∃ s ∈ stages b.chain, name = namePrefix ++ s.name := by
  rcases b.replaced_or_not namePrefix with ⟨after, h⟩ | h
  · rw [Block.calledNames_of_replaced h, List.mem_map]
    constructor
    · rintro ⟨s, hs, rfl⟩
      exact ⟨⟨after, h⟩, s, hs, rfl⟩
    · rintro ⟨-, s, hs, rfl⟩
      exact ⟨s, hs, rfl⟩
  · rw [calledNames_of_not_replaced hb h]
    constructor
    · intro hname
      cases hname
    · rintro ⟨⟨after, hr⟩, -⟩
      exact absurd hr (h after)

/-- What stands in the place of a replaced block is another text. -/
theorem Block.Replaced.ne_raw (h : b.Replaced namePrefix after) (hb : b ∈ blocksFrom pos document) :
    after ≠ b.raw := by
  obtain ⟨t, x, y, start, cut, rfl⟩ := exists_cut_of_mem_blocksFrom hb
  obtain ⟨-, -, hne, -, rfl⟩ := Block.replaced_iff.mp h
  intro heq
  exact nest_ne_of_cut cut hne namePrefix (braced_injective heq)

/-- A stage without a name keeps its whole block from being replaced. -/
theorem not_replaced_of_unnamed {s : Stage} (hs : s ∈ stages b.chain) (hname : s.name = []) :
    ¬ b.Replaced namePrefix after := by
  intro h
  obtain ⟨call, hcall, -⟩ := Block.replacement_eq_ok_iff.mp h.replacement
  obtain ⟨-, -, hnamed, -⟩ := callExpression_eq_ok_iff.mp hcall
  exact hnamed s hs hname

end Block

/-! ### The names of a document -/

theorem Expander.mem_calledNames_iff {p : Expander} {document name : Text} :
    name ∈ p.calledNames document ↔ ∃ b ∈ blocks document,
      (∃ after, b.Replaced p.options.namePrefix after) ∧
        ∃ s ∈ stages b.chain, name = p.options.namePrefix ++ s.name := by
  rw [Expander.calledNames, Names.mem_ofList, List.mem_flatMap, blocks_eq]
  constructor
  · rintro ⟨b, hb, hname⟩
    exact ⟨b, hb, (mem_calledNames_block_iff hb).mp hname⟩
  · rintro ⟨b, hb, hname⟩
    exact ⟨b, hb, (mem_calledNames_block_iff hb).mpr hname⟩

/-- The expander with debugging on. -/
def Expander.debugging (p : Expander) : Expander :=
  { p with options := { p.options with debug := true } }

section Records
variable {p : Expander} {filename : Text}

/-- Debugging changes no code. -/
theorem Expander.code_debugging (p : Expander) (document filename : Text) :
    (p.debugging.expand document filename).code = (p.expand document filename).code := by
  have hcode : p.debugging.options.codeOf = p.options.codeOf := by
    funext s
    cases s with
    | text t => rfl
    | block b =>
      rcases b.replaced_or_not p.options.namePrefix with ⟨after, h⟩ | h
      · rw [codeOf_replaced h]
        exact codeOf_replaced h
      · rw [(contribution_of_not_replaced h).1]
        exact (contribution_of_not_replaced (o := p.debugging.options) h).1
  cases hx : p.exclusions.firstMatch? filename with
  | some pattern =>
    have hx' : p.debugging.exclusions.firstMatch? filename = some pattern := hx
    unfold expand
    rw [hx, hx']
  | none =>
    have hx' : p.debugging.exclusions.firstMatch? filename = none := hx
    rw [expand_eq hx, expand_eq hx', hcode]

/-- The records of an expansion hold the blocks that are replaced, and nothing else. -/
theorem mem_replacements_iff (hx : p.exclusions.firstMatch? filename = none) {document : Text}
    {r : Record} : r ∈ (p.debugging.expand document filename).replacements ↔
      ∃ b ∈ blocks document, b.Replaced p.options.namePrefix r.after ∧
        Block.parse? r.before r.offset = some b := by
  have hx' : p.debugging.exclusions.firstMatch? filename = none := hx
  rw [Expander.expand_eq hx', mem_records_iff rfl, blocks_eq]
  constructor
  · rintro ⟨b, hb, hr, hraw, ho⟩
    exact ⟨b, hb, hr, by rw [hraw, ho, parse?_of_mem_blocksFrom hb]⟩
  · rintro ⟨b, hb, hr, hparse⟩
    obtain ⟨hraw, ho⟩ := Block.eq_of_parse?_eq_some hparse
    exact ⟨b, hb, hr, hraw.symm, ho.symm⟩

theorem mem_calledNames_iff_recorded (hx : p.exclusions.firstMatch? filename = none)
    {document name : Text} : name ∈ p.calledNames document ↔
      ∃ r ∈ (p.debugging.expand document filename).replacements,
        ∃ b, Block.parse? r.before r.offset = some b ∧
          ∃ s ∈ stages b.chain, name = p.options.namePrefix ++ s.name := by
  rw [Expander.mem_calledNames_iff]
  constructor
  · rintro ⟨b, hb, ⟨after, hr⟩, hname⟩
    rw [blocks_eq] at hb
    have hparse := parse?_of_mem_blocksFrom hb
    rw [← blocks_eq] at hb
    exact ⟨⟨b.raw, after, b.start⟩, (mem_replacements_iff hx).mpr ⟨b, hb, hr, hparse⟩, b, hparse, hname⟩
  · rintro ⟨r, hr, b, hparse, hname⟩
    obtain ⟨b', hb, hreplaced, hparse'⟩ := (mem_replacements_iff hx).mp hr
    obtain rfl := Option.some.inj (hparse.symm.trans hparse')
    exact ⟨b, hb, ⟨r.after, hreplaced⟩, hname⟩

/-- **The called names are those in the records.** For a document that is not excluded, they are the
prefixed names of the stages of the recorded blocks, and each of them is called in what its block
was replaced by. A block that is kept gives no name, and a block is kept if a single stage of it has
no name. -/
theorem calledNames_recorded (hx : p.exclusions.firstMatch? filename = none) (document : Text) :
    (∀ name, name ∈ p.calledNames document ↔
      ∃ r ∈ (p.debugging.expand document filename).replacements,
        ∃ b, Block.parse? r.before r.offset = some b ∧
          ∃ s ∈ stages b.chain, name = p.options.namePrefix ++ s.name) ∧
    (∀ r ∈ (p.debugging.expand document filename).replacements,
      ∃ b, Block.parse? r.before r.offset = some b ∧
        ∀ s ∈ stages b.chain, p.options.namePrefix ++ s.name ++ ['('] <:+: r.after) ∧
    (∀ b ∈ blocks document, (p.options.contribution filename (.block b)).code = b.raw →
      b.calledNames p.options.namePrefix = []) ∧
    ∀ b ∈ blocks document, (∃ s ∈ stages b.chain, s.name = []) →
      (p.options.contribution filename (.block b)).code = b.raw := by
  refine ⟨fun name => mem_calledNames_iff_recorded hx, fun r hr => ?_, fun b hb hcode => ?_,
    fun b hb hs => ?_⟩
  · obtain ⟨b, -, hreplaced, hparse⟩ := (mem_replacements_iff hx).mp hr
    obtain ⟨call, hcall, hafter⟩ := Block.replacement_eq_ok_iff.mp hreplaced.replacement
    obtain ⟨-, -, -, hnest⟩ := callExpression_eq_ok_iff.mp hcall
    refine ⟨b, hparse, fun s hs => ?_⟩
    rw [← hafter, ← hnest]
    exact (name_infix_nest hs).trans ⟨['{'], ['}'], rfl⟩
  · rw [blocks_eq] at hb
    rw [Options.contribution_eq] at hcode
    refine calledNames_of_not_replaced hb fun after hr => hr.ne_raw hb ?_
    rw [← codeOf_replaced hr]
    exact hcode
  · obtain ⟨s, hs, hname⟩ := hs
    rw [Options.contribution_eq]
    exact (contribution_of_not_replaced fun after => not_replaced_of_unnamed hs hname).1

/-- The second block is kept for its last stage, so its first stage is not called either. -/
theorem calledNames_recorded_unnamed :
    let p : Expander := { options := { namePrefix := "u.".toList } }
    let document : Text := "\x7ba | f:1 | g\x7d\x7bb | h | :x\x7d".toList
    let records := (p.debugging.expand document "App.svelte".toList).replacements
    p.exclusions.firstMatch? "App.svelte".toList = none ∧
      p.calledNames document = ["u.f".toList, "u.g".toList] ∧
      (∀ r ∈ records, ∃ b, Block.parse? r.before r.offset = some b ∧
        ∀ s ∈ stages b.chain, "u.".toList ++ s.name ++ ['('] <:+: r.after) ∧
      ∃ r ∈ records, ∃ b, Block.parse? r.before r.offset = some b ∧
        ∃ s ∈ stages b.chain, "u.g".toList = "u.".toList ++ s.name := by
  intro p document records
  have hx : p.exclusions.firstMatch? "App.svelte".toList = none := rfl
  have hnames : p.calledNames document = ["u.f".toList, "u.g".toList] := by decide +kernel
  obtain ⟨hmem, hcalled, -⟩ := calledNames_recorded hx document
  refine ⟨hx, hnames, hcalled, (hmem "u.g".toList).mp ?_⟩
  rw [hnames]
  exact List.mem_cons_of_mem _ (List.mem_cons_self ..)

end Records

end PipeBlocks
