import PipeBlocks.Proofs.Document.Called
import PipeBlocks.Log.Entry

/-! Expanding a document in two parts.

A document may be cut anywhere outside a brace span (`Separable`): its code is then the codes of the
two parts, and so are its records, its warnings and the names it calls, but for the offsets, which
count from the start of the document (`Expander.expand_append`). Whatever is open at the end of the
first part, a string or a brace, does not matter to the second. -/
namespace PipeBlocks
open Text

/-! ### Warnings -/

/-- Whether the event is logged as a warning. -/
def Event.isWarning (e : Event) : Bool := (Log.Entry.ofEvent e).level == .warn

def Expansion.warnings (x : Expansion) : List Event := x.events.filter Event.isWarning

@[simp] theorem Event.isWarning_shift (k : Nat) (e : Event) : (e.shift k).isWarning = e.isWarning := by
  cases e <;> rfl

theorem filter_isWarning_shift (k : Nat) (l : List Event) :
    (l.map (Event.shift k)).filter Event.isWarning =
      (l.filter Event.isWarning).map (Event.shift k) := by
  rw [List.filter_map]
  congr 2
  funext e
  exact Event.isWarning_shift k e

/-- That a document is being processed is no warning. -/
theorem Expander.warnings_expand {p : Expander} {filename : Text}
    (hx : p.exclusions.firstMatch? filename = none) (document : Text) :
    (p.expand document filename).warnings =
      (gather (p.options.eventsOf filename) 0 document).filter Event.isWarning := by
  rw [Expander.expand_eq hx]
  unfold Expansion.warnings
  dsimp only
  rw [List.filter_append]
  split <;> rfl

/-! ### Names -/

theorem blocksFrom_add (pos k : Nat) (document : Text) :
    blocksFrom (pos + k) document =
      (blocksFrom pos document).map fun b => { b with start := b.start + k } := by
  refine gather_add_map textAdditive_blocks (fun s => ?_) pos document
  cases s <;> rfl

/-- A block calls the same names wherever it stands. -/
theorem Expander.mem_calledNames_append {p : Expander} {t u : Text} (h : Separable t u) {name : Text} :
    name ∈ p.calledNames (t ++ u) ↔ name ∈ p.calledNames t ∨ name ∈ p.calledNames u := by
  unfold calledNames
  simp only [Names.mem_ofList, blocks_eq]
  rw [blocksFrom, gather_append textAdditive_blocks h, ← blocksFrom, ← blocksFrom, blocksFrom_add,
    List.flatMap_append, List.flatMap_map, List.mem_append]
  rfl

/-! ### The two parts -/

section Parts
variable {p : Expander} {filename : Text}

theorem Expander.code_append (hx : p.exclusions.firstMatch? filename = none) {t u : Text}
    (h : Separable t u) : (p.expand (t ++ u) filename).code =
      (p.expand t filename).code ++ (p.expand u filename).code := by
  simp only [Expander.expand_eq hx]
  rw [gather_append textAdditive_code h, gather_codeOf_add]

theorem Expander.replacements_append (hx : p.exclusions.firstMatch? filename = none) {t u : Text}
    (h : Separable t u) : (p.expand (t ++ u) filename).replacements =
      (p.expand t filename).replacements ++
        (p.expand u filename).replacements.map (Record.shift t.byteLength) := by
  simp only [Expander.expand_eq hx]
  rw [gather_append textAdditive_records h, gather_recordsOf_add]

theorem Expander.warnings_append (hx : p.exclusions.firstMatch? filename = none) {t u : Text}
    (h : Separable t u) : (p.expand (t ++ u) filename).warnings =
      (p.expand t filename).warnings ++
        (p.expand u filename).warnings.map (Event.shift t.byteLength) := by
  simp only [Expander.warnings_expand hx]
  rw [gather_append (textAdditive_events filename) h, gather_eventsOf_add, List.filter_append,
    filter_isWarning_shift]

/-- **A document expands part by part.** Where no brace span is cut, the code of the whole is the
codes of the parts, the records and warnings are those of the first part and then those of the
second, further on by the first part's length, and the names are those of either part. So a brace
span leaves what stands before and after it alone, whatever it holds. -/
theorem Expander.expand_append (hx : p.exclusions.firstMatch? filename = none) :
    (∀ t u, Separable t u →
      (p.expand (t ++ u) filename).code = (p.expand t filename).code ++ (p.expand u filename).code ∧
      (p.expand (t ++ u) filename).replacements = (p.expand t filename).replacements ++
        (p.expand u filename).replacements.map (Record.shift t.byteLength) ∧
      (p.expand (t ++ u) filename).warnings = (p.expand t filename).warnings ++
        (p.expand u filename).warnings.map (Event.shift t.byteLength) ∧
      ∀ name, name ∈ p.calledNames (t ++ u) ↔ name ∈ p.calledNames t ∨ name ∈ p.calledNames u) ∧
    ∀ before t after, (p.expand (before ++ braced t ++ after) filename).code =
      (p.expand before filename).code ++ (p.expand (braced t) filename).code ++
        (p.expand after filename).code := by
  refine ⟨fun t u h => ⟨code_append hx h, replacements_append hx h, warnings_append hx h,
    fun name => mem_calledNames_append h⟩, fun before t after => ?_⟩
  rw [code_append hx (separable_braced_right before t after)]
  congr 1
  have h := separable_braced_left before t []
  rw [List.append_nil] at h
  exact code_append hx h

/-- The first part ends with a string and a brace open, after a letter of two bytes; the second has
a block that fails. -/
theorem Expander.expand_append_open :
    let p : Expander := { options := { namePrefix := [], debug := true } }
    let t : Text := "é \x7ba | f\x7d 'x \x7b".toList
    let u : Text := "\x7bb | :\x7d".toList
    p.exclusions.firstMatch? "App.svelte".toList = none ∧ Separable t u ∧
      (p.expand (t ++ u) "App.svelte".toList).code = (p.expand t "App.svelte".toList).code ++
        (p.expand u "App.svelte".toList).code ∧
      (p.expand (t ++ u) "App.svelte".toList).replacements =
        [⟨"\x7ba | f\x7d".toList, "\x7bf(a)\x7d".toList, 3⟩] ∧
      (p.expand (t ++ u) "App.svelte".toList).warnings =
        [.unchanged "App.svelte".toList 15 u (.unnamedStage 0 [])] := by
  intro p t u
  have hx : p.exclusions.firstMatch? "App.svelte".toList = none := rfl
  have h : Separable t u := by decide +kernel
  obtain ⟨happend, -⟩ := expand_append hx
  obtain ⟨hcode, hreplacements, hwarnings, -⟩ := happend t u h
  refine ⟨hx, h, hcode, ?_, ?_⟩
  · rw [hreplacements]
    decide +kernel
  · rw [hwarnings]
    decide +kernel

end Parts

end PipeBlocks
