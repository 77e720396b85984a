import PipeBlocks.CommandLine.Parse
import Mathlib.Data.List.Nodup

/-! What a command line that is accepted asks for.

While arguments are taken, the switches that are on are those that were met, each of them once
(`Reader.Consistent`). So two switches that exclude each other are both seen at the end, and
arguments that are accepted have no conflict (`accepted_of_parse`). -/
namespace PipeBlocks.CommandLine
namespace Reader

/-! ### Outcomes -/

/-- A value has the property; if there is no value, no run is asked for either. -/
def Ensures {α : Type} (x : Outcome α) (P : α → Prop) : Prop :=
  match x with
  | .ok a => P a
  | .error (.error _) => True
  | .error (.request r) => ∀ a, r ≠ .run a

section Ensures
variable {α β : Type} {P : α → Prop} {Q : β → Prop}

theorem ensures_fail (e : UsageError) : Ensures (fail e) P := trivial

theorem Ensures.bind {x : Outcome α} {f : α → Outcome β} (hx : Ensures x P)
    (hf : ∀ a, P a → Ensures (f a) Q) : Ensures (x >>= f) Q := by
  cases x with
  | ok a => exact hf a hx
  | error e => cases e <;> exact hx

/-- A check may come first. -/
theorem Ensures.checked {s : Setting} {values : List Text} {x : Outcome α} (hx : Ensures x P) :
    Ensures (checkPaths s values >>= fun _ => x) P := by
  unfold checkPaths
  split
  · exact ensures_fail _
  · exact hx

end Ensures

/-! ### Switches -/

def isOn (a : Arguments) : Switch → Bool
  | .debug => a.debug
  | .svelteKitDefaults => a.svelteKitDefaults
  | .inPlace => a.inPlace
  | .listPipes => a.listPipes
  | .verbose => a.verbose

theorem isOn_turnOn (a : Arguments) (s s' : Switch) :
    isOn (turnOn a s) s' = true ↔ isOn a s' = true ∨ s' = s := by
  cases s <;> cases s' <;> simp [turnOn, isOn]

/-- Values turn no switch. -/
theorem isOn_assign (a : Arguments) (s : Setting) (values : List Text) :
    Ensures (assign a s values) fun a' => isOn a' = isOn a := by
  unfold assign
  split
  · exact Ensures.checked rfl
  · exact rfl
  · split
    · exact ensures_fail _
    · exact rfl
  · split
    · exact ensures_fail _
    · exact Ensures.checked rfl
  · exact ensures_fail _

/-- The switches that are on were met, each once. -/
structure Consistent (r : Reader) : Prop where
  isOn_iff : ∀ s, isOn r.arguments s = true ↔ s ∈ r.switches
  nodup : r.switches.Nodup

/-! ### One argument -/

section Consistent
variable {r : Reader}

theorem Consistent.assign (h : r.Consistent) (s : Setting) (values : List Text)
    (pending : Option (Setting × List Text)) :
    Ensures (do let arguments ← Reader.assign r.arguments s values
                return { r with arguments, pending }) Consistent := by
  refine (isOn_assign r.arguments s values).bind fun a ha => ⟨fun s' => ?_, h.nodup⟩
  rw [ha]
  exact h.isOn_iff s'

theorem Consistent.resolve (h : r.Consistent) : Ensures r.resolve Consistent := by
  unfold Reader.resolve
  split
  · exact h
  · exact h.assign _ _ none

theorem Consistent.takeOption (h : r.Consistent) (long : Bool) (o : Opt) :
    Ensures (r.takeOption long o) Consistent := by
  refine h.resolve.bind fun r h => ?_
  split
  · rename_i s
    split
    · exact ensures_fail _
    · rename_i hs
      have hs : s ∉ r.switches := by simpa using hs
      refine ⟨fun s' => ?_, ?_⟩
      · dsimp only
        rw [isOn_turnOn, h.isOn_iff, List.mem_append, List.mem_singleton]
      · exact h.nodup.append (List.nodup_singleton s) (by simpa using hs)
  · exact ⟨h.isOn_iff, h.nodup⟩
  · exact nofun
  · exact nofun

theorem Consistent.takeAttached (h : r.Consistent) (s : Setting) (value : Text) :
    Ensures (r.takeAttached s value) Consistent :=
  h.resolve.bind fun r h => h.assign s [value] r.pending

theorem Consistent.takeLong (h : r.Consistent) (t : Text) : Ensures (r.takeLong t) Consistent := by
  unfold Reader.takeLong
  dsimp only
  split
  · exact ensures_fail _
  · exact h.takeOption true _
  · exact h.takeAttached _ _
  · exact ensures_fail _

theorem Consistent.takeShort (h : r.Consistent) (t : Text) : Ensures (r.takeShort t) Consistent := by
  induction t generalizing r with
  | nil => exact h
  | cons c rest ih =>
    unfold Reader.takeShort
    split
    · exact ensures_fail _
    · split
      · exact h.takeOption false _
      · exact h.takeAttached _ _
      · exact h.takeAttached _ _
    · exact (h.takeOption false _).bind fun r h => ih h

theorem Consistent.takeFile (h : r.Consistent) (t : Text) : Ensures (r.takeFile t) Consistent := by
  unfold Reader.takeFile
  split
  · exact ⟨h.isOn_iff, h.nodup⟩
  · exact h.resolve.bind fun r h => ⟨h.isOn_iff, h.nodup⟩

theorem Consistent.takeValue (h : r.Consistent) (t : Text) : Ensures (r.takeValue t) Consistent := by
  unfold Reader.takeValue
  split
  · exact ⟨h.isOn_iff, h.nodup⟩
  · exact h.takeFile t

/-! ### All arguments -/

theorem Consistent.takeFiles (h : r.Consistent) (files : List Text) :
    Ensures (files.foldlM Reader.takeFile r) Consistent := by
  induction files generalizing r with
  | nil => exact h
  | cons t rest ih =>
    rw [List.foldlM_cons]
    exact (h.takeFile t).bind fun r h => ih h

theorem Consistent.takeAll (h : r.Consistent) (args : List Text) :
    Ensures (r.takeAll args) Consistent := by
  induction args generalizing r with
  | nil => exact h
  | cons t rest ih =>
    unfold Reader.takeAll
    split
    · exact h.takeFiles rest
    · exact (h.takeLong _).bind fun r h => ih h
    · exact (h.takeValue _).bind fun r h => ih h
    · exact (h.takeShort _).bind fun r h => ih h
    · exact (h.takeValue _).bind fun r h => ih h

end Consistent

/-! ### The rules between switches -/

/-- No two modes at once, and something to rewrite in place. -/
structure Accepted (a : Arguments) : Prop where
  one_mode : ¬ (a.inPlace = true ∧ a.listPipes = true)
  files_of_inPlace : a.inPlace = true → a.files ≠ []

/-- Two switches that were met once each are all there is of them. -/
theorem exists_filter_eq_pair {switches : List Switch} (h : switches.Nodup) (hi : .inPlace ∈ switches)
    (hl : .listPipes ∈ switches) :
    ∃ first second, switches.filter (fun s => s = .inPlace || s = .listPipes) = [first, second] := by
  apply List.length_eq_two.mp
  have hperm : (switches.filter (fun s => s = .inPlace || s = .listPipes)).Perm
      [.inPlace, .listPipes] := by
    rw [List.perm_ext_iff_of_nodup (h.filter _) (by decide)]
    intro s
    rw [List.mem_filter]
    constructor
    · rintro ⟨-, hs⟩
      simpa using hs
    · intro hs
      refine ⟨?_, by simpa using hs⟩
      rcases List.mem_pair.mp hs with rfl | rfl
      · exact hi
      · exact hl
  exact hperm.length_eq

theorem Consistent.finish {r : Reader} (h : r.Consistent) : Ensures r.finish Accepted := by
  refine h.resolve.bind fun r h => ?_
  dsimp only
  split
  · exact ensures_fail _
  · rename_i hpair
    split
    · exact ensures_fail _
    · rename_i hfiles
      refine ⟨?_, fun hi hempty => hfiles (by simp [hi, hempty])⟩
      rintro ⟨hi, hl⟩
      obtain ⟨first, second, heq⟩ := exists_filter_eq_pair h.nodup ((h.isOn_iff .inPlace).mp hi)
        ((h.isOn_iff .listPipes).mp hl)
      exact hpair first second heq

end Reader

/-- A run that is asked for was read to the end, and its arguments break no rule between them. -/
theorem outcome_of_parse {args : List Text} {a : Arguments} (h : parse args = .ok (.run a)) :
    (({} : Reader).takeAll args >>= Reader.finish) = .ok a ∧ Reader.Accepted a := by
  have hstart : ({} : Reader).Consistent := ⟨fun s => by cases s <;> simp [Reader.isOn], List.nodup_nil⟩
  have haccepted := (hstart.takeAll args).bind fun r h => h.finish
  unfold parse at h
  split at h
  · rename_i heq
    cases h
    rw [heq] at haccepted
    exact ⟨heq, haccepted⟩
  · rename_i heq
    cases h
    rw [heq] at haccepted
    exact absurd rfl (haccepted a)
  · cases h

theorem accepted_of_parse {args : List Text} {a : Arguments} (h : parse args = .ok (.run a)) :
    Reader.Accepted a :=
  (outcome_of_parse h).2

end PipeBlocks.CommandLine
