import PipeBlocks.FileSystem
import Mathlib.Data.List.Basic

/-! Reading after writing.

Where a path leads depends on what leads on, which is the directories and the links
(`location?_congr`). Writing replaces a file by a file, or is refused, so every path leads where it
led before, and what a path reads is the text at that place (`text?_eq`). -/
namespace PipeBlocks

theorem toOption_bind {ε α β : Type} (x : Except ε α) (f : α → Except ε β) :
    (x >>= f).toOption = x.toOption.bind fun a => (f a).toOption := by
  cases x <;> rfl

namespace FileSystem

/-! ### Nodes -/

section Replace
variable {l : Location} (n : Node)

theorem lookup_replace_self {nodes : List (Location × Node)} (h : ∃ entry ∈ nodes, entry.1 = l) :
    (nodes.map fun entry => if entry.1 = l then (l, n) else entry).lookup l = some n := by
  induction nodes with
  | nil => simp at h
  | cons entry rest ih =>
    rw [List.map_cons]
    split
    · simp
    · rename_i hne
      have hrest : ∃ entry ∈ rest, entry.1 = l := by simpa [hne] using h
      have hkey : (l == entry.1) = false := beq_eq_false_iff_ne.mpr (Ne.symm hne)
      rw [List.lookup_cons, hkey, ih hrest]

theorem lookup_replace_of_ne (nodes : List (Location × Node)) {l' : Location} (h : l' ≠ l) :
    (nodes.map fun entry => if entry.1 = l then (l, n) else entry).lookup l' = nodes.lookup l' := by
  induction nodes with
  | nil => rfl
  | cons entry rest ih =>
    rw [List.map_cons]
    split
    · rename_i heq
      have hkey : (l' == l) = false := beq_eq_false_iff_ne.mpr h
      rw [List.lookup_cons, List.lookup_cons, heq, hkey, ih]
    · rw [List.lookup_cons, List.lookup_cons, ih]

end Replace

/-- The node put at a location is there, and all others are what they were. -/
theorem node?_set {l : Location} (hl : l ≠ []) (fs : FileSystem) (n : Node) (l' : Location) :
    (fs.set l n).node? l' = if l' = l then some n else fs.node? l' := by
  unfold node? set
  dsimp only
  by_cases hroot : l' = []
  · rw [if_pos hroot, if_pos hroot, if_neg fun h => hl (h.symm.trans hroot)]
  rw [if_neg hroot, if_neg hroot]
  by_cases heq : l' = l
  · subst heq
    rw [if_pos rfl]
    split
    · rename_i hany
      simp only [List.any_eq_true, decide_eq_true_eq] at hany
      exact lookup_replace_self n hany
    · rename_i hany
      simp only [List.any_eq_true, decide_eq_true_eq, not_exists, not_and] at hany
      have hnone : fs.nodes.lookup l' = none :=
        List.lookup_eq_none_iff.mpr fun entry hentry => bne_iff_ne.mpr (Ne.symm (hany entry hentry))
      simp [List.lookup_append, hnone]
  · rw [if_neg heq]
    split
    · exact lookup_replace_of_ne n fs.nodes heq
    · have hkey : (l' == l) = false := beq_eq_false_iff_ne.mpr heq
      simp [List.lookup_append, List.lookup_cons, hkey]

/-- The text that can be read at a location. -/
def textAt? (fs : FileSystem) (l : Location) : Option Text :=
  match fs.node? l with
  | some (.file (.text t)) => some t
  | _ => none

theorem textAt?_eq_some_iff {fs : FileSystem} {l : Location} {t : Text} :
    fs.textAt? l = some t ↔ fs.node? l = some (.file (.text t)) := by
  unfold textAt?
  split
  · rename_i h
    simp [h]
  · rename_i h
    exact ⟨nofun, fun ht => absurd ht (h t)⟩

theorem textAt?_congr {fs fs' : FileSystem} {l : Location} (h : fs.node? l = fs'.node? l) :
    fs.textAt? l = fs'.textAt? l := by
  unfold textAt?
  rw [h]

/-! ### Paths -/

end FileSystem

/-- What leads on: a directory, or a link. -/
def Node.leadsOn : Node → Bool
  | .directory | .link _ => true
  | .file _ | .barred _ => false

namespace FileSystem

/-- What leads on from a location. -/
def way? (fs : FileSystem) (l : Location) : Option Node := (fs.node? l).filter Node.leadsOn

theorem target?_eq (fs : FileSystem) (l : Location) :
    (fs.node? l).bind Node.target? = (fs.way? l).bind Node.target? := by
  unfold way?
  rcases fs.node? l with _ | (_ | _ | _ | _) <;> rfl

/-- Only directories can be entered. -/
theorem toOption_step (fs : FileSystem) (l : Location) (name : Text) :
    (fs.step l name).toOption = if fs.way? l = some .directory then some (next l name) else none := by
  unfold step way?
  rcases fs.node? l with _ | (_ | _ | _ | _) <;> rfl

/-- The same leads on everywhere. -/
structure SameWays (fs fs' : FileSystem) : Prop where
  workingDirectory : fs.workingDirectory = fs'.workingDirectory
  way? : ∀ l, fs.way? l = fs'.way? l

theorem SameWays.refl (fs : FileSystem) : SameWays fs fs := ⟨rfl, fun _ => rfl⟩

theorem SameWays.trans {fs fs' fs'' : FileSystem} (h : SameWays fs fs') (h' : SameWays fs' fs'') :
    SameWays fs fs'' :=
  ⟨h.workingDirectory.trans h'.workingDirectory, fun l => (h.way? l).trans (h'.way? l)⟩

section Walk
variable {fs fs' : FileSystem}

theorem walkWith_congr (h : SameWays fs fs')
    {follow follow' : Location → Text → List Text → Except FileError Location}
    (hfollow : ∀ directory target rest,
      (follow directory target rest).toOption = (follow' directory target rest).toOption)
    (l : Location) (names : List Text) :
    (fs.walkWith follow l names).toOption = (fs'.walkWith follow' l names).toOption := by
  induction names generalizing l with
  | nil => rfl
  | cons name rest ih =>
    have hstep : (fs.step l name).toOption = (fs'.step l name).toOption := by
      rw [toOption_step, toOption_step, h.way?]
    rw [walkWith, walkWith, toOption_bind, toOption_bind, hstep]
    congr 1
    funext next
    rw [target?_eq, target?_eq, h.way?]
    cases (fs'.way? next).bind Node.target? with
    | none => exact ih next
    | some target => exact hfollow next.dropLast target rest

theorem walk_congr (h : SameWays fs fs') (links : Nat) (l : Location) (names : List Text) :
    (fs.walk links l names).toOption = (fs'.walk links l names).toOption := by
  induction links generalizing l names with
  | zero => exact walkWith_congr h (fun _ _ _ => rfl) l names
  | succ links ih => exact walkWith_congr h (fun _ _ _ => ih _ _) l names

end Walk

/-- Where a path leads. -/
def location? (fs : FileSystem) (path : Text) : Option Location := (fs.resolve path).toOption

theorem location?_congr {fs fs' : FileSystem} (h : SameWays fs fs') (path : Text) :
    fs.location? path = fs'.location? path := by
  unfold location? resolve
  rw [h.workingDirectory]
  split
  · rfl
  · exact walk_congr h _ _ _

/-- A path begins at the root or in the working directory, a link where it stands, and `..` goes up
from where a link led. A link to itself leads nowhere. -/
example :
    let fs : FileSystem :=
      { nodes := [(["src".toList], .directory), (["src".toList, "ui".toList], .directory),
          (["work".toList], .directory), (["work".toList, "now".toList], .link "../src/ui".toList),
          (["work".toList, "loop".toList], .link "loop".toList)]
        workingDirectory := ["work".toList] }
    fs.location? "now/A".toList = some ["src".toList, "ui".toList, "A".toList] ∧
      fs.location? "/work/now/../B".toList = some ["src".toList, "B".toList] ∧
      fs.location? "../../C".toList = some ["C".toList] ∧ fs.location? "loop".toList = none := by
  decide +kernel

/-! ### Reading -/

section Read
variable {fs : FileSystem} {path : Text}

/-- The text that can be read at a path. -/
def text? (fs : FileSystem) (path : Text) : Option Text := (fs.read path).toOption

theorem text?_eq_some_iff {t : Text} : fs.text? path = some t ↔ fs.read path = .ok t := by
  unfold text?
  cases fs.read path <;> simp [Except.toOption]

theorem text?_eq (fs : FileSystem) (path : Text) :
    fs.text? path = (fs.location? path).bind fs.textAt? := by
  refine (toOption_bind _ _).trans ?_
  unfold location?
  congr 1
  funext l
  unfold textAt?
  rcases fs.node? l with _ | ((t | b) | _ | _ | _) <;> rfl

theorem text?_of_location? {l : Location} (h : fs.location? path = some l) :
    fs.text? path = fs.textAt? l := by
  rw [text?_eq, h, Option.bind_some]

/-- A path at which a text can be read leads to a place that holds it. -/
theorem exists_location? {t : Text} (h : fs.text? path = some t) :
    ∃ l, fs.location? path = some l ∧ fs.textAt? l = some t := by
  rw [text?_eq] at h
  exact Option.bind_eq_some_iff.mp h

/-- What is read at a path depends on what leads on, and on the one place it leads to. -/
theorem text?_congr {fs' : FileSystem} (h : SameWays fs fs')
    (hnode : ∀ l, fs.location? path = some l → fs.node? l = fs'.node? l) :
    fs.text? path = fs'.text? path := by
  rw [text?_eq, text?_eq, ← location?_congr h]
  cases hl : fs.location? path with
  | none => rfl
  | some l => exact textAt?_congr (hnode l hl)

end Read

/-! ### Writing -/

section Write
variable {fs : FileSystem} {path t : Text} {l : Location} {cause : FileError}

/-- The system does not refuse to write where the path leads. -/
def Writable (fs : FileSystem) (path : Text) : Prop :=
  ∀ l, fs.location? path = some l → fs.refusal? l = none

/-- The root is no file. -/
theorem ne_nil_of_textAt? {old : Text} (h : fs.textAt? l = some old) : l ≠ [] := by
  rintro rfl
  cases h

theorem resolve_of_location? (h : fs.location? path = some l) : fs.resolve path = .ok l := by
  unfold location? at h
  cases heq : fs.resolve path with
  | ok l' =>
    rw [heq] at h
    rw [Option.some.inj h]
  | error e =>
    rw [heq] at h
    cases h

/-- A file that can be read is replaced, unless the system refuses. -/
theorem write_of_allowed (hl : fs.location? path = some l) {old : Text}
    (h : fs.textAt? l = some old) (hw : fs.refusal? l = none) :
    fs.write path t = .ok (fs.set l (.file (.text t))) := by
  unfold write
  rw [resolve_of_location? hl]
  dsimp only [bind, Except.bind]
  rw [textAt?_eq_some_iff.mp h, hw]
  rfl

theorem write_of_refused (hl : fs.location? path = some l) {old : Text}
    (h : fs.textAt? l = some old) (hw : fs.refusal? l = some cause) :
    fs.write path t = .error cause := by
  unfold write
  rw [resolve_of_location? hl]
  dsimp only [bind, Except.bind]
  rw [textAt?_eq_some_iff.mp h, hw]
  rfl

end Write

end FileSystem
end PipeBlocks
