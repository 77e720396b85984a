import PipeBlocks.Text.Basic

/-! Sets of names, as lists in ascending order without repetitions.

Texts are ordered by their characters' code points, which is also the order of
their UTF-8 bytes. -/
namespace PipeBlocks.Names

def insert (x : Text) : List Text → List Text
  | [] => [x]
  | y :: rest => if x < y then x :: y :: rest else if x = y then y :: rest else y :: insert x rest

/-- The members of a list, each once, in ascending order. -/
def ofList (l : List Text) : List Text := l.foldr insert []

@[simp] theorem mem_insert {x y : Text} {l : List Text} : y ∈ insert x l ↔ y = x ∨ y ∈ l := by
  induction l with
  | nil => simp [insert]
  | cons z rest ih =>
    rw [insert]
    split
    · exact List.mem_cons
    · split
      · rename_i hxz
        rw [hxz, List.mem_cons, ← or_assoc, or_self]
      · rw [List.mem_cons, ih, List.mem_cons, or_left_comm]

@[simp] theorem mem_ofList {y : Text} {l : List Text} : y ∈ ofList l ↔ y ∈ l := by
  induction l with
  | nil => rfl
  | cons x rest ih =>
    show y ∈ insert x (ofList rest) ↔ _
    rw [mem_insert, ih, List.mem_cons]

end PipeBlocks.Names
