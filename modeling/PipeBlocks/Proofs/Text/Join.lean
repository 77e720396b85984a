import PipeBlocks.Text.Basic

/-! Joined texts.

A joined text is its first part and then each other part behind the separator (`join_cons`). It
holds a character as often as its parts do, and as the separator does between them
(`count_join`). -/
namespace PipeBlocks.Text

theorem join_cons (separator t : Text) (l : List Text) :
    join separator (t :: l) = t ++ l.flatMap (separator ++ ·) := by
  induction l generalizing t with
  | nil => simp [join]
  | cons u rest ih => rw [join, ih u]; simp

theorem count_flatMap_append (c : Char) (separator : Text) (l : List Text) :
    (l.flatMap (separator ++ ·)).count c = l.flatten.count c + l.length * separator.count c := by
  induction l with
  | nil => simp
  | cons t rest ih =>
    rw [List.flatMap_cons, List.flatten_cons, List.length_cons, List.count_append, List.count_append,
      List.count_append, ih, Nat.succ_mul]
    omega

theorem count_join (c : Char) (separator : Text) (l : List Text) :
    (join separator l).count c = l.flatten.count c + (l.length - 1) * separator.count c := by
  cases l with
  | nil => simp [join]
  | cons t rest =>
    rw [join_cons, List.count_append, count_flatMap_append, List.flatten_cons, List.count_append,
      List.length_cons, Nat.add_sub_cancel]
    omega

end PipeBlocks.Text
