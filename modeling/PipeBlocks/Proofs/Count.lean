import PipeBlocks.Proofs.Call
import PipeBlocks.Proofs.Text.Join

/-! Counting what a call keeps.

Splitting takes out separators and nothing else: joined again, the pieces are the text
(`join_splitFrom`). Trimming and leaving out blank pieces only lose white space. So a character
that is neither white space nor a colon or comma stands in the calls as often as in the text they
are made of, but for the pipes that separate and the prefix and parentheses of each call
(`count_nest_of_cut`). A call expression has more parentheses than its text and cannot be equal to
it (`nest_ne_of_cut`). -/
namespace PipeBlocks
open Text Scan

variable {c : Char}

/-! ### Pieces -/

/-- Nothing but the separators is lost in a split. -/
theorem Scan.join_splitFrom (d : Delimiter) (s : State) (t : Text) :
    join [d.char] (splitFrom d s t) = t := by
  induction s, t using split_induction (d := d) with
  | whole s t h => rw [splitFrom_of_whole h]; rfl
  | cut s t x y cut ih =>
    obtain ⟨p, rest, hy⟩ := List.exists_cons_of_ne_nil (splitFrom_ne_nil d .start y)
    rw [splitFrom_of_cut cut, split, hy, join, ← hy, ih, cut.eq, List.append_assoc]
    rfl

theorem Scan.count_split (d : Delimiter) (t : Text) :
    t.count c = (split d t).flatten.count c + ((split d t).length - 1) * [d.char].count c := by
  rw [← count_join]
  exact congrArg _ (join_splitFrom d .start t).symm

theorem count_map_trim (hc : isSpace c = false) (l : List Text) :
    (l.map trim).flatten.count c = l.flatten.count c := by
  induction l with
  | nil => rfl
  | cons t rest ih => simp [ih, count_trim hc]

/-! ### Stages -/

/-- The texts of stages, one behind the other. -/
def stagesText (l : List Stage) : Text := l.flatMap fun s => s.texts.flatten

@[simp] theorem stagesText_cons (s : Stage) (l : List Stage) :
    stagesText (s :: l) = s.name ++ s.arguments.flatten ++ stagesText l := by
  simp [stagesText, Stage.texts]

theorem count_arguments (hc : isSpace c = false) (hcomma : c ≠ ',') (t : Text) :
    (arguments t).flatten.count c = t.count c := by
  have htokens : ((split .comma t).map trim).flatten.count c = t.count c := by
    have hk : [Delimiter.comma.char].count c = 0 := by simp [Delimiter.comma, hcomma.symm]
    rw [count_map_trim hc, count_split .comma t, hk, Nat.mul_zero, Nat.add_zero]
  unfold arguments
  dsimp only
  split
  · rename_i hblank
    exact (count_eq_zero_of_isBlank hblank hc).symm
  · split
    · -- The piece behind the last comma is empty.
      rename_i hlast
      obtain ⟨init, hinit⟩ := List.getLast?_eq_some_iff.mp hlast
      rw [hinit] at htokens ⊢
      simpa using htokens
    · exact htokens

theorem count_texts_parse (hc : isSpace c = false) (hcolon : c ≠ ':') (hcomma : c ≠ ',') (p : Text) :
    (Stage.parse p).texts.flatten.count c = p.count c := by
  rcases whole_or_cut .colon .start p with hw | ⟨x, y, cut⟩
  · rw [Stage.parse_of_whole hw]
    show (p.trim ++ []).count c = p.count c
    rw [List.append_nil, count_trim hc]
  · rw [Stage.parse_of_cut cut]
    show (x.trim ++ (arguments y.trim).flatten).count c = p.count c
    have hk : Delimiter.colon.char ≠ c := hcolon.symm
    rw [List.count_append, count_trim hc, arguments_trim, count_arguments hc hcomma, cut.eq,
      List.count_append, List.count_cons_of_ne hk]

theorem count_stages (hc : isSpace c = false) (hcolon : c ≠ ':') (hcomma : c ≠ ',') (t : Text) :
    t.count c = (stagesText (stages t)).count c + ((split .pipe t).length - 1) * ['|'].count c := by
  have hpieces (l : List Text) :
      (stagesText ((l.filter fun p => !p.isBlank).map Stage.parse)).count c = l.flatten.count c := by
    induction l with
    | nil => rfl
    | cons p rest ih =>
      by_cases hp : p.isBlank = true
      · simp [hp, ih, count_eq_zero_of_isBlank hp hc]
      · have := count_texts_parse hc hcolon hcomma p
        simp only [Stage.texts, List.flatten_cons, List.count_append] at this
        simp [hp, ih, ← this, Nat.add_assoc]
  rw [stages_eq, hpieces]
  exact count_split .pipe t

/-! ### Calls -/

theorem Stage.count_call (hc : isSpace c = false) (hcomma : c ≠ ',') (s : Stage)
    (namePrefix value : Text) : (s.call namePrefix value).count c = value.count c +
      (s.name ++ s.arguments.flatten).count c + (namePrefix ++ ['(', ')']).count c := by
  have hspace : c ≠ ' ' := by
    rintro rfl
    exact absurd hc (by decide)
  have hseparator : (", ".toList).count c = 0 := by simp [hcomma.symm, hspace.symm]
  rw [Stage.call_eq, show '(' :: (value ++ s.arguments.flatMap (", ".toList ++ ·)) ++ [')'] =
    ['('] ++ (value ++ s.arguments.flatMap (", ".toList ++ ·)) ++ [')'] from rfl,
    show ['(', ')'] = ['('] ++ [')'] from rfl]
  simp only [List.count_append, count_flatMap_append, hseparator, Nat.mul_zero, Nat.add_zero]
  omega

theorem count_nest (hc : isSpace c = false) (hcomma : c ≠ ',') (namePrefix value : Text)
    (l : List Stage) : (nest namePrefix value l).count c = value.count c + (stagesText l).count c +
      l.length * (namePrefix ++ ['(', ')']).count c := by
  induction l generalizing value with
  | nil => simp [stagesText]
  | cons s rest ih =>
    have htext : (stagesText (s :: rest)).count c =
        (s.name ++ s.arguments.flatten).count c + (stagesText rest).count c := by
      rw [stagesText_cons, List.count_append]
    rw [nest_cons, ih, s.count_call hc hcomma, htext, List.length_cons, Nat.succ_mul]
    omega

/-- Calls keep the characters of their text, but for the separating pipes, and each call adds its
prefix and parentheses. -/
theorem count_nest_of_cut (hc : isSpace c = false) (hcolon : c ≠ ':') (hcomma : c ≠ ',')
    {t x y : Text} (cut : CutAt .pipe .start t x y) (namePrefix : Text) :
    (nest namePrefix x.trim (stages y)).count c + ((split .pipe t).length - 1) * ['|'].count c =
      t.count c + (stages y).length * (namePrefix ++ ['(', ')']).count c := by
  have hlength : (split .pipe t).length - 1 = (split .pipe y).length - 1 + 1 := by
    have := List.length_pos_iff.mpr (splitFrom_ne_nil .pipe .start y)
    rw [split, splitFrom_of_cut cut, List.length_cons, split]
    omega
  have hy := count_stages hc hcolon hcomma y
  have ht : t.count c = x.count c + ['|'].count c + y.count c := by
    rw [cut.eq, List.count_append, ← List.singleton_append, List.count_append, Nat.add_assoc]
    rfl
  rw [count_nest hc hcomma, count_trim hc, hlength, Nat.add_mul]
  omega

/-- A text that is cut never reads like its calls. -/
theorem nest_ne_of_cut {t x y : Text} (cut : CutAt .pipe .start t x y) (hne : stages y ≠ [])
    (namePrefix : Text) : nest namePrefix x.trim (stages y) ≠ t := by
  intro h
  have hcount := count_nest_of_cut (c := '(') (by decide) (by decide) (by decide) cut namePrefix
  have hlength : 0 < (stages y).length := List.length_pos_iff.mpr hne
  have hparen : 0 < (namePrefix ++ ['(', ')']).count '(' := by simp
  have := Nat.mul_pos hlength hparen
  rw [h, show ['|'].count '(' = 0 from rfl, Nat.mul_zero] at hcount
  omega

end PipeBlocks
