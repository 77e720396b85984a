import PipeBlocks.Proofs.CommandLine

/-! Options added to a command line.

While arguments are taken, two things matter of a reader: what is asked for so far, with the values
that are still being collected (`Reader.asked`), and which setting has yet to be given a value
(`Reader.waits`). Each part of a command line that is accepted does one thing to them
(`takeOption_eq_ok`, `takeAttached_eq_ok`, `takeValue_eq_ok`). So a command line and a longer one,
to which options were added that only exclude or report more, are read in step (`InStep`), and the
longer one asks for the same and for more of that (`adds_of_parse`). -/
namespace PipeBlocks.CommandLine

/-- `a'` asks for all that `a` asks for, and may exclude more and report more. -/
structure Arguments.Adds (a a' : Arguments) : Prop where
  files : a'.files = a.files
  namePrefix : a'.namePrefix = a.namePrefix
  config : a'.config = a.config
  inPlace : a'.inPlace = a.inPlace
  listPipes : a'.listPipes = a.listPipes
  exclude : a.exclude.Sublist a'.exclude
  svelteKitDefaults : a.svelteKitDefaults = true → a'.svelteKitDefaults = true
  debug : a.debug = true → a'.debug = true
  verbose : a.verbose = true → a'.verbose = true

namespace Arguments.Adds

theorem refl (a : Arguments) : a.Adds a := ⟨rfl, rfl, rfl, rfl, rfl, .refl _, id, id, id⟩

theorem trans {a b c : Arguments} (h : a.Adds b) (h' : b.Adds c) : a.Adds c where
  files := h'.files.trans h.files
  namePrefix := h'.namePrefix.trans h.namePrefix
  config := h'.config.trans h.config
  inPlace := h'.inPlace.trans h.inPlace
  listPipes := h'.listPipes.trans h.listPipes
  exclude := h.exclude.trans h'.exclude
  svelteKitDefaults := h'.svelteKitDefaults ∘ h.svelteKitDefaults
  debug := h'.debug ∘ h.debug
  verbose := h'.verbose ∘ h.verbose

end Arguments.Adds

/-! ### Longer command lines -/

/-- An argument that is taken for a value: it does not look like an option. -/
def IsValue (t : Text) : Prop := t.head? ≠ some '-' ∨ t = ['-']

/-- A switch that only excludes or reports more. -/
def Switch.IsAddition (s : Switch) : Prop := s = .debug ∨ s = .svelteKitDefaults ∨ s = .verbose

/-- The arguments of an option that only excludes or reports more, as it may be written. -/
inductive IsAddition : List Text → Prop
  | switch {s : Switch} (hs : s.IsAddition) : IsAddition [['-', '-'] ++ s.name.toList]
  | letter {c : Char} {s : Switch} (hc : Opt.ofShort? c = some (.switch s)) (hs : s.IsAddition) :
    IsAddition [['-', c]]
  | exclude {name value : Text} (hname : name = "--exclude".toList ∨ name = "-x".toList)
    (hvalue : IsValue value) : IsAddition [name, value]
  | excludeAttached (value : Text) : IsAddition ["--exclude=".toList ++ value]
  | letterAttached {value : Text} (hvalue : value ≠ []) : IsAddition ["-x".toList ++ value]

/-- `args'` is `args` with such options added anywhere, as long as they are read as options. -/
inductive Extends : List Text → List Text → Prop
  | nil : Extends [] []
  | files (rest : List Text) : Extends (['-', '-'] :: rest) (['-', '-'] :: rest)
  | keep {args args' : List Text} {t : Text} (ht : t ≠ ['-', '-']) (h : Extends args args') :
    Extends (t :: args) (t :: args')
  | add {args args' option : List Text} (ho : IsAddition option) (h : Extends args args') :
    Extends args (option ++ args')

/-- The setting, if it cannot do without a value. -/
def Setting.awaited : Setting → Option Setting
  | .files => none
  | s => some s

namespace Reader

/-! ### What a reader amounts to -/

/-- The arguments with the values of a setting. -/
def place (a : Arguments) : Setting → List Text → Arguments
  | .files, values => { a with files := a.files ++ values }
  | .exclude, value :: _ => { a with exclude := a.exclude ++ [value] }
  | .namePrefix, value :: _ => { a with namePrefix := some value }
  | .config, value :: _ => { a with config := some value }
  | _, [] => a

/-- What is asked for so far, with the values that are being collected. -/
def asked (r : Reader) : Arguments :=
  match r.pending with
  | none => r.arguments
  | some (s, values) => place r.arguments s values

/-- The setting that has yet to be given a value. -/
def waits (r : Reader) : Option Setting :=
  match r.pending with
  | some (s, []) => s.awaited
  | _ => none

/-- All that matters of a reader. -/
structure Amounts (r : Reader) (waits : Option Setting) (asked : Arguments) : Prop where
  waits_eq : r.waits = waits
  asked_eq : r.asked = asked

section Parts
variable {a b : Arguments} {r r₁ : Reader} {s : Setting} {values : List Text} {t : Text}

theorem exists_of_bind_eq_ok {α β : Type} {x : Outcome α} {f : α → Outcome β} {b : β}
    (h : (x >>= f) = .ok b) : ∃ a, x = .ok a ∧ f a = .ok b := by
  cases x with
  | ok a => exact ⟨a, rfl, h⟩
  | error e => cases h

theorem place_nil (a : Arguments) (s : Setting) : place a s [] = a := by
  cases s <;> simp [place]

theorem assign_eq_ok (h : assign a s values = .ok b) :
    b = place a s values ∧ (values = [] → s = .files) := by
  unfold assign at h
  split at h
  · obtain ⟨-, -, h⟩ := exists_of_bind_eq_ok h
    cases h
    exact ⟨rfl, fun _ => rfl⟩
  · cases h
    exact ⟨rfl, nofun⟩
  · split at h
    · cases h
    · cases h
      exact ⟨rfl, nofun⟩
  · split at h
    · cases h
    · obtain ⟨-, -, h⟩ := exists_of_bind_eq_ok h
      cases h
      exact ⟨rfl, nofun⟩
  · cases h

theorem resolve_eq_ok (h : r.resolve = .ok r₁) :
    r.waits = none ∧ r₁ = { r with arguments := r.asked, pending := none } := by
  unfold resolve at h
  unfold waits asked
  split at h
  · rename_i hp
    cases h
    obtain ⟨arguments, pending, switches⟩ := r
    cases hp
    exact ⟨rfl, rfl⟩
  · rename_i s values hp
    obtain ⟨b, hb, h⟩ := exists_of_bind_eq_ok h
    obtain ⟨rfl, hs⟩ := assign_eq_ok hb
    cases h
    cases values with
    | nil => simp [hp, hs rfl, Setting.awaited]
    | cons value values => simp [hp]

/-- A switch is turned on, and a setting is made ready for its values. -/
theorem takeOption_eq_ok {long : Bool} {o : Opt} (h : r.takeOption long o = .ok r₁) :
    r.waits = none ∧
      ((∃ s, o = .switch s ∧ r₁.Amounts none (turnOn r.asked s)) ∨
        ∃ s, o = .setting s ∧ r₁.Amounts s.awaited r.asked) := by
  obtain ⟨ρ, hρ, h⟩ := exists_of_bind_eq_ok h
  obtain ⟨hwaits, rfl⟩ := resolve_eq_ok hρ
  refine ⟨hwaits, ?_⟩
  split at h
  · split at h
    · cases h
    · cases h
      exact .inl ⟨_, rfl, ⟨rfl, rfl⟩⟩
  · cases h
    exact .inr ⟨_, rfl, ⟨rfl, place_nil r.asked _⟩⟩
  · cases h
  · cases h

theorem takeAttached_eq_ok (h : r.takeAttached s t = .ok r₁) :
    r.waits = none ∧ r₁.Amounts none (place r.asked s [t]) := by
  obtain ⟨ρ, hρ, h⟩ := exists_of_bind_eq_ok h
  obtain ⟨hwaits, rfl⟩ := resolve_eq_ok hρ
  obtain ⟨b, hb, h⟩ := exists_of_bind_eq_ok h
  obtain ⟨rfl, -⟩ := assign_eq_ok hb
  cases h
  exact ⟨hwaits, ⟨rfl, rfl⟩⟩

theorem takeFile_eq_ok (h : r.takeFile t = .ok r₁) :
    r.waits = none ∧ r₁.Amounts none (place r.asked .files [t]) := by
  unfold takeFile at h
  split at h
  · rename_i files hp
    cases h
    have hwaits : r.waits = none := by
      unfold waits
      rw [hp]
      cases files <;> rfl
    refine ⟨hwaits, ?_, ?_⟩
    · cases files <;> rfl
    · simp [asked, hp, place]
  · obtain ⟨ρ, hρ, h⟩ := exists_of_bind_eq_ok h
    obtain ⟨hwaits, rfl⟩ := resolve_eq_ok hρ
    cases h
    exact ⟨hwaits, ⟨rfl, rfl⟩⟩

/-- A value goes to the setting that waits for one; without such a setting it is a file. -/
theorem takeValue_eq_ok (h : r.takeValue t = .ok r₁) :
    r₁.Amounts none (place r.asked (r.waits.getD .files) [t]) := by
  unfold takeValue at h
  split at h
  · rename_i s hp
    cases h
    have hwaits : r.waits.getD .files = s := by
      rw [waits, hp]
      cases s <;> rfl
    have hasked : r.asked = r.arguments := by
      rw [asked, hp]
      exact place_nil r.arguments s
    exact ⟨rfl, by rw [hwaits, hasked]; rfl⟩
  · obtain ⟨hwaits, h⟩ := takeFile_eq_ok h
    rw [hwaits]
    exact h

theorem finish_eq_ok (h : r.finish = .ok a) : a = r.asked := by
  obtain ⟨ρ, hρ, h⟩ := exists_of_bind_eq_ok h
  obtain ⟨-, rfl⟩ := resolve_eq_ok hρ
  dsimp only at h
  split at h
  · cases h
  · split at h
    · cases h
    · cases h
      rfl

/-- Takes one argument that does not end the options. -/
def take (r : Reader) : Text → Outcome Reader
  | '-' :: '-' :: name => r.takeLong name
  | ['-'] => r.takeValue ['-']
  | '-' :: letters => r.takeShort letters
  | t => r.takeValue t

theorem takeAll_cons (ht : t ≠ ['-', '-']) (rest : List Text) :
    r.takeAll (t :: rest) = r.take t >>= fun r => r.takeAll rest := by
  rw [takeAll.eq_def]
  dsimp only
  split
  · exact absurd rfl ht
  · rfl
  · rfl
  · rw [take]
    all_goals assumption
  · rw [take]
    all_goals assumption

end Parts

/-! ### Reading in step -/

/-- What is added to arguments stays added when both are given the same. -/
theorem adds_turnOn {a a' : Arguments} (h : a.Adds a') (s : Switch) :
    (turnOn a s).Adds (turnOn a' s) := by
  cases s with
  | debug => exact { h with debug := fun _ => rfl }
  | svelteKitDefaults => exact { h with svelteKitDefaults := fun _ => rfl }
  | inPlace => exact { h with inPlace := rfl }
  | listPipes => exact { h with listPipes := rfl }
  | verbose => exact { h with verbose := fun _ => rfl }

theorem adds_place {a a' : Arguments} (h : a.Adds a') (s : Setting) (value : Text) :
    (place a s [value]).Adds (place a' s [value]) := by
  cases s with
  | files => exact { h with files := congrArg (· ++ [value]) h.files }
  | exclude => exact { h with exclude := h.exclude.append (.refl [value]) }
  | namePrefix => exact { h with namePrefix := rfl }
  | config => exact { h with config := rfl }

/-- The second of two readers is asked for all that the first is, and the same setting waits. -/
structure InStep (r r' : Reader) : Prop where
  waits : r'.waits = r.waits
  adds : r.asked.Adds r'.asked

namespace InStep
variable {r r' r₁ r₁' : Reader}

theorem of_amounts {w : Option Setting} {a a' : Arguments} (h : r.Amounts w a) (h' : r'.Amounts w a')
    (hadds : a.Adds a') : InStep r r' where
  waits := h'.waits_eq.trans h.waits_eq.symm
  adds := by
    rw [h.asked_eq, h'.asked_eq]
    exact hadds

theorem takeOption (hs : InStep r r') {long : Bool} {o : Opt} (h : r.takeOption long o = .ok r₁)
    (h' : r'.takeOption long o = .ok r₁') : InStep r₁ r₁' := by
  obtain ⟨-, ⟨s, rfl, ha⟩ | ⟨s, rfl, ha⟩⟩ := takeOption_eq_ok h
  · obtain ⟨-, ⟨s', heq, ha'⟩ | ⟨s', heq, -⟩⟩ := takeOption_eq_ok h'
    · cases heq
      exact of_amounts ha ha' (adds_turnOn hs.adds s)
    · cases heq
  · obtain ⟨-, ⟨s', heq, -⟩ | ⟨s', heq, ha'⟩⟩ := takeOption_eq_ok h'
    · cases heq
    · cases heq
      exact of_amounts ha ha' hs.adds

theorem takeAttached (hs : InStep r r') {s : Setting} {value : Text}
    (h : r.takeAttached s value = .ok r₁) (h' : r'.takeAttached s value = .ok r₁') :
    InStep r₁ r₁' := by
  obtain ⟨-, ha⟩ := takeAttached_eq_ok h
  obtain ⟨-, ha'⟩ := takeAttached_eq_ok h'
  exact of_amounts ha ha' (adds_place hs.adds s value)

theorem takeLong (hs : InStep r r') {t : Text} (h : r.takeLong t = .ok r₁)
    (h' : r'.takeLong t = .ok r₁') : InStep r₁ r₁' := by
  unfold Reader.takeLong at h h'
  dsimp only at h h'
  generalize Opt.ofLong? _ = o at h h'
  generalize t.dropWhile _ = v at h h'
  cases o with
  | none => cases h
  | some o =>
    cases v with
    | nil => exact hs.takeOption h h'
    | cons _ value =>
      cases o with
      | setting s => exact hs.takeAttached h h'
      | switch s => cases h
      | help => cases h
      | version => cases h

theorem takeShort (hs : InStep r r') {t : Text} (h : r.takeShort t = .ok r₁)
    (h' : r'.takeShort t = .ok r₁') : InStep r₁ r₁' := by
  induction t generalizing r r' with
  | nil =>
    cases h
    cases h'
    exact hs
  | cons c rest ih =>
    unfold Reader.takeShort at h h'
    generalize Opt.ofShort? c = o at h h'
    cases o with
    | none => cases h
    | some o =>
      cases o with
      | setting s =>
        dsimp only at h h'
        split at h
        · exact hs.takeOption h h'
        · exact hs.takeAttached h h'
        · rename_i hnil hattached
          split at h'
          · exact absurd rfl hnil
          · exact absurd rfl (hattached _)
          · exact hs.takeAttached h h'
      | switch _ | help | version =>
        obtain ⟨ρ, hρ, h⟩ := exists_of_bind_eq_ok h
        obtain ⟨ρ', hρ', h'⟩ := exists_of_bind_eq_ok h'
        exact ih (hs.takeOption hρ hρ') h h'

theorem takeFile (hs : InStep r r') {t : Text} (h : r.takeFile t = .ok r₁)
    (h' : r'.takeFile t = .ok r₁') : InStep r₁ r₁' := by
  obtain ⟨-, ha⟩ := takeFile_eq_ok h
  obtain ⟨-, ha'⟩ := takeFile_eq_ok h'
  exact of_amounts ha ha' (adds_place hs.adds .files t)

theorem takeValue (hs : InStep r r') {t : Text} (h : r.takeValue t = .ok r₁)
    (h' : r'.takeValue t = .ok r₁') : InStep r₁ r₁' := by
  have ha' := takeValue_eq_ok h'
  rw [hs.waits] at ha'
  exact of_amounts (takeValue_eq_ok h) ha' (adds_place hs.adds _ t)

theorem take (hs : InStep r r') {t : Text} (h : r.take t = .ok r₁) (h' : r'.take t = .ok r₁') :
    InStep r₁ r₁' := by
  unfold Reader.take at h
  split at h
  · exact hs.takeLong h h'
  · exact hs.takeValue h h'
  · rw [Reader.take] at h'
    · exact hs.takeShort h h'
    all_goals assumption
  · rw [Reader.take] at h'
    · exact hs.takeValue h h'
    all_goals assumption

theorem takeFiles (hs : InStep r r') {files : List Text}
    (h : files.foldlM Reader.takeFile r = .ok r₁) (h' : files.foldlM Reader.takeFile r' = .ok r₁') :
    InStep r₁ r₁' := by
  induction files generalizing r r' with
  | nil =>
    cases h
    cases h'
    exact hs
  | cons t rest ih =>
    rw [List.foldlM_cons] at h h'
    obtain ⟨ρ, hρ, h⟩ := exists_of_bind_eq_ok h
    obtain ⟨ρ', hρ', h'⟩ := exists_of_bind_eq_ok h'
    exact ih (hs.takeFile hρ hρ') h h'

end InStep

/-! ### Reading an option that is added -/

section Addition
variable {r r₁ z : Reader} {rest : List Text}

theorem adds_turnOn_self {s : Switch} (hs : s.IsAddition) (a : Arguments) : a.Adds (turnOn a s) := by
  rcases hs with rfl | rfl | rfl
  · exact { Arguments.Adds.refl a with debug := fun _ => rfl }
  · exact { Arguments.Adds.refl a with svelteKitDefaults := fun _ => rfl }
  · exact { Arguments.Adds.refl a with verbose := fun _ => rfl }

theorem adds_place_exclude (a : Arguments) (value : Text) : a.Adds (place a .exclude [value]) :=
  { Arguments.Adds.refl a with exclude := List.sublist_append_left a.exclude [value] }

theorem take_of_isValue {t : Text} (h : IsValue t) : r.take t = r.takeValue t ∧ t ≠ ['-', '-'] := by
  rcases h with h | rfl
  · cases t with
    | nil => exact ⟨rfl, nofun⟩
    | cons c t =>
      have hc : c ≠ '-' := by simpa using h
      refine ⟨?_, fun heq => hc (List.cons.inj heq).1⟩
      rw [take] <;> simp [hc]
  · exact ⟨rfl, nofun⟩

theorem inStep_of_switch {long : Bool} {s : Switch} (hs : s.IsAddition)
    (h : r.takeOption long (.switch s) = .ok r₁) : InStep r r₁ := by
  obtain ⟨hwaits, ⟨s', heq, ha⟩ | ⟨s', heq, -⟩⟩ := takeOption_eq_ok h
  · cases heq
    exact .of_amounts ⟨hwaits, rfl⟩ ha (adds_turnOn_self hs r.asked)
  · cases heq

theorem inStep_of_attached {value : Text} (h : r.takeAttached .exclude value = .ok r₁) :
    InStep r r₁ := by
  obtain ⟨hwaits, ha⟩ := takeAttached_eq_ok h
  exact .of_amounts ⟨hwaits, rfl⟩ ha (adds_place_exclude r.asked value)

theorem inStep_of_value {long : Bool} {ρ : Reader} {value : Text}
    (h : r.takeOption long (.setting .exclude) = .ok ρ) (hv : ρ.takeValue value = .ok r₁) :
    InStep r r₁ := by
  obtain ⟨hwaits, ⟨s, heq, -⟩ | ⟨s, heq, hready⟩⟩ := takeOption_eq_ok h
  · cases heq
  · cases heq
    have ha := takeValue_eq_ok hv
    rw [hready.waits_eq, hready.asked_eq] at ha
    exact .of_amounts ⟨hwaits, rfl⟩ ha (adds_place_exclude r.asked value)

theorem take_switch (s : Switch) :
    r.take (['-', '-'] ++ s.name.toList) = r.takeOption true (.switch s) ∧
      ['-', '-'] ++ s.name.toList ≠ ['-', '-'] := by
  cases s <;> exact ⟨rfl, by decide⟩

theorem take_letter {c : Char} {s : Switch} (hc : Opt.ofShort? c = some (.switch s)) :
    r.take ['-', c] = r.takeOption false (.switch s) ∧ ['-', c] ≠ ['-', '-'] := by
  have hne : c ≠ '-' := by
    rintro rfl
    cases hc
  have htake : r.take ['-', c] = r.takeShort [c] := by rw [take] <;> simp [hne]
  refine ⟨?_, by simpa using hne⟩
  rw [htake, takeShort, hc]
  show (r.takeOption false (.switch s) >>= Except.ok) = _
  cases r.takeOption false (.switch s) <;> rfl

theorem take_exclude {name : Text} (h : name = "--exclude".toList ∨ name = "-x".toList) :
    (∃ long, r.take name = r.takeOption long (.setting .exclude)) ∧ name ≠ ['-', '-'] := by
  rcases h with rfl | rfl
  · exact ⟨⟨true, rfl⟩, by decide⟩
  · exact ⟨⟨false, rfl⟩, by decide⟩

theorem take_attached (value : Text) :
    r.take ("--exclude=".toList ++ value) = r.takeAttached .exclude value := rfl

/-- The value of an option of one letter may follow an equals sign. -/
theorem exists_take_attached {value : Text} (h : value ≠ []) :
    ∃ value', r.take ("-x".toList ++ value) = r.takeAttached .exclude value' := by
  cases value with
  | nil => exact absurd rfl h
  | cons c value =>
    by_cases hc : c = '='
    · subst hc
      exact ⟨value, rfl⟩
    · refine ⟨c :: value, ?_⟩
      show r.takeShort ('x' :: c :: value) = _
      rw [takeShort]
      simp only [Opt.ofShort?]
      split
      · rename_i heq
        cases heq
      · rename_i heq
        exact absurd (List.cons.inj heq).1 hc
      · rfl

/-- An added option is taken in passing. -/
theorem exists_of_takeAll_addition {option : List Text} (ho : IsAddition option)
    (h : r.takeAll (option ++ rest) = .ok z) : ∃ r₁, InStep r r₁ ∧ r₁.takeAll rest = .ok z := by
  cases ho with
  | @switch s hs =>
    obtain ⟨htake, hne⟩ := take_switch (r := r) s
    rw [List.singleton_append, takeAll_cons hne, htake] at h
    obtain ⟨r₁, h₁, h⟩ := exists_of_bind_eq_ok h
    exact ⟨r₁, inStep_of_switch hs h₁, h⟩
  | letter hc hs =>
    obtain ⟨htake, hne⟩ := take_letter (r := r) hc
    rw [List.singleton_append, takeAll_cons hne, htake] at h
    obtain ⟨r₁, h₁, h⟩ := exists_of_bind_eq_ok h
    exact ⟨r₁, inStep_of_switch hs h₁, h⟩
  | exclude hname hv =>
    obtain ⟨⟨long, htake⟩, hne⟩ := take_exclude (r := r) hname
    rw [List.cons_append, takeAll_cons hne, htake, List.singleton_append] at h
    obtain ⟨ρ, hρ, h⟩ := exists_of_bind_eq_ok h
    obtain ⟨htake, hne⟩ := take_of_isValue (r := ρ) hv
    rw [takeAll_cons hne, htake] at h
    obtain ⟨r₁, h₁, h⟩ := exists_of_bind_eq_ok h
    exact ⟨r₁, inStep_of_value hρ h₁, h⟩
  | excludeAttached value =>
    have hne : "--exclude=".toList ++ value ≠ ['-', '-'] := by simp
    rw [List.singleton_append, takeAll_cons hne, take_attached] at h
    obtain ⟨r₁, h₁, h⟩ := exists_of_bind_eq_ok h
    exact ⟨r₁, inStep_of_attached h₁, h⟩
  | @letterAttached value hvalue =>
    have hne : "-x".toList ++ value ≠ ['-', '-'] := by simp
    obtain ⟨value', htake⟩ := exists_take_attached (r := r) hvalue
    rw [List.singleton_append, takeAll_cons hne, htake] at h
    obtain ⟨r₁, h₁, h⟩ := exists_of_bind_eq_ok h
    exact ⟨r₁, inStep_of_attached h₁, h⟩

end Addition

/-! ### Whole command lines -/

theorem InStep.trans {r r₁ r₂ : Reader} (h : InStep r r₁) (h' : InStep r₁ r₂) : InStep r r₂ :=
  ⟨h'.waits.trans h.waits, h.adds.trans h'.adds⟩

theorem InStep.takeAll {r r' r₁ r₁' : Reader} {args args' : List Text} (hs : InStep r r')
    (hext : Extends args args') (h : r.takeAll args = .ok r₁) (h' : r'.takeAll args' = .ok r₁') :
    InStep r₁ r₁' := by
  induction hext generalizing r r' with
  | nil =>
    cases h
    cases h'
    exact hs
  | files rest => exact hs.takeFiles h h'
  | keep ht _ ih =>
    rw [takeAll_cons ht] at h h'
    obtain ⟨ρ, hρ, h⟩ := exists_of_bind_eq_ok h
    obtain ⟨ρ', hρ', h'⟩ := exists_of_bind_eq_ok h'
    exact ih (hs.take hρ hρ') h h'
  | add ho _ ih =>
    obtain ⟨ρ', hρ', h'⟩ := exists_of_takeAll_addition ho h'
    exact ih (hs.trans hρ') h h'

end Reader

/-- **Options that are added only add.** If a command line is accepted, and so it is with more options
in it that exclude or report, wherever these stand, then the longer one asks for the same files, in
the same way and with the same prefix and settings file, and for all that the shorter one excludes
and reports. -/
theorem adds_of_parse {args args' : List Text} {a a' : Arguments} (hext : Extends args args')
    (h : parse args = .ok (.run a)) (h' : parse args' = .ok (.run a')) : a.Adds a' := by
  obtain ⟨r, hr, hfinish⟩ := Reader.exists_of_bind_eq_ok (outcome_of_parse h).1
  obtain ⟨r', hr', hfinish'⟩ := Reader.exists_of_bind_eq_ok (outcome_of_parse h').1
  have hstart : Reader.InStep {} {} := ⟨rfl, .refl _⟩
  rw [Reader.finish_eq_ok hfinish, Reader.finish_eq_ok hfinish']
  exact (hstart.takeAll hext hr hr').adds

end PipeBlocks.CommandLine
