import ModpackInstaller.Client.JvmParameters
import ModpackInstaller.Client.Response

/-!
# The memory of a profile

What the panel shows of a profile that is selected: its arguments in the box, and the
entry for the memory in the last option {lit}`-Xmx`.  The handler
{lit}`profileChooserActionPerformed` takes the last character of the option for the
unit, whatever it is.

Main results:

- Theorem {lit}`profileChooser_of_args`: what the handler does for a profile with
  arguments.
- Theorem {lit}`selected_iff`: for which options the entry is the right one.
- Theorem {lit}`chooser_iff`: for which profiles the panel shows what they have.
- Theorem {lit}`chooser_fails`: no arguments, an option without a size, and a unit
  other than gigabytes.
- Theorem {lit}`opened_iff`: when {lit}`changeJvmParameters` opens the panel.
-/

namespace ModpackInstaller
namespace Client
namespace JvmParameters

open Library

/-! ## The handler -/

/-- An exception that leaves `profileChooserActionPerformed`. -/
inductive Uncaught where
  /-- `NullPointerException` -/
  | nullPointer
  /-- `StringIndexOutOfBoundsException` -/
  | stringIndex
deriving DecidableEq, Repr

/-- `setSelectedIndex`, which calls the handler of the chooser. -/
def setSelectedIndex (index : Fin 13) (p : ParameterPanel) : ParameterPanel :=
  ramChooserActionPerformed { p with ramChooser := index }

/-- The index that is selected for a number. -/
def memoryIndex (memory : Int) : Fin 13 :=
  if memory ≤ 4 then firstEntry
  else if h : 4 < memory ∧ memory < 17 then ⟨(memory - 4).toNat, by omega⟩
  else lastEntry

/-- What stands behind the last option `-Xmx`; `none` is `null`. -/
def lastXmx (paramList : List Text) : Option Text :=
  paramList.foldl (fun last s => if xmx.isPrefixOf s then some (s.drop 4) else last) none

/-- `profileChooserActionPerformed` -/
def profileChooserActionPerformed (p : ParameterPanel) : Except Uncaught ParameterPanel :=
  if p.profiles.isEmpty then .ok p
  else
    match p.profile with
    | some (some javaArgs) =>
      let params := replaceAll [' '] ['\n'] javaArgs
      let shown := { p with parameterBox := params }
      match lastXmx (splitTrim '\n' params) with
      | none => .ok shown
      | some size =>
        -- `substring` with the end -1
        if size = [] then .error .stringIndex
        else
          match parseInt size.dropLast with
          -- the `NumberFormatException` is caught
          | none => .ok { shown with parameterBox := params }
          | some memory =>
            .ok { setSelectedIndex (memoryIndex memory) shown with parameterBox := params }
    | _ => .error .nullPointer

/-- `changeJvmParameters`, up to its listeners: whether the panel is opened, and the panel
with the first of the profiles. -/
def changeJvmParameters (packList : List Text) (p : ParameterPanel) :
    Except Uncaught (Bool × ParameterPanel) :=
  if packList.isEmpty then .ok (false, p)
  else
    let chosen := { p with profileChooser := p.profiles.head?.map Prod.fst }
    (profileChooserActionPerformed chosen).map fun q => (true, q)

/-! ## Sizes -/

/-- The separators of the arguments of a profile, and of the box. -/
def isBlank (c : Char) : Bool :=
  c = ' ' || c = '\n'

/-- The arguments of a profile. -/
def arguments (s : Text) : List Text :=
  tokens isBlank s

/-- What stands behind `-Xmx` in the last argument that begins so. -/
def effective (javaArgs : Text) : Option Text :=
  (((arguments javaArgs).filter xmx.isPrefixOf).getLast?).map fun s => s.drop 4

/-- The factor of a unit. -/
def unit (c : Char) : Option Nat :=
  if c = 'k' ∨ c = 'K' then some 1024
  else if c = 'm' ∨ c = 'M' then some (1024 * 1024)
  else if c = 'g' ∨ c = 'G' then some (1024 * 1024 * 1024)
  else none

/-- The digits of a number. -/
def IsNumber (s : Text) : Prop :=
  s ≠ [] ∧ ∀ c ∈ s, c.isDigit = true

instance : DecidablePred IsNumber :=
  fun s => decidable_of_iff (s ≠ [] ∧ s.all Char.isDigit = true) (by simp [IsNumber])

/-- The bytes of a size: a number with a unit or without. -/
def bytes (size : Text) : Option Nat :=
  match size.getLast?.bind unit with
  | some factor =>
    if IsNumber size.dropLast then some (digitsValue size.dropLast * factor) else none
  | none => if IsNumber size then some (digitsValue size) else none

/-- The entry for a number of bytes: its gigabytes, from 4 to 16. -/
def entry (b : Nat) : Fin 13 :=
  ⟨max 4 (min 16 (b / (1024 * 1024 * 1024))) - 4, by omega⟩

/-- The panel shows a profile: its arguments, and the entry of its memory when it has
one. -/
structure Shows (javaArgs : Option Text) (p : ParameterPanel) : Prop where
  memory : ∀ size ∈ effective (javaArgs.getD []), ∀ b ∈ bytes size, p.ramChooser = entry b
  box : arguments p.parameterBox = arguments (javaArgs.getD [])

/-- A size for which the right entry is selected, when another one is.  In a unit below
gigabytes it has a number up to 4 or is at least 16 gigabytes, and without a unit its
last digit is taken for one.  A number that is none for the code leaves the entry. -/
def Selectable (old : Fin 13) (size : Text) : Prop :=
  match size.getLast?.bind unit with
  | some factor =>
    IsNumber size.dropLast →
      (factor = 1024 * 1024 * 1024 ∨ digitsValue size.dropLast ≤ 4 ∨
        16 * (1024 * 1024 * 1024) ≤ digitsValue size.dropLast * factor) ∧
      (digitsValue size.dropLast ≤ 2147483647 ∨ old = lastEntry)
  | none =>
    IsNumber size →
      if size.length = 1 then old = firstEntry
      else digitsValue size ≤ 49 ∨
        16 * (1024 * 1024 * 1024) ≤ digitsValue size ∧
          (digitsValue size ≤ 21474836479 ∨ old = lastEntry)

instance (old : Fin 13) : DecidablePred (Selectable old) := by
  intro size
  unfold Selectable
  split <;> infer_instance

/-- The profile has arguments, and the last option `-Xmx` has a size for which the right
entry is selected. -/
def Showable (old : Fin 13) (javaArgs : Option Text) : Prop :=
  ∃ args ∈ javaArgs, ∀ size ∈ effective args, size ≠ [] ∧ Selectable old size

/-! ## Arguments -/

/-- The box has the arguments of the profile. -/
theorem arguments_params (javaArgs : Text) :
    arguments (replaceAll [' '] ['\n'] javaArgs) = arguments javaArgs :=
  tokens_replaceAll (by decide) (by decide) javaArgs

/-- The lines of the box that are not empty are the arguments of the profile. -/
theorem filter_lines_params (javaArgs : Text) :
    (splitTrim '\n' (replaceAll [' '] ['\n'] javaArgs)).filter (fun f => !f.isEmpty) =
      arguments javaArgs := by
  rw [← tokens_eq_filter_splitTrim, ← arguments_params javaArgs, arguments]
  apply tokens_congr
  intro c hc
  have hblank : c ≠ ' ' := by
    rintro rfl
    rw [replaceAll_eq_map, List.mem_map] at hc
    obtain ⟨d, -, hd⟩ := hc
    split at hd
    · cases hd
    · exact absurd hd (by assumption)
  rw [isBlank, decide_eq_false hblank, Bool.false_or]
  rfl

theorem lastXmx_eq (paramList : List Text) :
    lastXmx paramList =
      ((paramList.filter xmx.isPrefixOf).getLast?).map fun s => s.drop 4 := by
  induction paramList using List.reverseRecOn with
  | nil => rfl
  | append_singleton paramList s ih =>
      rw [lastXmx] at ih ⊢
      rw [List.foldl_append, ih, List.filter_append]
      by_cases hs : xmx.isPrefixOf s = true
      · rw [List.filter_cons_of_pos hs, List.filter_nil, List.getLast?_concat, List.foldl_cons,
          List.foldl_nil, if_pos hs]
        rfl
      · rw [List.filter_cons_of_neg hs, List.filter_nil, List.append_nil, List.foldl_cons,
          List.foldl_nil, if_neg hs]

/-- The handler finds the last option of the arguments. -/
theorem lastXmx_params (javaArgs : Text) :
    lastXmx (splitTrim '\n' (replaceAll [' '] ['\n'] javaArgs)) = effective javaArgs := by
  rw [lastXmx_eq, effective, ← filter_lines_params, List.filter_filter]
  have hnonempty : ∀ s : Text, (xmx.isPrefixOf s && !s.isEmpty) = xmx.isPrefixOf s := by
    intro s
    cases s with
    | nil => rfl
    | cons c s => simp
  simp only [hnonempty]

/-! ## The entry -/

/-- The entry that the handler leaves selected. -/
def selected (old : Fin 13) (size : Text) : Fin 13 :=
  match parseInt size.dropLast with
  | none => old
  | some memory => memoryIndex memory

theorem profiles_of_profile {p : ParameterPanel} {javaArgs : Option Text}
    (h : p.profile = some javaArgs) : p.profiles.isEmpty = false := by
  obtain ⟨name, -, hlookup⟩ := Option.bind_eq_some_iff.mp h
  cases hlist : p.profiles with
  | nil => simp [hlist] at hlookup
  | cons => rfl

/-- A profile without arguments throws. -/
theorem profileChooser_of_none {p : ParameterPanel} (h : p.profile = some none) :
    profileChooserActionPerformed p = .error .nullPointer := by
  simp [profileChooserActionPerformed, profiles_of_profile h, h]

/-- What the handler does for a profile with arguments. -/
theorem profileChooser_of_args {p : ParameterPanel} {javaArgs : Text}
    (h : p.profile = some (some javaArgs)) :
    profileChooserActionPerformed p =
      match effective javaArgs with
      | none => .ok { p with parameterBox := replaceAll [' '] ['\n'] javaArgs }
      | some size =>
        if size = [] then .error .stringIndex
        else .ok { p with
          ramChooser := selected p.ramChooser size
          parameterBox := replaceAll [' '] ['\n'] javaArgs } := by
  simp only [profileChooserActionPerformed, profiles_of_profile h, h, lastXmx_params]
  cases effective javaArgs with
  | none => rfl
  | some size =>
      by_cases hsize : size = []
      · simp [hsize]
      · simp only [hsize, if_false, selected]
        cases parseInt size.dropLast <;> rfl

theorem memoryIndex_val (n : Nat) : (memoryIndex n).val = max 4 (min 16 n) - 4 := by
  unfold memoryIndex
  split
  · change 0 = _
    omega
  · split
    · change ((n : Int) - 4).toNat = _
      omega
    · change 12 = _
      omega

theorem digitsValue_concat (s : Text) (c : Char) :
    digitsValue (s ++ [c]) = digitsValue s * 10 + (c.toNat - '0'.toNat) := by
  rw [digitsValue, List.foldl_append]
  rfl

theorem digit_le {c : Char} (h : c.isDigit = true) : c.toNat - '0'.toNat ≤ 9 := by
  obtain ⟨-, hupper⟩ := Char.isDigit_iff_toNat.mp h
  have hzero : '0'.toNat = 48 := rfl
  have hnine : '9'.toNat = 57 := rfl
  omega

/-- A number is in range or leaves the entry. -/
theorem selected_of_digits (old : Fin 13) {size : Text} (h : IsNumber size.dropLast) :
    (selected old size).val =
      if digitsValue size.dropLast ≤ 2147483647 then
        max 4 (min 16 (digitsValue size.dropLast)) - 4
      else old.val := by
  rw [selected, parseInt_of_digits h.1 h.2]
  split_ifs
  · exact memoryIndex_val _
  · rfl

theorem unit_eq {c : Char} {factor : Nat} (h : unit c = some factor) :
    factor = 1024 ∨ factor = 1024 * 1024 ∨ factor = 1024 * 1024 * 1024 := by
  unfold unit at h
  split_ifs at h <;> simp_all

/-- With a unit the number in front of it counts. -/
theorem entry_of_unit (old : Fin 13) (n : Nat) {factor : Nat}
    (hfactor : factor = 1024 ∨ factor = 1024 * 1024 ∨ factor = 1024 * 1024 * 1024) :
    (if n ≤ 2147483647 then max 4 (min 16 n) - 4 else old.val) = (entry (n * factor)).val ↔
      (factor = 1024 * 1024 * 1024 ∨ n ≤ 4 ∨ 16 * (1024 * 1024 * 1024) ≤ n * factor) ∧
        (n ≤ 2147483647 ∨ old = lastEntry) := by
  have hold : old = lastEntry ↔ old.val = 12 := Fin.ext_iff
  have hbound := old.isLt
  rw [hold, entry]
  dsimp only
  rcases hfactor with rfl | rfl | rfl <;> split <;> omega

/-- Without a unit the last digit is taken for one. -/
theorem entry_of_digits (old : Fin 13) (n : Nat) {d : Nat} (hd : d ≤ 9) :
    (if n ≤ 2147483647 then max 4 (min 16 n) - 4 else old.val) = (entry (n * 10 + d)).val ↔
      n * 10 + d ≤ 49 ∨
        16 * (1024 * 1024 * 1024) ≤ n * 10 + d ∧ (n * 10 + d ≤ 21474836479 ∨ old = lastEntry) := by
  have hold : old = lastEntry ↔ old.val = 12 := Fin.ext_iff
  have hbound := old.isLt
  rw [hold, entry]
  dsimp only
  split <;> omega

/-- A single digit is no number for the code. -/
theorem entry_of_digit (old : Fin 13) {d : Nat} (hd : d ≤ 9) :
    old = entry d ↔ old = firstEntry := by
  rw [Fin.ext_iff, Fin.ext_iff, entry]
  dsimp only
  change old.val = _ ↔ old.val = 0
  omega

/-- Without a unit, for which numbers the entry is the right one. -/
theorem selected_of_number (old : Fin 13) {size : Text} (h : IsNumber size) :
    selected old size = entry (digitsValue size) ↔
      if size.length = 1 then old = firstEntry
      else digitsValue size ≤ 49 ∨
        16 * (1024 * 1024 * 1024) ≤ digitsValue size ∧
          (digitsValue size ≤ 21474836479 ∨ old = lastEntry) := by
  obtain ⟨init, c, rfl⟩ : ∃ init c, size = init ++ [c] :=
    ⟨_, _, (List.dropLast_concat_getLast h.1).symm⟩
  have hdigit : c.toNat - '0'.toNat ≤ 9 := digit_le (h.2 c (by simp))
  rw [digitsValue_concat]
  by_cases hinit : init = []
  · subst hinit
    have hvalue : digitsValue [] * 10 + (c.toNat - '0'.toNat) ≤ 9 := by
      change 0 * 10 + _ ≤ 9
      omega
    have hselected : selected old ([] ++ [c]) = old := rfl
    have hlength : ([] ++ [c]).length = 1 := rfl
    rw [hselected, if_pos hlength, entry_of_digit old hvalue]
  · have hinner : IsNumber (init ++ [c]).dropLast := by
      rw [List.dropLast_concat]
      exact ⟨hinit, fun d hd => h.2 d (List.mem_append_left _ hd)⟩
    have hlength : ¬ (init ++ [c]).length = 1 := by simpa using hinit
    rw [if_neg hlength, Fin.ext_iff, selected_of_digits old hinner, List.dropLast_concat,
      entry_of_digits old _ hdigit]

/-- For which options the entry is the right one. -/
theorem selected_iff (old : Fin 13) (size : Text) :
    (∀ b ∈ bytes size, selected old size = entry b) ↔ Selectable old size := by
  have hsome : ∀ n, (∀ b ∈ some n, selected old size = entry b) ↔ selected old size = entry n := by
    simp
  unfold bytes Selectable
  cases hunit : size.getLast?.bind unit with
  | some factor =>
      obtain ⟨c, -, hc⟩ := Option.bind_eq_some_iff.mp hunit
      dsimp only
      by_cases hnumber : IsNumber size.dropLast
      · rw [if_pos hnumber, hsome, imp_iff_right hnumber, Fin.ext_iff,
          selected_of_digits old hnumber, entry_of_unit old _ (unit_eq hc)]
      · simp [hnumber]
  | none =>
      dsimp only
      by_cases hnumber : IsNumber size
      · rw [if_pos hnumber, hsome, imp_iff_right hnumber]
        exact selected_of_number old hnumber
      · simp [hnumber]

/-! ## What is shown -/

/-- The box is right, whatever the entry is. -/
theorem shows_params (p : ParameterPanel) (javaArgs : Text) (index : Fin 13) :
    Shows (some javaArgs)
        { p with ramChooser := index, parameterBox := replaceAll [' '] ['\n'] javaArgs } ↔
      ∀ size ∈ effective javaArgs, ∀ b ∈ bytes size, index = entry b :=
  ⟨fun h => h.memory, fun h => ⟨h, arguments_params javaArgs⟩⟩

/-- The handler returns with the panel showing the arguments of a profile. -/
def ReturnsShown (p : ParameterPanel) (javaArgs : Option Text) : Prop :=
  ∃ q, profileChooserActionPerformed p = .ok q ∧ Shows javaArgs q

/-- For which profiles the panel shows what they have. -/
theorem chooser_iff {p : ParameterPanel} {javaArgs : Option Text}
    (h : p.profile = some javaArgs) :
    ReturnsShown p javaArgs ↔ Showable p.ramChooser javaArgs := by
  unfold ReturnsShown
  cases javaArgs with
  | none =>
      simp [profileChooser_of_none h, Showable]
  | some args =>
      have hshowable : Showable p.ramChooser (some args) ↔
          ∀ size ∈ effective args, size ≠ [] ∧ Selectable p.ramChooser size := by
        simp [Showable]
      rw [profileChooser_of_args h, hshowable]
      cases heffective : effective args with
      | none =>
          have hshows := (shows_params p args p.ramChooser).mpr (by simp [heffective])
          exact ⟨fun _ => by simp, fun _ => ⟨_, rfl, hshows⟩⟩
      | some size =>
          dsimp only
          by_cases hsize : size = []
          · simp [hsize]
          · have hshows := shows_params p args (selected p.ramChooser size)
            rw [heffective] at hshows
            rw [if_neg hsize]
            constructor
            · rintro ⟨q, hq, hright⟩ t ht
              cases hq
              cases ht
              exact ⟨hsize, (selected_iff _ _).mp (hshows.mp hright size rfl)⟩
            · intro hright
              refine ⟨_, rfl, hshows.mpr fun t ht => ?_⟩
              cases ht
              exact (selected_iff _ _).mpr (hright size rfl).2

/-- A panel with one profile, on the first entry of the memory. -/
def panelOf (javaArgs : Option Text) : ParameterPanel where
  profiles := [("m".toList, javaArgs)]
  profileChooser := some "m".toList
  ramChooser := firstEntry
  parameterBox := []

theorem chooser_gigabytes :
    ReturnsShown (panelOf (some "-Xmx2G -Dfoo=1 -Xmx8g".toList))
      (some "-Xmx2G -Dfoo=1 -Xmx8g".toList) := by
  apply (chooser_iff rfl).mpr
  refine ⟨_, rfl, ?_⟩
  decide

/-- Without arguments and for a bare option the handler throws, and for 512 megabytes,
and for six gigabytes in bytes, the entry of 16 GB is selected. -/
theorem chooser_fails :
    ¬ ReturnsShown (panelOf none) none ∧
      ¬ ReturnsShown (panelOf (some "-Xmx".toList)) (some "-Xmx".toList) ∧
      ¬ ReturnsShown (panelOf (some "-Xmx512m".toList)) (some "-Xmx512m".toList) ∧
      ¬ ReturnsShown (panelOf (some "-Xmx6442450944".toList))
        (some "-Xmx6442450944".toList) := by
  refine ⟨?_, ?_, ?_, ?_⟩
  · rintro ⟨q, hq, -⟩
    cases hq
  · rintro ⟨q, hq, -⟩
    cases hq
  · rintro ⟨q, hq, hshows⟩
    have hentry := hshows.memory "512m".toList rfl (512 * (1024 * 1024)) (by decide)
    cases hq
    exact absurd hentry (by decide)
  · rintro ⟨q, hq, hshows⟩
    have hentry := hshows.memory "6442450944".toList rfl (6 * (1024 * 1024 * 1024)) (by decide)
    cases hq
    exact absurd hentry (by decide)

/-! ## Opening the panel -/

theorem returns_iff {p : ParameterPanel} {javaArgs : Option Text}
    (h : p.profile = some javaArgs) :
    (∃ q, profileChooserActionPerformed p = .ok q) ↔
      ∃ args ∈ javaArgs, effective args ≠ some [] := by
  cases javaArgs with
  | none => simp [profileChooser_of_none h]
  | some args =>
      rw [profileChooser_of_args h]
      cases heffective : effective args with
      | none => simp [heffective]
      | some size =>
          by_cases hsize : size = []
          · simp [heffective, hsize]
          · simp [heffective, hsize]

/-- The panel is opened when there are packs, and the first profile has arguments and no
bare option at their end. -/
theorem opened_iff (packList : List Text) (p : ParameterPanel) :
    (∃ q, changeJvmParameters packList p = .ok (true, q)) ↔
      packList ≠ [] ∧
        ∀ profile ∈ p.profiles.head?, ∃ args ∈ profile.2, effective args ≠ some [] := by
  have hmap : ∀ r : Except Uncaught ParameterPanel,
      (∃ q, r.map (fun q => (true, q)) = .ok (true, q)) ↔ ∃ q, r = .ok q := by
    intro r
    cases r <;> simp [Except.map]
  cases packList with
  | nil => simp [changeJvmParameters]
  | cons pack packList =>
      have hpacks : pack :: packList ≠ [] := List.cons_ne_nil _ _
      rw [changeJvmParameters, if_neg (by simp), hmap, and_iff_right hpacks]
      cases hprofiles : p.profiles with
      | nil => simp [profileChooserActionPerformed]
      | cons profile profiles =>
          have hfirst : ParameterPanel.profile
              { p with profiles := profile :: profiles, profileChooser := some profile.1 } =
                some profile.2 := List.lookup_cons_self
          exact (returns_iff hfirst).trans (by simp)

end JvmParameters
end Client
end ModpackInstaller
