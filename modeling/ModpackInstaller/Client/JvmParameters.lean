import ModpackInstaller.Control.Buffers
import ModpackInstaller.Library.Tokens

/-!
# The parameters of the Java machine

The panel on which the arguments of a launcher profile are edited.  The box has an
argument on each line, but it can be edited freely, and
{lit}`ramChooserActionPerformed` takes out whole lines.

Main results:

- Theorem {lit}`words_stored`: the arguments that are stored after a choice of memory.
- Theorem {lit}`stored_iff`: they are those of the box with the chosen memory exactly
  when the memory options stand on lines of their own.
- Theorem {lit}`stored_fails`: an argument behind a memory option is lost.
-/

namespace ModpackInstaller
namespace Client
namespace JvmParameters

open Library

/-! ## The panel -/

/-- The entry of 4 GB. -/
def firstEntry : Fin 13 := 0

/-- The entry of 16 GB. -/
def lastEntry : Fin 13 := 12

/-- The panel while it is open.  A profile is a name with its {lit}`javaArgs`, and
`none` is `null`. -/
structure ParameterPanel where
  profiles : List (Text × Option Text)
  profileChooser : Option Text
  /-- The index of the selected entry, from 4 GB to 16 GB. -/
  ramChooser : Fin 13
  parameterBox : Text

/-- The arguments of the selected profile, when there is one. -/
def ParameterPanel.profile (p : ParameterPanel) : Option (Option Text) :=
  p.profileChooser.bind fun name => p.profiles.lookup name

/-- A memory option, in gigabytes. -/
def heapOption (option : Text) (size : Nat) : Text :=
  option ++ Nat.toDigits 10 size ++ ['G']

def xmx : Text := "-Xmx".toList

def xms : Text := "-Xms".toList

/-- A text begins with one of the memory options. -/
def isHeap (s : Text) : Bool :=
  xmx.isPrefixOf s || xms.isPrefixOf s

/-- The lines that `ramChooserActionPerformed` begins with. -/
def heapLines (index : Fin 13) : Text :=
  heapOption xmx (index + 4) ++
    '\n' :: heapOption xms (if index.val + 1 > 4 then 4 else index + 1)

/-- `ramChooserActionPerformed` -/
def ramChooserActionPerformed (p : ParameterPanel) : ParameterPanel :=
  let paramList := splitTrim '\n' p.parameterBox
  let kept := paramList.filter fun s => !isHeap s
  { p with parameterBox := heapLines p.ramChooser ++ kept.flatMap ('\n' :: ·) }

/-- `commitJvmParameters`, up to the writing of the files. -/
def commitJvmParameters (p : ParameterPanel) : ParameterPanel :=
  match p.profile with
  | none => p
  | some _ =>
    let newParams := Control.Buffers.trim (replaceAll ['\n'] [' '] p.parameterBox)
    { p with profiles := p.profiles.map fun profile =>
        if some profile.1 = p.profileChooser then (profile.1, some newParams) else profile }

/-! ## Arguments -/

/-- White space: the characters of `\s`. -/
def isWhite (c : Char) : Bool :=
  c ∈ [' ', '\t', '\n', '\x0b', '\x0c', '\r']

/-- The arguments in a text. -/
def words (s : Text) : List Text :=
  tokens isWhite s

/-- The arguments that are no memory options. -/
def others (s : Text) : List Text :=
  (words s).filter fun w => !isHeap w

/-- The stored arguments have the chosen memory, once, and the others of the box. -/
structure Stored (index : Fin 13) (text stored : Text) : Prop where
  maximum : (words stored).filter xmx.isPrefixOf = [heapOption xmx (index + 4)]
  initial : ∃ size ≤ index.val + 4,
    (words stored).filter xms.isPrefixOf = [heapOption xms size]
  others : others stored = others text

/-- A line that begins with a memory option has nothing but such options, and another
line has none. -/
def OnOwnLines (text : Text) : Prop :=
  ∀ line ∈ splitTrim '\n' text, ∀ w ∈ words line, isHeap w = isHeap line

/-- The other arguments do not end in a control character. -/
def EndsVisible (text : Text) : Prop :=
  ∀ c ∈ (others text).flatten.getLast?, ' ' < c

instance : DecidablePred OnOwnLines :=
  fun _ => inferInstanceAs (Decidable (∀ _ ∈ _, ∀ _ ∈ _, _ = _))

instance : DecidablePred EndsVisible :=
  fun text => decidable_of_iff
    (((others text).flatten.getLast?.all fun c => decide (' ' < c)) = true)
    (by simp [EndsVisible, Option.all_eq_true])

/-! ## What is stored -/

theorem le_space_of_isWhite {c : Char} (h : isWhite c = true) : c ≤ ' ' := by
  simp only [isWhite, List.mem_cons, List.not_mem_nil, or_false, decide_eq_true_eq] at h
  rcases h with rfl | rfl | rfl | rfl | rfl | rfl <;> decide

/-- Blanks in place of line feeds leave the arguments. -/
theorem words_replaceAll (s : Text) : words (replaceAll ['\n'] [' '] s) = words s :=
  tokens_replaceAll (by decide) (by decide) s

theorem words_heapLines (index : Fin 13) :
    words (heapLines index) =
      [heapOption xmx (index + 4),
        heapOption xms (if index.val + 1 > 4 then 4 else index + 1)] := by
  revert index
  decide

/-- What `ramChooserActionPerformed` writes behind its own lines. -/
def keptLines (text : Text) : Text :=
  ((splitTrim '\n' text).filter fun s => !isHeap s).flatMap ('\n' :: ·)

/-- What is stored behind the memory options. -/
def keptParams (text : Text) : Text :=
  (replaceAll ['\n'] [' '] (keptLines text)).rdropWhile fun c => decide (c ≤ ' ')

/-- A blank or nothing is at the front of what is stored behind the memory options. -/
theorem head_keptParams (text : Text) : ∀ c ∈ (keptParams text).head?, isWhite c = true := by
  intro c hc
  obtain ⟨dropped, hdropped⟩ : keptParams text <+: replaceAll ['\n'] [' '] (keptLines text) :=
    List.rdropWhile_prefix _ _
  have hhead : c ∈ (replaceAll ['\n'] [' '] (keptLines text)).head? := by
    rw [← hdropped, List.head?_append, hc]
    rfl
  rw [replaceAll_eq_map, keptLines, List.head?_map] at hhead
  cases hlines : (splitTrim '\n' text).filter fun s => !isHeap s with
  | nil => simp [hlines] at hhead
  | cons line lines =>
      have hblank : ' ' = c := by simpa [hlines] using hhead
      rw [← hblank]
      decide

/-- The memory options are stored whole, and the rest up to its end. -/
theorem trim_stored (index : Fin 13) (text : Text) :
    Control.Buffers.trim (replaceAll ['\n'] [' '] (heapLines index ++ keptLines text)) =
      replaceAll ['\n'] [' '] (heapLines index) ++ keptParams text := by
  obtain ⟨init, hinit⟩ : ∃ init, replaceAll ['\n'] [' '] (heapLines index) =
      '-' :: (init ++ ['G']) := by
    refine ⟨("Xmx".toList ++ Nat.toDigits 10 (index + 4) ++ 'G' :: '\n' :: (xms ++ Nat.toDigits 10
      (if index.val + 1 > 4 then 4 else index + 1))).map fun c => if c = '\n' then ' ' else c, ?_⟩
    rw [replaceAll_eq_map, heapLines, heapOption, heapOption, xmx]
    simp
  rw [replaceAll_eq_map, List.map_append, ← replaceAll_eq_map, ← replaceAll_eq_map, hinit,
    Control.Buffers.trim, List.cons_append, List.dropWhile_cons_of_neg (by decide),
    List.append_assoc, ← List.cons_append, List.singleton_append,
    rdropWhile_append_cons _ (by decide)]
  simp [keptParams]

/-- The arguments that are stored after a choice of memory. -/
theorem words_stored (index : Fin 13) (text : Text) :
    words (Control.Buffers.trim (replaceAll ['\n'] [' '] (heapLines index ++ keptLines text))) =
      heapOption xmx (index + 4) ::
        heapOption xms (if index.val + 1 > 4 then 4 else index + 1) ::
          words (keptParams text) := by
  rw [trim_stored, words, tokens_append_of_head (head_keptParams text)]
  change words (replaceAll ['\n'] [' '] (heapLines index)) ++ words (keptParams text) = _
  rw [words_replaceAll, words_heapLines]
  rfl

/-! ## The memory options -/

theorem isHeap_iff (s : Text) : isHeap s = true ↔ xmx <+: s ∨ xms <+: s := by
  rw [isHeap, Bool.or_eq_true, List.isPrefixOf_iff_prefix, List.isPrefixOf_iff_prefix]

/-- A control character at its end makes no memory option. -/
theorem isHeap_of_concat (s : Text) (c : Char) (hc : decide (c ≤ ' ') = true)
    (h : isHeap (s ++ [c]) = true) : isHeap s = true := by
  have hvisible : ∀ option ∈ [xmx, xms], c ∉ option := by
    intro option hoption hmem
    have hlow : ∀ option ∈ [xmx, xms], (option.all fun d => !decide (d ≤ ' ')) = true := by
      decide
    have hchar := List.all_eq_true.mp (hlow option hoption) c hmem
    rw [hc] at hchar
    cases hchar
  have hshorter : ∀ option ∈ [xmx, xms], option <+: s ++ [c] → option <+: s := by
    intro option hoption hpre
    rcases List.prefix_concat_iff.mp hpre with rfl | hpre
    · exact absurd (by simp) (hvisible _ hoption)
    · exact hpre
  rw [isHeap_iff] at h ⊢
  exact h.imp (hshorter xmx (by simp)) (hshorter xms (by simp))

/-- The memory options that are stored first are the chosen ones. -/
theorem filter_heapOptions (m n : Nat) (ws : List Text) :
    (heapOption xmx m :: heapOption xms n :: ws).filter xmx.isPrefixOf =
        heapOption xmx m :: ws.filter xmx.isPrefixOf ∧
      (heapOption xmx m :: heapOption xms n :: ws).filter xms.isPrefixOf =
        heapOption xms n :: ws.filter xms.isPrefixOf ∧
      (heapOption xmx m :: heapOption xms n :: ws).filter (fun w => !isHeap w) =
        ws.filter fun w => !isHeap w :=
  ⟨rfl, rfl, rfl⟩

theorem isHeap_of_mem_others {text w : Text} (h : w ∈ others text) : isHeap w = false := by
  rw [others, List.mem_filter] at h
  simpa using h.2

theorem others_filter (text : Text) : (others text).filter (fun w => !isHeap w) = others text := by
  rw [others, List.filter_filter]
  simp

/-- The stored arguments are right when those behind the memory options are. -/
theorem stored_iff_words (index : Fin 13) (text : Text) :
    Stored index text
        (Control.Buffers.trim (replaceAll ['\n'] [' '] (heapLines index ++ keptLines text))) ↔
      words (keptParams text) = others text := by
  have hwords := words_stored index text
  obtain ⟨hxmx, hxms, hrest⟩ := filter_heapOptions (index + 4)
    (if index.val + 1 > 4 then 4 else index + 1) (words (keptParams text))
  constructor
  · intro h
    have hmaximum := h.maximum
    obtain ⟨size, -, hinitial⟩ := h.initial
    have hothers := h.others
    rw [hwords, hxmx, List.cons_eq_cons] at hmaximum
    rw [hwords, hxms, List.cons_eq_cons] at hinitial
    rw [others, hwords, hrest] at hothers
    rw [← hothers, eq_comm, List.filter_eq_self]
    intro w hw
    have hno : isHeap w = false := by
      rw [isHeap, Bool.or_eq_false_iff]
      have hmax := List.filter_eq_nil_iff.mp hmaximum.2 w hw
      have hini := List.filter_eq_nil_iff.mp hinitial.2 w hw
      exact ⟨Bool.eq_false_iff.mpr hmax, Bool.eq_false_iff.mpr hini⟩
    rw [hno]
    rfl
  · intro h
    have hboth : ∀ w ∈ words (keptParams text), xmx.isPrefixOf w = false ∧
        xms.isPrefixOf w = false := by
      intro w hw
      rw [h] at hw
      exact Bool.or_eq_false_iff.mp (isHeap_of_mem_others hw)
    constructor
    · rw [hwords, hxmx, List.filter_eq_nil_iff.mpr fun w hw => by simp [(hboth w hw).1]]
    · refine ⟨if index.val + 1 > 4 then 4 else index + 1, by split <;> omega, ?_⟩
      rw [hwords, hxms, List.filter_eq_nil_iff.mpr fun w hw => by simp [(hboth w hw).2]]
    · rw [others, hwords, hrest, h, others_filter]

/-! ## The other arguments -/

/-- The other arguments of a text are those of its lines. -/
theorem others_eq_flatMap (text : Text) :
    others text = (splitTrim '\n' text).flatMap others := by
  have hlines : (splitTrim '\n' text).flatMap words = words text :=
    flatMap_tokens_splitTrim (by decide) text
  rw [others, ← hlines, List.filter_flatMap]
  rfl

theorem words_keptLines (text : Text) :
    words (keptLines text) = ((splitTrim '\n' text).filter fun s => !isHeap s).flatMap words :=
  tokens_append_flatMap (by decide) [] _

/-- With the memory options on lines of their own the lines that are kept have the
other arguments. -/
theorem words_keptLines_of_onOwnLines {text : Text} (h : OnOwnLines text) :
    words (keptLines text) = others text := by
  rw [words_keptLines, others_eq_flatMap]
  unfold OnOwnLines at h
  generalize splitTrim '\n' text = lines at h ⊢
  induction lines with
  | nil => rfl
  | cons line lines ih =>
      obtain ⟨hline, hlines⟩ := List.forall_mem_cons.mp h
      rw [List.flatMap_cons, ← ih hlines]
      by_cases hheap : isHeap line = true
      · have hnone : others line = [] := by
          rw [others, List.filter_eq_nil_iff]
          intro w hw
          simp [hline w hw, hheap]
        rw [hnone, List.filter_cons_of_neg (by simp [hheap])]
        rfl
      · have hall : others line = words line := by
          rw [others, List.filter_eq_self]
          intro w hw
          simpa [hline w hw] using hheap
        rw [hall, List.filter_cons_of_pos (by simpa using hheap), List.flatMap_cons]

/-- When the stored arguments are right, no memory option is on a line that is kept. -/
theorem isHeap_of_mem_keptLines {text : Text} (h : words (keptParams text) = others text) :
    ∀ w ∈ words (keptLines text), isHeap w = false := by
  have hnone : (words (keptParams text)).countP isHeap = 0 := by
    rw [h, List.countP_eq_zero]
    intro w hw
    simp [isHeap_of_mem_others hw]
  have hle : (words (replaceAll ['\n'] [' '] (keptLines text))).countP isHeap ≤
      (words (keptParams text)).countP isHeap :=
    countP_tokens_le_rdropWhile rfl isHeap_of_concat _
  rw [words_replaceAll, hnone, Nat.le_zero, List.countP_eq_zero] at hle
  intro w hw
  simpa using hle w hw

/-- When the stored arguments are right, a line that is taken out has no other
arguments. -/
theorem others_eq_nil_of_isHeap {text : Text} (h : words (keptParams text) = others text)
    {line : Text} (hline : line ∈ splitTrim '\n' text) (hheap : isHeap line = true) :
    others line = [] := by
  set lines := splitTrim '\n' text with hlines
  have hkept : words (keptLines text) =
      (lines.filter fun s => !isHeap s).flatMap others := by
    have hself : (words (keptLines text)).filter (fun w => !isHeap w) = words (keptLines text) := by
      rw [List.filter_eq_self]
      intro w hw
      simp [isHeap_of_mem_keptLines h w hw]
    rw [← hself, words_keptLines, List.filter_flatMap]
    rfl
  have hperm : ((lines.filter isHeap).flatMap others ++
      (lines.filter fun s => !isHeap s).flatMap others).Perm (others text) := by
    rw [others_eq_flatMap, ← List.flatMap_append]
    exact (List.filter_append_perm isHeap lines).flatMap_right others
  have hlength := hperm.flatten.length_eq
  rw [List.flatten_append, List.length_append, ← hkept, ← h] at hlength
  have hshorter : (words (keptParams text)).flatten.length ≤
      (words (keptLines text)).flatten.length := by
    rw [← words_replaceAll (keptLines text), words, words, flatten_tokens, flatten_tokens]
    exact ((List.rdropWhile_prefix _ _).sublist.filter _).length_le
  have hempty : ((lines.filter isHeap).flatMap others).flatten = [] := by
    apply List.eq_nil_of_length_eq_zero
    omega
  rw [List.flatten_eq_nil_iff] at hempty
  refine List.eq_nil_iff_forall_not_mem.mpr fun w hw => ?_
  have hmem : w ∈ (lines.filter isHeap).flatMap others :=
    List.mem_flatMap.mpr ⟨line, List.mem_filter.mpr ⟨hline, hheap⟩, hw⟩
  exact ne_nil_of_mem_tokens (List.mem_of_mem_filter hw) (hempty w hmem)

/-- When the stored arguments are right, the memory options stand on lines of their own. -/
theorem onOwnLines_of_words {text : Text} (h : words (keptParams text) = others text) :
    OnOwnLines text := by
  intro line hline w hw
  by_cases hheap : isHeap line = true
  · have hnone := others_eq_nil_of_isHeap h hline hheap
    rw [others, List.filter_eq_nil_iff] at hnone
    rw [hheap]
    simpa using hnone w hw
  · have hkept : !isHeap line := by simpa using hheap
    have hmem : w ∈ words (keptLines text) := by
      rw [words_keptLines]
      exact List.mem_flatMap.mpr ⟨line, List.mem_filter.mpr ⟨hline, hkept⟩, hw⟩
    rw [isHeap_of_mem_keptLines h w hmem]
    simpa using hheap

/-- Behind the memory options the other arguments of the box are stored exactly when the
memory options stand on lines of their own, and the end is not taken for white space. -/
theorem words_keptParams_iff (text : Text) :
    words (keptParams text) = others text ↔ OnOwnLines text ∧ EndsVisible text := by
  have hsymbols : (replaceAll ['\n'] [' '] (keptLines text)).filter (fun c => !isWhite c) =
      (words (keptLines text)).flatten := by
    rw [← flatten_tokens isWhite]
    exact congrArg List.flatten (words_replaceAll _)
  constructor
  · intro h
    have hown := onOwnLines_of_words h
    refine ⟨hown, ?_⟩
    have hlength : ((replaceAll ['\n'] [' '] (keptLines text)).filter fun c => !isWhite c).length ≤
        ((keptParams text).filter fun c => !isWhite c).length := by
      rw [hsymbols, words_keptLines_of_onOwnLines hown, ← h, words, flatten_tokens]
    have hlast : ∀ c ∈ ((replaceAll ['\n'] [' '] (keptLines text)).filter
        fun c => !isWhite c).getLast?, decide (c ≤ ' ') = false :=
      last_of_length_le (fun c hc => decide_eq_true (le_space_of_isWhite hc)) hlength
    rw [hsymbols, words_keptLines_of_onOwnLines hown] at hlast
    intro c hc
    simpa using hlast c hc
  · rintro ⟨hown, hends⟩
    have hstay : words (keptParams text) = words (replaceAll ['\n'] [' '] (keptLines text)) := by
      apply tokens_rdropWhile
      rw [hsymbols, words_keptLines_of_onOwnLines hown]
      intro c hc
      simpa using hends c hc
    rw [hstay, words_replaceAll, words_keptLines_of_onOwnLines hown]

/-! ## The profile -/

/-- The profile of a name, when others are stored for it. -/
theorem lookup_stored (name stored : Text) (profiles : List (Text × Option Text)) :
    (profiles.map fun profile =>
        if some profile.1 = some name then (profile.1, some stored) else profile).lookup name =
      (profiles.lookup name).map fun _ => some stored := by
  induction profiles with
  | nil => rfl
  | cons profile profiles ih =>
      obtain ⟨key, javaArgs⟩ := profile
      rw [List.map_cons, List.lookup_cons]
      by_cases hkey : key = name
      · simp [hkey]
      · have hbeq : (name == key) = false := beq_eq_false_iff_ne.mpr (Ne.symm hkey)
        rw [if_neg (by simpa using hkey), List.lookup_cons, hbeq]
        exact ih

/-- What is stored for the selected profile. -/
theorem profile_commitJvmParameters {p : ParameterPanel} {javaArgs : Option Text}
    (h : p.profile = some javaArgs) :
    (commitJvmParameters p).profile =
      some (some (Control.Buffers.trim (replaceAll ['\n'] [' '] p.parameterBox))) := by
  obtain ⟨name, hname, hlookup⟩ := Option.bind_eq_some_iff.mp h
  rw [commitJvmParameters, h]
  change Option.bind p.profileChooser _ = _
  rw [hname]
  exact (lookup_stored name _ p.profiles).trans (by rw [hlookup]; rfl)

/-- A choice of memory and the storing of the box. -/
theorem profile_chosen {p : ParameterPanel} {javaArgs : Option Text}
    (h : p.profile = some javaArgs) :
    (commitJvmParameters (ramChooserActionPerformed p)).profile =
      some (some (Control.Buffers.trim
        (replaceAll ['\n'] [' '] (heapLines p.ramChooser ++ keptLines p.parameterBox)))) :=
  profile_commitJvmParameters h

/-- After a choice of memory the selected profile gets the arguments that it should. -/
def StoresChosen (p : ParameterPanel) : Prop :=
  ∃ stored, (commitJvmParameters (ramChooserActionPerformed p)).profile = some (some stored) ∧
    Stored p.ramChooser p.parameterBox stored

/-- It does when those behind the memory options are the others of the box. -/
theorem storesChosen_iff_words {p : ParameterPanel} {javaArgs : Option Text}
    (h : p.profile = some javaArgs) :
    StoresChosen p ↔ words (keptParams p.parameterBox) = others p.parameterBox := by
  rw [← stored_iff_words p.ramChooser, StoresChosen, profile_chosen h]
  constructor
  · rintro ⟨stored, hstored, hright⟩
    rw [Option.some.injEq, Option.some.injEq] at hstored
    rw [hstored]
    exact hright
  · intro hright
    exact ⟨_, rfl, hright⟩

/-- What is stored has the chosen memory and the other arguments of the box, exactly when
the memory options stand on lines of their own and the other arguments do not end in a
control character. -/
theorem stored_iff {p : ParameterPanel} {javaArgs : Option Text} (h : p.profile = some javaArgs) :
    StoresChosen p ↔ OnOwnLines p.parameterBox ∧ EndsVisible p.parameterBox :=
  (storesChosen_iff_words h).trans (words_keptParams_iff p.parameterBox)

/-- A panel with one profile and the first entry of the memory. -/
def panel (text : Text) : ParameterPanel where
  profiles := [("m".toList, none)]
  profileChooser := some "m".toList
  ramChooser := firstEntry
  parameterBox := text

theorem stored_ownLines : StoresChosen (panel "-Xms1G -Xmx2G\n-Dfoo=1 -Dbar".toList) :=
  (stored_iff rfl).mpr (by decide)

/-- An argument behind a memory option is lost, a memory option behind an argument is
kept, and a control character at the end is taken for white space. -/
theorem stored_fails :
    ¬ StoresChosen (panel "-Xmx2G -Dfoo=1".toList) ∧
      ¬ StoresChosen (panel "-Dfoo=1 -Xmx2G".toList) ∧
      ¬ StoresChosen (panel "-Dfoo=\x01".toList) := by
  refine ⟨?_, ?_, ?_⟩
  · rw [storesChosen_iff_words rfl]
    decide
  · rw [storesChosen_iff_words rfl]
    decide
  · rw [storesChosen_iff_words rfl]
    decide

end JvmParameters
end Client
end ModpackInstaller
