import ModpackInstaller.Client.UpdateLoop
import ModpackInstaller.Server.Plan
import ModpackInstaller.Update.SinglePath

/-!
# Instructions the client can execute

The planner writes a line for every removed file, every added file and every
change entry; the client reads the characters 0 and 1 of a line and knows the
types {lit}`f` and {lit}`d`.  This file says when the two agree.

Main results:

- Theorem {lit}`accepted_rewrites_iff`: when the line written for a list line is
  acceptable.
- Theorem {lit}`accepted_foldEntry_own_iff`: when one merge leaves acceptable
  lines of its key.
- Theorem {lit}`accepted_iff`: the same for a whole planner run, and what it
  means for the loop of the client.
-/

namespace ModpackInstaller
namespace Update

open Library Server Client

/-! ## Acceptable lines -/

/-- An operation on a key that has a type character and a path, with a type that
can be installed unless the operation is a deletion. -/
def Proper (o : Op) : Text → Prop
  | filetype :: _ :: _ => o = .del ∨ filetype = 'f' ∨ filetype = 'd'
  | _ => False

instance (o : Op) : DecidablePred (Proper o)
  | [] => inferInstanceAs (Decidable False)
  | [_] => inferInstanceAs (Decidable False)
  | _ :: _ :: _ => inferInstanceAs (Decidable (_ ∨ _))

/-- A comment or a proper instruction. -/
def Executable (l : Text) : Prop :=
  l.head? = some '#' ∨ ∃ o key, l = Op.line o key ∧ Proper o key

/-- An empty line, or an executable one that the loop of the client can
interpret. -/
def Accepted (l : Text) : Prop :=
  l = [] ∨ (Executable l ∧ Readable l)

/-- A written list line gives an acceptable line: one that begins with {lit}`./` is not the
name of an added special file, and another one is itself acceptable. -/
def Interpretable (w : Text × Text) : Prop :=
  if "./".toList <+: w.2 then w.1 ≠ addedPrefix .special else Accepted w.2

/-- A change entry has the key of this line. -/
def Overruled (log : List Text) (l : Text) : Prop :=
  ∃ entry ∈ log, ∃ key ∈ keyOf l, keyOf entry = some key

/-- A change entry leaves acceptable lines of its key: it is a proper instruction, or a
deletion that takes the installations of the key with it and finds no deletion there. -/
def Settled (lines : List Text) (entry : Text) : Prop :=
  ∀ e ∈ parseLine entry, Proper e.1 e.2 ∨
    (e.1 = .del ∧ (Op.add.line e.2 ∈ lines ∨ Op.upd.line e.2 ∈ lines) ∧
      Op.del.line e.2 ∉ lines)

/-- A proper instruction can be interpreted. -/
theorem proper_readable {o : Op} {key : Text} (h : Proper o key) : Readable (o.line key) := by
  match key, h with
  | filetype :: c :: path, h =>
      intro hinstall
      rcases h with rfl | h
      · exact absurd hinstall (by decide)
      · exact h

/-- An instruction line is executable when it is proper. -/
theorem executable_line {o : Op} {key : Text} : Executable (o.line key) ↔ Proper o key := by
  constructor
  · rintro (h | ⟨o', key', h, hproper⟩)
    · cases o <;> exact absurd h (by simp [Op.line, Op.char])
    · rw [Op.line_inj] at h
      rw [h.1, h.2]
      exact hproper
  · exact fun h => Or.inr ⟨o, key, rfl, h⟩

/-- A line that is no instruction is executable when it is a comment. -/
theorem executable_of_parseLine_none {l : Text} (h : parseLine l = none) :
    Executable l ↔ l.head? = some '#' := by
  refine or_iff_left ?_
  rintro ⟨o, key, rfl, -⟩
  simp at h

/-- An instruction line is acceptable when it is proper. -/
theorem accepted_line {o : Op} {key : Text} : Accepted (o.line key) ↔ Proper o key := by
  rw [Accepted, executable_line, or_iff_right (by simp [Op.line])]
  exact and_iff_left_of_imp proper_readable

instance : DecidablePred Executable := fun l =>
  match h : parseLine l with
  | some e => decidable_of_iff (Proper e.1 e.2)
      (by rw [parseLine_eq_some.mp h]; exact executable_line.symm)
  | none => decidable_of_iff _ (executable_of_parseLine_none h).symm

instance : DecidablePred Accepted := fun _ => inferInstanceAs (Decidable (_ ∨ _ ∧ _))

instance : DecidablePred Interpretable := fun _ => inferInstanceAs (Decidable (ite _ _ _))

instance (log : List Text) : DecidablePred (Overruled log) := fun _ =>
  inferInstanceAs (Decidable (∃ entry ∈ log, _))

instance (lines : List Text) (entry : Text) : Decidable (Settled lines entry) :=
  inferInstanceAs (Decidable (∀ e ∈ parseLine entry, _ ∨ _))

/-- Two installations of a key are proper together. -/
private theorem proper_install {o o' : Op} {key : Text} (ho : o ≠ .del) (h : Proper o key) :
    Proper o' key := by
  match key, h with
  | _ :: _ :: _, h =>
      rcases h with h | h
      · exact absurd h ho
      · exact Or.inr h

/-- A line that is no instruction is acceptable when it is a comment with something in
it. -/
theorem accepted_cons_of_ofChar_none {c : Char} {cs : Text} (h : Op.ofChar c = none) :
    Accepted (c :: cs) ↔ c = '#' ∧ cs ≠ [] := by
  have hparse : parseLine (c :: cs) = none := by simp [parseLine, h]
  rw [Accepted, executable_of_parseLine_none hparse, or_iff_right (by simp)]
  cases cs with
  | nil => simp [Readable]
  | cons filetype rest =>
      have hreadable : c = '#' → Readable (c :: filetype :: rest) := by
        rintro rfl (h | h)
        · exact absurd h (by decide)
        · exact absurd h (by decide)
      simpa using hreadable

/-! ## The lines of the list diff -/

/-- Something stays something. -/
private theorem replaceAll_eq_nil_iff {pat rep s : Text} (hne : pat ≠ []) (hrep : rep ≠ []) :
    replaceAll pat rep s = [] ↔ s = [] := by
  constructor
  · intro h
    cases s with
    | nil => rfl
    | cons c cs =>
        by_cases hhit : pat <+: c :: cs
        · obtain ⟨rest, hrest⟩ := hhit
          rw [← hrest, replaceAll_matched hne] at h
          exact absurd (List.append_eq_nil_iff.mp h).1 hrep
        · rw [replaceAll_cons_of_unmatched hhit] at h
          cases h
  · rintro rfl
    rfl

/-- The prefix that is written for further occurrences of {lit}`./` makes no difference. -/
private theorem proper_replaceAll_iff {o o' : Op} {filetype : Char} {rest key : Text} :
    Proper o (replaceAll "./".toList (o'.char :: filetype :: rest) key) ↔ Proper o key := by
  have hnot : ∀ o : Op, ¬ (o.char = 'f' ∨ o.char = 'd') := by
    rintro (_ | _ | _) <;> decide
  match key with
  | [] => exact Iff.rfl
  | [c] =>
      have hshort : ¬ "./".toList <:+: [c] := fun h => absurd h.length_le (by simp)
      rw [ replaceAll_of_not_infix hshort]
  | c :: c' :: path =>
      by_cases hhit : "./".toList <+: c :: c' :: path
      · obtain ⟨tail, htail⟩ := hhit
        rw [← htail, replaceAll_matched (by decide)]
        change o = .del ∨ _ ↔ o = .del ∨ _
        exact or_congr_right (iff_of_false (hnot o') (by decide))
      · rw [replaceAll_cons_of_unmatched hhit]
        have htail : replaceAll "./".toList (o'.char :: filetype :: rest) (c' :: path) ≠ [] :=
          (replaceAll_eq_nil_iff (by decide) (by simp)).not.mpr (by simp)
        obtain ⟨d, ds, hds⟩ := List.exists_cons_of_ne_nil htail
        rw [hds]
        exact Iff.rfl

/-- The line written for a list line that does not begin with {lit}`./` is acceptable when
the list line is. -/
private theorem accepted_replaceAll_iff {o' : Op} {filetype : Char} {rest q : Text}
    (h : ¬ "./".toList <+: q) :
    Accepted (replaceAll "./".toList (o'.char :: filetype :: rest) q) ↔ Accepted q := by
  cases q with
  | nil => exact Iff.rfl
  | cons c cs =>
      rw [replaceAll_cons_of_unmatched h]
      cases hop : Op.ofChar c with
      | none =>
          rw [accepted_cons_of_ofChar_none hop, accepted_cons_of_ofChar_none hop, ne_eq,
            replaceAll_eq_nil_iff (by decide) (by simp)]
      | some o =>
          rw [← Op.char_of_ofChar hop]
          exact accepted_line.trans (proper_replaceAll_iff.trans accepted_line.symm)

section Diff

variable {k : Kernel} {sys : Sys} {modpack list1 list2 : Text}

/-- The line written for a list line is acceptable when the list line says so. -/
theorem accepted_rewrites_iff {w : Text × Text} (h : w ∈ rewrites k sys modpack list1 list2) :
    Accepted (replaceAll "./".toList w.1 w.2) ↔ Interpretable w := by
  have hprefix : ∃ (o : Op) (t : Char), w.1 = o.char :: t :: "mods/".toList ∧
      (Proper o (t :: "mods/".toList) ↔ w.1 ≠ addedPrefix .special) := by
    rcases List.mem_append.mp h with h | h
    · obtain ⟨q, -, rfl⟩ := List.mem_map.mp h
      exact ⟨.del, 'u', rfl,
        (by decide : Proper .del ('u' :: "mods/".toList) ↔ "-umods/".toList ≠ _)⟩
    · obtain ⟨⟨q, type⟩, -, hw⟩ := List.mem_filterMap.mp h
      obtain ⟨type, -, rfl⟩ := Option.map_eq_some_iff.mp hw
      have hproper : Proper .add (typeChar type :: "mods/".toList) ↔
          addedPrefix type ≠ addedPrefix .special := by cases type <;> decide
      exact ⟨.add, typeChar type, rfl, hproper⟩
  obtain ⟨pre, q⟩ := w
  obtain ⟨o, t, rfl, hproper⟩ := hprefix
  rw [Interpretable]
  split
  · rename_i hlisted
    obtain ⟨path, rfl⟩ := hlisted
    rw [replaceAll_matched (by decide), ← hproper]
    exact accepted_line
  · rename_i hlisted
    exact accepted_replaceAll_iff hlisted

/-- The lines of the diff are those of the written list lines and comments. -/
theorem forall_diffLines_iff (hmodpack : '\n' ∉ modpack) {P : Text → Prop}
    (hcomment : ∀ l, Accepted l → P l) :
    (∀ l ∈ diffLines k sys modpack list1 list2, P l) ↔
      ∀ w ∈ rewrites k sys modpack list1 list2, P (replaceAll "./".toList w.1 w.2) := by
  have hnone : ∀ file, Accepted (addedLine modpack file none) := by
    intro file
    rw [addedLine_none, accepted_cons_of_ofChar_none (by decide)]
    exact ⟨rfl, by simp⟩
  rw [diffLines, flatMap_textLines_addedTexts hmodpack fun _ => newline_not_mem_onlyIn, rewrites,
    addedTexts_eq_map]
  simp only [List.forall_mem_append, List.forall_mem_map]
  apply and_congr_right'
  constructor
  · intro h w hw
    obtain ⟨⟨q, type⟩, hmem, hw⟩ := List.mem_filterMap.mp hw
    obtain ⟨type, rfl, rfl⟩ := Option.map_eq_some_iff.mp hw
    have hline := h _ hmem
    rwa [addedLine_some] at hline
  · rintro h ⟨q, _ | type⟩ hmem
    · exact hcomment _ (hnone q)
    · rw [addedLine_some]
      exact h _ (List.mem_filterMap.mpr ⟨_, hmem, rfl⟩)

/-- Listing lines are interpretable when no added file is a special file. -/
theorem interpretable_of_listing (hlist1 : ∀ l ∈ pieces '\n' list1, ListingLine l)
    (hlist2 : ∀ l ∈ pieces '\n' list2, ListingLine l)
    (hregular : ∀ t path, k.stat t path ≠ some .special) :
    ∀ w ∈ rewrites k sys modpack list1 list2, Interpretable w := by
  intro w hw
  have hlisted : ∀ {own other q}, (∀ l ∈ pieces '\n' own, ListingLine l) →
      q ∈ onlyIn own other → "./".toList <+: q := by
    intro own other q hown hq
    obtain ⟨path, rfl, -⟩ := listed_of_mem_onlyIn hown hq
    exact List.prefix_append _ _
  rcases List.mem_append.mp hw with hw | hw
  · obtain ⟨q, hq, rfl⟩ := List.mem_map.mp hw
    rw [Interpretable, if_pos (hlisted hlist1 hq)]
    exact (by decide : "-umods/".toList ≠ addedPrefix .special)
  · obtain ⟨⟨q, type⟩, hq, hw⟩ := List.mem_filterMap.mp hw
    obtain ⟨type, rfl, rfl⟩ := Option.map_eq_some_iff.mp hw
    obtain ⟨t, path, hstat⟩ := stat_of_mem_surveyed hq
    rw [Interpretable, if_pos (hlisted hlist2 (mem_of_mem_surveyed hq))]
    cases type with
    | regular => exact (by decide : addedPrefix .regular ≠ addedPrefix .special)
    | directory => exact (by decide : addedPrefix .directory ≠ addedPrefix .special)
    | special => exact absurd hstat (hregular t path)

end Diff

/-! ## One merge -/

section Step

variable {lines : List Text} {key : Text}

/-- One merge leaves acceptable lines of its key exactly when the entry sees to it. -/
theorem accepted_foldEntry_own_iff {entry : Text} (h : keyOf entry = some key) :
    (∀ l ∈ foldEntry lines entry, keyOf l = some key → Accepted l) ↔ Settled lines entry := by
  obtain ⟨o, rfl⟩ := keyOf_eq_some.mp h
  have hlines : ∀ lines : List Text, (∀ l ∈ lines, keyOf l = some key → Accepted l) ↔
      ∀ o' : Op, o'.line key ∈ lines → Proper o' key := by
    intro lines
    constructor
    · exact fun hall o' hmem => accepted_line.mp (hall _ hmem (keyOf_line _ _))
    · intro hall l hl hkey
      obtain ⟨o', rfl⟩ := keyOf_eq_some.mp hkey
      exact accepted_line.mpr (hall o' hl)
  have hsettled : Settled lines (o.line key) ↔ Proper o key ∨
      (o = .del ∧ (Op.add.line key ∈ lines ∨ Op.upd.line key ∈ lines) ∧
        Op.del.line key ∉ lines) := by
    simp [Settled]
  rw [hlines, hsettled, foldEntry_line]
  have hstep := foldStep_foldLine lines o key
  generalize foldLine lines o key = result at hstep ⊢
  cases hstep with
  | relabel frm install present clean =>
      rw [or_iff_left fun hdel => install hdel.1]
      constructor
      · intro hall
        apply proper_install (o := .upd) (by decide)
        exact hall _ (List.mem_map.mpr ⟨_, present, by simp [relabel]⟩)
      · exact fun hproper o' _ => proper_install install hproper
  | cancel delete present =>
      subst delete
      constructor
      · intro hall
        by_cases hdel : Op.del.line key ∈ lines
        · exact Or.inl (hall .del (by simp [hdel]))
        · exact Or.inr ⟨rfl, present, hdel⟩
      · intro hsettled o' hmem
        obtain ⟨hmem, hadd, hupd⟩ := mem_cancel.mp hmem
        cases o' with
        | add => exact absurd rfl hadd
        | upd => exact absurd rfl hupd
        | del =>
            rcases hsettled with hproper | ⟨-, -, hnot⟩
            · exact hproper
            · exact absurd hmem hnot
  | append fresh =>
      rw [or_iff_left fun hdel => hdel.2.1.elim (fresh _) (fresh _)]
      constructor
      · exact fun hall => hall o (by simp)
      · intro hproper o' hmem
        rcases List.mem_append.mp hmem with hmem | hmem
        · exact absurd hmem (fresh o')
        · obtain ⟨rfl, -⟩ := Op.line_inj.mp (List.mem_singleton.mp hmem)
          exact hproper
  | keep install delete =>
      by_cases hdel : o = .del
      · subst hdel
        obtain ⟨hpresent, hadd, hupd⟩ := delete rfl
        rw [or_iff_left fun hboth => hboth.2.1.elim hadd hupd]
        constructor
        · exact fun hall => hall _ hpresent
        · rintro hproper (_ | _ | _) hmem
          · exact absurd hmem hadd
          · exact hproper
          · exact absurd hmem hupd
      · rw [or_iff_left fun hboth => hdel hboth.1]
        constructor
        · intro hall
          rcases (install hdel).1 with hadd | hupd
          · exact proper_install (by decide) (hall _ hadd)
          · exact proper_install (by decide) (hall _ hupd)
        · exact fun hproper o' _ => proper_install hdel hproper

/-- A merge does not touch the lines of another key. -/
theorem accepted_foldEntry_other {entry : Text} (h : keyOf entry ≠ some key) :
    (∀ l ∈ foldEntry lines entry, keyOf l = some key → Accepted l) ↔
      ∀ l ∈ lines, keyOf l = some key → Accepted l := by
  refine forall_congr' fun l => ?_
  suffices hmem : keyOf l = some key → (l ∈ foldEntry lines entry ↔ l ∈ lines) by
    constructor
    · exact fun hall hl hkey => hall ((hmem hkey).mpr hl) hkey
    · exact fun hall hl hkey => hall ((hmem hkey).mp hl) hkey
  intro hkey
  cases hparse : parseLine entry with
  | none => rw [foldEntry_of_parseLine_none hparse]
  | some e =>
      obtain ⟨o, key'⟩ := e
      rw [parseLine_eq_some.mp hparse, keyOf_line] at h
      rw [parseLine_eq_some.mp hparse, foldEntry_line]
      apply mem_foldLine_of_keyOf_ne
      rw [hkey]
      exact Ne.symm h

/-- Of the lines of a key it can be read off whether they are acceptable. -/
theorem accepted_congr {lines' : List Text} (h : lines.map reading = lines'.map reading) :
    (∀ l ∈ lines, keyOf l = some key → Accepted l) ↔
      ∀ l ∈ lines', keyOf l = some key → Accepted l := by
  have hread : ∀ lines : List Text, (∀ l ∈ lines, keyOf l = some key → Accepted l) ↔
      ∀ r ∈ lines.map reading, ∀ delete, r = some (key, delete) →
        Proper (if delete then .del else .add) key := by
    intro lines
    rw [List.forall_mem_map]
    refine forall₂_congr fun l _ => ?_
    constructor
    · intro hall delete hl
      have hkey : keyOf l = some key := by rw [keyOf_eq_map_reading, hl]; rfl
      obtain ⟨o, rfl⟩ := keyOf_eq_some.mp hkey
      have hproper := accepted_line.mp (hall hkey)
      rw [reading_line, Option.some.injEq, Prod.mk.injEq] at hl
      rw [← hl.2]
      by_cases hdel : o = .del
      · simpa [hdel] using hproper
      · simpa [hdel] using proper_install hdel hproper
    · intro hall hkey
      obtain ⟨o, rfl⟩ := keyOf_eq_some.mp hkey
      have hproper := hall _ (reading_line o key)
      rw [accepted_line]
      by_cases hdel : o = .del
      · simpa [hdel] using hproper
      · rw [if_neg (by simpa using hdel)] at hproper
        exact proper_install (by decide) hproper
  rw [hread, hread, h]

/-- The rewriting of a line that is no instruction leaves it acceptable or not. -/
private theorem accepted_swap {frm : Op} {l : Text} (h : keyOf l = none) :
    keyOf (swap frm key l) = none ∧ (Accepted (swap frm key l) ↔ Accepted l) := by
  cases l with
  | nil => exact ⟨rfl, Iff.rfl⟩
  | cons c cs =>
      have hop : Op.ofChar c = none := by simpa [keyOf, parseLine] using h
      have hmiss : ¬ cstr (frm.line key) <+: c :: cs := by
        rintro ⟨rest, hrest⟩
        obtain ⟨tail, htail⟩ : ∃ tail, cstr (frm.line key) = frm.char :: tail := by
          cases frm <;> exact ⟨_, rfl⟩
        rw [htail, List.cons_append, List.cons.injEq] at hrest
        rw [← hrest.1, Op.ofChar_char] at hop
        cases hop
      rw [swap, replaceAll_cons_of_unmatched hmiss]
      refine ⟨by simp [keyOf, parseLine, hop], ?_⟩
      rw [accepted_cons_of_ofChar_none hop, accepted_cons_of_ofChar_none hop, ne_eq,
        replaceAll_eq_nil_iff (cstr_line_ne_nil _ _) (cstr_line_ne_nil _ _)]

private theorem accepted_map_swap_unkeyed {frm : Op} (h : SwapSpares lines frm key) :
    (∀ l ∈ lines.map (swap frm key), keyOf l = none → Accepted l) ↔
      ∀ l ∈ lines, keyOf l = none → Accepted l := by
  rw [List.forall_mem_map]
  refine forall₂_congr fun l hl => ?_
  by_cases hkey : keyOf l = none
  · obtain ⟨hswap, hiff⟩ : keyOf (swap frm key l) = none ∧
        (Accepted (swap frm key l) ↔ Accepted l) := accepted_swap hkey
    rw [imp_iff_right hswap, imp_iff_right hkey, hiff]
  · have hswap : keyOf (swap frm key l) ≠ none := by
      rw [keyOf_eq_map_reading, h l hl, ← keyOf_eq_map_reading, relabel]
      split
      · simp
      · exact hkey
    exact iff_of_true (fun hnone => absurd hnone hswap) fun hnone => absurd hnone hkey

/-- A step that spares the other lines keeps the lines that are no instructions acceptable,
or not. -/
theorem accepted_rewriteEntry_unkeyed {entry : Text} (h : SparedEntry lines entry) :
    (∀ l ∈ rewriteEntry lines entry, keyOf l = none → Accepted l) ↔
      ∀ l ∈ lines, keyOf l = none → Accepted l := by
  have hsame : ∀ lines' : List Text, (∀ l, keyOf l = none → (l ∈ lines' ↔ l ∈ lines)) →
      ((∀ l ∈ lines', keyOf l = none → Accepted l) ↔
        ∀ l ∈ lines, keyOf l = none → Accepted l) := by
    intro lines' hmem
    refine forall_congr' fun l => ?_
    constructor
    · exact fun hall hl hkey => hall ((hmem l hkey).mpr hl) hkey
    · exact fun hall hl hkey => hall ((hmem l hkey).mp hl) hkey
  have happend : ∀ (o : Op) (key : Text) (l : Text), keyOf l = none →
      (l ∈ lines ++ [o.line key] ↔ l ∈ lines) := by
    intro o key l hkey
    rw [List.mem_append, List.mem_singleton]
    apply or_iff_left
    rintro rfl
    simp at hkey
  cases hparse : parseLine entry with
  | none => rw [rewriteEntry, hparse]
  | some e =>
      obtain ⟨o, key⟩ := e
      have hthis : Spared lines o key := h (o, key) (by rw [hparse]; rfl)
      simp only [rewriteEntry, hparse]
      cases o with
      | add =>
          rw [rewriteLine]
          split
          · rename_i hdel
            exact accepted_map_swap_unkeyed (hthis hdel)
          · split
            · exact hsame _ (happend .add key)
            · exact Iff.rfl
      | del =>
          rw [rewriteLine]
          split
          · refine hsame _ fun l hkey => ?_
            rw [mem_cancel]
            apply and_iff_left
            constructor
            · rintro rfl
              simp at hkey
            · rintro rfl
              simp at hkey
          · split
            · exact hsame _ (happend .del key)
            · exact Iff.rfl
      | upd =>
          rw [rewriteLine]
          split
          · rename_i hdel
            exact accepted_map_swap_unkeyed (hthis.1 hdel)
          · split
            · rename_i hdel hadd
              exact accepted_map_swap_unkeyed (hthis.2 hdel hadd)
            · split
              · exact hsame _ (happend .upd key)
              · exact Iff.rfl

end Step

/-! ## A planner run -/

/-- So does a whole log. -/
private theorem accepted_foldl_unkeyed {lines log : List Text} (h : SparedRun lines log) :
    (∀ l ∈ log.foldl rewriteEntry lines, keyOf l = none → Accepted l) ↔
      ∀ l ∈ lines, keyOf l = none → Accepted l := by
  induction log generalizing lines with
  | nil => exact Iff.rfl
  | cons entry log ih => exact (ih h.2).trans (accepted_rewriteEntry_unkeyed h.1)

/-- The lines with the log worked in are acceptable exactly when those are whose key no
entry has, and the last entry of every key sees to its own. -/
theorem accepted_foldl_iff {lines log : List Text} (hspared : SparedRun lines log) :
    (∀ l ∈ log.foldl rewriteEntry lines, Accepted l) ↔
      (∀ l ∈ lines, Accepted l ∨ Overruled log l) ∧
        LastsMeet rewriteEntry keyOf Settled lines log := by
  have hsplit : ∀ lines : List Text, (∀ l ∈ lines, Accepted l) ↔
      (∀ l ∈ lines, keyOf l = none → Accepted l) ∧
        ∀ key, ∀ l ∈ lines, keyOf l = some key → Accepted l := by
    intro lines
    constructor
    · exact fun hall => ⟨fun l hl _ => hall l hl, fun _ l hl _ => hall l hl⟩
    · rintro ⟨hnone, hsome⟩ l hl
      cases hkey : keyOf l with
      | none => exact hnone l hl hkey
      | some key => exact hsome key l hl hkey
  have hframe : ∀ lines entry key, SparedEntry lines entry → keyOf entry ≠ some key →
      ((∀ l ∈ rewriteEntry lines entry, keyOf l = some key → Accepted l) ↔
        ∀ l ∈ lines, keyOf l = some key → Accepted l) := by
    intro lines entry key hok hother
    rw [accepted_congr (map_reading_rewriteEntry hok), accepted_foldEntry_other hother]
  have hown : ∀ lines entry key, SparedEntry lines entry → keyOf entry = some key →
      ((∀ l ∈ rewriteEntry lines entry, keyOf l = some key → Accepted l) ↔
        Settled lines entry) := by
    intro lines entry key hok hown
    rw [accepted_congr (map_reading_rewriteEntry hok), accepted_foldEntry_own_iff hown]
  have hlasts := forall_foldl_iff_lastsMeet
    (P := fun key lines => ∀ l ∈ lines, keyOf l = some key → Accepted l) hframe hown hspared
  rw [hsplit, accepted_foldl_unkeyed hspared, hlasts, ← and_assoc]
  apply and_congr_left'
  constructor
  · rintro ⟨hnone, hsome⟩ l hl
    cases hkey : keyOf l with
    | none => exact Or.inl (hnone l hl hkey)
    | some key =>
        by_cases hlog : ∃ entry ∈ log, keyOf entry = some key
        · obtain ⟨entry, hentry, hkey'⟩ := hlog
          exact Or.inr ⟨entry, hentry, key, hkey, hkey'⟩
        · push Not at hlog
          exact Or.inl (hsome key hlog l hl hkey)
  · intro hall
    constructor
    · intro l hl hkey
      rcases hall l hl with h | ⟨_, _, key, hkey', _⟩
      · exact h
      · rw [hkey] at hkey'
        cases hkey'
    · intro key hlog l hl hkey
      rcases hall l hl with h | ⟨entry, hentry, key', hkey', hentry'⟩
      · exact h
      · rw [hkey, Option.mem_some_iff] at hkey'
        exact absurd (hkey' ▸ hentry') (hlog entry hentry)

/-- A planner run for a modpack with a name of one line returns its buffer.  When the steps
of the log spare the other lines, all lines of the buffer are acceptable exactly when every
list line that no entry overrules gives an acceptable line and the last entry of every key
leaves acceptable lines.  Then the loop of the client never gives up because of the text of
an instruction. -/
theorem accepted_iff {k : Kernel} {sys : Sys} {modpack version : Text} {p : PlanReads}
    (hp : p.ReadFrom k sys modpack version) (hmodpack : '\n' ∉ modpack) (instr : Text) :
    (∃ sys', mcuCreateUpdateInstructions k sys instr modpack version =
        .ok ((0, p.instructions k modpack), sys')) ∧
      (SparedRun (p.diff k modpack) p.log →
        ((∀ l ∈ pieces '\n' (p.instructions k modpack), Accepted l) ↔
          (∀ w ∈ rewrites k p.diffSys modpack p.list1 p.list2,
            Interpretable w ∨ Overruled p.log (replaceAll "./".toList w.1 w.2)) ∧
            LastsMeet rewriteEntry keyOf Settled (p.diff k modpack) p.log)) ∧
      ((∀ l ∈ pieces '\n' (p.instructions k modpack), Accepted l) →
        ∀ dir transfer fs stop,
          (runInstructions dir transfer 0 (javaSplit (p.instructions k modpack)) fs).1 =
            some stop → ¬ stop.unreadable) := by
  refine ⟨mcuCreateUpdateInstructions_of_reads hp instr, fun hspared => ?_,
    fun hall dir transfer fs stop hstop => ?_⟩
  · rw [PlanReads.pieces_instructions hp hspared, accepted_foldl_iff hspared, PlanReads.diff,
      forall_diffLines_iff hmodpack fun _ => Or.inl]
    apply and_congr_left'
    refine forall₂_congr fun w hw => ?_
    rw [accepted_rewrites_iff hw]
  · refine runInstructions_readable (fun l hl => ?_) hstop
    rcases mem_javaSplit hl with rfl | hmem
    · trivial
    · rcases hall l hmem with rfl | ⟨-, hreadable⟩
      · trivial
      · exact hreadable

/-- A new regular file, and a log that updates it. -/
theorem accepted_new_file :
    (mcuCreateUpdateInstructions
        (outdated ".\n".toList ".\n./b\n".toList "@1\n*fmods/b\n".toList
          fun _ => some .regular) ⟨0, []⟩ [] ['m'] ['1'] =
      .ok ((0, "*fmods/b\n".toList), ⟨6, []⟩)) ∧
    ∀ l ∈ pieces '\n' ((storedReads ⟨0, []⟩ "2\n".toList ".\n".toList ".\n./b\n".toList
        "@1\n*fmods/b\n".toList ["*fmods/b".toList]).instructions
      (outdated ".\n".toList ".\n./b\n".toList "@1\n*fmods/b\n".toList
        fun _ => some .regular) ['m']), Accepted l :=
  ⟨by decide, ((accepted_iff (readFrom_outdated _ (by decide) _) (by decide) []).2.1
    (by decide)).mpr ⟨by decide, by decide⟩⟩

/-- A pipe among the added files gives an instruction of unknown type, and a
change line of one character gives an instruction without a type.  A deletion cuts its text
out of another line too, and leaves an instruction without a path. -/
theorem accepted_fails :
    (∃ out sys', mcuCreateUpdateInstructions
        (outdated ".\n".toList ".\n./p\n".toList "@1\n".toList fun _ => some .special)
        ⟨0, []⟩ [] ['m'] ['1'] = .ok ((0, out), sys') ∧ javaSplit out = ["+umods/p".toList] ∧
      ¬ Executable "+umods/p".toList ∧
      (runInstructions [] (fun _ _ => .complete []) 0 (javaSplit out) ⟨[]⟩).1 =
        some (.returnsFalse .filetype)) ∧
    (∃ out sys', mcuCreateUpdateInstructions
        (outdated ".\n".toList ".\n".toList "@1\n+\n".toList fun _ => some .regular)
        ⟨0, []⟩ [] ['m'] ['1'] = .ok ((0, out), sys') ∧ javaSplit out = ["+".toList] ∧
      ¬ Executable "+".toList ∧
      (runInstructions [] (fun _ _ => .complete []) 0 (javaSplit out) ⟨[]⟩).1 =
        some (.throws .stringIndex)) ∧
    ∃ out sys', mcuCreateUpdateInstructions
        (outdated ".\n".toList ".\n".toList "@1\n+fmods/a\n+f+fmods/a\n-fmods/a\n".toList
          fun _ => some .regular) ⟨0, []⟩ [] ['m'] ['1'] = .ok ((0, out), sys') ∧
      javaSplit out = ["+f".toList] ∧ ¬ Executable "+f".toList := by
  refine ⟨⟨"+umods/p\n".toList, ⟨6, []⟩, ?_⟩, ⟨"+\n".toList, ⟨4, []⟩, ?_⟩,
    "+f".toList, ⟨4, []⟩, ?_⟩
  · exact ⟨by decide, by decide, by decide, by decide⟩
  · exact ⟨by decide, by decide, by decide, by decide⟩
  · exact ⟨by decide, by decide, by decide⟩

end Update
end ModpackInstaller
