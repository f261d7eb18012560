import Mathlib.Data.List.Perm.Subperm
import ModpackInstaller.Library.Run
import ModpackInstaller.Server.Plan

/-!
# Descriptors of the planner

Which descriptors {lit}`mcu_create_update_instructions` leaves open.  The loop over
the added files opens the server's copy of each one and never closes it, so what
is left depends on the files that can be opened at their moment.

Main results:

- Theorem {lit}`diffAdded_fds_iff`: the loop keeps the set of descriptors exactly
  when none of the copies can be opened.
- Theorem {lit}`descriptors_iff`: the same for the planner as a whole, with any
  return code.
- Theorem {lit}`descriptors_of_run`: no number of requests of this kind uses
  descriptors up.
-/

namespace ModpackInstaller
namespace Server

open Library

/-! ## New descriptors -/

/-- A new descriptor is one that was free. -/
theorem freshFd_not_mem (fds : List Nat) : freshFd fds ∉ fds := by
  unfold freshFd
  cases hfind : (List.range (fds.length + 1)).find? (· ∉ fds) with
  | some n => simpa using List.find?_some hfind
  | none =>
      have hall : List.range (fds.length + 1) ⊆ fds := by
        intro n hn
        simpa using List.find?_eq_none.mp hfind n hn
      have hlen := (List.subperm_of_subset List.nodup_range hall).length_le
      rw [List.length_range] at hlen
      omega

/-- None of the files can be opened when the loop comes to it; every file takes two
look-ups. -/
def NoneOpens (k : Kernel) (modpack : Text) : Nat → List Text → Prop
  | _, [] => True
  | clock, file :: files =>
    k.openRead clock (cstr (serverPath modpack file)) = none ∧ NoneOpens k modpack (clock + 2) files

/-! ## The loop over the added files -/

/-- One look-up with `str_open` and one with `str_stat`. -/
theorem strOpen_fds (k : Kernel) (sys : Sys) (path : Text) :
    (strOpen k sys path).2.fds =
      match k.openRead sys.clock path with
      | none => sys.fds
      | some _ => freshFd sys.fds :: sys.fds := by
  unfold strOpen
  cases k.openRead sys.clock path <;> rfl

section Loop

variable (k : Kernel) (modpack list1 : Text)

/-- A turn of the loop that does not skip its file. -/
theorem diffAdded_cons {file : Text} (files : List Text) (sys : Sys) (instr : Text)
    (hkeep : ¬ (file = ['.'] ∨ file.isEmpty ∨ strContainsLine list1 file)) :
    ∃ instr', diffAdded k modpack list1 (file :: files) sys instr =
      diffAdded k modpack list1 files
        ⟨sys.clock + 2, (strOpen k sys (cstr (serverPath modpack file))).2.fds⟩ instr' := by
  rw [diffAdded, if_neg hkeep]
  exact ⟨_, by simp only [strStat_snd, strOpen_clock]; rfl⟩

/-- The loop closes no descriptor. -/
theorem subset_diffAdded_fds (files : List Text) (sys : Sys) (instr : Text) :
    sys.fds ⊆ (diffAdded k modpack list1 files sys instr).2.fds := by
  induction files generalizing sys instr with
  | nil => exact fun fd hfd => hfd
  | cons file files ih =>
      by_cases hskip : file = ['.'] ∨ file.isEmpty ∨ strContainsLine list1 file
      · rw [diffAdded, if_pos hskip]
        exact ih sys instr
      · obtain ⟨instr', hturn⟩ := diffAdded_cons k modpack list1 files sys instr hskip
        rw [hturn]
        refine fun fd hfd => ih _ _ ?_
        change fd ∈ (strOpen k sys (cstr (serverPath modpack file))).2.fds
        rw [strOpen_fds]
        split
        · exact hfd
        · exact List.mem_cons_of_mem _ hfd

/-- The loop keeps the set of descriptors exactly when none of the copies it looks
for can be opened. -/
theorem diffAdded_fds_iff (files : List Text) (sys : Sys) (instr : Text) :
    (∀ fd, fd ∈ (diffAdded k modpack list1 files sys instr).2.fds ↔ fd ∈ sys.fds) ↔
      NoneOpens k modpack sys.clock (files.filter fun file =>
        decide ¬ (file = ['.'] ∨ file.isEmpty ∨ strContainsLine list1 file)) := by
  induction files generalizing sys instr with
  | nil => simp [diffAdded, NoneOpens]
  | cons file files ih =>
      by_cases hskip : file = ['.'] ∨ file.isEmpty ∨ strContainsLine list1 file
      · rw [diffAdded, if_pos hskip, ih,
          List.filter_cons_of_neg (by rwa [decide_eq_true_eq, not_not])]
      · obtain ⟨instr', hturn⟩ := diffAdded_cons k modpack list1 files sys instr hskip
        rw [hturn, List.filter_cons_of_pos (by rwa [decide_eq_true_eq]), NoneOpens]
        have hfds := strOpen_fds k sys (cstr (serverPath modpack file))
        cases hopen : k.openRead sys.clock (cstr (serverPath modpack file)) with
        | none =>
            rw [hopen] at hfds
            rw [and_iff_right rfl, hfds]
            exact ih ⟨sys.clock + 2, sys.fds⟩ instr'
        | some f =>
            rw [hopen] at hfds
            refine iff_of_false (fun h => ?_) (fun h => Option.some_ne_none f h.1)
            -- The first descriptor stays open to the end of the loop.
            have hnew : freshFd sys.fds ∈
                (strOpen k sys (cstr (serverPath modpack file))).2.fds := by
              rw [hfds]
              exact List.mem_cons_self
            exact freshFd_not_mem sys.fds
              ((h _).mp (subset_diffAdded_fds k modpack list1 files _ _ hnew))

end Loop

/-! ## The planner -/

/-- What the planner has read when it comes to the diff: the two lists, and the
process at that moment. -/
def diffInput (k : Kernel) (sys : Sys) (modpack version : Text) : Option (Text × Text × Sys) :=
  match mcuGetLatestVersion k sys modpack with
  | .ok ((true, latest), sys) =>
    match strFileread k sys (listfilePath modpack version) listLimit with
    | .ok (list1, sys) =>
      if list1.retval < 0 then none
      else
        match strFileread k sys (listfilePath modpack latest) listLimit with
        | .ok (list2, sys) =>
          if list2.retval < 0 then none else some (list1.text, list2.text, sys)
        | .error _ => none
    | .error _ => none
  | _ => none

theorem mcuGetLatestVersion_fds {k : Kernel} {sys sys' : Sys} {modpack latest : Text} {found : Bool}
    (h : mcuGetLatestVersion k sys modpack = .ok ((found, latest), sys')) : sys'.fds = sys.fds := by
  unfold mcuGetLatestVersion at h
  split at h
  · cases h
  · rename_i read sys₁ hread
    obtain ⟨-, rfl⟩ := Prod.mk.inj (Except.ok.inj h)
    exact strFileread_fds hread

/-- The planner ends in front of the diff, or with the descriptors that the diff
has left. -/
theorem mcuCreateUpdateInstructions_fds {k : Kernel} {sys sys' : Sys}
    {instr modpack version : Text} {r : Int × Text}
    (h : mcuCreateUpdateInstructions k sys instr modpack version = .ok (r, sys')) :
    (diffInput k sys modpack version = none ∧ sys'.fds = sys.fds) ∨
      ∃ list1 list2 diffSys, diffInput k sys modpack version = some (list1, list2, diffSys) ∧
        diffSys.fds = sys.fds ∧ sys'.fds = (listDiff k diffSys modpack list1 list2).2.fds := by
  unfold mcuCreateUpdateInstructions at h
  obtain ⟨⟨⟨found, latest⟩, sys₁⟩, hlatest, h⟩ := bind_ok h
  have hfds₁ := mcuGetLatestVersion_fds hlatest
  cases found with
  | false =>
      simp only [Bool.not_false, if_true, pure, Except.pure, Except.ok.injEq, Prod.mk.injEq] at h
      exact Or.inl ⟨by simp [diffInput, hlatest], h.2 ▸ hfds₁⟩
  | true =>
      simp only [Bool.not_true, Bool.false_eq_true, if_false] at h
      obtain ⟨⟨r₁, sys₂⟩, hlist1, h⟩ := bind_ok h
      have hfds₂ := (strFileread_fds hlist1).trans hfds₁
      by_cases hneg₁ : r₁.retval < 0
      · simp only [hneg₁, if_true, pure, Except.pure, Except.ok.injEq, Prod.mk.injEq] at h
        exact Or.inl ⟨by simp [diffInput, hlatest, hlist1, hneg₁], h.2 ▸ hfds₂⟩
      obtain ⟨⟨r₂, sys₃⟩, hlist2, h⟩ := bind_ok (by simpa [hneg₁] using h)
      have hfds₃ := (strFileread_fds hlist2).trans hfds₂
      by_cases hneg₂ : r₂.retval < 0
      · simp only [hneg₂, if_true, pure, Except.pure, Except.ok.injEq, Prod.mk.injEq] at h
        exact Or.inl ⟨by simp [diffInput, hlatest, hlist1, hneg₁, hlist2, hneg₂], h.2 ▸ hfds₃⟩
      obtain ⟨⟨r₃, sys₄⟩, hchanges, h⟩ := bind_ok (by simpa [hneg₂] using h)
      have hinput : diffInput k sys modpack version = some (r₁.text, r₂.text, sys₃) := by
        simp [diffInput, hlatest, hlist1, hneg₁, hlist2, hneg₂]
      refine Or.inr ⟨r₁.text, r₂.text, sys₃, hinput, hfds₃, ?_⟩
      have hsys : sys' = sys₄ := by
        split at h
        · exact (Prod.mk.inj (Except.ok.inj h)).2.symm
        · split at h
          · exact (Prod.mk.inj (Except.ok.inj h)).2.symm
          · exact (Prod.mk.inj (Except.ok.inj h)).2.symm
      rw [hsys]
      exact strFileread_fds hchanges

/-- When the planner comes to the diff, none of the copies that it looks for can be
opened: those of the files that only the latest list has. -/
def NothingOpens (k : Kernel) (sys : Sys) (modpack version : Text) : Prop :=
  ∀ input ∈ diffInput k sys modpack version,
    NoneOpens k modpack input.2.2.clock (onlyIn input.2.1 input.1)

/-- The planner keeps the set of open descriptors exactly when no copy of an added
file can be opened. -/
theorem descriptors_iff {k : Kernel} {sys sys' : Sys} {instr modpack version : Text}
    {r : Int × Text}
    (h : mcuCreateUpdateInstructions k sys instr modpack version = .ok (r, sys')) :
    (∀ fd, fd ∈ sys'.fds ↔ fd ∈ sys.fds) ↔ NothingOpens k sys modpack version := by
  rcases mcuCreateUpdateInstructions_fds h with
    ⟨hinput, hfds⟩ | ⟨list1, list2, diffSys, hinput, hstart, hfds⟩
  · simp [NothingOpens, hinput, hfds]
  · have hloop := diffAdded_fds_iff k modpack list1 (strLines list2) diffSys
      (strReplaceText (diffRemoved list2 (strLines list1) []) "./".toList "-umods/".toList)
    rw [hstart] at hloop
    have hcopies : NothingOpens k sys modpack version ↔
        NoneOpens k modpack diffSys.clock (onlyIn list2 list1) := by
      simp [NothingOpens, hinput]
    rw [hfds, hcopies]
    exact hloop

/-- An added file whose copy is not there. -/
theorem descriptors_missing :
    ∃ r sys', mcuCreateUpdateInstructions
        (outdated ".\n".toList ".\n./a\n".toList "@1\n".toList fun _ => none) ⟨0, [3]⟩ [] ['m']
          ['1'] = .ok (r, sys') ∧ ∀ fd, fd ∈ sys'.fds ↔ fd ∈ [3] := by
  have hplan : mcuCreateUpdateInstructions
      (outdated ".\n".toList ".\n./a\n".toList "@1\n".toList fun _ => none) ⟨0, [3]⟩ [] ['m']
        ['1'] = .ok ((0, "# unstatable file: /m/mods/./a\n".toList), ⟨6, [3]⟩) := by decide
  refine ⟨_, _, hplan, (descriptors_iff hplan).mpr fun input hinput => ?_⟩
  have hread : diffInput (outdated ".\n".toList ".\n./a\n".toList "@1\n".toList fun _ => none)
      ⟨0, [3]⟩ ['m'] ['1'] = some (".\n".toList, ".\n./a\n".toList, ⟨3, [3]⟩) := by decide
  rw [hread] at hinput
  obtain rfl := Option.some.inj hinput
  have honly : onlyIn ".\n./a\n".toList ".\n".toList = ["./a".toList] := by decide
  rw [honly]
  exact ⟨by decide, trivial⟩

/-- A modpack whose new file is on the server. -/
def unpacked (old latest changes : Text) : Kernel where
  openRead clock path :=
    if path = serverPath ['m'] "./a".toList then some (.ofText [])
    else (outdated old latest changes fun _ => some .regular).openRead clock path
  stat _ _ := some .regular

/-- One request for an added file that is there leaves one descriptor open. -/
theorem descriptors_fails :
    ∃ r sys', mcuCreateUpdateInstructions (unpacked ".\n".toList ".\n./a\n".toList "@1\n".toList)
        ⟨0, []⟩ [] ['m'] ['1'] = .ok (r, sys') ∧ ¬ ∀ fd, fd ∈ sys'.fds ↔ fd ∈ ([] : List Nat) := by
  refine ⟨(0, "+fmods/a\n".toList), ⟨6, [0]⟩, by decide, fun h => ?_⟩
  exact absurd ((h 0).mp (by simp)) (by simp)

/-! ## Requests of a session -/

/-- The arguments of one request, with what the static buffer holds. -/
structure Request where
  instr : Text
  modpack : Text
  version : Text

/-- One request after the other; `none` when the process gives up. -/
def plan (k : Kernel) (sys : Sys) (request : Request) : Option Sys :=
  match mcuCreateUpdateInstructions k sys request.instr request.modpack request.version with
  | .ok (_, sys) => some sys
  | .error _ => none

/-- Requests that find no copy to open use no descriptors up. -/
theorem descriptors_of_run {k : Kernel} {sys sys' : Sys} {requests : List Request}
    (hcopies : RunMeets (plan k) (fun sys q => NothingOpens k sys q.modpack q.version) sys requests)
    (hrun : run (plan k) sys requests = some sys') : ∀ fd, fd ∈ sys'.fds ↔ fd ∈ sys.fds := by
  refine run_invariant (P := fun s : Sys => ∀ fd, fd ∈ s.fds ↔ fd ∈ sys.fds)
    (fun s q s' hs hmeets hplan fd => ?_) (fun fd => Iff.rfl) hcopies hrun
  unfold plan at hplan
  split at hplan
  · rename_i r s₁ hok
    obtain rfl := Option.some.inj hplan
    exact ((descriptors_iff hok).mpr hmeets fd).trans (hs fd)
  · cases hplan

end Server
end ModpackInstaller
