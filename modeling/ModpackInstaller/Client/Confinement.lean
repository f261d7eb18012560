import ModpackInstaller.Client.Touches

/-!
# Staying in the directory of a pack

The three routines join names that come from the server, from an archive or from
a stored manifest to a directory.  None of them looks at the dots in a name.

Main results:

- Theorem {lit}`resolve_eq_net`: where a name leads is given by its net effect.
- Theorem {lit}`outside_unchanged`: a confined routine leaves everything outside
  of the directory as it was.
- Theorem {lit}`confined_iff_staysIn`: a routine is confined exactly when the names of the
  operations that succeed lead into the directory, and no directory above is
  missing when one is made.
- Theorem {lit}`leads_self`: a name leads from a directory into it exactly when it
  does not climb out, or climbs back through the same names.
- Theorem {lit}`confined_climbing`: an instruction with two dots deletes a file next
  to the directory.
-/

namespace ModpackInstaller
namespace Client
namespace Confinement

open Library

/-! ## Where a name leads -/

/-- The hops of a name. -/
def hops (name : Text) : List (Hop Text) :=
  (pieces '/' name).map Hop.ofName

theorem resolve_eq_walk (base : Path) (name : Text) :
    Fs.resolve base name = walk base (hops name) := by
  rw [Fs.resolve, walk, hops, List.foldl_map]
  refine congrArg (fun step => List.foldl step base (pieces '/' name)) ?_
  funext p piece
  unfold Hop.ofName
  split_ifs <;> rfl

/-- Where a name leads is given by its net effect. -/
theorem resolve_eq_net (base : Path) (name : Text) :
    Fs.resolve base name = (net (hops name)).apply base := by
  rw [resolve_eq_walk, walk_eq_net]

/-- From `base`, the levels up that a name goes in the net and then its names
down end in `dir`. -/
def Leads (dir base : Path) (name : Text) : Prop :=
  dir <+: base.take (base.length - (net (hops name)).ups) ++ (net (hops name)).names

instance (dir base : Path) (name : Text) : Decidable (Leads dir base name) :=
  inferInstanceAs (Decidable (_ <+: _))

theorem leads_iff {dir base : Path} {name : Text} :
    Leads dir base name ↔ dir <+: Fs.resolve base name := by
  rw [resolve_eq_net]
  exact Iff.rfl

/-- A name leads from a directory into it exactly when it does not climb out, or
climbs back through the same names. -/
theorem leads_self {dir : Path} {name : Text} :
    Leads dir dir name ↔
      dir.drop (dir.length - (net (hops name)).ups) <+: (net (hops name)).names := by
  rw [leads_iff, resolve_eq_walk, prefix_walk_iff]

/-! ## Confinement -/

/-- `new File(directory, f)` with the text of a directory, in a process that runs in
`cwd`; without a directory the file is relative to the process. -/
def fileOfText (cwd : Path) (directory : Option Text) (f : Text) : File :=
  let name := match directory with
    | some directory => directory ++ '/' :: f
    | none => f
  ⟨if name.head? = some '/' then [] else cwd, name⟩

/-- What a routine works through. -/
inductive Job where
  /-- The loop of `updatePack`, with the path that the system has for the directory. -/
  | update (packDirectory : Path) (transfer : Nat → Text → Transfer) (instructions : List Text)
  | unTar (outputDir : Path) (archive : Archive)
  /-- The removal loop of `downloadAddons` in a process that runs in `cwd`. -/
  | removal (cwd : Path) (packList : List Pack) (workingPack : Text) (files : List Text)

/-- The operations of a routine. -/
def Job.touches (fs : Fs) : Job → List Touch
  | .update packDirectory transfer instructions =>
    loopTouches packDirectory transfer 0 instructions fs
  | .unTar outputDir archive => entriesTouches outputDir archive.entries fs
  | .removal cwd packList workingPack files =>
    removalTouches (fileOfText cwd (registeredDirectory packList workingPack)) files

/-- Everything that is created, overwritten or deleted lies in the directory. -/
def Confined (dir : Path) (fs : Fs) (job : Job) : Prop :=
  MeetsAlong apply (fun fs t => ∀ q ∈ changed fs t, dir <+: q) fs (job.touches fs)

/-- An operation that succeeds leads into the directory, and when it makes
directories none above is missing. -/
def StaysIn (dir : Path) (fs : Fs) (t : Touch) : Prop :=
  (t.run fs).isSome = true →
    Leads dir t.base t.name ∧
      (t.op = .mkdirs → ∀ q ∈ dir.inits, q ≠ dir → q ≠ [] → fs.get q ≠ none)

instance (dir : Path) (fs : Fs) (t : Touch) : Decidable (StaysIn dir fs t) :=
  inferInstanceAs (Decidable (_ → _))

theorem changed_inside_iff {dir : Path} {fs : Fs} {t : Touch} :
    (∀ q ∈ changed fs t, dir <+: q) ↔ StaysIn dir fs t := by
  obtain ⟨op, base, name⟩ := t
  unfold StaysIn
  rw [leads_iff]
  by_cases hrun : (Touch.run ⟨op, base, name⟩ fs).isSome = true
  · simp only [hrun, true_implies]
    cases op with
    | write content => simp [changed, hrun, Touch.file, File.path]
    | delete => simp [changed, hrun, Touch.file, File.path]
    | mkdirs =>
        have hnew : Fs.resolve base name ≠ [] ∧ fs.get (Fs.resolve base name) = none := by
          rw [run_mkdirs, Option.isSome_iff_exists] at hrun
          obtain ⟨fs', hmkdirs⟩ := hrun
          have hmissing := (File.mkdirs_some hmkdirs).1
          rw [← Bool.not_eq_true, fileExists_iff] at hmissing
          simpa [File.path] using hmissing
        constructor
        · intro hinside
          have hself : dir <+: Fs.resolve base name :=
            hinside _ (mem_mkdirs_changed.mpr ⟨hrun, List.prefix_rfl, hnew⟩)
          refine ⟨hself, fun _ q hq hne hroot hnone => ?_⟩
          have hpre : q <+: dir := (List.mem_inits q dir).mp hq
          have hback := hinside q (mem_mkdirs_changed.mpr ⟨hrun, hpre.trans hself, hroot, hnone⟩)
          exact hne (hpre.eq_of_length_le hback.length_le)
        · rintro ⟨hself, habove⟩ q hq
          obtain ⟨-, hpre, hroot, hnone⟩ := mem_mkdirs_changed.mp hq
          rcases List.prefix_or_prefix_of_prefix hself hpre with hin | hout
          · exact hin
          · by_cases heq : q = dir
            · rw [heq]
            · exact absurd hnone (habove rfl q ((List.mem_inits q dir).mpr hout) heq hroot)
  · simp [changed, hrun]

/-- A routine is confined exactly when every operation that succeeds stays in the
directory. -/
theorem confined_iff_staysIn (dir : Path) (fs : Fs) (job : Job) :
    Confined dir fs job ↔ MeetsAlong apply (StaysIn dir) fs (job.touches fs) :=
  meetsAlong_congr (fun _ _ => changed_inside_iff) fs (job.touches fs)

/-- A confined routine leaves everything outside of the directory as it was. -/
theorem outside_unchanged {dir : Path} {fs : Fs} {job : Job} (h : Confined dir fs job) {q : Path}
    (hq : ¬ dir <+: q) : ((job.touches fs).foldl apply fs).get q = fs.get q := by
  unfold Confined at h
  generalize job.touches fs = touches at h ⊢
  induction touches generalizing fs with
  | nil => rfl
  | cons t touches ih =>
      rw [List.foldl_cons, ih h.2, get_apply fun hmem => hq (h.1 q hmem)]

/-- An update with one deletion. -/
def climbing : Job :=
  .update ["p".toList] (fun _ _ => .networkError) ["-f../x".toList]

/-- The file next to the directory of the pack is deleted. -/
theorem confined_climbing :
    ¬ Confined ["p".toList] ⟨[(["p".toList], .dir), (["x".toList], .file [])]⟩ climbing ∧
      runInstructions ["p".toList] (fun _ _ => .networkError) 0 ["-f../x".toList]
        ⟨[(["p".toList], .dir), (["x".toList], .file [])]⟩ = (none, ⟨[(["p".toList], .dir)]⟩) := by
  refine ⟨?_, by decide⟩
  unfold Confined
  decide

end Confinement
end Client
end ModpackInstaller
