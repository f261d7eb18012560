import ModpackInstaller.Client.Bootloader

/-!
# Downloading the launcher of the game

{lit}`InstallPanel.downloadMojangLauncher` over any number of calls.  A call that
finds the file {lit}`Minecraft.jar` is content with it, and the file is there
before its first byte.

Main results:

- Theorem {lit}`honest_refused_iff`: a later call is right about the file exactly
  when it is missing or complete.
- Theorem {lit}`honest_iff_through`: the calls that return true are right about the
  file exactly when every download that opens it gets through.
- Theorem {lit}`honest_fails`: behind a broken download the next call is content.
-/

namespace ModpackInstaller
namespace Client
namespace MojangLauncher

open Library
open Bootloader (Fetch Arrives)

/-- What the configuration, the network and the disk do to one call. -/
structure Call where
  /-- There is no proxy, or its address can be read. -/
  proxy : Bool
  /-- The launcher that the server has. -/
  body : Text
  fetch : Fetch
deriving DecidableEq, Repr

/-- The file {lit}`Minecraft.jar`, and the call that wrote it, which is for the
statements only. -/
structure Disk where
  jar : Option Text
  writer : Option Call
deriving DecidableEq, Repr

/-- The disk without the file. -/
def missing : Disk := ⟨none, none⟩

/-- `downloadMojangLauncher`; the result is `none` when it throws. -/
def downloadMojangLauncher (d : Disk) (c : Call) : Disk × Option Bool :=
  if d.jar.isSome then (d, some true)
  else if !c.proxy then (d, none)
  else
    match c.fetch with
    | .refused => (d, some false)
    | .unopened => (d, some false)
    | .broken n => (⟨some (c.body.take n), some c⟩, some false)
    | .ended n => (⟨some (c.body.take n), some c⟩, some true)

/-- The disk behind a call. -/
def step (d : Disk) (c : Call) : Disk :=
  (downloadMojangLauncher d c).1

/-! ## What the result is for -/

/-- The file holds the complete contents of a download that got through. -/
def Complete (d : Disk) : Prop :=
  ∃ c ∈ d.writer, Arrives c.body c.fetch ∧ d.jar = some c.body

/-- A call that returns true is right about the file. -/
def Honest (d : Disk) (c : Call) : Prop :=
  (downloadMojangLauncher d c).2 = some true → Complete (step d c)

/-- A call without a connection. -/
def refused : Call := ⟨true, [], .refused⟩

/-- A call that opens the file gets through to the end of the contents. -/
def Through (d : Disk) (c : Call) : Prop :=
  d.jar = none → c.proxy = true → c.fetch = .refused ∨ c.fetch = .unopened ∨ Arrives c.body c.fetch

/-- The file is missing or complete. -/
def Sound (d : Disk) : Prop :=
  d.jar = none ∨ Complete d

/-! ## One call -/

/-- Behind a call that returns true the file is there. -/
theorem jar_of_true {d : Disk} {c : Call} (h : (downloadMojangLauncher d c).2 = some true) :
    (step d c).jar ≠ none := by
  unfold step
  unfold downloadMojangLauncher at h ⊢
  split_ifs at h ⊢ with hjar hproxy
  · exact Option.isSome_iff_ne_none.mp hjar
  · cases hfetch : c.fetch with
    | refused => simp [hfetch] at h
    | unopened => simp [hfetch] at h
    | broken n => simp [hfetch] at h
    | ended n => simp

/-- A later call is right about the file exactly when it is missing or complete. -/
theorem honest_refused_iff (d : Disk) : Honest d refused ↔ Sound d := by
  unfold Honest Sound step downloadMojangLauncher
  cases hjar : d.jar with
  | none => simp [refused]
  | some jar => simp

/-- From a sound disk a call leads to a sound one exactly when it gets through. -/
theorem sound_step_iff (d : Disk) (c : Call) (h : Sound d) : Sound (step d c) ↔ Through d c := by
  unfold step downloadMojangLauncher Through
  cases hjar : d.jar with
  | some jar => simp [h]
  | none =>
      cases hproxy : c.proxy with
      | false => simp [h]
      | true =>
          cases hfetch : c.fetch with
          | refused => simp [h]
          | unopened => simp [h]
          | broken n => simp [Sound, Complete, Arrives, hfetch]
          | ended n => simp [Sound, Complete, Arrives, hfetch]

/-! ## Any number of calls -/

/-- A call that leads to a sound disk is right when it returns true. -/
theorem honest_of_sound {d : Disk} {c : Call} (h : Sound (step d c)) : Honest d c := by
  intro htrue
  exact h.resolve_left (jar_of_true htrue)

/-- The calls of a run that return true, and any later call that only looks for the file,
are right about it exactly when every call that opens the file gets through. -/
theorem honest_iff_through (calls : List Call) :
    (∀ n, (∀ c ∈ calls[n]?, Honest ((calls.take n).foldl step missing) c) ∧
        Honest ((calls.take n).foldl step missing) refused) ↔
      MeetsAlong step Through missing calls := by
  have hruns := invariant_iff_meetsAlong sound_step_iff missing calls
  have hstart : Sound missing := Or.inl rfl
  rw [and_iff_right hstart] at hruns
  rw [← hruns]
  constructor
  · intro h n
    exact (honest_refused_iff _).mp (h n).2
  · intro h n
    refine ⟨fun c hc => honest_of_sound ?_, (honest_refused_iff _).mpr (h n)⟩
    have hnext := h (n + 1)
    rw [List.take_add_one, hc, List.foldl_append] at hnext
    exact hnext

/-- The stream of the first call breaks behind three characters. -/
def brokenFirst : List Call :=
  [⟨true, "launcher".toList, .broken 3⟩, ⟨true, "launcher".toList, .ended 8⟩]

/-- Behind a download that broke the next call returns true, with a part of the launcher
in the file. -/
theorem honest_fails :
    (downloadMojangLauncher missing ⟨true, "launcher".toList, .broken 3⟩).2 = some false ∧
      (downloadMojangLauncher ((brokenFirst.take 1).foldl step missing)
        ⟨true, "launcher".toList, .ended 8⟩).2 = some true ∧
      (brokenFirst.foldl step missing).jar = some "lau".toList ∧
      ¬ Honest ((brokenFirst.take 1).foldl step missing)
        ⟨true, "launcher".toList, .ended 8⟩ := by
  refine ⟨by decide, by decide, by decide, fun h => ?_⟩
  obtain ⟨c, hc, -, hjar⟩ := h (by decide)
  obtain rfl := Option.some.inj hc
  exact absurd hjar (by decide)

end MojangLauncher
end Client
end ModpackInstaller
