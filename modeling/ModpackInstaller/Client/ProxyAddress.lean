import ModpackInstaller.Client.ConfigForm
import ModpackInstaller.Library.Split

/-!
# The address of a proxy

Which strings the constructor of {lit}`ProxyAddress` takes, beside those of the form
{lit}`host` or {lit}`host:port`, and which exceptions it leaves with.

Main results:

- Theorem {lit}`proxyAddress_of_fields`: the constructor on the fields of a string with
  a colon.
- Theorem {lit}`exact_iff`: for which strings it does what the two forms say.
-/

namespace ModpackInstaller
namespace Client
namespace ConfigForm

open Library

/-! ## The two forms -/

/-- A number that is a port. -/
def IsPort (n : Int) : Prop :=
  0 ≤ n ∧ n ≤ 65535

instance : DecidablePred IsPort :=
  fun _ => inferInstanceAs (Decidable (_ ∧ _))

/-- A string stands for a host and a port. -/
def Denotes (address : Text) (defaultPort : Int) (host : Text) (port : Int) : Prop :=
  host ≠ [] ∧ ':' ∉ host ∧ IsPort port ∧
    (address = host ∧ port = defaultPort ∨
      ∃ digits, address = host ++ ':' :: digits ∧ parseInt digits = some port)

/-- The strings that stand for an address are taken as what they stand for, and every
other one throws the exception that the callers handle. -/
def Exact (address : Text) (defaultPort : Int) : Prop :=
  (∀ host port, proxyAddress address defaultPort = .ok (host, port) ↔
    Denotes address defaultPort host port) ∧
  ((∀ host port, ¬ Denotes address defaultPort host port) →
    proxyAddress address defaultPort = .error .illegalArgument)

/-- The fields of a string for which nothing is wrong: one that is not empty, or a host
in front of a port and nothing behind it.  Where the default port is used, an
unusable one throws for every string, and so does a port that is none. -/
def Fits (defaultPort : Int) : List Text → Prop
  | [] => True
  | [host] => IsPort defaultPort → host ≠ []
  | host :: port :: more =>
    if ∀ f ∈ port :: more, f = [] then host ≠ [] ∧ ¬ IsPort defaultPort
    else ∀ n, parseInt port = some n → IsPort n → host ≠ [] ∧ more = []

/-! ## The constructor -/

theorem splitColons_eq (s : Text) : splitColons s = splitTrim ':' s := rfl

theorem socketAddress_cons (host : Text) (more : List Text) (port : Int) :
    socketAddress (host :: more) port =
      if IsPort port then .ok (host, port) else .error .illegalArgument := rfl

/-- A string without a colon is the host. -/
theorem proxyAddress_of_host {address : Text} (h : ':' ∉ address) (defaultPort : Int) :
    proxyAddress address defaultPort =
      if IsPort defaultPort then .ok (address, defaultPort) else .error .illegalArgument := by
  rw [proxyAddress, splitColons_eq, splitTrim_of_not_mem h]
  exact socketAddress_cons address [] defaultPort

/-- A string with a colon: colons alone leave no part at all, colons behind a host are
dropped, and otherwise the second field is the port whatever comes behind it. -/
theorem proxyAddress_of_fields {address host port : Text} {more : List Text}
    (h : address.splitOn ':' = host :: port :: more) (defaultPort : Int) :
    proxyAddress address defaultPort =
      if ∀ f ∈ port :: more, f = [] then
        if host = [] then .error .arrayIndex
        else if IsPort defaultPort then .ok (host, defaultPort) else .error .illegalArgument
      else
        match parseInt port with
        | none => .error .illegalArgument
        | some n => if IsPort n then .ok (host, n) else .error .illegalArgument := by
  rw [proxyAddress, splitColons_eq, splitTrim_cons_cons h]
  by_cases hempty : ∀ f ∈ port :: more, f = []
  · rw [if_pos hempty, if_pos hempty]
    by_cases hhost : host = []
    · rw [if_pos hhost, if_pos hhost]
      rfl
    · rw [if_neg hhost, if_neg hhost]
      exact socketAddress_cons host [] defaultPort
  · rw [if_neg hempty, if_neg hempty, rdropWhile_cons]
    -- What is dropped behind the port does not matter.
    obtain ⟨rest, hrest⟩ : ∃ rest, (if more.all List.isEmpty then
        (if port.isEmpty then [] else [port]) else port :: more.rdropWhile List.isEmpty) =
        port :: rest := by
      by_cases hmore : more.all List.isEmpty = true
      · have hport : ¬ port.isEmpty = true := by
          intro hport
          refine hempty (List.forall_mem_cons.mpr ⟨List.isEmpty_iff.mp hport, ?_⟩)
          simpa using hmore
        exact ⟨[], by rw [if_pos hmore, if_neg hport]⟩
      · exact ⟨_, if_neg hmore⟩
    rw [hrest]
    dsimp only
    cases parseInt port with
    | none => rfl
    | some n => exact socketAddress_cons host _ n

/-! ## What the strings stand for -/

/-- Without a colon, the host and the default port. -/
theorem denotes_of_host {address : Text} (h : ':' ∉ address) (defaultPort : Int) (host : Text)
    (port : Int) :
    Denotes address defaultPort host port ↔
      address ≠ [] ∧ IsPort defaultPort ∧ host = address ∧ port = defaultPort := by
  constructor
  · rintro ⟨hne, -, hport, ⟨rfl, rfl⟩ | ⟨digits, rfl, -⟩⟩
    · exact ⟨hne, hport, rfl, rfl⟩
    · exact absurd (by simp) h
  · rintro ⟨hne, hport, rfl, rfl⟩
    exact ⟨hne, h, hport, Or.inl ⟨rfl, rfl⟩⟩

/-- With a colon, the two fields of a host and a port. -/
theorem denotes_of_fields {address f g : Text} {more : List Text}
    (h : address.splitOn ':' = f :: g :: more) (defaultPort : Int) (host : Text) (port : Int) :
    Denotes address defaultPort host port ↔
      f ≠ [] ∧ more = [] ∧ parseInt g = some port ∧ IsPort port ∧ host = f := by
  constructor
  · rintro ⟨hne, hhost, hport, ⟨rfl, -⟩ | ⟨digits, rfl, hdigits⟩⟩
    · exact absurd (mem_of_splitOn h) hhost
    · have hfree : ':' ∉ digits := fun hmem => by
        rcases sign_or_isDigit_of_parseInt hdigits ':' hmem with hc | hc | hc <;>
          exact absurd hc (by decide)
      rw [List.splitOn_append_cons_self_of_not_mem hhost, List.splitOn_eq_singleton hfree,
        List.cons.injEq, List.cons.injEq] at h
      obtain ⟨rfl, rfl, hmore⟩ := h
      exact ⟨hne, hmore.symm, hdigits, hport, rfl⟩
  · rintro ⟨hne, rfl, hdigits, hport, rfl⟩
    have hjoined : [':'].intercalate (address.splitOn ':') = address :=
      List.intercalate_splitOn ':'
    rw [h] at hjoined
    have hhost : ':' ∉ host := not_mem_of_mem_splitOn (h ▸ List.mem_cons_self)
    exact ⟨hne, hhost, hport, Or.inr ⟨g, by simpa using hjoined.symm, hdigits⟩⟩

/-! ## Exactness -/

/-- Without a colon, only the empty string is taken that should not be. -/
theorem exact_host_iff {address : Text} (h : ':' ∉ address) (defaultPort : Int) :
    Exact address defaultPort ↔ (IsPort defaultPort → address ≠ []) := by
  unfold Exact
  rw [proxyAddress_of_host h]
  simp only [denotes_of_host h]
  by_cases hport : IsPort defaultPort
  · simp only [if_pos hport, Except.ok.injEq, Prod.mk.injEq, reduceCtorEq]
    constructor
    · intro hexact _
      exact ((hexact.1 address defaultPort).mp ⟨rfl, rfl⟩).1
    · intro hne
      refine ⟨fun host port => ?_, fun hnone => absurd ⟨hne hport, hport, rfl, rfl⟩ (hnone _ _)⟩
      exact ⟨fun hok => ⟨hne hport, hport, hok.1.symm, hok.2.symm⟩,
        fun hdenotes => ⟨hdenotes.2.2.1.symm, hdenotes.2.2.2.symm⟩⟩
  · simp [hport]

/-- With a colon, what the fields have to be. -/
theorem exact_fields_iff {address f g : Text} {more : List Text}
    (h : address.splitOn ':' = f :: g :: more) (defaultPort : Int) :
    Exact address defaultPort ↔ Fits defaultPort (f :: g :: more) := by
  unfold Exact
  rw [proxyAddress_of_fields h]
  simp only [denotes_of_fields h, Fits]
  by_cases hempty : ∀ e ∈ g :: more, e = []
  · have hg : parseInt g = none := by
      rw [hempty g List.mem_cons_self]
      rfl
    simp only [if_pos hempty, hg, reduceCtorEq, false_and, and_false, not_false_iff, iff_false,
      forall_const]
    by_cases hf : f = []
    · simp [hf]
    · by_cases hport : IsPort defaultPort <;> simp [hf, hport]
  · simp only [if_neg hempty]
    cases hg : parseInt g with
    | none => simp
    | some n =>
        by_cases hport : IsPort n
        · simp only [if_pos hport, Except.ok.injEq, Prod.mk.injEq, Option.some.injEq, reduceCtorEq]
          constructor
          · intro hexact m hm _
            obtain ⟨hf, hmore, -⟩ := (hexact.1 f n).mp ⟨rfl, rfl⟩
            exact ⟨hf, hmore⟩
          · intro hfits
            obtain ⟨hf, hmore⟩ := hfits n rfl hport
            refine ⟨fun host port => ?_,
              fun hnone => absurd ⟨hf, hmore, rfl, hport, rfl⟩ (hnone f n)⟩
            constructor
            · rintro ⟨rfl, rfl⟩
              exact ⟨hf, hmore, rfl, hport, rfl⟩
            · rintro ⟨-, -, rfl, -, rfl⟩
              exact ⟨rfl, rfl⟩
        · simp only [if_neg hport, reduceCtorEq, Option.some.injEq, false_iff]
          constructor
          · rintro - m rfl hm
            exact absurd hm hport
          · intro _
            refine ⟨?_, fun _ => trivial⟩
            rintro host port ⟨-, -, rfl, hm, -⟩
            exact hport hm

end ConfigForm
end Client
end ModpackInstaller
