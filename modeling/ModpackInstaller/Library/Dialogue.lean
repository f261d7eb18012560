import Mathlib.Data.List.Forall2

/-!
# Dialogues

A dialogue goes through a list of stages.  In each of them one reply is heard, and the
stage either goes on or ends the dialogue by what is read off the reply.

Main results:

- Theorem {lit}`converse_through_iff`: a dialogue gets through exactly when every reply
  is the one that its stage goes on with.
- Theorem {lit}`converse_heard_iff`: when it is neither left without a reply nor hears one
  that cannot be read.
- Theorem {lit}`converse_ended`: a dialogue is ended by the last reply that was heard.
-/

namespace ModpackInstaller
namespace Library

variable {ρ κ ε : Type*}

/-- How a dialogue ends. -/
inductive Ending (ε : Type*) where
  | through
  /-- There is no reply. -/
  | silent
  /-- The reply cannot be read. -/
  | garbled
  | ended (e : ε)
deriving DecidableEq, Repr

section Stages

/- What is read off a reply. -/
variable (read : ρ → Option κ)

/-- A dialogue, with the replies that are left over. -/
def converse : List (κ → Option ε) → List ρ → Ending ε × List ρ
  | [], replies => (.through, replies)
  | _ :: _, [] => (.silent, [])
  | stage :: stages, reply :: replies =>
    match read reply with
    | none => (.garbled, replies)
    | some code =>
      match stage code with
      | none => converse stages replies
      | some e => (.ended e, replies)

/-- The replies begin with these codes. -/
def Answers : List κ → List ρ → Prop
  | [], _ => True
  | _ :: _, [] => False
  | code :: codes, reply :: replies => read reply = some code ∧ Answers codes replies

/-- The replies begin with these codes, or depart from them with a reply that can be
read. -/
def Heard : List κ → List ρ → Prop
  | [], _ => True
  | _ :: _, [] => False
  | code :: codes, reply :: replies =>
    ∃ other, read reply = some other ∧ (other = code → Heard codes replies)

/-- Each stage goes on with one code. -/
def GoesOnWith (stages : List (κ → Option ε)) (codes : List κ) : Prop :=
  List.Forall₂ (fun stage code => ∀ other, stage other = none ↔ other = code) stages codes

end Stages

section Results

variable {read : ρ → Option κ} {stages : List (κ → Option ε)} {codes : List κ}
  {replies : List ρ}

theorem converse_cons_of_read {stage : κ → Option ε} {reply : ρ} {code : κ}
    (h : read reply = some code) :
    converse read (stage :: stages) (reply :: replies) =
      match stage code with
      | none => converse read stages replies
      | some e => (.ended e, replies) := by
  rw [converse, h]

theorem converse_cons_of_garbled {stage : κ → Option ε} {reply : ρ} (h : read reply = none) :
    converse read (stage :: stages) (reply :: replies) = (.garbled, replies) := by
  rw [converse, h]

/-- A dialogue gets through exactly when every reply is the one that is gone on with. -/
theorem converse_through_iff (h : GoesOnWith stages codes) :
    (converse read stages replies).1 = .through ↔ Answers read codes replies := by
  induction h generalizing replies with
  | nil => exact iff_of_true rfl trivial
  | @cons stage code stages codes hstage _ ih =>
      cases replies with
      | nil => exact iff_of_false (by simp [converse]) id
      | cons reply replies =>
          rw [Answers]
          cases hread : read reply with
          | none => simp [converse_cons_of_garbled hread]
          | some other =>
              rw [converse_cons_of_read hread, Option.some.injEq, ← hstage other]
              cases hnext : stage other with
              | none => simpa using ih
              | some e => simp

/-- A dialogue hears what it waits for exactly when the replies do not break off and can
be read, as far as they are heard. -/
theorem converse_heard_iff (h : GoesOnWith stages codes) :
    ((converse read stages replies).1 ≠ .silent ∧ (converse read stages replies).1 ≠ .garbled) ↔
      Heard read codes replies := by
  induction h generalizing replies with
  | nil => exact iff_of_true (by simp [converse]) trivial
  | @cons stage code stages codes hstage _ ih =>
      cases replies with
      | nil => exact iff_of_false (by simp [converse]) id
      | cons reply replies =>
          rw [Heard]
          cases hread : read reply with
          | none => simp [converse_cons_of_garbled hread]
          | some other =>
              rw [converse_cons_of_read hread]
              simp only [Option.some.injEq, exists_eq_left', ← hstage other]
              cases hnext : stage other with
              | none => simpa using ih
              | some e => simp

/-- A dialogue is ended by the last reply that was heard. -/
theorem converse_ended {e : ε} {rest : List ρ}
    (h : converse read stages replies = (.ended e, rest)) :
    ∃ before reply code, replies = before ++ reply :: rest ∧ read reply = some code ∧
      ∃ stage ∈ stages, stage code = some e := by
  induction stages generalizing replies with
  | nil => simp [converse] at h
  | cons stage stages ih =>
      cases replies with
      | nil => simp [converse] at h
      | cons reply replies =>
          cases hread : read reply with
          | none => simp [converse_cons_of_garbled hread] at h
          | some code =>
              rw [converse_cons_of_read hread] at h
              cases hnext : stage code with
              | some e' =>
                  simp only [hnext, Prod.mk.injEq, Ending.ended.injEq] at h
                  obtain ⟨rfl, rfl⟩ := h
                  exact ⟨[], reply, code, rfl, hread, stage, List.mem_cons_self .., hnext⟩
              | none =>
                  simp only [hnext] at h
                  obtain ⟨before, last, code', hreplies, hlast, stage', hmem, hend⟩ := ih h
                  exact ⟨reply :: before, last, code', by rw [hreplies]; rfl, hlast, stage',
                    List.mem_cons_of_mem _ hmem, hend⟩

end Results

end Library
end ModpackInstaller
