import Mathlib.Data.List.Basic

/-!
# Transducers

A transducer reads symbols one after the other, hands out some symbols for each of them,
and at the end hands out what it still holds back.  A program that works on a stream
reads it in chunks of any size and keeps the state from chunk to chunk.

Main results:

- Theorem {lit}`feed_append`: reading goes on where it stopped, however the input is cut.
- Theorem {lit}`complete_eq`: two equations that make a function the whole output.
- Theorem {lit}`Pumped.prefix_complete`, Theorem {lit}`Pumped.eq_complete`: what a loop that
  reads, converts and writes chunks has written, when it gives up and when it comes to the
  end.
-/

namespace ModpackInstaller
namespace Library

/-- A machine that reads and hands out symbols. -/
structure Transducer (σ α β : Type*) where
  start : σ
  step : σ → α → σ × List β
  /-- What is still held back at the end. -/
  finish : σ → List β

namespace Transducer

variable {σ α β : Type*} (t : Transducer σ α β)

/-- Read some symbols. -/
def feed : σ → List α → σ × List β
  | s, [] => (s, [])
  | s, a :: as =>
    let next := t.step s a
    let rest := feed next.1 as
    (rest.1, next.2 ++ rest.2)

/-- The output from a state on when these symbols are all that comes. -/
def complete (s : σ) (as : List α) : List β :=
  (t.feed s as).2 ++ t.finish (t.feed s as).1

/-- The output for the whole input. -/
def output (as : List α) : List β :=
  t.complete t.start as

@[simp] theorem feed_nil (s : σ) : t.feed s [] = (s, []) := rfl

theorem feed_cons (s : σ) (a : α) (as : List α) :
    t.feed s (a :: as) =
      ((t.feed (t.step s a).1 as).1, (t.step s a).2 ++ (t.feed (t.step s a).1 as).2) := rfl

@[simp] theorem complete_nil (s : σ) : t.complete s [] = t.finish s := rfl

theorem complete_cons (s : σ) (a : α) (as : List α) :
    t.complete s (a :: as) = (t.step s a).2 ++ t.complete (t.step s a).1 as := by
  simp only [complete, feed_cons, List.append_assoc]

/-- Reading goes on where it stopped. -/
theorem feed_append (s : σ) (as bs : List α) :
    t.feed s (as ++ bs) =
      ((t.feed (t.feed s as).1 bs).1, (t.feed s as).2 ++ (t.feed (t.feed s as).1 bs).2) := by
  induction as generalizing s with
  | nil => rfl
  | cons a as ih =>
      rw [List.cons_append, feed_cons, feed_cons, ih, List.append_assoc]

theorem complete_append (s : σ) (as bs : List α) :
    t.complete s (as ++ bs) = (t.feed s as).2 ++ t.complete (t.feed s as).1 bs := by
  rw [complete, complete, feed_append, List.append_assoc]

/-- Two equations that make a function the whole output. -/
theorem complete_eq {f : σ → List α → List β} (hnil : ∀ s, f s [] = t.finish s)
    (hcons : ∀ s a as, f s (a :: as) = (t.step s a).2 ++ f (t.step s a).1 as) (s : σ)
    (as : List α) : t.complete s as = f s as := by
  induction as generalizing s with
  | nil => exact (hnil s).symm
  | cons a as ih => rw [complete_cons, hcons, ih]

/-- The transducer that hands out what it reads. -/
def copy (s : σ) : Transducer σ α α where
  start := s
  step s a := (s, [a])
  finish _ := []

@[simp] theorem feed_copy (init s : σ) (as : List α) : (copy init).feed s as = (s, as) := by
  induction as generalizing s with
  | nil => rfl
  | cons a as ih => rw [feed_cons, show (copy init).step s a = (s, [a]) from rfl, ih]; rfl

@[simp] theorem complete_copy (init s : σ) (as : List α) : (copy init).complete s as = as := by
  rw [complete, feed_copy]
  exact List.append_nil as

/-! ## Pumps -/

/-- A loop that reads chunks, converts and writes them: what it has written of the rest of
the input, and whether it came to the end.  It may give up between two chunks or in the
middle of a write. -/
inductive Pumped : σ → List α → List β → Bool → Prop where
  | stop (s : σ) (rest : List α) : Pumped s rest [] false
  | cut {s : σ} {chunk : List α} {out : List β} (rest : List α) (h : out <+: (t.feed s chunk).2) :
      Pumped s (chunk ++ rest) out false
  | cutFinish {s : σ} {out : List β} (h : out <+: t.finish s) : Pumped s [] out false
  | finish (s : σ) : Pumped s [] (t.finish s) true
  | next {s : σ} {chunk rest : List α} {out : List β} {done : Bool}
      (h : Pumped (t.feed s chunk).1 rest out done) :
      Pumped s (chunk ++ rest) ((t.feed s chunk).2 ++ out) done

variable {t}

/-- What was written is the beginning of the whole output. -/
theorem Pumped.prefix_complete {s : σ} {rest : List α} {out : List β} {done : Bool}
    (h : t.Pumped s rest out done) : out <+: t.complete s rest := by
  induction h with
  | stop => exact List.nil_prefix
  | cut rest h =>
      rw [complete_append]
      exact h.trans (List.prefix_append _ _)
  | cutFinish h => exact h
  | finish => exact List.prefix_rfl
  | next h ih =>
      rw [complete_append]
      exact (List.prefix_append_right_inj _).mpr ih

/-- At the end it is all of it. -/
theorem Pumped.eq_complete {s : σ} {rest : List α} {out : List β}
    (h : t.Pumped s rest out true) : out = t.complete s rest := by
  generalize hdone : true = done at h
  induction h with
  | stop => cases hdone
  | cut => cases hdone
  | cutFinish => cases hdone
  | finish => rfl
  | next h ih => rw [complete_append, ih hdone]

end Transducer

end Library
end ModpackInstaller
