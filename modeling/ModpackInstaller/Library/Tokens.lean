import ModpackInstaller.Library.Replace
import ModpackInstaller.Library.Split

/-!
# Tokens

A text that is read token by token: the longest parts without white space.  How the
tokens of a text follow from those of its parts, of its lines, and of what is left when
its end is taken away.

Main results:

- Theorem {lit}`tokens_append_cons`: white space separates the tokens of its two sides.
- Theorem {lit}`flatten_tokens`: the tokens are the text without the white space.
- Theorem {lit}`flatMap_tokens_splitTrim`: a text has the tokens of its lines.
- Theorem {lit}`exists_tokens_append`: how a text goes on changes its last token at most.
- Theorem {lit}`tokens_rdropWhile`: the tokens stay when the end is dropped as far as
  their last symbol.
-/

namespace ModpackInstaller
namespace Library

variable {α : Type*} {white : α → Bool} {s t : List α} {c : α}

/-- The longest parts of a text without white space. -/
def tokens (white : α → Bool) (s : List α) : List (List α) :=
  (s.splitOnP white).filter fun t => !t.isEmpty

/-! ## The tokens of parts -/

@[simp]
theorem tokens_nil : tokens white ([] : List α) = [] :=
  rfl

/-- White space separates the tokens of its two sides. -/
theorem tokens_append_cons (hc : white c = true) (s t : List α) :
    tokens white (s ++ c :: t) = tokens white s ++ tokens white t := by
  rw [tokens, List.splitOnP_append_cons s t hc, List.filter_append]
  rfl

theorem tokens_cons_of_white (hc : white c = true) (t : List α) :
    tokens white (c :: t) = tokens white t :=
  tokens_append_cons hc [] t

/-- White space at the front of the second part separates the parts. -/
theorem tokens_append_of_head (ht : ∀ c ∈ t.head?, white c = true) (s : List α) :
    tokens white (s ++ t) = tokens white s ++ tokens white t := by
  cases t with
  | nil => simp
  | cons c t =>
      have hc : white c = true := ht c rfl
      rw [tokens_append_cons hc, tokens_cons_of_white hc]

/-- A text without white space is one token. -/
theorem tokens_of_solid (hs : ∀ x ∈ s, white x = false) (hne : s ≠ []) :
    tokens white s = [s] := by
  rw [tokens, List.splitOnP_eq_singleton hs]
  simp [hne]

/-- White space at the end adds no token. -/
theorem tokens_append_white (ht : ∀ x ∈ t, white x = true) (s : List α) :
    tokens white (s ++ t) = tokens white s := by
  induction t generalizing s with
  | nil => rw [List.append_nil]
  | cons c t ih =>
      obtain ⟨hc, ht⟩ := List.forall_mem_cons.mp ht
      have hempty : tokens white t = [] := ih ht []
      rw [tokens_append_cons hc, hempty, List.append_nil]

/-- How a text goes on changes its last token at most: the tokens before it are complete,
and its own part of the text has no white space. -/
theorem exists_tokens_append (white : α → Bool) (s : List α) :
    ∃ complete last, (∀ x ∈ last, white x = false) ∧
      ∀ t, tokens white (s ++ t) = complete ++ tokens white (last ++ t) := by
  induction s using List.reverseRecOn with
  | nil => exact ⟨[], [], by simp, fun t => rfl⟩
  | append_singleton s c ih =>
      by_cases hc : white c = true
      · refine ⟨tokens white s, [], by simp, fun t => ?_⟩
        rw [List.append_assoc]
        exact tokens_append_cons hc s t
      · obtain ⟨complete, last, hlast, happend⟩ := ih
        refine ⟨complete, last ++ [c], ?_, fun t => ?_⟩
        · rw [List.forall_mem_append, List.forall_mem_singleton]
          exact ⟨hlast, by simpa using hc⟩
        · rw [List.append_assoc, List.append_assoc]
          exact happend ([c] ++ t)

/-- A symbol behind a text is a token of its own, or ends the last one. -/
theorem tokens_concat (hc : white c = false) (s : List α) :
    tokens white (s ++ [c]) = tokens white s ++ [[c]] ∨
      ∃ complete last, tokens white s = complete ++ [last] ∧
        tokens white (s ++ [c]) = complete ++ [last ++ [c]] := by
  obtain ⟨complete, last, hlast, happend⟩ := exists_tokens_append white s
  have hs : tokens white s = complete ++ tokens white last := by
    simpa using happend []
  have hsolid : ∀ x ∈ last ++ [c], white x = false := by
    rw [List.forall_mem_append, List.forall_mem_singleton]
    exact ⟨hlast, hc⟩
  have hconcat : tokens white (s ++ [c]) = complete ++ [last ++ [c]] := by
    rw [happend, tokens_of_solid hsolid (by simp)]
  by_cases hne : last = []
  · left
    rw [hconcat, hs, hne]
    simp
  · right
    refine ⟨complete, last, ?_, hconcat⟩
    rw [hs, tokens_of_solid hlast hne]

/-! ## The symbols of tokens -/

theorem filter_concat_of_white (hc : white c = true) (s : List α) :
    (s ++ [c]).filter (fun c => !white c) = s.filter fun c => !white c := by
  simp [hc]

theorem filter_concat_of_solid (hc : white c = false) (s : List α) :
    (s ++ [c]).filter (fun c => !white c) = (s.filter fun c => !white c) ++ [c] := by
  simp [hc]

/-- The tokens are the text without the white space. -/
theorem flatten_tokens (white : α → Bool) (s : List α) :
    (tokens white s).flatten = s.filter fun c => !white c := by
  induction s using List.reverseRecOn with
  | nil => rfl
  | append_singleton s c ih =>
      by_cases hc : white c = true
      · rw [tokens_append_cons hc, tokens_nil, List.append_nil, ih, filter_concat_of_white hc]
      · have hc : white c = false := by simpa using hc
        rw [filter_concat_of_solid hc, ← ih]
        rcases tokens_concat hc s with h | ⟨complete, last, hs, h⟩
        · rw [h]
          simp
        · rw [h, hs]
          simp

theorem ne_nil_of_mem_tokens (h : t ∈ tokens white s) : t ≠ [] := by
  rw [tokens, List.mem_filter] at h
  simpa using h.2

/-- Tokens do not change when only white space is replaced, and by white space. -/
theorem tokens_map {f : α → α} (hwhite : ∀ c, white (f c) = white c)
    (hsolid : ∀ c, white c = false → f c = c) (s : List α) :
    tokens white (s.map f) = tokens white s := by
  have hsplit : (s.map f).splitOnP white = s.splitOnP white := by
    induction s with
    | nil => rfl
    | cons c s ih =>
        rw [List.map_cons, List.splitOnP_cons_eq_if_modifyHead,
          List.splitOnP_cons_eq_if_modifyHead, hwhite, ih]
        by_cases hc : white c = true
        · rw [if_pos hc, if_pos hc]
        · rw [if_neg hc, if_neg hc, hsolid c (by simpa using hc)]
  rw [tokens, tokens, hsplit]

/-- One white symbol in place of another one. -/
theorem tokens_replaceAll [DecidableEq α] {a b : α} (ha : white a = true) (hb : white b = true)
    (s : List α) : tokens white (replaceAll [a] [b] s) = tokens white s := by
  rw [replaceAll_eq_map]
  apply tokens_map
  · intro c
    split
    · rename_i h
      rw [h, ha, hb]
    · rfl
  · intro c hc
    rw [if_neg]
    rintro rfl
    rw [ha] at hc
    cases hc

/-- Only the white space among the symbols of a text matters. -/
theorem tokens_congr {white' : α → Bool} (h : ∀ c ∈ s, white c = white' c) :
    tokens white s = tokens white' s := by
  have hsplit : s.splitOnP white = s.splitOnP white' := by
    induction s with
    | nil => rfl
    | cons c s ih =>
        obtain ⟨hc, hs⟩ := List.forall_mem_cons.mp h
        rw [List.splitOnP_cons_eq_if_modifyHead, List.splitOnP_cons_eq_if_modifyHead, hc, ih hs]
  rw [tokens, tokens, hsplit]

/-! ## The tokens of lines -/

/-- The tokens between separators are the fields that are not empty. -/
theorem tokens_eq_filter_splitTrim [DecidableEq α] (sep : α) (s : List α) :
    tokens (· == sep) s = (splitTrim sep s).filter fun f => !f.isEmpty := by
  rw [filter_splitTrim, List.splitOn_eq_splitOnP, tokens]

/-- Lines that are written behind a text, each behind a separator. -/
theorem tokens_append_flatMap (hc : white c = true) (s : List α) (lines : List (List α)) :
    tokens white (s ++ lines.flatMap (c :: ·)) =
      tokens white s ++ lines.flatMap (tokens white) := by
  induction lines generalizing s with
  | nil => simp
  | cons line lines ih =>
      rw [List.flatMap_cons, List.flatMap_cons, List.cons_append, tokens_append_cons hc, ih]

/-- A text has the tokens of its fields. -/
theorem flatMap_tokens_splitOn [DecidableEq α] (hc : white c = true) (s : List α) :
    (s.splitOn c).flatMap (tokens white) = tokens white s := by
  obtain ⟨ps, e, hps, he, rfl⟩ := exists_unpieces_append c s
  rw [splitOn_unpieces_append hps he, List.flatMap_append, List.flatMap_singleton]
  clear hps
  induction ps with
  | nil => rfl
  | cons p ps ih =>
      rw [List.flatMap_cons, List.append_assoc, ih, unpieces_cons, List.append_assoc,
        List.cons_append, tokens_append_cons hc]

/-- A text has the tokens of its lines. -/
theorem flatMap_tokens_splitTrim [DecidableEq α] (hc : white c = true) (s : List α) :
    (splitTrim c s).flatMap (tokens white) = tokens white s := by
  have hfilter : ∀ fs : List (List α),
      (fs.filter fun f => !f.isEmpty).flatMap (tokens white) = fs.flatMap (tokens white) := by
    intro fs
    induction fs with
    | nil => rfl
    | cons f fs ih =>
        by_cases hf : f = []
        · simp [hf, ih]
        · simp [hf, ih]
  rw [← hfilter, filter_splitTrim, hfilter, flatMap_tokens_splitOn hc]

/-! ## Dropping at the end -/

section Dropping

variable {junk : α → Bool}

/-- The tokens stay when the last symbol of them is not dropped. -/
theorem tokens_rdropWhile
    (h : ∀ c ∈ (s.filter fun c => !white c).getLast?, junk c = false) :
    tokens white (s.rdropWhile junk) = tokens white s := by
  induction s using List.reverseRecOn with
  | nil => rfl
  | append_singleton s c ih =>
      by_cases hjunk : junk c = true
      · rw [List.rdropWhile_concat_pos junk s c hjunk]
        by_cases hc : white c = true
        · rw [filter_concat_of_white hc] at h
          rw [ih h, tokens_append_white (by simpa using hc)]
        · rw [filter_concat_of_solid (by simpa using hc), List.getLast?_concat] at h
          rw [h c rfl] at hjunk
          cases hjunk
      · rw [List.rdropWhile_concat_neg junk s c hjunk]

/-- When no symbol of a token is dropped, the last of them is not one to drop. -/
theorem last_of_length_le (hwhite : ∀ c, white c = true → junk c = true)
    (h : (s.filter fun c => !white c).length ≤
      ((s.rdropWhile junk).filter fun c => !white c).length) :
    ∀ c ∈ (s.filter fun c => !white c).getLast?, junk c = false := by
  induction s using List.reverseRecOn with
  | nil => simp
  | append_singleton s c ih =>
      by_cases hjunk : junk c = true
      · rw [List.rdropWhile_concat_pos junk s c hjunk] at h
        have hshorter := ((List.rdropWhile_prefix junk (l := s)).sublist.filter
          fun c => !white c).length_le
        by_cases hc : white c = true
        · rw [filter_concat_of_white hc] at h ⊢
          exact ih h
        · rw [filter_concat_of_solid (by simpa using hc), List.length_append,
            List.length_singleton] at h
          omega
      · have hc : white c = false := by
          by_contra hc
          exact hjunk (hwhite c (by simpa using hc))
        intro d hd
        rw [filter_concat_of_solid hc, List.getLast?_concat, Option.mem_some_iff] at hd
        rw [← hd]
        simpa using hjunk

/-- Where what is dropped makes no token one of a kind, there are as many of the kind
without it. -/
theorem countP_tokens_le_rdropWhile {p : List α → Bool} (hnil : p [] = false)
    (hp : ∀ t c, junk c = true → p (t ++ [c]) = true → p t = true) (s : List α) :
    (tokens white s).countP p ≤ (tokens white (s.rdropWhile junk)).countP p := by
  induction s using List.reverseRecOn with
  | nil => exact le_refl _
  | append_singleton s c ih =>
      by_cases hjunk : junk c = true
      · rw [List.rdropWhile_concat_pos junk s c hjunk]
        refine le_trans ?_ ih
        by_cases hc : white c = true
        · rw [tokens_append_white (by simpa using hc)]
        · rcases tokens_concat (by simpa using hc) s with h | ⟨complete, last, hs, h⟩
          · have hone : p [c] = false := by
              by_contra hone
              have hempty := hp [] c hjunk (by simpa using hone)
              rw [hnil] at hempty
              cases hempty
            rw [h]
            simp [hone]
          · rw [h, hs, List.countP_append, List.countP_append, List.countP_singleton,
              List.countP_singleton]
            have hlast := hp last c hjunk
            split <;> split <;> simp_all
      · rw [List.rdropWhile_concat_neg junk s c hjunk]

end Dropping

end Library
end ModpackInstaller
