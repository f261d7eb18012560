import ModpackInstaller.Control.AddressExchange

/-!
# File name filters

{lit}`vsf_filename_passes_filter` of {lit}`ls.c` matches a file name against a filter with the
wildcards {lit}`*` and {lit}`?` and with alternatives in braces; {lit}`access.c` denies and hides
files by it.  It never goes back on a choice and gives up behind a thousand tokens.

Main results:

- Theorem {lit}`passesFilter_sound`: a name that passes a filter is one that the filter
  describes.
- Theorem {lit}`passesFilter_iff`: the converse holds of filters without braces whose only
  {lit}`*` stands at the end, or in front of a text that does not repeat its first symbol.
-/

namespace ModpackInstaller
namespace Server
namespace Filter

open Library Control.AddressExchange

/-! ## The filter -/

/-- `VSFTP_MATCHITERS_MAX` -/
def matchitersMax : Nat := 1000

/-- The tokens that the filter is searched for. -/
def isToken (c : Char) : Bool :=
  c = '*' || c = '?' || c = '{'

/-- The loop that finds the last one of the texts: what is behind it.  Each round consumes a
symbol, so that the length of the text bounds the rounds. -/
def scanFwd (needed : Text) : Nat → Text → Text
  | 0, s => s
  | fuel + 1, s =>
    match strLocateText s needed with
    | none => s
    | some i => scanFwd needed fuel (s.drop (i + needed.length))

/-- What is left of a name behind the text in front of a token. -/
def chop (mustMatchAtCurrentPos : Bool) (name needed : Text) : Option Text :=
  if needed = [] then some name
  else
    match strLocateText name needed with
    | none => none
    | some i =>
      if mustMatchAtCurrentPos then if 0 < i then none else some (name.drop (i + needed.length))
      else some (scanFwd needed name.length (name.drop (i + needed.length)))

/-- The alternatives between braces, up to the first empty one. -/
def alternatives : Nat → Text → List Text
  | 0, _ => []
  | fuel + 1, braceList =>
    let (first, rest) := strSplitChar braceList ','
    if first = [] then [] else first :: alternatives fuel rest

/-- The loop over the alternatives, with a call for each of them. -/
def tryAlternatives (call : Nat → Text → Bool × Nat) : List Text → Nat → Bool × Nat
  | [], left => (false, left)
  | alternative :: more, left =>
    let r := call left alternative
    if r.1 then r else tryAlternatives call more r.2

/-- What is returned behind the loop.  Of the thousand rounds this many are left. -/
def verdict (left : Nat) (name : Text) (lastToken : Option Char) : Bool :=
  if name ≠ [] ∧ lastToken ≠ some '*' then false else left ≠ 0

/-- The loop of `vsf_filename_passes_filter` and the calls in it, with the number of rounds
that are left; no more rounds than those follow each other. -/
def matchLoop : Nat → Nat → Text → Text → Bool → Option Char → Bool × Nat
  | depth + 1, left + 1, c :: cs, name, mustMatchAtCurrentPos, _ =>
    let needed := (c :: cs).takeWhile (!isToken ·)
    let remain := ((c :: cs).dropWhile (!isToken ·)).tail
    match chop mustMatchAtCurrentPos name needed with
    | none => (false, left)
    | some name =>
      match ((c :: cs).dropWhile (!isToken ·)).head? with
      | some '?' =>
        match name with
        | [] => (false, left)
        | _ :: name => matchLoop depth left remain name true (some '?')
      | some '{' =>
        if '}' ∈ remain then
          let (braceList, remain) := strSplitChar remain '}'
          tryAlternatives
            (fun left alternative => matchLoop depth left (alternative ++ remain) name true none)
            (alternatives braceList.length braceList) left
        else
          match name with
          | '{' :: name => matchLoop depth left remain name true (some '{')
          | _ => (false, left)
      | lastToken => matchLoop depth left remain name false lastToken
  | _, left, _, name, _, lastToken => (verdict left name lastToken, left)

/-- `vsf_filename_passes_filter` -/
def vsfFilenamePassesFilter (filename filter : Text) : Bool :=
  (matchLoop matchitersMax matchitersMax filter filename true none).1

/-- `vsf_access_check_file` and `vsf_access_check_file_visible` differ in the tunable only. -/
def accessCheck (access : Option Text) (filename : Text) : Bool :=
  match access with
  | none => true
  | some access =>
    if vsfFilenamePassesFilter filename access then false
    else (strLocateText filename access).isNone

/-- `vsf_access_check_file` -/
def vsfAccessCheckFile (denyFile : Option Text) (filename : Text) : Bool :=
  accessCheck denyFile filename

/-- `vsf_access_check_file_visible` -/
def vsfAccessCheckFileVisible (hideFile : Option Text) (filename : Text) : Bool :=
  accessCheck hideFile filename

/-- The three tokens. -/
theorem token_cases {c : Char} (h : isToken c = true) : c = '*' ∨ c = '?' ∨ c = '{' := by
  simpa [isToken, or_assoc] using h

/-! ## What a filter describes -/

/-- The names that a filter describes: any number of wildcards, and alternatives in braces
that are not nested. -/
inductive Describes : Text → Text → Prop where
  | nil : Describes [] []
  | lit {c : Char} {filter name : Text} (hc : isToken c = false) (h : Describes filter name) :
    Describes (c :: filter) (c :: name)
  | any {filter name : Text} (c : Char) (h : Describes filter name) :
    Describes ('?' :: filter) (c :: name)
  | star {filter name : Text} (skipped : Text) (h : Describes filter name) :
    Describes ('*' :: filter) (skipped ++ name)
  | brace {braceList alternative filter name : Text} (hbrace : '}' ∉ braceList)
    (halternative : alternative ∈ braceList.splitOn ',')
    (h : Describes (alternative ++ filter) name) :
    Describes ('{' :: (braceList ++ '}' :: filter)) name
  /-- A brace that is not closed stands for itself. -/
  | opened {filter name : Text} (hbrace : '}' ∉ filter) (h : Describes filter name) :
    Describes ('{' :: filter) ('{' :: name)

/-- Symbols that stand for themselves. -/
theorem describes_plain {needed filter name : Text} (hplain : needed.all (!isToken ·) = true)
    (h : Describes filter name) : Describes (needed ++ filter) (needed ++ name) := by
  induction needed with
  | nil => exact h
  | cons c needed ih =>
      rw [List.all_cons, Bool.and_eq_true, Bool.not_eq_true'] at hplain
      exact .lit hplain.1 (ih hplain.2)

/-! ## Soundness -/

/-- The scan stands still, or stops behind a place where the literal is found. -/
theorem scanFwd_suffix (needed : Text) (fuel : Nat) (s : Text) :
    scanFwd needed fuel s = s ∨ ∃ skipped, s = skipped ++ needed ++ scanFwd needed fuel s := by
  induction fuel generalizing s with
  | zero => exact Or.inl rfl
  | succ fuel ih =>
      rw [scanFwd]
      cases hlocate : strLocateText s needed with
      | none => exact Or.inl rfl
      | some i =>
          obtain ⟨-, hs, -⟩ := strLocateText_eq_some hlocate
          dsimp only
          rcases ih (s.drop (i + needed.length)) with hend | ⟨skipped, hskipped⟩
          · refine Or.inr ⟨s.take i, ?_⟩
            rwa [hend, List.append_assoc]
          · refine Or.inr ⟨s.take i ++ needed ++ skipped, ?_⟩
            rw [hskipped] at hs
            simpa using hs

/-- A name that is chopped has the text, at its beginning when it must. -/
theorem chop_spec {must : Bool} {name needed rest : Text} (h : chop must name needed = some rest) :
    ∃ skipped, name = skipped ++ needed ++ rest ∧ (must = true → skipped = []) := by
  rw [chop] at h
  split at h
  · rename_i hneeded
    obtain rfl := Option.some.inj h
    exact ⟨[], by simp [hneeded], fun _ => rfl⟩
  · cases hlocate : strLocateText name needed with
    | none =>
        rw [hlocate] at h
        cases h
    | some i =>
        obtain ⟨-, hname, -⟩ := strLocateText_eq_some hlocate
        rw [hlocate] at h
        dsimp only at h
        cases must with
        | true =>
            rw [if_pos rfl] at h
            split at h
            · cases h
            · rename_i hzero
              obtain rfl := Option.some.inj h
              refine ⟨name.take i, by rwa [List.append_assoc], fun _ => ?_⟩
              rw [Nat.eq_zero_of_not_pos hzero, List.take_zero]
        | false =>
            rw [if_neg Bool.false_ne_true] at h
            obtain rfl := Option.some.inj h
            rcases scanFwd_suffix needed name.length (name.drop (i + needed.length)) with
              hend | ⟨skipped, hskipped⟩
            · rw [hend]
              exact ⟨name.take i, by rwa [List.append_assoc], fun h => by cases h⟩
            · refine ⟨name.take i ++ needed ++ skipped, ?_, fun h => by cases h⟩
              rw [hskipped] at hname
              simpa using hname

/-- An alternative is a part of the braces that is not empty. -/
theorem mem_alternatives {fuel : Nat} {braceList alternative : Text}
    (h : alternative ∈ alternatives fuel braceList) :
    alternative ∈ braceList.splitOn ',' ∧ alternative ≠ [] := by
  induction fuel generalizing braceList with
  | zero => simp [alternatives] at h
  | succ fuel ih =>
      by_cases hcomma : ',' ∈ braceList
      · obtain ⟨first, rest, rfl, hfirst⟩ := List.eq_append_cons_of_mem hcomma
        rw [List.splitOn_append_cons_self_of_not_mem hfirst]
        rw [alternatives, Control.strSplitChar_append hfirst] at h
        dsimp only at h
        split at h
        · simp at h
        · rename_i hne
          rcases List.mem_cons.mp h with rfl | h
          · exact ⟨List.mem_cons_self .., hne⟩
          · exact ⟨List.mem_cons_of_mem _ (ih h).1, (ih h).2⟩
      · rw [List.splitOn_eq_singleton hcomma]
        rw [alternatives, strSplitChar_of_not_mem hcomma] at h
        dsimp only at h
        split at h
        · simp at h
        · rename_i hne
          rcases List.mem_cons.mp h with rfl | h
          · exact ⟨List.mem_cons_self .., hne⟩
          · cases fuel <;> simp [alternatives, strSplitChar] at h

section Alternatives

variable {call : Nat → Text → Bool × Nat}
  (hle : ∀ left alternative, (call left alternative).2 ≤ left)

include hle

/-- Trying alternatives gives no iterations back. -/
theorem tryAlternatives_le (alts : List Text) (left : Nat) :
    (tryAlternatives call alts left).2 ≤ left := by
  induction alts generalizing left with
  | nil => exact Nat.le_refl left
  | cons alternative alts ih =>
      rw [tryAlternatives]
      split
      · exact hle left alternative
      · exact Nat.le_trans (ih _) (hle left alternative)

/-- When the loop succeeds, one of the calls did. -/
theorem exists_of_tryAlternatives {alts : List Text} {left : Nat}
    (h : (tryAlternatives call alts left).1 = true) :
    ∃ alternative ∈ alts, ∃ left' ≤ left, (call left' alternative).1 = true := by
  induction alts generalizing left with
  | nil => cases h
  | cons alternative alts ih =>
      rw [tryAlternatives] at h
      split at h
      · exact ⟨alternative, List.mem_cons_self .., left, Nat.le_refl left, h⟩
      · obtain ⟨alternative', hmem, left', hleft, hcall⟩ := ih h
        exact ⟨alternative', List.mem_cons_of_mem _ hmem, left',
          Nat.le_trans hleft (hle left alternative), hcall⟩

end Alternatives

/-- The end of the filter. -/
theorem matchLoop_nil (depth left : Nat) (name : Text) (must : Bool) (lastToken : Option Char) :
    matchLoop depth left [] name must lastToken = (verdict left name lastToken, left) := by
  cases depth <;> cases left <;> rfl

/-- The end of the iterations. -/
theorem matchLoop_zero (depth : Nat) (filter name : Text) (must : Bool)
    (lastToken : Option Char) :
    matchLoop depth 0 filter name must lastToken = (false, 0) := by
  have hverdict : verdict 0 name lastToken = false := by simp [verdict]
  cases depth <;> rw [matchLoop, hverdict] <;> simp

/-- The rounds do not become more. -/
theorem matchLoop_le (depth left : Nat) (filter name : Text) (must : Bool)
    (lastToken : Option Char) : (matchLoop depth left filter name must lastToken).2 ≤ left := by
  induction depth generalizing left filter name must lastToken with
  | zero => simp [matchLoop]
  | succ depth ih =>
      cases left with
      | zero => rw [matchLoop_zero]
      | succ left =>
          cases filter with
          | nil => rw [matchLoop_nil]
          | cons c cs =>
              have hle : ∀ filter name must lastToken,
                  (matchLoop depth left filter name must lastToken).2 ≤ left + 1 :=
                fun _ _ _ _ => Nat.le_succ_of_le (ih ..)
              rw [matchLoop]
              dsimp only
              cases chop must name ((c :: cs).takeWhile (!isToken ·)) with
              | none => exact Nat.le_succ left
              | some name =>
                  dsimp only
                  split
                  · cases name with
                    | nil => exact Nat.le_succ left
                    | cons d name => exact hle ..
                  · split
                    · refine Nat.le_succ_of_le (tryAlternatives_le (fun left alternative => ?_) _ _)
                      exact ih ..
                    · split
                      · exact hle ..
                      · exact Nat.le_succ left
                  · exact hle ..

/-- The filter that a state of the loop stands for. -/
abbrev pending (mustMatchAtCurrentPos : Bool) (filter : Text) : Text :=
  if mustMatchAtCurrentPos then filter else '*' :: filter

/-- The text in front of a token describes what is chopped off. -/
theorem describes_of_chop {must : Bool} {name needed rest filter : Text}
    (hchop : chop must name needed = some rest) (hplain : needed.all (!isToken ·) = true)
    (h : Describes filter rest) : Describes (pending must (needed ++ filter)) name := by
  obtain ⟨skipped, rfl, hskipped⟩ := chop_spec hchop
  have hneeded := describes_plain hplain h
  cases must with
  | true => rwa [hskipped rfl, List.nil_append]
  | false =>
      rw [List.append_assoc]
      exact .star skipped hneeded

/-- A name that is accepted behind the loop is empty, or stands behind a star. -/
theorem describes_of_verdict {left : Nat} {name : Text} {must : Bool} {lastToken : Option Char}
    (hlast : lastToken = some '*' ↔ must = false) (h : verdict left name lastToken = true) :
    Describes (pending must []) name := by
  rw [verdict] at h
  split at h
  · cases h
  · rename_i hend
    rw [not_and_or, Decidable.not_not, Decidable.not_not] at hend
    cases must with
    | true =>
        rcases hend with rfl | hstar
        · exact .nil
        · cases hlast.mp hstar
    | false =>
        have hstar := Describes.star name .nil
        rwa [List.append_nil] at hstar

/-- The loop succeeds for names that the filter describes only, as long as no more calls than
these are inside each other. -/
def SoundAt (depth : Nat) : Prop :=
  ∀ {left : Nat} {filter name : Text} (must : Bool) {lastToken : Option Char}, left ≤ depth →
    (lastToken = some '*' ↔ must = false) →
    (matchLoop depth left filter name must lastToken).1 = true →
    Describes (pending must filter) name

/-- An alternative that is taken makes the braces describe the name. -/
theorem describes_of_alternatives {depth left : Nat} {braceList behind name : Text}
    (hsound : SoundAt depth) (hle : left ≤ depth) (hlist : '}' ∉ braceList)
    (h : (tryAlternatives
      (fun left alternative => matchLoop depth left (alternative ++ behind) name true none)
      (alternatives braceList.length braceList) left).1 = true) :
    Describes ('{' :: (braceList ++ '}' :: behind)) name := by
  obtain ⟨alternative, hmem, left', hleft', hcall⟩ :=
    exists_of_tryAlternatives (fun _ _ => matchLoop_le ..) h
  refine .brace hlist (mem_alternatives hmem).1 ?_
  exact hsound true (Nat.le_trans hleft' hle) (by simp) hcall

/-- When the loop succeeds, the name is one that the filter describes. -/
theorem matchLoop_sound (depth : Nat) : SoundAt depth := by
  induction depth with
  | zero =>
      intro left filter name must lastToken hle hlast h
      rw [Nat.le_zero.mp hle, matchLoop_zero] at h
      cases h
  | succ depth ih =>
      rintro (_ | left) filter name must lastToken hle hlast h
      · rw [matchLoop_zero] at h
        cases h
      have hdepth : left ≤ depth := Nat.le_of_succ_le_succ hle
      cases filter with
      | nil =>
          rw [matchLoop_nil] at h
          exact describes_of_verdict hlast h
      | cons c cs =>
          generalize hfilter : c :: cs = filter at h ⊢
          have hsplit := List.takeWhile_append_dropWhile (p := (!isToken ·)) (l := filter)
          have hplain := List.all_takeWhile (p := (!isToken ·)) (l := filter)
          rw [← hfilter, matchLoop, hfilter] at h
          dsimp only at h
          cases hchop : chop must name (filter.takeWhile (!isToken ·)) with
          | none =>
              rw [hchop] at h
              cases h
          | some rest =>
              rw [hchop] at h
              dsimp only at h
              rw [← hsplit]
              apply describes_of_chop hchop hplain
              cases hdrop : filter.dropWhile (!isToken ·) with
              | nil =>
                  rw [hdrop] at h
                  dsimp only [List.head?_nil, List.tail_nil] at h
                  rw [matchLoop_nil] at h
                  exact @describes_of_verdict _ _ true none (by simp) h
              | cons token remain =>
                  have htoken := List.head?_dropWhile_not (!isToken ·) filter
                  rw [hdrop] at h htoken
                  dsimp only [List.head?_cons, List.tail_cons] at h htoken
                  rcases token_cases (by simpa using htoken) with rfl | rfl | rfl
                  · exact ih false hdepth (by simp) h
                  · cases rest with
                    | nil => cases h
                    | cons d rest => exact .any d (ih true hdepth (by simp) h)
                  · split at h
                    · rename_i hquestion
                      simp at hquestion
                    · by_cases hbrace : '}' ∈ remain
                      · obtain ⟨braceList, behind, rfl, hlist⟩ := List.eq_append_cons_of_mem hbrace
                        simp only [hbrace, ↓reduceIte, Control.strSplitChar_append hlist] at h
                        exact describes_of_alternatives ih hdepth hlist h
                      · simp only [hbrace, ↓reduceIte] at h
                        split at h
                        · exact .opened hbrace (ih true hdepth (by simp) h)
                        · cases h
                    · rename_i hbrace
                      exact absurd rfl hbrace

/-- A name that passes a filter is one that the filter describes. -/
theorem passesFilter_sound (filename filter : Text)
    (h : vsfFilenamePassesFilter filename filter = true) : Describes filter filename :=
  matchLoop_sound _ true (Nat.le_refl _) (by simp) h

/-- A filter with a question mark and braces. -/
theorem passesFilter_sound_braces : Describes "mod-?.{zip,jar}".toList "mod-1.jar".toList :=
  passesFilter_sound _ _ (by decide)

/-! ## Completeness -/

/-- A text at the beginning is found there. -/
theorem strLocateText_append {s text : Text} (hne : text ≠ []) (h : text <+: s) :
    strLocateText s text = some 0 := by
  cases hlocate : strLocateText s text with
  | none => exact absurd h.isInfix (strLocateText_eq_none hne hlocate)
  | some i =>
      obtain ⟨-, -, hfirst⟩ := strLocateText_eq_some hlocate
      cases i with
      | zero => rfl
      | succ i => exact absurd h (hfirst 0 (Nat.succ_pos i))

/-- A literal that must come at once is taken off the front. -/
theorem chop_append (needed rest : Text) : chop true (needed ++ rest) needed = some rest := by
  rw [chop]
  split
  · rename_i hneeded
    rw [hneeded, List.nil_append]
  · rename_i hneeded
    rw [strLocateText_append hneeded (List.prefix_append needed rest)]
    dsimp only
    rw [if_pos rfl, if_neg (Nat.lt_irrefl 0), Nat.zero_add, List.drop_left]

/-- Names that begin as symbols that stand for themselves say. -/
theorem exists_of_describes_plain {needed filter name : Text}
    (hplain : needed.all (!isToken ·) = true) (h : Describes (needed ++ filter) name) :
    ∃ rest, name = needed ++ rest ∧ Describes filter rest := by
  induction needed generalizing name with
  | nil => exact ⟨name, rfl, h⟩
  | cons c needed ih =>
      rw [List.all_cons, Bool.and_eq_true, Bool.not_eq_true'] at hplain
      rw [List.cons_append] at h
      generalize hbehind : needed ++ filter = behind at h
      cases h with
      | lit hc h =>
          subst hbehind
          obtain ⟨rest, rfl, hrest⟩ := ih hplain.2 h
          exact ⟨rest, rfl, hrest⟩
      | any d h => exact absurd hplain.1 (by decide)
      | star skipped h => exact absurd hplain.1 (by decide)
      | brace hbrace halternative h => exact absurd hplain.1 (by decide)
      | opened hbrace h => exact absurd hplain.1 (by decide)

section Steps

variable {depth left : Nat} {needed filter name rest : Text} {must : Bool}
  {lastToken : Option Char} (hplain : needed.all (!isToken ·) = true)

include hplain

/-- The literal ends in front of the first token. -/
theorem span_token (token : Char) (filter : Text) (htoken : isToken token = true) :
    (needed ++ token :: filter).takeWhile (!isToken ·) = needed ∧
      (needed ++ token :: filter).dropWhile (!isToken ·) = token :: filter := by
  have hall : ∀ c ∈ needed, (!isToken c) = true := List.all_eq_true.mp hplain
  have hstop : (!isToken token) = false := by rw [htoken]; rfl
  exact ⟨takeWhile_append_cons hall hstop filter, dropWhile_append_cons hall hstop filter⟩

/-- The iteration for a filter without a token. -/
theorem matchLoop_last (hne : needed ≠ []) (hchop : chop must name needed = some rest) :
    matchLoop (depth + 1) (left + 1) needed name must lastToken =
      (verdict left rest none, left) := by
  have htake : needed.takeWhile (!isToken ·) = needed :=
    List.takeWhile_eq_self_iff.mpr (List.all_eq_true.mp hplain)
  have hdrop : needed.dropWhile (!isToken ·) = [] :=
    List.dropWhile_eq_nil_iff.mpr (List.all_eq_true.mp hplain)
  obtain ⟨c, cs, rfl⟩ := List.exists_cons_of_ne_nil hne
  rw [matchLoop, htake, hdrop, hchop]
  exact matchLoop_nil ..

/-- The iteration for a literal and a star. -/
theorem matchLoop_star (hchop : chop must name needed = some rest) :
    matchLoop (depth + 1) (left + 1) (needed ++ '*' :: filter) name must lastToken =
      matchLoop depth left filter rest false (some '*') := by
  obtain ⟨htake, hdrop⟩ := span_token hplain '*' filter rfl
  obtain ⟨c, cs, hcons⟩ : ∃ c cs, needed ++ '*' :: filter = c :: cs :=
    List.exists_cons_of_ne_nil (by simp)
  rw [hcons] at htake hdrop ⊢
  rw [matchLoop, htake, hdrop, hchop]
  rfl

/-- The iteration for a literal and a question mark, which takes one character. -/
theorem matchLoop_question {d : Char} (hchop : chop must name needed = some (d :: rest)) :
    matchLoop (depth + 1) (left + 1) (needed ++ '?' :: filter) name must lastToken =
      matchLoop depth left filter rest true (some '?') := by
  obtain ⟨htake, hdrop⟩ := span_token hplain '?' filter rfl
  obtain ⟨c, cs, hcons⟩ : ∃ c cs, needed ++ '?' :: filter = c :: cs :=
    List.exists_cons_of_ne_nil (by simp)
  rw [hcons] at htake hdrop ⊢
  rw [matchLoop, htake, hdrop, hchop]
  rfl

end Steps

/-- Symbols and question marks, with a star behind them or not, are matched as far as there
are rounds. -/
theorem matchLoop_fixed {depth left : Nat} {fixed tail name : Text} {lastToken : Option Char}
    (hfixed : fixed.all (fun c => c ≠ '*' && c ≠ '{') = true) (htail : tail = [] ∨ tail = ['*'])
    (hcount : fixed.count '?' + 1 < left) (hle : left ≤ depth) (hlast : lastToken ≠ some '*')
    (h : Describes (fixed ++ tail) name) :
    (matchLoop depth left (fixed ++ tail) name true lastToken).1 = true := by
  induction depth generalizing left fixed name lastToken with
  | zero => omega
  | succ depth ih =>
      obtain ⟨left, rfl⟩ : ∃ n, left = n + 1 := ⟨left - 1, by omega⟩
      have hleft : left ≠ 0 := by omega
      have hsplit := List.takeWhile_append_dropWhile (p := (!isToken ·)) (l := fixed)
      have hplain := List.all_takeWhile (p := (!isToken ·)) (l := fixed)
      have htoken := List.head?_dropWhile_not (!isToken ·) fixed
      generalize fixed.takeWhile (!isToken ·) = needed at hsplit hplain
      generalize fixed.dropWhile (!isToken ·) = behind at hsplit htoken
      subst hsplit
      rw [List.append_assoc] at h ⊢
      obtain ⟨rest, rfl, hrest⟩ := exists_of_describes_plain hplain h
      cases behind with
      | nil =>
          rcases htail with rfl | rfl
          · have hend : rest = [] := by
              cases hrest
              rfl
            subst hend
            by_cases hne : needed = []
            · rw [hne, List.append_nil, List.append_nil, matchLoop_nil]
              simp [verdict]
            · rw [List.append_nil, List.append_nil,
                matchLoop_last hplain hne (by simpa using chop_append needed [])]
              simp [verdict, hleft]
          · rw [List.nil_append, matchLoop_star hplain (chop_append needed rest),
              matchLoop_nil]
            simp [verdict, hleft]
      | cons token behind =>
          have hnot : token ≠ '*' ∧ token ≠ '{' := by
            have hall := List.all_eq_true.mp hfixed token (by simp)
            simpa using hall
          rcases token_cases (by simpa using htoken) with rfl | rfl | rfl
          · exact absurd rfl hnot.1
          · rw [List.cons_append] at hrest ⊢
            cases hrest with
            | lit hc h => cases hc
            | any d hrest =>
                rw [matchLoop_question hplain (chop_append needed _)]
                refine ih ?_ ?_ (by omega) (by simp) hrest
                · rw [List.all_append, Bool.and_eq_true, List.all_cons, Bool.and_eq_true] at hfixed
                  exact hfixed.2.2
                · rw [List.count_append, List.count_cons_self] at hcount
                  omega
          · exact absurd rfl hnot.2

section Back

variable {c : Char} {lit : Text} (hc : c ∉ lit)

include hc

/-- Behind a text that does not repeat its first symbol there is nothing, or there is the last
one of them. -/
theorem drop_of_locate {front : Text} {i : Nat}
    (hlocate : strLocateText (front ++ c :: lit) (c :: lit) = some i) :
    (front ++ c :: lit).drop (i + (c :: lit).length) = [] ∨
      ∃ front', (front ++ c :: lit).drop (i + (c :: lit).length) = front' ++ c :: lit := by
  obtain ⟨-, hs, hfirst⟩ := strLocateText_eq_some hlocate
  have hi : i ≤ front.length := by
    by_contra hlt
    refine hfirst front.length (by omega) ?_
    rw [List.drop_left]
  rcases Nat.eq_or_lt_of_le hi with rfl | hlt
  · left
    rw [← List.length_append]
    exact List.drop_length
  · right
    have hclear : i + (c :: lit).length ≤ front.length := by
      -- The symbol behind `front` would be one of `lit`.
      by_contra hover
      refine hc ?_
      have hget : (front ++ c :: lit)[front.length]? = some c := by simp
      rw [hs, List.getElem?_append_right (by rw [List.length_take]; omega),
        List.getElem?_append_left (by rw [List.length_take]; simp at hover ⊢; omega),
        List.length_take] at hget
      obtain ⟨k, hk⟩ : ∃ k, front.length - min i (front ++ c :: lit).length = k + 1 :=
        ⟨front.length - i - 1, by rw [List.length_append]; omega⟩
      rw [hk, List.getElem?_cons_succ] at hget
      exact List.mem_of_getElem? hget
    exact ⟨front.drop (i + (c :: lit).length), List.drop_append_of_le_length hclear⟩

/-- A scan that finds its literal at the front, or nothing to look at, ends at the end of the name.
-/
theorem scanFwd_back {fuel : Nat} {s : Text} (hfuel : s.length ≤ fuel)
    (hs : s = [] ∨ ∃ front, s = front ++ c :: lit) : scanFwd (c :: lit) fuel s = [] := by
  induction fuel generalizing s with
  | zero => exact List.length_eq_zero_iff.mp (Nat.le_zero.mp hfuel)
  | succ fuel ih =>
      rcases hs with rfl | ⟨front, rfl⟩
      · rfl
      · rw [scanFwd]
        cases hlocate : strLocateText (front ++ c :: lit) (c :: lit) with
        | none =>
            exact absurd (List.suffix_append front _).isInfix
              (strLocateText_eq_none (List.cons_ne_nil c lit) hlocate)
        | some i =>
            refine ih ?_ (drop_of_locate hc hlocate)
            rw [List.length_drop, List.length_cons]
            omega

/-- A star is matched when the text behind it does not repeat its first symbol. -/
theorem chop_back (front : Text) : chop false (front ++ c :: lit) (c :: lit) = some [] := by
  rw [chop, if_neg (List.cons_ne_nil c lit)]
  cases hlocate : strLocateText (front ++ c :: lit) (c :: lit) with
  | none =>
      exact absurd (List.suffix_append front _).isInfix
        (strLocateText_eq_none (List.cons_ne_nil c lit) hlocate)
  | some i =>
      dsimp only
      rw [if_neg Bool.false_ne_true, scanFwd_back hc _ (drop_of_locate hc hlocate)]
      rw [List.length_drop]
      omega

end Back

/-- Filters without braces whose only star stands at the end, or in front of a text that does
not repeat its first symbol. -/
inductive Simple : Text → Prop where
  | fixed {filter : Text} (h : filter.all (fun c => c ≠ '*' && c ≠ '{') = true) : Simple filter
  | front {filter : Text} (h : filter.all (fun c => c ≠ '*' && c ≠ '{') = true) :
    Simple (filter ++ ['*'])
  | back {c : Char} {lit : Text} (h : (c :: lit).all (!isToken ·) = true) (hc : c ∉ lit) :
    Simple ('*' :: c :: lit)

/-- A name that a simple filter describes passes it. -/
theorem passesFilter_of_describes {filter filename : Text} (hsimple : Simple filter)
    (hcount : filter.count '?' + 1 < matchitersMax) (h : Describes filter filename) :
    vsfFilenamePassesFilter filename filter = true := by
  cases hsimple with
  | fixed hfixed =>
      rw [← List.append_nil filter] at h
      rw [vsfFilenamePassesFilter, ← List.append_nil filter]
      exact matchLoop_fixed hfixed (Or.inl rfl) hcount (Nat.le_refl _) (by simp) h
  | front hfixed =>
      refine matchLoop_fixed hfixed (Or.inr rfl) ?_ (Nat.le_refl _) (by simp) h
      rw [List.count_append] at hcount
      omega
  | @back c lit hplain hc =>
      cases h with
      | lit hc h => cases hc
      | @star _ name skipped h =>
          rw [← List.append_nil (c :: lit)] at h
          obtain ⟨rest, rfl, hrest⟩ := exists_of_describes_plain hplain h
          cases hrest
          rw [List.append_nil]
          have hstar : matchLoop (999 + 1) (999 + 1) ([] ++ '*' :: c :: lit) (skipped ++ c :: lit)
              true none = matchLoop 999 999 (c :: lit) (skipped ++ c :: lit) false (some '*') :=
            matchLoop_star rfl rfl
          have hend : matchLoop (998 + 1) (998 + 1) (c :: lit) (skipped ++ c :: lit) false
              (some '*') = (verdict 998 [] none, 998) :=
            matchLoop_last hplain (List.cons_ne_nil c lit) (chop_back hc skipped)
          exact congrArg Prod.fst (hstar.trans hend)

/-- A simple filter with less than a thousand rounds passes exactly the names that it
describes. -/
theorem passesFilter_iff {filter : Text} (hsimple : Simple filter)
    (hcount : filter.count '?' + 1 < matchitersMax) (filename : Text) :
    vsfFilenamePassesFilter filename filter = true ↔ Describes filter filename :=
  ⟨matchLoop_sound _ true (Nat.le_refl _) (by simp), passesFilter_of_describes hsimple hcount⟩

/-- A star in front of a suffix. -/
theorem passesFilter_iff_jar :
    vsfFilenamePassesFilter "a.b.jar".toList "*.jar".toList = true ↔
      Describes "*.jar".toList "a.b.jar".toList :=
  passesFilter_iff (.back rfl (by decide)) (by decide) _

/-- The matcher takes the last of the texts behind a star and does not go back. -/
example : vsfFilenamePassesFilter "aba".toList "*a*b*".toList = false ∧
    Describes "*a*b*".toList "aba".toList :=
  ⟨by decide, .star [] (.lit rfl (.star [] (.lit rfl (.star "a".toList .nil))))⟩

/-- What a simple pattern keeps away is described by it or has it in its name. -/
theorem accessCheck_eq_false_iff {access : Text} (hsimple : Simple access)
    (hcount : access.count '?' + 1 < matchitersMax) (filename : Text) :
    accessCheck (some access) filename = false ↔
      Describes access filename ∨ access ≠ [] ∧ access <:+: filename := by
  have hpasses : vsfFilenamePassesFilter filename access = true ↔ Describes access filename :=
    ⟨matchLoop_sound _ true (Nat.le_refl _) (by simp), passesFilter_of_describes hsimple hcount⟩
  have hlocate : strLocateText filename access ≠ none ↔ access ≠ [] ∧ access <:+: filename := by
    constructor
    · intro h
      obtain ⟨i, hi⟩ := Option.ne_none_iff_exists'.mp h
      obtain ⟨hne, hs, -⟩ := strLocateText_eq_some hi
      exact ⟨hne, filename.take i, filename.drop (i + access.length), by
        rw [List.append_assoc, ← hs]⟩
    · rintro ⟨hne, hinfix⟩ hnone
      exact strLocateText_eq_none hne hnone hinfix
  rw [← hpasses, ← hlocate, accessCheck]
  by_cases h : vsfFilenamePassesFilter filename access = true
  · simp [h]
  · simp [h, Option.isSome_iff_ne_none]

end Filter
end Server
end ModpackInstaller
