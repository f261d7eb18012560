import ModpackInstaller.Client.Response
import ModpackInstaller.Server.Reply

/-!
# Reply framing

The installer takes one line from the control connection for each command, in
{lit}`FtpClient.chat`; the server may write several.  A dialogue is a list of
replies, one for each command, and the characters that are left unread from one
command to the next.

Main results:

- Theorem {lit}`chat_iff`: a command gets the final line of its reply exactly
  when the reply is a single line.
- Theorem {lit}`dialogue_iff`: every command of a dialogue gets the final line
  of its own reply exactly when every reply is a single line.
- Theorem {lit}`dialogue_fails`: a directory message shifts all later answers.
-/

namespace ModpackInstaller
namespace Control

open Library Server Client

/-! ## One command -/

/-- `chat`: what the server answers joins the unread characters, and one line
is read.  The result is the line and what is left unread. -/
def chat (unread : Text) (reply : Reply) : Option (Text × Text) :=
  readLine (unread ++ reply.wire)

/-- No continuation lines come before the final line, and its text does not end
it early. -/
def SingleLine (r : Reply) : Prop :=
  r.message = [] ∧ '\r' ∉ r.text

instance : DecidablePred SingleLine :=
  fun _ => inferInstanceAs (Decidable (_ ∧ _))

/-- A reply code has no line end in it. -/
private theorem not_lineBreak_of_mem_code {code : Nat} {c : Char}
    (h : c ∈ Nat.toDigits 10 code) : isLineBreak c = false := by
  have hdigit : c.isDigit := Nat.isDigit_of_mem_toDigits (by omega) (by omega) h
  have hnewline : c ≠ '\n' := fun heq => absurd (heq ▸ hdigit) (by decide)
  have hcr : c ≠ '\r' := fun heq => absurd (heq ▸ hdigit) (by decide)
  simp [isLineBreak, hnewline, hcr]

private theorem not_lineBreak_of_mem_mangle {text : Text} (h : '\r' ∉ text) {c : Char}
    (hc : c ∈ mangle text) : isLineBreak c = false := by
  have hnewline : c ≠ '\n' := fun heq => newline_not_mem_mangle text (heq ▸ hc)
  have hcr : c ≠ '\r' := fun heq => h ((cr_mem_mangle text).mp (heq ▸ hc))
  simp [isLineBreak, hnewline, hcr]

/-- A reply of a single line is read whole. -/
theorem chat_of_singleLine {r : Reply} (h : SingleLine r) :
    chat [] r = some (r.finalLine, []) := by
  have hwire : r.wire = r.finalLine ++ ['\r', '\n'] := by
    rw [Reply.wire, h.1]
    rfl
  have hbreak : ∀ c ∈ r.finalLine, isLineBreak c = false := by
    intro c hc
    rw [Reply.finalLine, replyLine, List.mem_append, List.mem_cons] at hc
    rcases hc with hc | rfl | hc
    · exact not_lineBreak_of_mem_code hc
    · decide
    · exact not_lineBreak_of_mem_mangle h.2 hc
  rw [chat, List.nil_append, hwire]
  exact readLine_crlf hbreak []

/-- The first line of a reply with a message is not its final line. -/
private theorem firstLine_ne_finalLine {r : Reply} (h : r.message ≠ []) :
    (r.wire.takeWhile fun c => !isLineBreak c) ≠ r.finalLine := by
  obtain ⟨l, ls, hlines⟩ : ∃ l ls, strLines r.message = l :: ls := by
    rw [strLines_eq_pieces]
    exact List.exists_cons_of_ne_nil (pieces_ne_nil '\n' h)
  have hcode : ∀ c ∈ Nat.toDigits 10 r.code, (!isLineBreak c) = true := by
    intro c hc
    rw [not_lineBreak_of_mem_code hc]
    rfl
  have hhyphen : isLineBreak '-' = false := by decide
  rw [Reply.wire, vsfBannerWrite, hlines, List.flatMap_cons, vsfCmdioWriteStrHyphen,
    ftpWriteStrCommon, replyLine, Reply.finalLine, replyLine]
  simp only [List.append_assoc, List.cons_append]
  rw [List.takeWhile_append_of_pos hcode, List.takeWhile_cons_of_pos (by simp [hhyphen])]
  intro heq
  have hcons := List.append_cancel_left heq
  simp at hcons

/-- A command gets the final line of its reply exactly when the reply is a
single line, and then nothing is left unread. -/
theorem chat_iff (r : Reply) (left : Text) :
    chat [] r = some (r.finalLine, left) ↔ SingleLine r ∧ left = [] := by
  constructor
  · intro h
    have hline := readLine_eq_takeWhile h
    rw [List.nil_append] at hline
    have hmessage : r.message = [] := by
      by_contra hne
      exact firstLine_ne_finalLine hne hline.symm
    have hcr : '\r' ∉ r.text := by
      intro hmem
      have hmangle : '\r' ∈ r.finalLine := by
        rw [Reply.finalLine, replyLine]
        simp [(cr_mem_mangle r.text).mpr hmem]
      have hbreak := lineBreak_not_mem_readLine h '\r' hmangle
      exact absurd hbreak (by decide)
    have hread := chat_of_singleLine (r := r) ⟨hmessage, hcr⟩
    rw [hread, Option.some.injEq, Prod.mk.injEq] at h
    exact ⟨⟨hmessage, hcr⟩, h.2.symm⟩
  · rintro ⟨hr, rfl⟩
    exact chat_of_singleLine hr

/-! ## A dialogue -/

/-- The lines that the commands of a dialogue get. -/
def dialogue : Text → List Reply → List Text
  | _, [] => []
  | unread, r :: replies =>
    match chat unread r with
    | some (line, left) => line :: dialogue left replies
    | none => []

/-- Every command of a dialogue gets the final line of its own reply exactly
when every reply is a single line. -/
theorem dialogue_iff (replies : List Reply) :
    dialogue [] replies = replies.map Reply.finalLine ↔ ∀ r ∈ replies, SingleLine r := by
  induction replies with
  | nil => simp [dialogue]
  | cons r replies ih =>
      rw [dialogue, List.map_cons, List.forall_mem_cons]
      cases hchat : chat [] r with
      | none =>
          have hr : ¬ SingleLine r := by
            intro hr
            rw [chat_of_singleLine hr] at hchat
            simp at hchat
          simp [hr]
      | some read =>
          obtain ⟨line, left⟩ := read
          simp only [List.cons.injEq]
          constructor
          · rintro ⟨hline, hrest⟩
            rw [hline] at hchat
            obtain ⟨hr, hleft⟩ := (chat_iff r left).mp hchat
            rw [hleft] at hrest
            exact ⟨hr, ih.mp hrest⟩
          · rintro ⟨hr, hrest⟩
            rw [chat_of_singleLine hr, Option.some.injEq, Prod.mk.injEq] at hchat
            rw [← hchat.1, ← hchat.2]
            exact ⟨rfl, ih.mpr hrest⟩

/-- A session of the distributed configuration, which enables directory
messages. -/
def messageSession : Session :=
  ⟨true, ".message".toList, []⟩

/-- A file system with a message file in the directory {lit}`/m`. -/
def withMessage : Kernel where
  openRead _ path := if path = "/m/.message".toList then some (.ofText "Welcome\n".toList) else none
  stat _ _ := none

/-- The installer changes into a directory with a message file, and then asks
for the version of the pack.  It gets the message as the answer to the first
command and the end of the first reply as the answer to the second one. -/
theorem dialogue_fails :
    ∃ r, handleCwd withMessage ⟨0, []⟩ messageSession true (some "/m".toList) =
        .ok (r, { messageSession with visited := ["/m".toList] }, ⟨1, []⟩) ∧
      dialogue [] [r, .plain 216 ['2']] =
        ["250-Welcome".toList, "250 Directory successfully changed.".toList] ∧
      [r, Reply.plain 216 ['2']].map Reply.finalLine =
        ["250 Directory successfully changed.".toList, "216 2".toList] :=
  ⟨⟨250, "Welcome\n".toList, "Directory successfully changed.".toList⟩, by decide, by decide,
    by decide⟩

end Control
end ModpackInstaller
