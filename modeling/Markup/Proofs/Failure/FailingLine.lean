import Markup.Proofs.Failure.Reading
import Markup.Proofs.Text.Marked

/-!
# The failing line in a message

An error that is raised again where a text is known gets a window around the failing line in front of
its message. Of the lines that one reads there, only the failing one is marked, if some lines around it
are asked for (`Text.filter_isMarked_window`). `raisedAt_marks_line` says so of the message.
-/

namespace Markup

namespace Failure

open Text

/-- An error that is not sealed, raised again where a text is known that has its line, gets a
context in front of its message. The failing line is marked there and no other line is, exactly if
any lines around a failing one are asked for. If none are, nothing is shown. -/
theorem raisedAt_marks_line {s : Step} {text : String} {e : RenderError} (hs : s.Knows text)
    (he : e.isSealed = false) (h1 : 1 ≤ s.site.line.toNat)
    (hn : s.site.line.toNat ≤ (lines text).length) :
    ∃ e' context line, ((error e).raisedAt s.settings s.files s.site).1 = error e' ∧
      e'.message = s.site.filename.getD s.settings.defaultFilename ++ ":" ++
        toString s.site.line ++ "\n" ++ context ++ "\n\n" ++ e.message ∧
      (lines text)[s.site.line.toNat - 1]? = some line ∧
      ((lines context).filter isMarked = ["  > " ++ toString s.site.line ++ "| " ++ line] ↔
        s.settings.contextLines ≠ 0) ∧
      (s.settings.contextLines = 0 → context = "") := by
  obtain ⟨line, hline⟩ : ∃ line, (lines text)[s.site.line.toNat - 1]? = some line :=
    ⟨_, List.getElem?_eq_getElem (by omega)⟩
  refine ⟨_, window text s.site.line s.settings.contextLines, line,
    congrArg error (raisedAt_of_knows hs e), ?_, hline, ⟨fun h hc => ?_, fun hc => ?_⟩, fun hc => ?_⟩
  · rw [RenderError.knowing_fst]
    simp [he, RenderError.around, Site.header, String.append_assoc]
  · rw [hc, window_zero] at h
    cases h
  · rw [filter_isMarked_window h1 hline hc]
    exact congrArg (fun row => [row]) (numberedLine_self _ _)
  · rw [hc, window_zero]

/-- The last line of a file that is read, with one line around it. -/
def lastLine : Step := ⟨{ contextLines := 1 }, oneFile, ⟨some "a.pug", 2, none⟩⟩

theorem raisedAt_marks_line_lastLine :
    lastLine.Knows "p\nq" ∧ ∃ e' context,
      ((error (.ofMessage "boom")).raisedAt lastLine.settings lastLine.files lastLine.site).1 =
        error e' ∧
      e'.message = "a.pug:2\n" ++ context ++ "\n\nboom" ∧
      (lines context).filter isMarked = ["  > 2| q"] := by
  have hs : lastLine.Knows "p\nq" := .inr ⟨"a.pug", ⟨nofun, rfl, rfl⟩, by decide⟩
  obtain ⟨e', context, line, hraised, hmessage, hline, hmarked, -⟩ :=
    raisedAt_marks_line (e := .ofMessage "boom") hs rfl (by decide) (by decide)
  obtain rfl : "q" = line := Option.some.inj hline
  refine ⟨hs, e', context, hraised, ?_, hmarked.mpr (by decide)⟩
  rw [hmessage]
  show "a.pug:2\n" ++ context ++ "\n\n" ++ "boom" = _
  rw [String.append_assoc]
  rfl

/-- A text of one line, and no lines around a failing one. -/
def noneAround : Step := ⟨{ contextLines := 0 }, fun _ => .error .notFound, ⟨none, 1, some "p"⟩⟩

/-- An error on the one line there is: the message is raised without that line. -/
theorem not_marked_noneAround :
    noneAround.Knows "p" ∧ lines "p" = ["p"] ∧ ∃ e',
      ((error (.ofMessage "boom")).raisedAt noneAround.settings noneAround.files
        noneAround.site).1 = error e' ∧
      e'.message = "Pug:1\n\n\nboom" ∧
      ∀ context, e'.message = "Pug:1\n" ++ context ++ "\n\nboom" →
        (lines context).filter isMarked ≠ ["  > 1| p"] := by
  refine ⟨.inl ⟨rfl, by decide⟩, by decide, _, rfl, by decide, fun context h => ?_⟩
  have hmessage : "Pug:1\n" ++ "" ++ "\n\nboom" = "Pug:1\n" ++ context ++ "\n\nboom" :=
    h ▸ (by decide)
  rw [String.append_left_inj, String.append_right_inj] at hmessage
  subst hmessage
  decide

end Failure

end Markup
