import ScriptLint.Proofs.Rule.Standard

/-!
# Scripts with other line endings

A text whose line endings are all replaced by the same one has the same lines, and its last line is
ended if it was before. The rules of the linter see no more of it than this, so they find the same
(`checked_alike_with_every_ending`).
-/

namespace ScriptLint

theorem looksLike_withEnding {e : Ending} (he : e ≠ .unterminated) (path : Bytes) (t : Text) :
    Script.LooksLike ⟨path, withEnding e t⟩ ⟨path, t⟩ where
  path := rfl
  lines := splitLines_withEnding he t
  ends := endsLine_withEnding he t

/-- Scripts that look the same to the rules of the linter have the same outcome. -/
theorem Runner.IsStandard.checkSource_congr {r : Runner} (hr : r.IsStandard) {path : Bytes}
    {t t' : Text} (h : Script.LooksLike ⟨path, t⟩ ⟨path, t'⟩) :
    r.checkSource path t = r.checkSource path t' := by
  refine checkScript_congr rfl fun rule hrule configured hconf => ?_
  exact (isStandardCheck_of_configure (hr rule hrule) hconf).2.congr h

/-- **Line endings do not show.** With every ending replaced by a line feed, by a carriage return
and a line feed, or by a carriage return, a text has the same lines, and its last line is ended if
and only if it was. So every runner of the linter's rules, however they are configured, has the same
outcome for it under every path: the same findings, passed on alike, and the same errors. -/
theorem checked_alike_with_every_ending (t : Text) {e : Ending} (he : e ≠ .unterminated)
    (path : Bytes) :
    (Script.mk path (withEnding e t)).lines = (Script.mk path t).lines ∧
    endsLine (withEnding e t) = endsLine t ∧
    ∀ r : Runner, r.IsStandard → r.checkSource path (withEnding e t) = r.checkSource path t := by
  have h := looksLike_withEnding he path t
  exact ⟨h.lines, h.ends, fun r hr => hr.checkSource_congr h⟩

/-- All rules on a text with three kinds of endings, a blank line and an open last line, and on the
same text with carriage returns. -/
theorem checked_alike_with_every_ending_mixed :
    let t : Text := "a \nb\r\n\rf() \x7b".toList
    let r : Runner := { rules := Registry.standard.rules }
    Ending.cr ≠ .unterminated ∧ withEnding .cr t = "a \rb\r\rf() \x7b".toList ∧ r.IsStandard ∧
      r.checkSource [0x61] (withEnding .cr t) = r.checkSource [0x61] t := by
  intro t r
  have he : Ending.cr ≠ .unterminated := by decide
  have hr : r.IsStandard := fun _ h => h
  exact ⟨he, by decide, hr, (checked_alike_with_every_ending t he [0x61]).2.2 r hr⟩

end ScriptLint
