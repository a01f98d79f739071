import ScriptLint.Script.Basic
import Mathlib.Data.List.TakeWhile

/-!
# Lines and their endings

A text is read as endings of lines and characters between them, and `Text.inductionOnEndings` is the
induction over this reading. Two operations on texts are followed through it: giving every line the
same ending (`withEnding`), which changes neither the lines nor whether the last one is ended
(`splitLines_withEnding`, `endsLine_withEnding`), and taking the first line off (`firstLine` and
`afterFirst`).
-/

namespace ScriptLint

/-! ### Endings and characters -/

/-- A character that ends a line, alone or together with another one. -/
def IsBreak (c : Char) : Prop := c = '\n' ∨ c = '\r'

instance : DecidablePred IsBreak := fun c => inferInstanceAs (Decidable (c = '\n' ∨ c = '\r'))

/-- Whether an ending stands at the front of a text as a whole: a carriage return is no ending of
its own before a line feed. -/
def Ending.Precedes (e : Ending) (r : Text) : Prop := e = .cr → r.head? ≠ some '\n'

/-- **Induction over the endings of a text** and the characters between them. -/
theorem Text.inductionOnEndings {motive : Text → Prop} (t : Text) (nil : motive [])
    (ending : ∀ e r, e ≠ .unterminated → Ending.Precedes e r → motive r → motive (e.text ++ r))
    (char : ∀ c r, ¬ IsBreak c → motive r → motive (c :: r)) : motive t := by
  induction t using cutLines.induct with
  | case1 => exact nil
  | case2 r ih => exact ending .crlf r (by decide) (by simp [Ending.Precedes]) ih
  | case3 r _ ih => exact ending .lf r (by decide) (by simp [Ending.Precedes]) ih
  | case4 r hr _ ih =>
    refine ending .cr r (by decide) (fun _ hhead => ?_) ih
    obtain ⟨rest, rfl⟩ := List.head?_eq_some_iff.mp hhead
    exact hr rest rfl rfl
  | case5 c r _ hlf hcr ih => exact char c r (by simp [IsBreak, hlf, hcr]) ih

theorem Ending.text_ne_nil {e : Ending} (he : e ≠ .unterminated) : e.text ≠ [] := by
  cases e with
  | unterminated => exact absurd rfl he
  | lf | crlf | cr => exact List.cons_ne_nil _ _

@[simp]
theorem cutLines_nil : cutLines [] = [] := rfl

/-- What starts with no pair is cut at its first character, or goes on with it. -/
theorem cutLines_of_not_pair {c : Char} {r : Text} (h : ∀ s, c = '\r' → r = '\n' :: s → False) :
    cutLines (c :: r) = if c = '\n' then ⟨[], .lf⟩ :: cutLines r
      else if c = '\r' then ⟨[], .cr⟩ :: cutLines r else consLine c (cutLines r) :=
  cutLines.eq_3 c r h

theorem cutLines_ending_append {e : Ending} {r : Text} (he : e ≠ .unterminated)
    (hr : e.Precedes r) : cutLines (e.text ++ r) = ⟨[], e⟩ :: cutLines r := by
  cases e with
  | lf => rfl
  | crlf => rfl
  | cr =>
    have hhead := hr rfl
    cases r with
    | nil => rfl
    | cons c r =>
      have hc : c ≠ '\n' := by simpa using hhead
      exact cutLines_of_not_pair fun _ _ h => hc (List.cons.inj h).1
  | unterminated => exact absurd rfl he

theorem cutLines_cons {c : Char} (hc : ¬ IsBreak c) (r : Text) :
    cutLines (c :: r) = consLine c (cutLines r) := by
  obtain ⟨hlf, hcr⟩ := not_or.mp hc
  rw [cutLines_of_not_pair fun _ h _ => hcr h, if_neg hlf, if_neg hcr]

/-- A text has no lines only if it is empty. -/
theorem cutLines_eq_nil_iff (t : Text) : cutLines t = [] ↔ t = [] := by
  induction t using Text.inductionOnEndings with
  | nil => simp
  | ending e r he hr _ => simp [cutLines_ending_append he hr, Ending.text_ne_nil he]
  | char c r hc _ =>
    rw [cutLines_cons hc]
    cases cutLines r with
    | nil => simp [consLine]
    | cons l ls => simp [consLine]

theorem splitLines_eq_nil_iff (t : Text) : splitLines t = [] ↔ t = [] := by
  rw [splitLines, List.map_eq_nil_iff, cutLines_eq_nil_iff]

/-! ### One ending for all lines -/

/-- The text with every line ending replaced by one and the same. -/
def withEnding (e : Ending) : Text → Text
  | [] => []
  | '\r' :: '\n' :: r => e.text ++ withEnding e r
  | c :: r => if IsBreak c then e.text ++ withEnding e r else c :: withEnding e r

@[simp]
theorem withEnding_nil (e : Ending) : withEnding e [] = [] := rfl

theorem withEnding_of_not_pair (e : Ending) {c : Char} {r : Text}
    (h : ∀ s, c = '\r' → r = '\n' :: s → False) :
    withEnding e (c :: r) = if IsBreak c then e.text ++ withEnding e r else c :: withEnding e r :=
  withEnding.eq_3 e c r h

/-- The line with another ending, if it is ended at all. -/
def Line.endedBy (e : Ending) (l : Line) : Line :=
  if l.ending = .unterminated then l else { l with ending := e }

theorem body_endedBy (e : Ending) (l : Line) : (l.endedBy e).body = l.body := by
  rw [Line.endedBy]
  split_ifs
  · rfl
  · rfl

theorem withEnding_ending_append (e : Ending) {e' : Ending} {r : Text} (he' : e' ≠ .unterminated)
    (hr : e'.Precedes r) : withEnding e (e'.text ++ r) = e.text ++ withEnding e r := by
  cases e' with
  | lf => rfl
  | crlf => rfl
  | cr =>
    have hhead := hr rfl
    cases r with
    | nil => rfl
    | cons c r =>
      have hc : c ≠ '\n' := by simpa using hhead
      exact withEnding_of_not_pair e fun _ _ h => hc (List.cons.inj h).1
  | unterminated => exact absurd rfl he'

theorem withEnding_cons (e : Ending) {c : Char} (hc : ¬ IsBreak c) (r : Text) :
    withEnding e (c :: r) = c :: withEnding e r := by
  rw [withEnding_of_not_pair e fun _ h _ => (not_or.mp hc).2 h, if_neg hc]

theorem withEnding_eq_nil_iff {e : Ending} (he : e ≠ .unterminated) (t : Text) :
    withEnding e t = [] ↔ t = [] := by
  induction t using Text.inductionOnEndings with
  | nil => simp
  | ending e' r he' hr _ =>
    simp [withEnding_ending_append e he' hr, Ending.text_ne_nil he, Ending.text_ne_nil he']
  | char c r hc _ => simp [withEnding_cons e hc]

/-- Carriage returns for all endings leave no line feed behind. -/
theorem precedes_withEnding (e : Ending) (t : Text) : e.Precedes (withEnding e t) := by
  rintro rfl
  induction t using Text.inductionOnEndings with
  | nil => simp
  | ending e' r he' hr _ =>
    rw [withEnding_ending_append .cr he' hr]
    simp [Ending.text]
  | char c r hc _ =>
    rw [withEnding_cons .cr hc, List.head?_cons]
    exact fun h => hc (.inl (Option.some.inj h))

theorem map_endedBy_consLine (e : Ending) (c : Char) (ls : List Line) :
    (consLine c ls).map (Line.endedBy e) = consLine c (ls.map (Line.endedBy e)) := by
  cases ls with
  | nil => rfl
  | cons l ls =>
    have hfirst : Line.endedBy e ⟨c :: l.body, l.ending⟩
        = ⟨c :: (l.endedBy e).body, (l.endedBy e).ending⟩ := by
      simp only [Line.endedBy]
      split_ifs
      · rfl
      · rfl
    rw [consLine, List.map_cons, List.map_cons, consLine, hfirst]

/-- **Replacing the endings replaces the endings of the lines**, and nothing else. -/
theorem cutLines_withEnding {e : Ending} (he : e ≠ .unterminated) (t : Text) :
    cutLines (withEnding e t) = (cutLines t).map (Line.endedBy e) := by
  induction t using Text.inductionOnEndings with
  | nil => rfl
  | ending e' r he' hr ih =>
    rw [withEnding_ending_append e he' hr, cutLines_ending_append he (precedes_withEnding e r), ih,
      cutLines_ending_append he' hr, List.map_cons, Line.endedBy, if_neg he']
  | char c r hc ih =>
    rw [withEnding_cons e hc, cutLines_cons hc, cutLines_cons hc, ih, map_endedBy_consLine]

theorem splitLines_withEnding {e : Ending} (he : e ≠ .unterminated) (t : Text) :
    splitLines (withEnding e t) = splitLines t := by
  rw [splitLines, splitLines, cutLines_withEnding he, List.map_map]
  exact List.map_congr_left fun l _ => body_endedBy e l

theorem endsLine_append (a : Text) {r : Text} (hr : r ≠ []) : endsLine (a ++ r) = endsLine r := by
  rw [endsLine, endsLine, List.getLast?_append, List.getLast?_eq_some_getLast hr, Option.some_or]

theorem endsLine_text {e : Ending} (he : e ≠ .unterminated) : endsLine e.text = true := by
  cases e with
  | unterminated => exact absurd rfl he
  | lf | crlf | cr => rfl

theorem endsLine_withEnding {e : Ending} (he : e ≠ .unterminated) (t : Text) :
    endsLine (withEnding e t) = endsLine t := by
  induction t using Text.inductionOnEndings with
  | nil => rfl
  | ending e' r he' hr ih =>
    rw [withEnding_ending_append e he' hr]
    by_cases hnil : r = []
    · rw [hnil, withEnding_nil, List.append_nil, List.append_nil, endsLine_text he,
        endsLine_text he']
    · have hconverted : withEnding e r ≠ [] := fun h => hnil ((withEnding_eq_nil_iff he r).mp h)
      rw [endsLine_append _ hconverted, endsLine_append _ hnil, ih]
  | char c r hc ih =>
    rw [withEnding_cons e hc]
    by_cases hnil : r = []
    · rw [hnil, withEnding_nil]
    · have hconverted : withEnding e r ≠ [] := fun h => hnil ((withEnding_eq_nil_iff he r).mp h)
      rw [← List.singleton_append, endsLine_append _ hconverted, ih, ← List.singleton_append,
        endsLine_append _ hnil]

/-! ### The first line -/

/-- The first line of a text, without its ending. -/
def firstLine (t : Text) : Text := t.takeWhile (¬ IsBreak ·)

/-- What follows the first line of a text, the ending of that line included. -/
def afterFirst (t : Text) : Text := t.dropWhile (¬ IsBreak ·)

theorem firstLine_cons {c : Char} (hc : ¬ IsBreak c) (r : Text) :
    firstLine (c :: r) = c :: firstLine r := by
  rw [firstLine, List.takeWhile_cons_of_pos (by simpa using hc), firstLine]

theorem afterFirst_cons {c : Char} (hc : ¬ IsBreak c) (r : Text) :
    afterFirst (c :: r) = afterFirst r := by
  rw [afterFirst, List.dropWhile_cons_of_pos (by simpa using hc), afterFirst]

/-- An ending at the front leaves the first line empty. -/
theorem firstLine_ending_append {e : Ending} (he : e ≠ .unterminated) (r : Text) :
    firstLine (e.text ++ r) = [] ∧ afterFirst (e.text ++ r) = e.text ++ r := by
  cases e with
  | unterminated => exact absurd rfl he
  | lf | crlf | cr => exact ⟨rfl, rfl⟩

theorem splitLines_cons {c : Char} (hc : ¬ IsBreak c) (r : Text) :
    splitLines (c :: r) = (c :: (splitLines r).headD []) :: (splitLines r).tail := by
  rw [splitLines, cutLines_cons hc, splitLines]
  cases cutLines r with
  | nil => rfl
  | cons l ls => rfl

/-- **The lines of a text are its first line and the lines that follow it.** What follows starts
with the ending of the first line, hence with an empty line of its own. -/
theorem splitLines_eq_cons {t : Text} (ht : t ≠ []) :
    splitLines t = firstLine t :: (splitLines (afterFirst t)).tail := by
  induction t using Text.inductionOnEndings with
  | nil => exact absurd rfl ht
  | ending e r he hr _ =>
    obtain ⟨hfirst, hafter⟩ := firstLine_ending_append he r
    rw [hfirst, hafter, splitLines, cutLines_ending_append he hr, List.map_cons, List.tail_cons]
  | char c r hc ih =>
    rw [splitLines_cons hc, firstLine_cons hc, afterFirst_cons hc]
    by_cases hnil : r = []
    · rw [hnil]
      rfl
    · rw [ih hnil, List.headD_cons, List.tail_cons]

/-- What follows the first line starts with an empty line, if there is anything. -/
theorem headD_splitLines_afterFirst (t : Text) : (splitLines (afterFirst t)).headD [] = [] := by
  induction t using Text.inductionOnEndings with
  | nil => rfl
  | ending e r he hr _ =>
    rw [(firstLine_ending_append he r).2, splitLines, cutLines_ending_append he hr, List.map_cons,
      List.headD_cons]
  | char c r hc ih => rwa [afterFirst_cons hc]

/-- The first line alone is a text of one line. -/
theorem splitLines_firstLine {t : Text} (h : firstLine t ≠ []) :
    splitLines (firstLine t) = [firstLine t] := by
  have hafter : afterFirst (firstLine t) = [] := by
    rw [afterFirst, List.dropWhile_eq_nil_iff]
    intro c hc
    rw [firstLine] at hc
    have hkept := List.mem_takeWhile_imp hc
    exact hkept
  rw [splitLines_eq_cons h, hafter, firstLine, firstLine, List.takeWhile_idem]
  rfl

end ScriptLint
