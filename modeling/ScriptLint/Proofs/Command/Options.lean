import ScriptLint.Command.Check
import Mathlib.Data.List.Basic

/-!
# Options of a check

Arguments that are read are misused in one of three ways (`Parsed.Misused`) and give options
otherwise (`Parsed.options`). Some flags say only how a check is carried out and shown; arguments
that agree on all others ask for the same work (`Parsed.sameWork_options`).
-/

namespace ScriptLint

namespace Parsed

variable (p : Parsed)

/-- The name of the format that is asked for. -/
def formatName : Bytes := (p.last? "format").getD (bytes "text")

/-- The options of arguments that are understood. -/
def options : CheckOptions where
  rules := p.all "rules"
  ruleFile := p.text "rule-file"
  root := p.text "root"
  scripts := p.text "scripts"
  config := p.text "config"
  format := if p.formatName = bytes "text" then .text else .json
  jobs := p.number "jobs"
  noColour := p.isOn "no-color"
  quiet := p.isOn "quiet"
  verbose := p.isOn "verbose" && !p.isOn "quiet"
  fromInput := p.words = [bytes "-"]

/-- Why arguments whose flags are understood are refused at once. -/
inductive Misused : Prop where
  | format (htext : p.formatName ≠ bytes "text") (hjson : p.formatName ≠ bytes "json") : Misused
  | jobs (h : p.number "jobs" < 0) : Misused
  | words (hsome : p.words ≠ []) (hother : p.words ≠ [bytes "-"]) : Misused

variable {p}

theorem ofParsed_of_not_misused (h : ¬ p.Misused) : CheckOptions.ofParsed p = .ok p.options := by
  have hjobs : ¬ p.number "jobs" < 0 := fun hneg => h (.jobs hneg)
  have hwords : (!decide (p.words = [bytes "-"]) && !p.words.isEmpty) = false := by
    by_contra hbad
    simp only [Bool.not_eq_false, Bool.and_eq_true, Bool.not_eq_true', decide_eq_false_iff_not,
      List.isEmpty_eq_false_iff] at hbad
    exact h (.words hbad.2 hbad.1)
  have hname : (p.last? "format").getD (bytes "text") = p.formatName := rfl
  unfold CheckOptions.ofParsed options
  simp only [hname]
  by_cases htext : p.formatName = bytes "text"
  · simp only [if_pos htext, if_neg hjobs, hwords]
    rfl
  · have hjson : p.formatName = bytes "json" := by
      by_contra hjson
      exact h (.format htext hjson)
    simp only [if_neg htext, if_pos hjson, if_neg hjobs, hwords]
    rfl

theorem not_misused_of_ofParsed {o : CheckOptions} (h : CheckOptions.ofParsed p = .ok o) :
    ¬ p.Misused := by
  have hname : (p.last? "format").getD (bytes "text") = p.formatName := rfl
  unfold CheckOptions.ofParsed at h
  simp only [hname] at h
  rintro (⟨htext, hjson⟩ | hneg | ⟨hsome, hother⟩)
  · rw [if_neg htext, if_neg hjson] at h
    cases h
  · simp only [if_pos hneg] at h
    split_ifs at h <;> cases h
  · have hwords : (!decide (p.words = [bytes "-"]) && !p.words.isEmpty) = true := by
      simp [hsome, hother]
    simp only [hwords, if_true] at h
    split_ifs at h <;> cases h

end Parsed

/-! ### Presentation -/

/-- Whether options ask for the same work: all of them but the format, the number of workers, the
colours and how much is told. -/
structure CheckOptions.SameWork (o o' : CheckOptions) : Prop where
  rules : o'.rules = o.rules
  ruleFile : o'.ruleFile = o.ruleFile
  root : o'.root = o.root
  scripts : o'.scripts = o.scripts
  config : o'.config = o.config
  fromInput : o'.fromInput = o.fromInput

/-- The flags that say how a check is carried out and shown, and not what is checked. -/
def presentationFlags : List Bytes :=
  [bytes "format", bytes "jobs", bytes "no-color", bytes "quiet", bytes "verbose"]

namespace Parsed

/-- The arguments without the flags for presentation. -/
def essentials (p : Parsed) : Parsed :=
  { p with values := p.values.filter fun v => !presentationFlags.contains v.1 }

/-- Whether the flags for presentation have values that are understood. -/
structure IsPresentable (p : Parsed) : Prop where
  format : p.formatName = bytes "text" ∨ p.formatName = bytes "json"
  jobs : 0 ≤ p.number "jobs"

theorem IsPresentable.misused_iff {p : Parsed} (h : p.IsPresentable) :
    p.Misused ↔ p.words ≠ [] ∧ p.words ≠ [bytes "-"] := by
  constructor
  · rintro (⟨htext, hjson⟩ | hneg | ⟨hsome, hother⟩)
    · exact absurd h.format (not_or.mpr ⟨htext, hjson⟩)
    · have hjobs := h.jobs
      omega
    · exact ⟨hsome, hother⟩
  · rintro ⟨hsome, hother⟩
    exact .words hsome hother

theorem filter_essentials (p : Parsed) {name : String}
    (h : presentationFlags.contains (bytes name) = false) :
    p.essentials.values.filter (·.1 == bytes name) = p.values.filter (·.1 == bytes name) := by
  rw [essentials, List.filter_filter]
  refine List.filter_congr fun v _ => ?_
  by_cases hv : v.1 = bytes name
  · rw [hv, h]
    simp
  · simp [hv]

/-- Arguments that agree on the other flags ask for the same work. -/
theorem sameWork_options {p p' : Parsed} (h : p'.essentials = p.essentials) :
    p.options.SameWork p'.options := by
  have hwords : p'.words = p.words := congrArg (·.words) h
  have hvalues : ∀ name, presentationFlags.contains (bytes name) = false →
      p'.values.filter (·.1 == bytes name) = p.values.filter (·.1 == bytes name) := by
    intro name hname
    rw [← filter_essentials p' hname, h, filter_essentials p hname]
  have hall : p'.all "rules" = p.all "rules" := by
    rw [all, all, hvalues "rules" (by decide)]
  have htext : ∀ name, presentationFlags.contains (bytes name) = false →
      p'.text name = p.text name := by
    intro name hname
    rw [text, text, last?, last?, hvalues name hname]
  exact
    { rules := hall
      ruleFile := htext "rule-file" (by decide)
      root := htext "root" (by decide)
      scripts := htext "scripts" (by decide)
      config := htext "config" (by decide)
      fromInput := by simp only [options, hwords] }

end Parsed

end ScriptLint
