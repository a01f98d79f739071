import ScriptLint.Proofs.Command.ExitCode
import ScriptLint.Proofs.Command.Order
import ScriptLint.Proofs.Text.Quoted

/-!
# Errors on the standard error

What goes wrong with a script does not end a check: it is told after the report, on a line of the
standard error for each error, in the order of the scripts (`check_tells_errors`). A report that is
written as text and breaks off does not change that, and is told last. A document that is not
accepted does: the command ends there, and no error is told (`check_loses_error`). Every error stays
on its line, apart from names and reasons that come with line feeds of their own
(`CheckPlan.isOneLine_or_bringsLineFeed`).
-/

namespace ScriptLint

/-! ### What is accepted -/

/-- A sink with room for some pieces takes that many. -/
theorem Sink.writeAll_limited {s : Sink} {k : Nat} (hs : s.limit = some k)
    (hroom : s.written.length ≤ k) (pieces : List Bytes) :
    (s.writeAll pieces).2 = true ↔ s.written.length + pieces.length ≤ k := by
  induction pieces generalizing s with
  | nil => exact iff_of_true rfl hroom
  | cons p ps ih =>
    have haccepts : s.accepts = decide (s.written.length < k) := by rw [Sink.accepts, hs]
    rw [Sink.writeAll, Sink.write, haccepts, List.length_cons]
    by_cases hfree : s.written.length < k
    · have hlonger : (s.written ++ [p]).length = s.written.length + 1 := List.length_append
      have hrest := ih (s := { s with written := s.written ++ [p] }) hs (hlonger.trans_le hfree)
      simp only [decide_eq_true hfree, if_true, hrest, hlonger]
      omega
    · simp only [decide_eq_false hfree, Bool.false_eq_true, if_false, false_iff]
      omega

theorem Sink.writeAll_fresh (limit : Option Nat) (pieces : List Bytes) :
    (Sink.writeAll { limit } pieces).2 = true ↔ ∀ k ∈ limit, pieces.length ≤ k := by
  cases limit with
  | none => exact iff_of_true (Sink.writeAll_unlimited _ rfl pieces) fun k hk => by cases hk
  | some n =>
    rw [Sink.writeAll_limited rfl (Nat.zero_le n)]
    simp

namespace CheckOptions

variable (o : CheckOptions) (c : Call) (out : Outcome)

/-- Whether the report is a document and the output takes nothing. -/
def LosesDocument : Prop := o.quiet = false ∧ o.format = .json ∧ c.outputLimit = some 0

/-- Whether the report is made of lines and the output does not take all of them. -/
def LosesLines : Prop :=
  o.quiet = false ∧ o.format = .text ∧ ∃ k ∈ c.outputLimit, k < out.emitted.length

end CheckOptions

/-! ### The end of a check -/

section Conclude

variable {o : CheckOptions} {c : Call} {out : Outcome}

/-- What a check ends with: its code, and what stands on the standard error behind the log. -/
def concluded (o : CheckOptions) (c : Call) (out : Outcome) : Nat × Bytes :=
  let (code, _, stderr) := concludeCheck o c.colours out { limit := c.outputLimit }
  (code, stderr)

/-- The errors of an outcome, a line for each. -/
def Outcome.errorLines (out : Outcome) : List Bytes := out.errors.map fun e => programLine e.message

theorem concluded_of_losesDocument (h : o.LosesDocument c) :
    concluded o c out = (2, writeErrorLine) := by
  obtain ⟨hloud, hjson, hfull⟩ := h
  simp only [concluded, concludeCheck, hloud, hjson, hfull, ReportFormat.report]
  rfl

theorem concluded_of_losesLines (h : o.LosesLines c out) :
    concluded o c out = (2, out.errorLines.flatten ++ writeErrorLine) := by
  obtain ⟨hloud, htext, k, hk, hlong⟩ := h
  have hrefused : ¬ (ReportFormat.text.report (c.colours && !o.noColour) out.emitted
      { limit := c.outputLimit }).2 = true := by
    rw [ReportFormat.report, Sink.writeAll_fresh]
    intro hfits
    have hroom := hfits k hk
    rw [ReportFormat.pieces, List.length_map] at hroom
    omega
  unfold concluded concludeCheck
  simp only [hloud, htext, Bool.false_eq_true, if_false]
  split
  · next hreport => exact absurd (congrArg Prod.snd hreport) hrefused
  · rw [Outcome.errorLines, List.flatMap_def]

theorem concluded_of_not_loses (h : ¬ o.LosesDocument c) (h' : ¬ o.LosesLines c out) :
    concluded o c out =
      (exitCode (!out.diagnostics.isEmpty) (!out.errors.isEmpty), out.errorLines.flatten) := by
  unfold concluded concludeCheck
  rw [Outcome.errorLines, ← List.flatMap_def]
  by_cases hquiet : o.quiet = true
  · rw [if_pos hquiet]
  rw [if_neg hquiet]
  rw [Bool.not_eq_true] at hquiet
  -- A text is lost line by line, and a document as a whole.
  cases hformat : o.format with
  | text =>
    have haccepted : (ReportFormat.text.report (c.colours && !o.noColour) out.emitted
        { limit := c.outputLimit }).2 = true := by
      rw [ReportFormat.report, Sink.writeAll_fresh, ReportFormat.pieces, List.length_map]
      exact fun k hk => not_lt.mp fun hlong => h' ⟨hquiet, hformat, k, hk, hlong⟩
    dsimp only
    split
    · rfl
    · next hreport => exact absurd haccepted (by rw [hreport]; exact Bool.false_ne_true)
  | json =>
    have haccepted : (ReportFormat.json.report false out.diagnostics
        { limit := c.outputLimit }).2 = true := by
      rw [ReportFormat.report, Sink.writeAll_fresh, ReportFormat.pieces, List.length_singleton]
      intro k hk
      refine Nat.one_le_iff_ne_zero.mpr ?_
      rintro rfl
      exact h ⟨hquiet, hformat, hk⟩
    dsimp only
    split
    · rfl
    · next hreport => exact absurd haccepted (by rw [hreport]; exact Bool.false_ne_true)

end Conclude

/-! ### Messages on one line -/

theorem DecodeError.isOneLine_message (e : DecodeError) : IsOneLine e.message := by
  cases e with
  | oddLength count => exact isOneLine_append.mpr ⟨by decide, isOneLine_natBytes count⟩
  | notUtf8 => decide

theorem PathError.isOneLine_message (e : PathError) : IsOneLine e.message := by
  cases e <;> decide

/-- A file that cannot be read is told on one line, unless its path holds a line feed. -/
theorem World.isOneLine_message_of_readFile {w : World} {p : Bytes} {e : FileError}
    (h : w.readFile p = .error e) (hp : IsOneLine p) : IsOneLine e.message := by
  have hwords : IsOneLine (bytes "open") ∧ IsOneLine (bytes "read") ∧ IsOneLine (bytes " ") ∧
      IsOneLine (bytes ": ") := by decide
  unfold World.readFile at h
  split at h
  · cases h
  all_goals
    obtain rfl := Except.error.inj h
    simp only [FileError.message, isOneLine_append, hwords, hp, PathError.isOneLine_message,
      and_self]

/-- Whether an error tells a path or a reason that has a line feed of its own. -/
inductive RunError.BringsLineFeed : RunError → Prop where
  | path {path : Bytes} {cause : FileError} (h : ¬ IsOneLine path) :
    BringsLineFeed (.read (.unreadable path cause))
  | reason {reason : Bytes} (h : ¬ IsOneLine reason) : BringsLineFeed (.input reason)

namespace CheckPlan

variable {plan : CheckPlan} {w : World} {input : Input}

theorem isOneLine_or_bringsLineFeed {e : RunError} (h : .error e ∈ plan.scripts w input) :
    IsOneLine e.message ∨ e.BringsLineFeed := by
  have hwords : IsOneLine (bytes "reading stdin: ") ∧ IsOneLine (bytes "reading ") ∧
      IsOneLine (bytes ": ") := by decide
  unfold scripts at h
  -- Paths are quoted in messages, but not in the cause of an error, and a reason is told as it is.
  cases hfiles : plan.files with
  | none =>
    rw [hfiles, List.mem_singleton] at h
    unfold inputScript at h
    split at h
    · obtain rfl := Except.error.inj h
      rename_i reason
      by_cases hreason : IsOneLine reason
      · exact .inl (isOneLine_append.mpr ⟨hwords.1, hreason⟩)
      · exact .inr (.reason hreason)
    · split at h
      · obtain rfl := Except.error.inj h
        exact .inl (isOneLine_append.mpr ⟨hwords.1, DecodeError.isOneLine_message _⟩)
      · cases h
  | some files =>
    rw [hfiles] at h
    obtain ⟨path, -, hread⟩ := List.mem_map.mp h
    unfold readScript at hread
    split at hread
    · next cause hfile =>
      obtain rfl := Except.error.inj hread
      by_cases hpath : IsOneLine path
      · refine .inl ?_
        simp only [RunError.message, ReadError.message, isOneLine_append, hwords,
          Quoted.isOneLine_quote, World.isOneLine_message_of_readFile hfile hpath, and_self]
      · exact .inr (.path hpath)
    · split at hread
      · obtain rfl := Except.error.inj hread
        refine .inl ?_
        simp only [RunError.message, ReadError.message, isOneLine_append, hwords,
          Quoted.isOneLine_quote, DecodeError.isOneLine_message, and_self]
      · cases hread

end CheckPlan

/-! ### A whole check -/

/-- **What goes wrong in a check is told.** A check that has a plan comes to an end, and behind its
log the standard error has a line for each error, in order and nothing else; only a report of which
not all lines are taken is told after them. A document that is not taken is told instead of them.
Errors stay on their lines, unless a path or a reason brings a line feed. -/
theorem check_tells_errors (g : Registry) (w : World) (c : Call) {arguments : List Bytes}
    {p : Parsed} (hp : Flag.parse checkFlags arguments = .ok p) {o : CheckOptions}
    (ho : CheckOptions.ofParsed p = .ok o) {plan : CheckPlan} {log : List Bytes}
    (hplan : (prepareCheck g w o).run [] = (.ok plan, log)) :
    let out := plan.outcome w c.input
    let told := Log.write (some { enabled := o.verbose }) (log ++ out.log)
    let reply := runCheck g w c arguments
    reply.crash = none ∧ out.crash? = none ∧
      (¬ o.LosesDocument c → ¬ o.LosesLines c out →
        reply.stderr = told ++ out.errorLines.flatten ∧
        reply.code = exitCode (!out.diagnostics.isEmpty) (!out.errors.isEmpty)) ∧
      (o.LosesLines c out →
        reply.stderr = told ++ out.errorLines.flatten ++ writeErrorLine ∧ reply.code = 2) ∧
      (o.LosesDocument c → reply.stderr = told ++ writeErrorLine ∧ reply.code = 2) ∧
      ∀ e ∈ out.errors, IsOneLine e.message ∨ e.BringsLineFeed := by
  intro out told reply
  have hisPlan : o.IsPlan g w plan := isPlan_of_prepareCheck (congrArg Prod.fst hplan)
  have hnone : out.crash? = none :=
    plan.crash?_outcome w c.input hisPlan.settings hisPlan.isDistinct
  have hreply : reply.crash = out.crash? ∧ reply.stderr = told ++ (concluded o c out).2 ∧
      reply.code = (concluded o c out).1 := by
    simp only [reply, runCheck, hp, ho, hplan]
    exact ⟨rfl, rfl, rfl⟩
  obtain ⟨hcrash, hstderr, hcode⟩ := hreply
  refine ⟨hcrash.trans hnone, hnone, ?_, ?_, ?_, ?_⟩
  · intro hdocument hlines
    rw [hstderr, hcode, concluded_of_not_loses hdocument hlines]
    exact ⟨rfl, rfl⟩
  · intro hlines
    rw [hstderr, hcode, concluded_of_losesLines hlines, List.append_assoc]
    exact ⟨rfl, rfl⟩
  · intro hdocument
    rw [hstderr, hcode, concluded_of_losesDocument hdocument]
    exact ⟨rfl, rfl⟩
  · intro e he
    have hsettings := hisPlan.settings
    have hdistinct := hisPlan.isDistinct
    rw [plan.errors_outcome w c.input hsettings hdistinct] at he
    exact CheckPlan.isOneLine_or_bringsLineFeed
      (CheckPlan.mem_scripts_of_mem_failures w c.input hsettings hdistinct he)

/-- An input that is not UTF-8 is told, although the output takes nothing. -/
theorem check_tells_errors_input :
    let w : World := ⟨.dir [], []⟩
    let p : Parsed := { words := [bytes "-"] }
    let c : Call := { arguments := [], input := .data [0xFF], outputLimit := some 0 }
    ∃ plan log, (prepareCheck .standard w p.options).run [] = (.ok plan, log) ∧
      (plan.outcome w c.input).errors = [.inputEncoding .notUtf8] ∧
      (runCheck .standard w c [bytes "-"]).stderr
        = Log.write (some { enabled := false }) (log ++ (plan.outcome w c.input).log)
          ++ (plan.outcome w c.input).errorLines.flatten := by
  intro w p c
  have hp : Flag.parse checkFlags [bytes "-"] = .ok p := by decide
  have hok : ((prepareCheck .standard w p.options).run []).1.isOk = true := by
    unfold prepareCheck loadConfig Config.defaults selectRules
    rw [Registry.names_standard]
    decide +kernel
  cases hrun : (prepareCheck .standard w p.options).run [] with
  | mk prepared log =>
    rw [hrun] at hok
    cases prepared with
    | error r => exact absurd hok Bool.false_ne_true
    | ok plan =>
      have hfiles := (isPlan_of_prepareCheck (congrArg Prod.fst hrun)).input (by decide)
      have hout : plan.outcome w c.input = .failed (.inputEncoding .notUtf8) := by
        simp only [CheckPlan.outcome, hfiles]
        rfl
      obtain ⟨-, -, htold, -⟩ := check_tells_errors .standard w c hp rfl hrun
      refine ⟨plan, log, rfl, by rw [hout]; rfl, ?_⟩
      refine (htold (fun h => absurd h.2.1 (by decide)) ?_).1
      rw [hout]
      rintro ⟨-, -, k, -, hlong⟩
      exact absurd hlong (Nat.not_lt_zero k)

/-- An input that is not UTF-8 is told if the document is taken, and otherwise it is not. -/
theorem check_loses_error :
    let w : World := ⟨.dir [], []⟩
    let arguments := [bytes "-f", bytes "json", bytes "-"]
    let p : Parsed := { values := [(bytes "format", bytes "json")], words := [bytes "-"] }
    let taken : Call := { arguments := [], input := .data [0xFF] }
    let refused : Call := { arguments := [], input := .data [0xFF], outputLimit := some 0 }
    let line := programLine (bytes "reading stdin: file is not valid UTF-8")
    Flag.parse checkFlags arguments = .ok p ∧
      ((prepareCheck .standard w p.options).run []).1.toOption.map
        (fun plan => (plan.outcome w refused.input).errorLines) = some [line] ∧
      (runCheck .standard w taken arguments).stderr = line ∧
      (runCheck .standard w refused arguments).stderr = writeErrorLine := by
  unfold runCheck prepareCheck loadConfig Config.defaults selectRules
  rw [Registry.names_standard]
  decide +kernel

end ScriptLint
