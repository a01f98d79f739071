import ScriptLint.Command.Basic
import ScriptLint.Proofs.Rule.Registry
import ScriptLint.Proofs.Rule.RuleList

/-!
# The order of selected rules

Rules are selected by name: those of a file first, then those of the arguments, each at its first
place. What is selected are rules of the registry under just these names (`selectRules_eq_ok`), so
no rule is selected twice (`nodup_of_selectRules`). A selection succeeds exactly if every name is
registered, and otherwise the first name that is not is the one it is refused for
(`selectRules_by_name`).
-/

namespace ScriptLint

namespace Selection

/-- Keeping the first occurrences only, no name is kept twice. -/
theorem nodup_foldl_dedup {kept : List Bytes} (hkept : kept.Nodup) (names : List Bytes) :
    (names.foldl (fun kept n => if kept.contains n then kept else kept ++ [n]) kept).Nodup := by
  induction names generalizing kept with
  | nil => exact hkept
  | cons n names ih =>
    rw [List.foldl_cons]
    apply ih
    split_ifs with hn
    · exact hkept
    · rw [List.contains_iff_mem] at hn
      rw [← List.concat_eq_append]
      exact hkept.concat hn

theorem nodup_resolve (fromFile fromArguments all : List Bytes) :
    (resolve fromFile fromArguments all).Nodup :=
  nodup_foldl_dedup List.nodup_nil _

/-- What is kept already is passed over, and of the rest the first occurrences follow. -/
theorem foldl_dedup_eq (kept names : List Bytes) :
    names.foldl (fun kept n => if kept.contains n then kept else kept ++ [n]) kept
      = kept ++ (names.removeAll kept).eraseDups := by
  induction names generalizing kept with
  | nil => simp [List.removeAll]
  | cons n names ih =>
    rw [List.foldl_cons]
    by_cases hn : kept.contains n = true
    · rw [if_pos hn, ih]
      have hskip : (n :: names).removeAll kept = names.removeAll kept := by
        rw [List.removeAll, List.filter_cons, if_neg (by simpa using hn), List.removeAll]
      rw [hskip]
    · rw [if_neg hn, ih]
      have hkeep : (n :: names).removeAll kept = n :: names.removeAll kept := by
        rw [List.removeAll, List.filter_cons, if_pos (by simpa using hn), List.removeAll]
      have hrest : names.removeAll (kept ++ [n]) = (names.removeAll kept).filter (!· == n) := by
        simp only [List.removeAll, List.filter_filter]
        refine List.filter_congr fun m _ => ?_
        by_cases hm : m = n
        · simp [hm]
        · simp [hm]
      rw [hkeep, List.eraseDups_cons, hrest, List.append_assoc, List.singleton_append]

theorem dedup_eq_eraseDups (names : List Bytes) : dedup names = names.eraseDups := by
  rw [dedup, foldl_dedup_eq, List.nil_append, List.removeAll]
  simp

/-- The first name of a kind is found among the first occurrences. -/
theorem find?_eraseDups (p : Bytes → Bool) : ∀ names : List Bytes,
    names.eraseDups.find? p = names.find? p
  | [] => rfl
  | n :: names => by
    rw [List.eraseDups_cons, List.find?_cons, List.find?_cons]
    cases hn : p n with
    | true => rfl
    | false =>
      have hrest := find?_eraseDups p (names.filter (!· == n))
      rw [hrest, List.find?_filter]
      -- A name that is left out here is `n` again, which is not of the kind.
      refine congrArg (names.find? ·) (funext fun m => ?_)
      by_cases hm : m = n
      · simp [hm, hn]
      · simp [hm]
  termination_by names => names.length
  decreasing_by exact Nat.lt_succ_of_le (List.length_filter_le ..)

/-- The names that a rule file lists: one on each of its lines that has one, and none without a
file. No line is too long. -/
inductive Lists (w : World) : (path : Bytes) → (names : List Bytes) → Prop where
  | nothing : Lists w [] []
  | file {path data : Bytes} (hpath : path ≠ []) (hdata : w.readFile path = .ok data)
    (hshort : ∀ line ∈ listLines data, line.length < lineLimit) :
    Lists w path (((listLines data).map nameOn).filter (· ≠ []))

theorem Lists.readList_eq_ok {w : World} {path : Bytes} {names : List Bytes}
    (h : Lists w path names) (hpath : path ≠ []) : readList w path = .ok names := by
  cases h with
  | nothing => exact absurd rfl hpath
  | @file _ data _ hdata hshort =>
    simp only [readList, hdata, parseList_eq_ok hshort]
    rfl

end Selection

namespace Registry

/-- The rules of the linter are registered in the order of their names. -/
theorem names_standard : standard.names = standard.rules.map (·.name) :=
  List.mergeSort_of_pairwise (by decide)

end Registry

section Select

variable {g : Registry} {w : World} {file : Bytes} {arguments : List Bytes} {rules : List Rule}

/-- **The selected rules are those of the names asked for**, or else all of them, in this order. -/
theorem selectRules_eq_ok (h : selectRules g w file arguments = .ok rules) :
    (∃ fromFile, rules.map (·.name)
      = Selection.resolve fromFile (Selection.splitArguments arguments) g.names) ∧
    ∀ rule ∈ rules, rule ∈ g.rules := by
  unfold selectRules at h
  -- Whether or not there is a file, its names are followed by those of the arguments.
  have hload : ∃ fromFile,
      g.load (Selection.resolve fromFile (Selection.splitArguments arguments) g.names)
        = .ok rules := by
    split_ifs at h
    all_goals
      obtain ⟨fromFile, -, h⟩ := bind_eq_ok_iff.mp h
      refine ⟨fromFile, ?_⟩
      beta_reduce at h
      split at h
      · next loaded hload =>
        obtain rfl := Except.ok.inj h
        exact hload
      · exact absurd h (by simp)
  obtain ⟨fromFile, hload⟩ := hload
  obtain ⟨hnames, hfound⟩ := Registry.of_load_eq_ok hload
  exact ⟨⟨fromFile, hnames⟩, fun rule hrule => (Registry.of_find?_eq_some (hfound rule hrule)).1⟩

/-- The names of a file are loaded with those of the arguments. -/
theorem selectRules_eq_load {fromFile : List Bytes} (hfile : Selection.Lists w file fromFile) :
    selectRules g w file arguments =
      (g.load (Selection.resolve fromFile (Selection.splitArguments arguments) g.names)).mapError
        .unknownRule := by
  unfold selectRules
  by_cases hpath : file = []
  · subst hpath
    cases hfile with
    | nothing =>
      simp only [if_true, pure_bind]
      cases g.load (Selection.resolve [] (Selection.splitArguments arguments) g.names) with
      | ok rules => rfl
      | error e => rfl
    | file hpath => exact absurd rfl hpath
  · rw [if_neg hpath, hfile.readList_eq_ok hpath]
    simp only [Except.mapError, bind, Except.bind]
    cases g.load (Selection.resolve fromFile (Selection.splitArguments arguments) g.names) with
    | ok rules => rfl
    | error e => rfl

/-- What a selection comes down to: the names of the file and then those of the arguments are
loaded, each once, or all names when there are none. -/
theorem selectRules_eq {fromFile : List Bytes} (hfile : Selection.Lists w file fromFile) :
    selectRules g w file arguments =
      let asked := fromFile ++ Selection.splitArguments arguments
      let names := if asked = [] then g.names else asked
      (g.load names.eraseDups).mapError .unknownRule := by
  have hopen : Selection.isOpen fromFile (Selection.splitArguments arguments) = true ↔
      fromFile ++ Selection.splitArguments arguments = [] := by
    rw [Selection.isOpen, Bool.and_eq_true, List.isEmpty_iff, List.isEmpty_iff,
      List.append_eq_nil_iff]
  rw [selectRules_eq_load hfile]
  simp only [Selection.resolve, hopen, Selection.dedup_eq_eraseDups]

theorem nodup_of_selectRules (h : selectRules g w file arguments = .ok rules) :
    (rules.map (·.name)).Nodup := by
  obtain ⟨⟨fromFile, hnames⟩, -⟩ := selectRules_eq_ok h
  rw [hnames]
  exact Selection.nodup_resolve _ _ _

/-- **Rules are selected by name, all or none.** The names asked for are those of the rule file and
then those between the commas of the arguments, and all registered names in byte order when there
are none. The selection succeeds exactly if each of them is registered. Then the rules are those
registered under the names, each at the first place where it is named; and otherwise the first name
that is not registered is what the selection is refused for. -/
theorem selectRules_by_name (g : Registry) {w : World} {file : Bytes} {fromFile : List Bytes}
    (hfile : Selection.Lists w file fromFile) (arguments : List Bytes) :
    let asked := fromFile
      ++ (arguments.flatMap fun v => (splitBytes 0x2C v).map trimBytes).filter (· ≠ [])
    let names := if asked = [] then g.names else asked
    (g.names.Perm (g.rules.map (·.name)) ∧ g.names.Pairwise fun a b => bytesLt b a = false) ∧
    ((∃ rules, selectRules g w file arguments = .ok rules) ↔
      ∀ name ∈ names, (g.find? name).isSome = true) ∧
    (∀ rules, selectRules g w file arguments = .ok rules →
      rules.map (·.name) = names.eraseDups ∧
        ∀ rule ∈ rules, g.find? rule.name = some rule) ∧
    ∀ e, selectRules g w file arguments = .error e →
      ∃ name, names.find? (fun name => (g.find? name).isNone) = some name ∧
        e = .unknownRule ⟨name⟩ := by
  intro asked names
  have hselect : selectRules g w file arguments
      = (g.load names.eraseDups).mapError .unknownRule := selectRules_eq hfile
  simp only [hselect, mapError_eq_ok_iff, mapError_eq_error_iff]
  refine ⟨g.names_perm_and_sorted, ?_, fun rules h => Registry.of_load_eq_ok h, ?_⟩
  · rw [Registry.exists_load_eq_ok_iff]
    simp only [List.mem_eraseDups]
  · rintro e ⟨unknown, hload, rfl⟩
    rw [Registry.load_eq_error_iff, Selection.find?_eraseDups] at hload
    exact ⟨unknown.name, hload, rfl⟩

/-- A file that names two rules on three lines, before arguments that name the second one again, a
rule that does not exist, and another one. -/
theorem selectRules_by_name_unknown :
    let listed := bytes "unused_functions\n# none\ntrailing_newline # last\n"
    let w : World := ⟨.dir [(bytes "rules", .file listed)], []⟩
    let arguments := [bytes "trailing_newline, ,tabs", bytes "semicolons"]
    Selection.Lists w (bytes "rules") [bytes "unused_functions", bytes "trailing_newline"] ∧
      selectRules .standard w (bytes "rules") arguments
        = .error (.unknownRule ⟨bytes "tabs"⟩) := by
  intro listed w arguments
  have hnames : ((Selection.listLines listed).map Selection.nameOn).filter (· ≠ [])
      = [bytes "unused_functions", bytes "trailing_newline"] := by decide
  have hfile : Selection.Lists w (bytes "rules")
      [bytes "unused_functions", bytes "trailing_newline"] := by
    rw [← hnames]
    exact .file (by decide) (by decide) (by decide)
  obtain ⟨-, hok, -, herror⟩ := selectRules_by_name .standard hfile arguments
  refine ⟨hfile, ?_⟩
  obtain ⟨e, he⟩ | hselected :=
    exists_error_or_ok (selectRules .standard w (bytes "rules") arguments)
  · obtain ⟨name, hfirst, rfl⟩ := herror e he
    obtain rfl : bytes "tabs" = name := Option.some.inj (Eq.trans (by decide) hfirst)
    exact he
  · exact absurd (hok.mp hselected (bytes "tabs")) (by decide)

end Select

end ScriptLint
