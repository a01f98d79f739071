import ScriptLint.Proofs.Text.Bytes
import ScriptLint.Proofs.Text.Class
import ScriptLint.Rule.Selection

/-!
# Rule lists, by lines

The lines of a rule list are what stands between its line feeds (`listLines`), and a list is read as
a line, a line feed and a shorter list (`Selection.inductionOnLines`). A reader that holds a bounded
number of bytes takes off just these lines, as long as none of them fills what it holds
(`nextLine_append`, `nextLine_of_not_mem_take`); the carriage return that it drops would have been
trimmed away (`nameOn_dropReturn`). So a list is refused for one line that is too long, wherever it
stands, and otherwise its names are those on its lines (`namesFrom_eq`).
-/

namespace ScriptLint.Selection

/-! ### The lines of a list -/

/-- The lines of a rule list. What follows the last line feed is a line unless it is empty. -/
def listLines (data : Bytes) : List Bytes :=
  let parts := splitBytes 0x0A data
  if parts.getLast? = some [] then parts.dropLast else parts

/-- **Induction over the lines of a list**: a list without a line feed, or a line, a line feed and a
list. -/
theorem inductionOnLines {motive : Bytes → Prop} (data : Bytes)
    (last : ∀ line, 0x0A ∉ line → motive line)
    (line : ∀ line rest, 0x0A ∉ line → motive rest → motive (line ++ 0x0A :: rest)) :
    motive data := by
  by_cases hmem : (0x0A : UInt8) ∈ data
  · obtain ⟨first, rest, hdata, hfirst⟩ := List.eq_append_cons_of_mem hmem
    have hshorter : rest.length < data.length := by
      rw [hdata, List.length_append, List.length_cons]
      omega
    rw [hdata]
    exact line first rest hfirst (inductionOnLines rest last line)
  · exact last data hmem
termination_by data.length

theorem splitBytes_of_not_mem {line : Bytes} (h : 0x0A ∉ line) : splitBytes 0x0A line = [line] :=
  splitBytes_joinBytes (List.cons_ne_nil line []) (List.forall_mem_singleton.mpr h)

theorem listLines_of_not_mem {line : Bytes} (h : 0x0A ∉ line) :
    listLines line = if line = [] then [] else [line] := by
  rw [listLines, splitBytes_of_not_mem h]
  simp

theorem listLines_append {line : Bytes} (h : 0x0A ∉ line) (rest : Bytes) :
    listLines (line ++ 0x0A :: rest) = line :: listLines rest := by
  obtain ⟨part, parts, hparts⟩ := List.exists_cons_of_ne_nil (splitBytes_ne_nil 0x0A rest)
  rw [listLines, listLines, splitBytes_append_cons, splitBytes_of_not_mem h, hparts,
    List.singleton_append, List.getLast?_cons_cons]
  split_ifs
  · rfl
  · rfl

/-! ### Taking lines off -/

section

variable {stop : UInt8} {line : Bytes} (h : stop ∉ line)

include h

theorem takeWhile_of_not_mem : line.takeWhile (· != stop) = line :=
  List.takeWhile_eq_self_iff.mpr fun _ hb => bne_iff_ne.mpr fun heq => h (heq ▸ hb)

theorem takeWhile_append_of_not_mem (rest : Bytes) :
    (line ++ stop :: rest).takeWhile (· != stop) = line := by
  rw [List.takeWhile_append_of_pos (List.takeWhile_eq_self_iff.mp (takeWhile_of_not_mem h)),
    List.takeWhile_cons_of_neg (by simp), List.append_nil]

end

/-- When no line feed is held, either the line is too long or it is the last one. -/
theorem nextLine_of_not_mem_take {data : Bytes} (h : 0x0A ∉ data.take lineLimit) :
    nextLine data =
      if lineLimit ≤ data.length then .error .lineTooLong
      else if data = [] then .ok none
      else .ok (some (dropReturn data, [])) := by
  have hfull : (data.take lineLimit).length = lineLimit ↔ lineLimit ≤ data.length := by
    rw [List.length_take]
    omega
  simp only [nextLine, takeWhile_of_not_mem h, lt_irrefl, if_false, hfull]

/-- A line that is held with its line feed is taken off, and a longer one is too long. -/
theorem nextLine_append {line : Bytes} (h : 0x0A ∉ line) (rest : Bytes) :
    nextLine (line ++ 0x0A :: rest) =
      if line.length < lineLimit then .ok (some (dropReturn line, rest))
      else .error .lineTooLong := by
  split_ifs with hshort
  · -- The line feed is still held, as the last byte at the latest.
    obtain ⟨n, hn⟩ : ∃ n, lineLimit = line.length + (n + 1) :=
      ⟨lineLimit - line.length - 1, by omega⟩
    have hheld : (line ++ 0x0A :: rest).take lineLimit = line ++ 0x0A :: rest.take n := by
      rw [hn, List.take_length_add_append, List.take_succ_cons]
    have hdrop : (line ++ 0x0A :: rest).drop (line.length + 1) = rest := by
      rw [List.drop_length_add_append, List.drop_succ_cons, List.drop_zero]
    simp only [nextLine, hheld, takeWhile_append_of_not_mem h, hdrop]
    rw [if_pos (by simp)]
  · have hlong : lineLimit ≤ line.length := Nat.le_of_not_lt hshort
    -- What is held is all from the line, so the case without a line feed decides.
    have hheld : (line ++ 0x0A :: rest).take lineLimit = line.take lineLimit :=
      List.take_append_of_le_length hlong
    rw [nextLine_of_not_mem_take, if_pos]
    · rw [List.length_append]
      omega
    · rw [hheld]
      exact fun hmem => h (List.mem_of_mem_take hmem)

/-- **A carriage return at the end of a line does not show in its name.** -/
theorem nameOn_dropReturn (line : Bytes) : nameOn (dropReturn line) = nameOn line := by
  rw [dropReturn]
  split_ifs with hreturn
  · obtain ⟨before, rfl⟩ := List.getLast?_eq_some_iff.mp hreturn
    rw [List.dropLast_concat, nameOn, nameOn, List.takeWhile_append]
    split_ifs with hall
    · have hkept : before.takeWhile (· != 0x23) = before :=
        (List.takeWhile_prefix _).eq_of_length hall
      have hend : Utf8.encodeChar '\r' = [0x0D] := by decide
      rw [hkept, List.takeWhile_cons_of_pos (by decide), List.takeWhile_nil,
        trimBytes_append_singleton (by decide) hend (by decide)]
    · rfl
  · rfl

/-! ### All lines -/

/-- The names on some lines, one on each that has one. -/
def namesOn (lines : List Bytes) : List Bytes := (lines.map nameOn).filter (· ≠ [])

theorem namesOn_cons (line : Bytes) (lines : List Bytes) :
    namesOn (line :: lines) = namesOn [line] ++ namesOn lines := by
  rw [← List.singleton_append, namesOn, List.map_append, List.filter_append]
  rfl

theorem namesOn_singleton (line : Bytes) :
    namesOn [line] = if nameOn line = [] then [] else [nameOn line] := by
  by_cases h : nameOn line = []
  · simp [namesOn, h]
  · simp [namesOn, h]

theorem namesOn_dropReturn (line : Bytes) : namesOn [dropReturn line] = namesOn [line] := by
  rw [namesOn_singleton, namesOn_singleton, nameOn_dropReturn]

/-- One line at a time. -/
theorem namesFrom_eq_match (found : List Bytes) (data : Bytes) :
    namesFrom found data =
      match nextLine data with
      | .error e => .error e
      | .ok none => .ok found
      | .ok (some (line, rest)) => namesFrom (found ++ namesOn [line]) rest := by
  have hname (line : Bytes) : (if nameOn line = [] then found else found ++ [nameOn line])
      = found ++ namesOn [line] := by
    rw [namesOn_singleton]
    split_ifs
    · exact (List.append_nil found).symm
    · rfl
  rw [namesFrom]
  split
  · next h => rw [h]
  · next h => rw [h]
  · next line rest h =>
    dsimp only
    rw [hname, h]

/-- One line that is too long loses all names, and otherwise the names on the lines follow those
that were found before. The induction is over the lines of the list. -/
theorem namesFrom_eq (found : List Bytes) (data : Bytes) :
    namesFrom found data =
      if ∃ line ∈ listLines data, lineLimit ≤ line.length then .error .lineTooLong
      else .ok (found ++ namesOn (listLines data)) := by
  induction data using inductionOnLines generalizing found with
  | last line h =>
    have hheld : 0x0A ∉ line.take lineLimit := fun hmem => h (List.mem_of_mem_take hmem)
    rw [namesFrom_eq_match, nextLine_of_not_mem_take hheld, listLines_of_not_mem h]
    by_cases hnil : line = []
    · subst hnil
      simp [lineLimit, namesOn]
    · simp only [if_neg hnil, List.mem_singleton, exists_eq_left]
      split_ifs with hlong
      · rfl
      · -- Nothing is left after the last line, so the reader stops at its next step.
        have hnothing : nextLine [] = .ok none := rfl
        simp only [namesFrom_eq_match _ [], hnothing, namesOn_dropReturn]
  | line line rest h ih =>
    rw [namesFrom_eq_match, nextLine_append h, listLines_append h]
    simp only [List.mem_cons, exists_eq_or_imp]
    by_cases hshort : line.length < lineLimit
    · rw [if_pos hshort]
      dsimp only
      rw [ih, namesOn_dropReturn, List.append_assoc, ← namesOn_cons]
      simp only [Nat.not_le_of_lt hshort, false_or]
    · rw [if_neg hshort, if_pos (.inl (Nat.le_of_not_lt hshort))]

theorem parseList_eq_ok {data : Bytes} (hshort : ∀ line ∈ listLines data, line.length < lineLimit) :
    parseList data = .ok (namesOn (listLines data)) := by
  rw [parseList, namesFrom_eq, if_neg, List.nil_append]
  rintro ⟨line, hline, hlong⟩
  exact absurd (hshort line hline) (Nat.not_lt_of_le hlong)

/-- Names without line feeds are the lines of what joins them. -/
theorem listLines_joinBytes {names : List Bytes} (h : ∀ n ∈ names, n ≠ [] ∧ 0x0A ∉ n) :
    listLines (joinBytes [0x0A] names) = names := by
  by_cases hnil : names = []
  · subst hnil
    rfl
  · have hlast : names.getLast? ≠ some [] := fun hlast => (h [] (List.mem_of_getLast? hlast)).1 rfl
    rw [listLines, splitBytes_joinBytes hnil fun n hn => (h n hn).2]
    exact if_neg hlast

/-- **A rule list is read by its lines.** The lines are the parts between line feeds, of which the
last one does not count when it is empty. If one of them has as many bytes as are held, the list is
refused; otherwise it gives, in order, what stands on each line before the first number sign,
without white space around it, unless that is empty. So names that are not empty, trimmed, short
enough and without number signs and line feeds are read back from what joins them by line feeds. -/
theorem parseList_reads_lines (data : Bytes) :
    ((∃ line ∈ listLines data, 65536 ≤ line.length) → parseList data = .error .lineTooLong) ∧
    ((∀ line ∈ listLines data, line.length < 65536) →
      parseList data = .ok (((listLines data).map fun line =>
        trimBytes (line.takeWhile (· != 0x23))).filter (· ≠ []))) ∧
    ∀ names : List Bytes,
      (∀ n ∈ names, n ≠ [] ∧ trimBytes n = n ∧ n.length < 65536 ∧ 0x23 ∉ n ∧ 0x0A ∉ n) →
      parseList (joinBytes [0x0A] names) = .ok names := by
  refine ⟨fun hlong => ?_, parseList_eq_ok, fun names hnames => ?_⟩
  · rw [parseList, namesFrom_eq]
    exact if_pos hlong
  · have hlines : listLines (joinBytes [0x0A] names) = names :=
      listLines_joinBytes fun n hn => ⟨(hnames n hn).1, (hnames n hn).2.2.2.2⟩
    have hname : ∀ n ∈ names, nameOn n = n := by
      intro n hn
      obtain ⟨-, htrim, -, hsign, -⟩ := hnames n hn
      rw [nameOn, takeWhile_of_not_mem hsign, htrim]
    have hall : namesOn names = names := by
      rw [namesOn, List.map_congr_left hname, List.map_id', List.filter_eq_self]
      exact fun n hn => decide_eq_true (hnames n hn).1
    have hshort : ∀ line ∈ listLines (joinBytes [0x0A] names), line.length < lineLimit := by
      rw [hlines]
      exact fun n hn => (hnames n hn).2.2.1
    rw [parseList_eq_ok hshort, hlines, hall]

/-- Two names between a carriage return, comments and white space, the same two joined, and a
comment that is too long behind a name. -/
theorem parseList_reads_lines_comments :
    let listed := bytes "b \r\n\n  # c\n\ta#b\u00A0"
    let long := bytes "b" ++ 0x0A :: List.replicate 65536 0x23
    let names := [bytes "b", bytes "a"]
    (∀ line ∈ listLines listed, line.length < 65536) ∧ parseList listed = .ok names ∧
      (∃ line ∈ listLines long, 65536 ≤ line.length) ∧ parseList long = .error .lineTooLong ∧
      (∀ n ∈ names, n ≠ [] ∧ trimBytes n = n ∧ n.length < 65536 ∧ 0x23 ∉ n ∧ 0x0A ∉ n) ∧
      parseList (joinBytes [0x0A] names) = .ok names := by
  intro listed long names
  have hshort : ∀ line ∈ listLines listed, line.length < 65536 := by decide
  have hcomment (n : ℕ) : ∃ line ∈ listLines (bytes "b" ++ 0x0A :: List.replicate (n + 1) 0x23),
      n + 1 ≤ line.length := by
    have hname : 0x0A ∉ bytes "b" := by decide
    have hsigns : 0x0A ∉ List.replicate (n + 1) (0x23 : UInt8) := fun h =>
      absurd (List.mem_replicate.mp h).2 (by decide)
    refine ⟨List.replicate (n + 1) 0x23, ?_, (List.length_replicate ..).ge⟩
    rw [listLines_append hname, listLines_of_not_mem hsigns, if_neg (by simp)]
    exact List.mem_cons_of_mem _ List.mem_cons_self
  have hlong : ∃ line ∈ listLines long, 65536 ≤ line.length := hcomment 65535
  have hnames : ∀ n ∈ names,
      n ≠ [] ∧ trimBytes n = n ∧ n.length < 65536 ∧ 0x23 ∉ n ∧ 0x0A ∉ n := by decide
  have hread : ((listLines listed).map fun line =>
      trimBytes (line.takeWhile (· != 0x23))).filter (· ≠ []) = names := by decide
  refine ⟨hshort, ?_, hlong, (parseList_reads_lines long).1 hlong, hnames,
    (parseList_reads_lines listed).2.2 names hnames⟩
  rw [← hread]
  exact (parseList_reads_lines listed).2.1 hshort

end ScriptLint.Selection
