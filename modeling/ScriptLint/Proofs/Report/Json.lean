import ScriptLint.Proofs.Report.JsonReader
import ScriptLint.Report
import Mathlib.Data.List.Forall2

/-!
# JSON reports are read back

A JSON report is one document that holds an array with an object for each finding
(`Json.parse?_documentText`). Every byte string is written so that it is read as its text
(`Json.body?_flatMap_pieceText`), stray bytes as replacement characters; so where all strings are
UTF-8 the objects tell the findings exactly, and no two lists of findings have the same report
(`json_report_tells_findings`).
-/

namespace ScriptLint

namespace Json

/-! ### The text of a document -/

/-- A piece of a byte string inside of a JSON string. -/
def pieceText : Utf8.Piece → Text
  | .char c => escapeChar c
  | .stray _ => "\\ufffd".toList

/-- The character that a piece is read as. -/
def pieceChar : Utf8.Piece → Char
  | .char c => c
  | .stray _ => '\uFFFD'

/-- The text of a JSON string. -/
def stringText (s : Bytes) : Text := '"' :: ((Utf8.pieces s).flatMap pieceText ++ ['"'])

/-- A member of a finding's object: its name, the text of its value, and its value. -/
structure Member where
  name : String
  text : Text
  value : Value

/-- The member that holds a byte string. -/
def Member.ofBytes (name : String) (s : Bytes) : Member :=
  ⟨name, stringText s, .string (Utf8.lossy s)⟩

/-- The members of a finding's object. A line of zero is left out. -/
def members (d : Diagnostic) : List Member :=
  [.ofBytes "file" d.file]
    ++ (if d.line = 0 then [] else [⟨"line", intText d.line, .number d.line 0⟩])
    ++ [.ofBytes "rule" d.rule, .ofBytes "message" d.message]

/-- A member on a line of its own. -/
def Member.line (m : Member) : Text :=
  "    ".toList ++ (stringText (bytes m.name) ++ (": ".toList ++ m.text))

/-- The text of a finding's object. -/
def objectText (d : Diagnostic) : Text :=
  "  \x7b\n".toList ++ (lines ((members d).map Member.line) ++ "\n  \x7d".toList)

/-- The value of a finding's object. -/
def object (d : Diagnostic) : Value := .object ((members d).map fun m => (m.name.toList, m.value))

/-- The text of a document. -/
def documentText : List Diagnostic → Text
  | [] => "[]".toList
  | d :: ds => "[\n".toList ++ (lines ((d :: ds).map objectText) ++ "\n]".toList)

theorem encode_stringText (s : Bytes) : Utf8.encode (stringText s) = string s := by
  rw [string, stringText]
  congr 3

/-- The names of members stand for themselves between quotation marks. -/
theorem string_name : ∀ name ∈ ["file", "line", "rule", "message"],
    string (bytes name) = bytes "\"" ++ bytes name ++ bytes "\"" := by
  decide

theorem encode_line {m : Member} (h : m.name ∈ ["file", "line", "rule", "message"]) :
    Utf8.encode m.line = bytes "    \"" ++ bytes m.name ++ bytes "\": " ++ Utf8.encode m.text := by
  simp only [Member.line, Utf8.encode_append, encode_stringText, string_name m.name h,
    List.append_assoc]
  rfl

theorem encode_objectText (d : Diagnostic) : Utf8.encode (objectText d) = ofDiagnostic d := by
  have hnames : ∀ m ∈ members d, m.name ∈ ["file", "line", "rule", "message"] := by
    unfold members
    split_ifs <;> simp [Member.ofBytes]
  have hmembers : (members d).map (fun m => Utf8.encode m.line)
      = (members d).map fun m =>
          bytes "    \"" ++ bytes m.name ++ bytes "\": " ++ Utf8.encode m.text :=
    List.map_congr_left fun m hm => encode_line (hnames m hm)
  rw [objectText, Utf8.encode_append, Utf8.encode_append, lines, Utf8.encode_intercalate,
    List.map_map, Function.comp_def, hmembers, ← List.append_assoc]
  simp only [members, Member.ofBytes, List.map_append, List.map_cons, List.map_nil,
    encode_stringText, apply_ite (List.map _), encode_intText]
  rfl

/-- A report is a document and a line break. -/
theorem ofDiagnostics_eq (ds : List Diagnostic) :
    ofDiagnostics ds = Utf8.encode (documentText ds) ++ bytes "\n" := by
  cases ds with
  | nil => rfl
  | cons d ds =>
    have hobjects : ((d :: ds).map objectText).map Utf8.encode = (d :: ds).map ofDiagnostic := by
      rw [List.map_map]
      exact List.map_congr_left fun d _ => encode_objectText d
    rw [documentText, Utf8.encode_append, Utf8.encode_append, lines, Utf8.encode_intercalate,
      hobjects, List.append_assoc, List.append_assoc, ofDiagnostics, List.append_assoc]
    · rfl
    · exact List.cons_ne_nil d ds

/-! ### Reading strings -/

/-- A character is read back from what it is written as, whether it is escaped or not. -/
theorem char?_escapeChar (c : Char) (r : Text) : char? (escapeChar c ++ r) = some (c, r) := by
  unfold escapeChar
  split
  case h_8 =>
    split_ifs with h
    · -- The characters that are written as units are no surrogates.
      have hbound : c.toNat < 0x202A := by
        simp only [Bool.or_eq_true, decide_eq_true_eq, beq_iff_eq] at h
        rcases h with ((((h | rfl) | rfl) | rfl) | rfl) | rfl
        · omega
        all_goals decide
      have hhigh : Utf16.isHigh c.toNat = false := by
        rw [Utf16.isHigh, decide_eq_false (by omega), Bool.false_and]
      have hlow : Utf16.isLow c.toNat = false := by
        rw [Utf16.isLow, decide_eq_false (by omega), Bool.false_and]
      rw [List.cons_append, List.cons_append, char?, escape?, unit?_hex (by omega)]
      simp [hhigh, hlow]
    · next hquote hslash _ _ _ _ _ =>
      have hplain : ¬ (c.toNat < 0x20 ∨ c = '"') := by
        rintro (hlt | rfl)
        · exact h (by simp [hlt])
        · exact hquote rfl
      rw [List.singleton_append, char?.eq_3 _ _ hslash, if_neg hplain]
  all_goals rfl

theorem char?_pieceText (p : Utf8.Piece) (r : Text) :
    char? (pieceText p ++ r) = some (pieceChar p, r) := by
  cases p with
  | char c => exact char?_escapeChar c r
  | stray b => rfl

/-- **A byte string is read as its text.** -/
theorem body?_flatMap_pieceText (s : Bytes) (r : Text) :
    body? ((Utf8.pieces s).flatMap pieceText ++ '"' :: r) = some (Utf8.lossy s, r) := by
  rw [body?_eq_some char?_pieceText, Utf8.lossy]
  congr 2

/-! ### Reading values -/

theorem stringText_append (s : Bytes) (r : Text) :
    stringText s ++ r = '"' :: ((Utf8.pieces s).flatMap pieceText ++ '"' :: r) := by
  rw [stringText, List.cons_append, List.append_assoc, List.singleton_append]

theorem value?_stringText (depth : Nat) (s : Bytes) (r : Text) :
    value? (depth + 1) (stringText s ++ r) = some (.string (Utf8.lossy s), r) := by
  rw [stringText_append, value?, body?_flatMap_pieceText]
  rfl

/-- An integer starts with a sign or a digit. -/
theorem exists_intText_append (n : Int) (r : Text) :
    ∃ c t, intText n ++ r = c :: t ∧ (c = '-' ∨ c.isDigit = true) := by
  cases n with
  | ofNat n =>
    obtain ⟨c, t, ht⟩ := List.exists_cons_of_ne_nil (Nat.toDigits_ne_nil (n := n) (b := 10))
    exact ⟨c, t ++ r, by rw [intText, ht]; rfl,
      .inr (isDigit_of_mem_toDigits (ht ▸ List.mem_cons_self))⟩
  | negSucc n => exact ⟨'-', _, rfl, .inl rfl⟩

theorem value?_intText (depth : Nat) (n : Int) {r : Text} (hr : EndsNumber r) :
    value? (depth + 1) (intText n ++ r) = some (.number n 0, r) := by
  have hread := number?_intText n hr
  obtain ⟨c, t, ht, hc⟩ := exists_intText_append n r
  have hother : c ≠ '"' ∧ c ≠ '[' ∧ c ≠ '\x7b' ∧ c ≠ 'n' ∧ c ≠ 't' ∧ c ≠ 'f' := by
    refine ⟨?_, ?_, ?_, ?_, ?_, ?_⟩
    all_goals rintro rfl; exact absurd hc (by decide)
  obtain ⟨h₁, h₂, h₃, h₄, h₅, h₆⟩ := hother
  rw [ht] at hread ⊢
  simp only [value?]
  split <;> simp_all

theorem skip_intText (n : Int) (r : Text) : skip (intText n ++ r) = intText n ++ r := by
  obtain ⟨c, t, ht, hc⟩ := exists_intText_append n r
  rw [ht]
  refine skip_cons (Bool.eq_false_iff.mpr fun hspace => ?_) t
  simp only [isSpace, Bool.or_eq_true, beq_iff_eq] at hspace
  rcases hspace with ((rfl | rfl) | rfl) | rfl
  all_goals exact absurd hc (by decide)

/-- The value of a member is read up to the comma or the line break behind it. -/
theorem value?_memberText {d : Diagnostic} {m : Member} (hm : m ∈ members d) (depth : Nat)
    {r : Text} (hr : ∃ s, r = ',' :: s ∨ r = '\n' :: s) :
    skip (m.text ++ r) = m.text ++ r ∧
      value? (depth + 1) (m.text ++ r) = some (m.value, r) := by
  have hends : EndsNumber r := by
    obtain ⟨s, rfl | rfl⟩ := hr
    all_goals rintro c ⟨⟩; decide
  have hbytes (name : String) (s : Bytes) (hm : m = .ofBytes name s) :
      skip (m.text ++ r) = m.text ++ r ∧
        value? (depth + 1) (m.text ++ r) = some (m.value, r) := by
    subst hm
    exact ⟨skip_cons (by decide) _, value?_stringText depth s r⟩
  simp only [members, List.mem_append, List.mem_cons, List.not_mem_nil, or_false] at hm
  -- The line is a number, and left out if it is zero; all other members are strings.
  rcases hm with (hm | hm) | hm | hm
  · exact hbytes _ _ hm
  · split_ifs at hm with hline
    · exact absurd hm List.not_mem_nil
    · rw [List.mem_singleton] at hm
      subst hm
      exact ⟨skip_intText d.line r, value?_intText depth d.line hends⟩
  · exact hbytes _ _ hm
  · exact hbytes _ _ hm

/-- A member is read up to the comma or the line break behind it. -/
theorem member?_line {d : Diagnostic} {m : Member} (hm : m ∈ members d) (depth : Nat) {r : Text}
    (hr : ∃ s, r = ',' :: s ∨ r = '\n' :: s) :
    member? (value? (depth + 1)) (skip (m.line ++ r)) = some ((m.name.toList, m.value), r) := by
  obtain ⟨hskipText, hvalue⟩ := value?_memberText hm depth hr
  have hline : m.line ++ r = "    ".toList ++ '"' :: ((Utf8.pieces (bytes m.name)).flatMap pieceText
      ++ '"' :: (": ".toList ++ (m.text ++ r))) := by
    rw [Member.line, List.append_assoc, List.append_assoc, stringText_append, List.append_assoc]
  have hskip (t : Text) : skip ("    ".toList ++ '"' :: t) = '"' :: t := rfl
  have hcolon (t : Text) : skip (": ".toList ++ t) = ':' :: ' ' :: t := rfl
  rw [hline, hskip, member?, body?_flatMap_pieceText, Option.bind_eq_bind, Option.bind_some]
  simp only [hcolon]
  rw [skip_cons_of_isSpace (by decide), hskipText, hvalue, bytes, Utf8.lossy_encode]
  rfl

/-- An object is read up to the comma or the line break behind it. -/
theorem value?_objectText (depth : Nat) (d : Diagnostic) (r : Text) :
    value? (depth + 2) (skip (objectText d ++ r)) = some (object d, r) := by
  have htext : skip (objectText d ++ r) = '\x7b' :: '\n' ::
      (lines ((members d).map Member.line) ++ '\n' :: ("  \x7d".toList ++ r)) := by
    rw [objectText, List.append_assoc, List.append_assoc]
    rfl
  have hmembers : elements? (member? (value? (depth + 1))) '\x7d'
      ('\n' :: (lines ((members d).map Member.line) ++ '\n' :: ("  \x7d".toList ++ r)))
        = some ((members d).map fun m => (m.name.toList, m.value), r) :=
    elements?_lines (by decide) rfl (List.cons_ne_nil _ _)
      (fun m hm r hr => member?_line hm depth hr) (fun m _ r => ⟨'"', _, by decide, rfl⟩)
  rw [htext, value?, hmembers]
  rfl

/-- **A document is read as the array of its objects.** -/
theorem parse?_documentText (ds : List Diagnostic) :
    parse? (Utf8.encode (documentText ds)) = some (.array (ds.map object)) := by
  have hdecode : Utf8.decode? (Utf8.encode (documentText ds)) = some (documentText ds) :=
    Utf8.decode?_eq_some_iff.mpr rfl
  rw [parse?, hdecode, Option.bind_eq_bind, Option.bind_some]
  cases ds with
  | nil => rfl
  | cons d ds =>
    obtain ⟨depth, hdepth⟩ : ∃ depth, (documentText (d :: ds)).length + 1 = depth + 3 :=
      ⟨(lines ((d :: ds).map objectText) ++ "\n]".toList).length, by
        rw [documentText, List.length_append, Nat.add_comm "[\n".toList.length]; rfl⟩
    have htext : skip (documentText (d :: ds)) = '[' :: '\n' ::
        (lines ((d :: ds).map objectText) ++ '\n' :: [']']) := rfl
    have hobjects : elements? (value? (depth + 2)) ']'
        ('\n' :: (lines ((d :: ds).map objectText) ++ '\n' :: [']']))
          = some ((d :: ds).map object, []) :=
      elements?_lines (by decide) rfl (List.cons_ne_nil _ _)
        (fun d _ r _ => value?_objectText depth d r) (fun d _ r => ⟨'\x7b', _, by decide, rfl⟩)
    rw [hdepth, htext, value?, hobjects]
    rfl

end Json

/-! ### Findings told by a document -/

/-- Whether the path, the name of the rule and the message of a finding are all UTF-8. -/
structure Diagnostic.IsUtf8 (d : Diagnostic) : Prop where
  file : (Utf8.decode? d.file).isSome
  rule : (Utf8.decode? d.rule).isSome
  message : (Utf8.decode? d.message).isSome

instance (d : Diagnostic) : Decidable d.IsUtf8 :=
  decidable_of_iff ((Utf8.decode? d.file).isSome ∧ (Utf8.decode? d.rule).isSome ∧
      (Utf8.decode? d.message).isSome)
    ⟨fun ⟨file, rule, message⟩ => ⟨file, rule, message⟩,
      fun ⟨file, rule, message⟩ => ⟨file, rule, message⟩⟩

/-- Whether a finding is what a JSON value tells: an object with the texts of its path, its rule and
its message, and with its line unless that is zero. -/
def Diagnostic.IsToldBy (d : Diagnostic) (v : Json.Value) : Prop :=
  ∃ file rule message : Text,
    d.file = Utf8.encode file ∧ d.rule = Utf8.encode rule ∧ d.message = Utf8.encode message ∧
      v = .object ([("file".toList, .string file)]
        ++ (if d.line = 0 then [] else [("line".toList, .number d.line 0)])
        ++ [("rule".toList, .string rule), ("message".toList, .string message)])

theorem Diagnostic.IsUtf8.isToldBy {d : Diagnostic} (h : d.IsUtf8) :
    d.IsToldBy (Json.object d) := by
  obtain ⟨file, hfile⟩ := Option.isSome_iff_exists.mp h.file
  obtain ⟨rule, hrule⟩ := Option.isSome_iff_exists.mp h.rule
  obtain ⟨message, hmessage⟩ := Option.isSome_iff_exists.mp h.message
  rw [Utf8.decode?_eq_some_iff] at hfile hrule hmessage
  refine ⟨file, rule, message, hfile, hrule, hmessage, ?_⟩
  simp only [Json.object, Json.members, Json.Member.ofBytes, hfile, hrule, hmessage,
    Utf8.lossy_encode, List.map_append, List.map_cons, List.map_nil, apply_ite (List.map _)]

/-- A value tells one finding only. -/
theorem Diagnostic.IsToldBy.unique {d d' : Diagnostic} {v : Json.Value} (h : d.IsToldBy v)
    (h' : d'.IsToldBy v) : d = d' := by
  obtain ⟨file, rule, message, hfile, hrule, hmessage, rfl⟩ := h
  obtain ⟨file', rule', message', hfile', hrule', hmessage', hv⟩ := h'
  have hmembers : file = file' ∧ d.line = d'.line ∧ rule = rule' ∧ message = message' := by
    rw [Json.Value.object.injEq] at hv
    split_ifs at hv with hline hline' hline'
    · simpa [hline, hline'] using hv
    · simp at hv
    · simp at hv
    · simpa using hv
  obtain ⟨rfl, hline, rfl, rfl⟩ := hmembers
  cases d
  cases d'
  simp_all

/-- **A JSON report tells the findings.** Where all strings are UTF-8, a report is one JSON document
and a line break, and the document is read as an array with one object for each finding, in order,
which tells the finding exactly, whatever integer its line is. So no other list of such findings has
the same report. -/
theorem json_report_tells_findings {ds : List Diagnostic} (h : ∀ d ∈ ds, d.IsUtf8) (colour : Bool) :
    (∃ document values,
      (ReportFormat.json.report colour ds {}).1.content = document ++ bytes "\n" ∧
        Json.parse? document = some (.array values) ∧
        List.Forall₂ Diagnostic.IsToldBy ds values) ∧
    ∀ ds' : List Diagnostic, (∀ d ∈ ds', d.IsUtf8) →
      (ReportFormat.json.report colour ds' {}).1.content
        = (ReportFormat.json.report colour ds {}).1.content → ds' = ds := by
  have hcontent (ds : List Diagnostic) : (ReportFormat.json.report colour ds {}).1.content
      = Utf8.encode (Json.documentText ds) ++ bytes "\n" := by
    rw [← Json.ofDiagnostics_eq, ReportFormat.report, ReportFormat.pieces]
    exact List.append_nil _
  have htold {ds : List Diagnostic} (h : ∀ d ∈ ds, d.IsUtf8) :
      List.Forall₂ Diagnostic.IsToldBy ds (ds.map Json.object) := by
    rw [List.forall₂_map_right_iff, List.forall₂_same]
    exact fun d hd => (h d hd).isToldBy
  refine ⟨⟨_, _, hcontent ds, Json.parse?_documentText ds, htold h⟩, fun ds' h' heq => ?_⟩
  rw [hcontent, hcontent, List.append_left_inj] at heq
  have hvalues : ds'.map Json.object = ds.map Json.object := by
    have hparse := Json.parse?_documentText ds'
    rw [heq, Json.parse?_documentText, Option.some.injEq, Json.Value.array.injEq] at hparse
    exact hparse.symm
  refine List.left_unique_forall₂' (fun _ _ _ hd hd' => hd.unique hd') (htold h') ?_
  rw [hvalues]
  exact htold h

/-- A path with a quotation mark, a backslash and a character beyond the basic plane, and a message
with control characters, characters that mean something to a browser and line separators. -/
theorem json_report_tells_findings_escaped :
    let d : Diagnostic :=
      { file := bytes "a\"\\😀.ahk", line := -7, rule := bytes "r",
        message := bytes "\x00\t\n</&>\u2028\x7f" }
    let content := (ReportFormat.json.report false [d] {}).1.content
    d.IsUtf8 ∧
      content = bytes "[\n  \x7b\n    \"file\": \"a\\\"\\\\😀.ahk\",\n    \"line\": -7,\n"
        ++ bytes "    \"rule\": \"r\",\n"
        ++ bytes "    \"message\": \"\\u0000\\t\\n\\u003c/\\u0026\\u003e\\u2028\x7f\"\n"
        ++ bytes "  \x7d\n]\n" ∧
      (∃ document values, content = document ++ bytes "\n" ∧
        Json.parse? document = some (.array values) ∧
        List.Forall₂ Diagnostic.IsToldBy [d] values) ∧
      ∀ ds' : List Diagnostic, (∀ d ∈ ds', d.IsUtf8) →
        (ReportFormat.json.report false ds' {}).1.content = content → ds' = [d] := by
  intro d content
  have hd : d.IsUtf8 := by decide
  exact ⟨hd, by decide,
    json_report_tells_findings (List.forall_mem_singleton.mpr hd) false⟩

end ScriptLint
