import ScriptLint.Text.Utf8

/-!
# Include patterns

Include patterns choose files by their slash path below the scripts directory. A star takes any text
inside one component, two stars as a whole component take any number of components, `?` takes one
character but no slash, brackets one character of a class, and braces one of several patterns.

Matching walks both strings once. It remembers the last star and the last pair of stars, and goes
back to the star first; a star cannot be stretched over a slash, a pair of stars moves from one
component to the next. Braces are tried one alternative after another, each written out in place of
the braces.
-/

namespace ScriptLint.Include

/-- The characters of a pattern or path; a stray byte is the replacement character. -/
def letters (s : Bytes) : Array Char :=
  ((Utf8.pieces s).map fun
    | .char c => c
    | .stray _ => '\uFFFD').toArray

/-! ### Well-formed patterns -/

/-- What follows the unescaped closing bracket of a class. -/
def afterClass? : Text → Option Text
  | [] => none
  | '\\' :: _ :: r => afterClass? r
  | c :: r => if c = ']' then some r else afterClass? r

/-- What follows a class, after its opening bracket. A class is not empty. -/
def skipClass? (t : Text) : Option Text :=
  let body := match t with
    | '^' :: r => r
    | '!' :: r => r
    | t => t
  match body with
  | [] => none
  | c :: _ => if c = ']' then none else afterClass? body

/-- Whether classes and braces are closed and no backslash stands at the end. -/
def isValidFrom : (fuel depth : Nat) → Text → Bool
  | 0, _, _ => false
  | _, depth, [] => depth == 0
  | fuel + 1, depth, c :: r =>
    if c = '\\' then
      match r with
      | [] => false
      | _ :: r => isValidFrom fuel depth r
    else if c = '[' then
      match skipClass? r with
      | none => false
      | some r => isValidFrom fuel depth r
    else if c = '{' then isValidFrom fuel (depth + 1) r
    else if c = '}' then depth != 0 && isValidFrom fuel (depth - 1) r
    else isValidFrom fuel depth r

/-- Whether a pattern, or what is left of one, is well-formed. -/
def isValidText (t : Text) : Bool := isValidFrom (t.length + 1) 0 t

/-- Whether a pattern is well-formed. -/
def isValid (pattern : Bytes) : Bool := isValidText (letters pattern).toList

/-! ### Braces -/

/-- The inside of braces after the opening one, cut at the commas that belong to it, and what
follows the closing one. -/
def alternatives? : (depth : Nat) → Text → Option (List Text × Text)
  | _, [] => none
  | _, ['\\'] => none
  | depth, '\\' :: c :: r => (alternatives? depth r).map fun
    | (a :: as, rest) => (('\\' :: c :: a) :: as, rest)
    | (as, rest) => (as, rest)
  | depth, c :: r =>
    if c = '}' ∧ depth = 0 then some ([[]], r)
    else if c = ',' ∧ depth = 0 then (alternatives? depth r).map fun (as, rest) => ([] :: as, rest)
    else
      let depth := if c = '{' then depth + 1 else if c = '}' then depth - 1 else depth
      (alternatives? depth r).map fun
        | (a :: as, rest) => ((c :: a) :: as, rest)
        | (as, rest) => (as, rest)

/-- The first verdict that is a match or a fault. -/
def firstVerdict (f : Text → Option Bool) : List Text → Option Bool
  | [] => some false
  | [a] => f a
  | a :: as =>
    match f a with
    | some false => firstVerdict f as
    | verdict => verdict

/-- Whether what is left of a pattern can stand for nothing at all; nothing when it is
ill-formed. -/
def matchesEmpty : (fuel : Nat) → Text → Option Bool
  | 0, _ => some false
  | fuel + 1, t =>
    if t = [] || ["*", "**", "/**", "**/", "/**/"].any fun s => t == s.toList then some true
    else
      match t with
      | '{' :: r => do
        let (as, rest) ← alternatives? 0 r
        firstVerdict (fun a => matchesEmpty fuel (a ++ rest)) as
      | t => if isValidText t then some false else none

/-! ### Matching -/

/-- Where a walk stands: the places in pattern and path, whether a component starts here, and where
to go back to for the last star and the last pair of stars. -/
structure Walk where
  pattern : Nat := 0
  path : Nat := 0
  fresh : Bool := true
  star : Option (Nat × Nat) := none
  deep : Option (Nat × Nat) := none

/-- Looks for a character among the members of a class, and says where in the pattern the search
ended. -/
def searchClass (pattern : Array Char) (c : Char) : (fuel i : Nat) → (last : Option Char) →
    Bool × Nat
  | 0, i, _ => (false, i)
  | fuel + 1, i, last =>
    match pattern[i]? with
    | none => (false, i)
    | some p =>
      if p = ']' then (false, i)
      else
        let i := i + 1
        match last, pattern[i]? with
        | some lo, some next =>
          if p = '-' ∧ next ≠ ']' then
            let i := if next = '\\' then i + 1 else i
            let hi := pattern.getD i '\uFFFD'
            let i := if i < pattern.size then i + 1 else i
            if lo ≤ c && c ≤ hi then (true, i) else searchClass pattern c fuel i none
          else member p i fuel
        | _, _ => member p i fuel
where
  /-- A member that is no range; a backslash makes the next character the member. -/
  member (p : Char) (i fuel : Nat) : Bool × Nat :=
    let escaped := p = '\\'
    let q := if escaped then pattern.getD i '\uFFFD' else p
    let i := if escaped ∧ i < pattern.size then i + 1 else i
    if q = c then (true, i) else searchClass pattern c fuel i (some q)

/-- The place just behind the unescaped closing bracket. -/
def closing? (pattern : Array Char) (i : Nat) : Option Nat :=
  (afterClass? (pattern.toList.drop i)).map fun r => pattern.size - r.length

/-- Goes back to the last star, one character further on unless that is a slash, and otherwise to
the last pair of stars, one component further on. -/
def Walk.retry? (w : Walk) (path : Array Char) : Option Walk :=
  let byDeep : Option Walk := do
    let (p, n) ← w.deep
    let ahead := (path.toList.drop n).takeWhile (· != '/')
    let next := n + ahead.length + 1
    if path.size < next then none
    else return { w with pattern := p, path := next, fresh := true, deep := some (p, next) }
  match w.star with
  | some (p, n) =>
    if path[n]? = some '/' then byDeep
    else
      let next := if n < path.size then n + 1 else n
      some { w with pattern := p, path := next, fresh := false, star := some (p, next) }
  | none => byDeep

/-- One step of a walk: it goes on, or fails here, or is decided. Alternatives in braces are left to
the caller. -/
inductive Step where
  | next (w : Walk)
  | fail (w : Walk)
  | decided (verdict : Option Bool)
  | braces (w : Walk)

/-- The next step of a walk whose path is not at its end. -/
def Walk.step (w : Walk) (pattern path : Array Char) : Step :=
  let c := path.getD w.path '\uFFFD'
  let literal (i : Nat) : Step :=
    match pattern[i]? with
    | none => .decided none
    | some p =>
      if p = c then
        .next { w with pattern := i + 1, path := w.path + 1, fresh := p = '/' }
      else .fail w
  match pattern[w.pattern]? with
  | none => .fail w
  | some '*' =>
    let i := w.pattern + 1
    if pattern[i]? = some '*' then
      let i := i + 1
      if w.fresh ∧ i = pattern.size then .decided (some true)
      else if w.fresh ∧ pattern[i]? = some '/' then
        .next { w with pattern := i + 1, star := none, deep := some (i + 1, w.path) }
      else .next { w with pattern := i, fresh := false, star := some (i, w.path) }
    else .next { w with pattern := i, fresh := false, star := some (i, w.path) }
  | some '?' =>
    if c = '/' then .fail { w with fresh := false }
    else .next { w with pattern := w.pattern + 1, path := w.path + 1, fresh := false }
  | some '[' =>
    let i := w.pattern + 1
    let negated := pattern[i]? = some '!' ∨ pattern[i]? = some '^'
    let i := if negated then i + 1 else i
    if pattern.size ≤ i ∨ pattern[i]? = some ']' then .decided none
    else
      let (found, j) := searchClass pattern c pattern.size i none
      if found = decide negated then
        if pattern.size ≤ j then .decided none else .fail { w with pattern := j, fresh := false }
      else
        match closing? pattern j with
        | none => .decided none
        | some k => .next { w with pattern := k, path := w.path + 1, fresh := false }
  | some '{' => .braces w
  | some '\\' => literal (w.pattern + 1)
  | some _ => literal w.pattern

/-- Runs a walk to its verdict. `braces` bounds how often braces are written out, `fuel` the steps
between. -/
def run : (braces fuel : Nat) → (pattern path : Array Char) → Walk → Option Bool
  | _, 0, _, _, _ => some false
  | braces, fuel + 1, pattern, path, w =>
    if path.size ≤ w.path then
      matchesEmpty (pattern.size + 1) (pattern.toList.drop w.pattern)
    else
      match w.step pattern path with
      | .next w => run braces fuel pattern path w
      | .decided verdict => verdict
      | .fail w =>
        match w.retry? path with
        | some w => run braces fuel pattern path w
        | none =>
          if isValidText (pattern.toList.drop w.pattern) then some false else none
      | .braces w =>
        match braces with
        | 0 => some false
        | braces + 1 => do
          let (as, rest) ← alternatives? 0 (pattern.toList.drop (w.pattern + 1))
          let before := pattern.toList.take w.pattern
          firstVerdict (fun a =>
            let written := (before ++ a ++ rest).toArray
            run braces (budget written path) written path { w with fresh := true }) as
where
  /-- More steps than a walk can take: places in the pattern for each pair of places to go back
  to. -/
  budget (pattern path : Array Char) : Nat :=
    (pattern.size + 2) * (pattern.size + 2) * (path.size + 2) * (path.size + 2)

/-- Whether a pattern chooses a path. An ill-formed pattern chooses none. -/
def accepts (pattern path : Bytes) : Bool :=
  let p := letters pattern
  let n := letters path
  run (p.toList.filter (· == '{')).length (run.budget p n) p n {} == some true

end ScriptLint.Include
