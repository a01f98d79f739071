import ScriptLint.Pattern.Glob

/-!
# Globs: matching

A glob is compiled to a matcher. Literal text with stars around it becomes a test for a part, a
beginning or an ending; a beginning and an ending are tested independently, so the two may overlap.
Parts of known length stand in a row. Everything else is split at a pivot, usually its longest part
of known length: the pivot is searched for, and what stands left and right of it is matched by the
rest of the glob.

Matching works on bytes. Lengths are counted in characters when a glob is compiled, and a row of
known length takes as many bytes, so globs with classes or wildcards are exact for ASCII paths.
-/

namespace ScriptLint.Glob

/-- A compiled glob. -/
inductive Matcher where
  | text (s : Bytes)
  | super
  | single
  | list (chars : Text) (negated : Bool)
  | range (lo hi : Char) (negated : Bool)
  | nothing
  | contains (needle : Bytes) (negated : Bool)
  | startsWith (s : Bytes)
  | endsWith (s : Bytes)
  | startsAndEndsWith (start stop : Bytes)
  | atLeast (count : Nat)
  | atMost (count : Nat)
  | every (ms : List Matcher)
  | anyOf (ms : List Matcher)
  | row (length : Nat) (ms : List Matcher)
  | split (pivot : Matcher) (left right : Option Matcher)
deriving Inhabited, Repr

/-! ### Characters of a byte string -/

/-- The character at the front and its width; a stray byte is the replacement character. -/
def front (s : Bytes) : Char × Nat :=
  match s with
  | [] => ('\uFFFD', 0)
  | b :: r => (Utf8.front? (b :: r)).getD ('\uFFFD', 1)

/-- `characters` after `skip` bytes that belong to the last character. -/
def charactersFrom : (offset skip : Nat) → Bytes → List (Nat × Char)
  | _, _, [] => []
  | offset, skip + 1, _ :: r => charactersFrom (offset + 1) skip r
  | offset, 0, b :: r =>
    let (c, n) := front (b :: r)
    (offset, c) :: charactersFrom (offset + 1) (n - 1) r

/-- The characters of a byte string with their offsets. -/
def characters (s : Bytes) : List (Nat × Char) := charactersFrom 0 0 s

/-- The number of bytes that a character is written with. -/
def widthOf (c : Char) : Nat := (Utf8.encodeChar c).length

/-- Whether a byte string starts with another. -/
def hasStart : (start s : Bytes) → Bool
  | [], _ => true
  | _ :: _, [] => false
  | a :: as, b :: bs => a == b && hasStart as bs

/-- The offset of the first occurrence of a byte string in another. -/
def indexOf? (needle : Bytes) : Bytes → Option Nat
  | [] => if needle = [] then some 0 else none
  | b :: r => if hasStart needle (b :: r) then some 0 else (indexOf? needle r).map (· + 1)

/-- The offsets of all occurrences that do not overlap, from the right, in increasing order of the
offset just behind them. -/
def endsOf (needle s : Bytes) : List Nat :=
  let rec go : (fuel : Nat) → Bytes → List Nat
    | 0, _ => []
    | fuel + 1, rev =>
      match indexOf? needle.reverse rev with
      | none => []
      | some i => (rev.length - i) :: go fuel (rev.drop (i + needle.length))
  (go (s.length + 1) s.reverse).reverse

/-! ### Known lengths -/

mutual

/-- The number of characters that a matcher takes, when it always takes the same. -/
def Matcher.length? : Matcher → Option Nat
  | .text s => some (characters s).length
  | .single | .list .. | .range .. => some 1
  | .nothing => some 0
  | .row n _ => some n
  | .anyOf ms => commonLength? ms
  | .split p l r => do
    let p ← p.length?
    let l ← optionLength? l
    let r ← optionLength? r
    return l + p + r
  | _ => none

/-- The length that all alternatives share. Alternatives of unknown length at the front are passed
over. -/
def commonLength? : List Matcher → Option Nat
  | [] => none
  | m :: ms =>
    match m.length? with
    | none => commonLength? ms
    | some n => if sharedLength n ms then some n else none

/-- Whether all matchers have a length. -/
def sharedLength (n : Nat) : List Matcher → Bool
  | [] => true
  | m :: ms => m.length? == some n && sharedLength n ms

/-- The length of a side of a split; a missing side is empty. -/
def optionLength? : Option Matcher → Option Nat
  | none => some 0
  | some m => m.length?

end

/-! ### Matching -/

/-- The smallest offset with a hit, together with the possible widths there. -/
abbrev Hit := Nat × List Nat

/-- Two increasing lists as one, without repetitions. -/
def mergeWidths : List Nat → List Nat → List Nat
  | [], ys => ys
  | xs, [] => xs
  | x :: xs, y :: ys =>
    if x = y then x :: mergeWidths xs ys
    else if x < y then x :: mergeWidths xs (y :: ys)
    else y :: mergeWidths (x :: xs) ys

/-- A first character inside or outside a class. -/
def indexChar? (p : Char → Bool) (s : Bytes) : Option Hit :=
  ((characters s).find? fun x => p x.2).map fun x => (x.1, [widthOf x.2])

/-- Whether a byte string is one character inside or outside a class. The empty byte string is read
as the replacement character. -/
def isOneChar (p : Char → Bool) (s : Bytes) : Bool :=
  let (c, n) := front s
  s.length ≤ n && p c

/-- The characters of a negated or plain list. -/
def inList (chars : Text) (negated : Bool) (c : Char) : Bool := chars.contains c != negated

/-- The characters of a negated or plain range. -/
def inRange (lo hi : Char) (negated : Bool) (c : Char) : Bool := (lo ≤ c && c ≤ hi) != negated

/-- The number of bytes that the first `count` characters seem to take: the offset of the last of
them and one more. -/
def leadingBytes? (count : Nat) (s : Bytes) : Option Nat :=
  if count = 0 then some (((characters s).getLast?.map (·.1)).getD 0 + 1)
  else ((characters s)[count - 1]?).map (·.1 + 1)

/-- Searches the pivot of a split between two offsets, and matches both sides around each hit. -/
def splitFrom (pivot : Bytes → Option Hit) (left right : Bytes → Bool) (s : Bytes) (limit : Nat) :
    (fuel offset : Nat) → Bool
  | 0, _ => false
  | fuel + 1, offset =>
    if limit ≤ offset then false
    else
      match pivot ((s.take limit).drop offset) with
      | none => false
      | some (index, widths) =>
        let at_ := offset + index
        if left (s.take at_) && widths.any fun w => right (s.drop (at_ + w)) then true
        else splitFrom pivot left right s limit fuel (at_ + (front (s.drop at_)).2)

mutual

/-- Whether a matcher accepts a whole byte string. -/
def Matcher.accepts : Matcher → Bytes → Bool
  | .text t => fun s => t == s
  | .super => fun _ => true
  | .single => isOneChar fun _ => true
  | .list chars negated => isOneChar (inList chars negated)
  | .range lo hi negated => isOneChar (inRange lo hi negated)
  | .nothing => fun s => s == []
  | .contains needle negated => fun s => (indexOf? needle s).isSome != negated
  | .startsWith t => fun s => hasStart t s
  | .endsWith t => fun s => hasStart t.reverse s.reverse
  | .startsAndEndsWith t u => fun s => hasStart t s && hasStart u.reverse s.reverse
  | .atLeast n => fun s => n ≤ (characters s).length
  | .atMost n => fun s => (characters s).length ≤ n
  | .every ms => acceptsEvery ms
  | .anyOf ms => acceptsAny ms
  | .row n ms => fun s => (characters s).length == n && acceptsRow ms s
  | .split p l r => fun s =>
    let known := (Matcher.split p l r).length?
    if known.any (s.length < ·) then false
    else
      let offset := (optionLength? l).getD 0
      let limit := match optionLength? r with
        | some n => s.length - n
        | none => s.length
      splitFrom p.index? (acceptsSide l) (acceptsSide r) s limit (s.length + 1) offset

/-- Whether all matchers accept. -/
def acceptsEvery : List Matcher → Bytes → Bool
  | [] => fun _ => true
  | m :: ms => fun s => m.accepts s && acceptsEvery ms s

/-- Whether some matcher accepts. -/
def acceptsAny : List Matcher → Bytes → Bool
  | [] => fun _ => false
  | m :: ms => fun s => m.accepts s || acceptsAny ms s

/-- Whether the matchers accept the leading bytes one after another. -/
def acceptsRow : List Matcher → Bytes → Bool
  | [] => fun _ => true
  | m :: ms => fun s =>
    match leadingBytes? (m.length?.getD 0) s with
    | none => false
    | some n => m.accepts (s.take n) && acceptsRow ms (s.drop n)

/-- Whether a side of a split accepts; a missing side accepts the empty byte string. -/
def acceptsSide : Option Matcher → Bytes → Bool
  | none => fun s => s == []
  | some m => m.accepts

/-- The first hit of a matcher in a byte string. A split is never found. -/
def Matcher.index? : Matcher → Bytes → Option Hit
  | .text t => fun s => (indexOf? t s).map (·, [t.length])
  | .super => fun s => some (0, (characters s).map (·.1) ++ [s.length])
  | .single => indexChar? fun _ => true
  | .list chars negated => indexChar? (inList chars negated)
  | .range lo hi negated => indexChar? (inRange lo hi negated)
  | .nothing => fun _ => some (0, [0])
  | .contains needle negated => fun s =>
    let found := indexOf? needle s
    if negated then
      let t := match found with
        | some i => s.take i
        | none => s
      some (0, (characters t).map (·.1) ++ [t.length])
    else
      found.map fun i =>
        let after := i + needle.length
        let t := s.drop after
        if t = [] then (0, [after])
        else (0, (characters t).map (after + ·.1) ++ [after + t.length])
  | .startsWith t => fun s =>
    (indexOf? t s).map fun i =>
      (i, t.length :: (characters (s.drop (i + t.length))).map fun x =>
        t.length + x.1 + widthOf x.2)
  | .endsWith t => fun s => (indexOf? t s).map fun i => (0, [i + t.length])
  | .startsAndEndsWith t u => fun s => do
    let i ← indexOf? t s
    if u = [] then return (i, [s.length - i])
    match endsOf u (s.drop i) with
    | [] => none
    | ends => return (i, ends)
  | .atLeast n => fun s =>
    let ends := ((characters s).drop (n - 1)).map fun x => x.1 + widthOf x.2
    if s.length < n || ends.isEmpty then none else some (0, ends)
  | .atMost n => fun s =>
    some (0, 0 :: ((characters s).take n).map fun x => x.1 + widthOf x.2)
  | .every ms => fun s => indexEvery ms s none 0 0
  | .anyOf ms => indexAny ms none
  | .row n ms => fun s =>
    ((characters s).find? fun x => n ≤ s.length - x.1 && acceptsRow ms (s.drop x.1)).map fun x =>
      (x.1, [n])
  | .split .. => fun _ => none

/-- The earliest hit of several matchers, with the widths of all that hit there. -/
def indexAny : List Matcher → (best : Option Hit) → Bytes → Option Hit
  | [] => fun best _ => best
  | m :: ms => fun best s =>
    let next := match m.index? s, best with
      | none, best => best
      | some hit, none => some hit
      | some hit, some old =>
        if hit.1 < old.1 then some hit
        else if old.1 < hit.1 then some old
        else some (old.1, mergeWidths old.2 hit.2)
    indexAny ms next s

/-- A hit that all matchers share: each is searched from the hit of the one before, and only the
widths that agree are kept. -/
def indexEvery : List Matcher → Bytes → (widths : Option (List Nat)) → (index offset : Nat) →
    Option Hit
  | [] => fun _ widths index _ => some (index, widths.getD [])
  | m :: ms => fun s widths index offset =>
    match m.index? (s.drop index) with
    | none => none
    | some (i, ws) =>
      let kept := match widths with
        | none => ws
        | some old => old.flatMap fun x => ws.filter fun w => x + index == w + (i + offset)
      if widths.isSome && kept.isEmpty then none
      else indexEvery ms s (some kept) (i + offset) (offset + i)

end

/-! ### Compiling -/

/-- A split at literal text, as a direct test where its two sides allow one. -/
def mergeSplit : Matcher → Option Matcher → Option Matcher → Matcher
  | .text t, none, none => .text t
  | .text t, some .super, some .super => .contains t false
  | .text t, some .super, none => .endsWith t
  | .text t, none, some .super => .startsWith t
  | .text t, none, some (.endsWith u) => .startsAndEndsWith t u
  | .text t, some (.startsWith u), none => .startsAndEndsWith u t
  | p, l, r => .split p l r

mutual

/-- The simplest form of a matcher: a lone alternative stands for itself, a class of one character
is that character, and splits are merged from the inside out. -/
def simplify : Matcher → Matcher
  | .anyOf [m] => m
  | .list [c] false => .text (Utf8.encodeChar c)
  | .split p l r => mergeSplit p (simplifySide l) (simplifySide r)
  | m => m

/-- The simplest form of a side. -/
def simplifySide : Option Matcher → Option Matcher
  | none => none
  | some m => some (simplify m)

end

/-- The characters that a wildcard never takes; nothing for a matcher that is no wildcard. -/
def excluded? : Matcher → Option Text
  | .super | .single => some []
  | .list chars true => some chars
  | _ => none

/-- A run of wildcards that exclude the same characters, as one test on the length and on the
excluded text. -/
def glueWildcards (ms : List Matcher) : Option Matcher := do
  let sets ← ms.mapM excluded?
  match sets with
  | [] | [_] => none
  | set :: rest =>
    if !rest.all (· == set) then none
    let isSuper : Matcher → Bool := fun
      | .super => true
      | _ => false
    let count := (ms.filter fun m => !isSuper m).length
    let open_ := ms.any isSuper
    if count = 0 then return .super
    let bounds := .atLeast count :: if open_ then [] else [.atMost count]
    return .every (bounds ++ if set = [] then [] else [.contains (Utf8.encode set) true])

/-- A run of matchers of known length, in a row. -/
def glueRow (ms : List Matcher) : Option Matcher := do
  let lengths ← ms.mapM Matcher.length?
  if ms.length ≤ 1 then none else return .row (lengths.foldl (· + ·) 0) ms

/-- A run of matchers as one, where that is possible. -/
def glue (ms : List Matcher) : Option Matcher :=
  match glueWildcards ms with
  | some m => some m
  | none => glueRow ms

/-- Glues the longest run that can be glued, or among equal ones a longer row, until nothing
changes. The list gets shorter each time, so its length is fuel enough. -/
def glueRuns : (fuel : Nat) → List Matcher → List Matcher
  | 0, ms => ms
  | fuel + 1, ms =>
    let n := ms.length
    let runs := (List.range n).flatMap fun l =>
      ((List.range (n - l)).reverse).filterMap fun k =>
        (glue ((ms.drop l).take (k + 1))).map fun m => (l, k + 1, m)
    let best := runs.foldl (fun (best : Option (Nat × Nat × Matcher)) run =>
      match best with
      | none => some run
      | some old =>
        let longer := match old.2.2.length?, run.2.2.length? with
          | some x, some y => x < y
          | _, _ => false
        if longer || old.2.1 < run.2.1 then some run else some old) none
    match best with
    | none => ms
    | some (l, k, m) =>
      let next := ms.take l ++ m :: ms.drop (l + k)
      if next.length = n then next else glueRuns fuel next

/-- A sequence of matchers as one: glued, or split at its longest matcher of known length, the last
of several. Without one it is split at the first matcher. -/
def sequence : (fuel : Nat) → List Matcher → Matcher
  | _, [] => .nothing
  | _, [m] => m
  | 0, m :: _ => m
  | fuel + 1, m :: ms =>
    match glue (m :: ms) with
    | some g => g
    | none =>
      let all := m :: ms
      let pivot := all.zipIdx.foldl (fun (best : Option (Nat × Nat × Matcher)) x =>
        match x.1.length?, best with
        | none, best => best
        | some n, none => some (n, x.2, x.1)
        | some n, some old => if old.1 ≤ n then some (n, x.2, x.1) else some old) none
      match pivot with
      | none => .split m none (some (sequence fuel ms))
      | some (_, i, p) =>
        let side (part : List Matcher) : Option Matcher :=
          if part.isEmpty then none else some (sequence fuel part)
        .split p (side (all.take i)) (side (all.drop (i + 1)))

/-- The parts of a pattern. -/
def Node.parts : Node → List Node
  | .pattern ps => ps
  | _ => []

/-- The numbers of parts that all alternatives share at the front and at the back of the shortest
one. The scan runs from both ends of it at once, and the back stops where the two would overlap. -/
def sharedEnds (shortest : List Node) (others : List (List Node)) : Nat × Nat :=
  let n := shortest.length
  let rec go : (fuel i : Nat) → (left right : Nat) → (leftOpen rightOpen : Bool) → Nat × Nat
    | 0, _, left, right, _, _ => (left, right)
    | fuel + 1, i, left, right, leftOpen, rightOpen =>
      if n ≤ left + right || n ≤ i || !(leftOpen || rightOpen) then (left, right)
      else
        let j := n - 1 - i
        let agree (k : Nat) (x : Option Node) : Bool :=
          match shortest[k]?, x with
          | some a, some b => a.same b
          | _, _ => false
        let (leftOpen, rightOpen) := others.foldl (fun (o : Bool × Bool) other =>
          if !(o.1 || o.2) then o
          else
            let l := o.1 && agree i other[i]?
            let r := o.2 && !(l && j ≤ i) && agree j other[j + other.length - n]?
            (l, r)) (leftOpen, rightOpen)
        go fuel (i + 1) (if leftOpen then left + 1 else left) (if rightOpen then n - j else right)
          leftOpen rightOpen
  go n 0 0 0 true true

/-- Alternatives with what they share at both ends taken out in front and behind. -/
def factor? (alternatives : List Node) : Option Node :=
  let lists := alternatives.map Node.parts
  match lists with
  | [] | [_] => none
  | first :: rest =>
    let shortest := rest.foldl (fun (s : List Node) l => if l.length < s.length then l else s) first
    let place := (lists.findIdx? fun l => l.length == shortest.length).getD 0
    let (left, right) := sharedEnds shortest (lists.eraseIdx place)
    if left = 0 && right = 0 then none
    else
      let inner := (lists.map fun l => (l.drop left).take (l.length - left - right)).foldl
        (fun (kept : List Node) ps =>
          let node := if ps.isEmpty then Node.nothing else .pattern ps
          if kept.any (·.same node) then kept else kept ++ [node]) []
      let middle := match inner with
        | [] | [.nothing] => []
        | [node] => [node]
        | nodes => [.anyOf nodes]
      let front := if left = 0 then [] else [Node.pattern (shortest.take left)]
      let back := if right = 0 then [] else [Node.pattern (shortest.drop (shortest.length - right))]
      some (.pattern (front ++ middle ++ back))

/-- The matcher of a part. Taking shared ends out of alternatives makes new parts, so the depth is
bounded by fuel. -/
def compileNode : (fuel : Nat) → Node → Matcher
  | 0, _ => .nothing
  | fuel + 1, node =>
    match node with
    | .text t => .text (Utf8.encode t)
    | .any | .super => .super
    | .single => .single
    | .list chars negated => simplify (.list chars negated)
    | .range lo hi negated => .range lo hi negated
    | .nothing => .nothing
    | .anyOf alternatives =>
      match factor? alternatives with
      | some n => compileNode fuel n
      | none => .anyOf (alternatives.map fun n => simplify (compileNode fuel n))
    | .pattern [] => .nothing
    | .pattern parts =>
      let ms := parts.map fun n => simplify (compileNode fuel n)
      simplify (sequence ms.length (glueRuns ms.length ms))

/-- The matcher of a glob. -/
def compile (source : Bytes) : Except Error Matcher :=
  (parse source).map (compileNode (4 * source.length + 8))

/-- Whether a glob accepts a path. -/
def accepts (m : Matcher) (path : Bytes) : Bool := m.accepts path

end ScriptLint.Glob
