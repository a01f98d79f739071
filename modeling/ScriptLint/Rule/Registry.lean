import ScriptLint.Rule.RequireSingleInstance
import ScriptLint.Rule.RequireVersion
import ScriptLint.Rule.RequireWarn
import ScriptLint.Rule.TrailingNewline
import ScriptLint.Rule.TrailingWhitespace
import ScriptLint.Rule.UnusedFunctions

/-!
# The registry

A registry maps names to rules. It starts empty and grows by `register`, which refuses a missing
rule, a name outside `[a-z][a-z0-9_]*` and a name that is taken, and then leaves the registry as it
was. Rules are listed in byte order of their names, whatever the order they were registered in.
-/

namespace ScriptLint

/-- The rules registered so far, the latest last. -/
structure Registry where
  rules : List Rule := []

/-- Why a rule is not registered. -/
inductive RegisterError where
  | missing
  | invalidName (name : Bytes)
  | duplicate (name : Bytes)
deriving DecidableEq, Repr

/-- The wording of a refused registration. -/
def RegisterError.message : RegisterError → Bytes
  | .missing => bytes "rule: Register called with nil rule"
  | .invalidName name => bytes "rule: invalid rule name " ++ Quoted.quote name
  | .duplicate name => bytes "rule: duplicate rule " ++ Quoted.quote name

/-- A name that no rule is registered under. -/
structure UnknownRule where
  name : Bytes
deriving DecidableEq, Repr

/-- The wording for an unknown rule. -/
def UnknownRule.message (e : UnknownRule) : Bytes := bytes "Unknown rule: " ++ e.name

/-- A lower-case ASCII letter. -/
def isLowerByte (b : UInt8) : Bool := 0x61 ≤ b && b ≤ 0x7A

/-- A lower-case ASCII letter, a digit or an underscore. -/
def isNameByte (b : UInt8) : Bool := isLowerByte b || (0x30 ≤ b && b ≤ 0x39) || b == 0x5F

/-- The names that a rule may have. -/
def isRuleName : Bytes → Bool
  | [] => false
  | b :: r => isLowerByte b && r.all isNameByte

/-- The unit that a rule of this name belongs to. -/
def unitName (name : Bytes) : Bytes := bytes "rule_" ++ name

namespace Registry

/-- The rule registered under a name. -/
def find? (g : Registry) (name : Bytes) : Option Rule := g.rules.find? (·.name == name)

/-- Adds a rule, if there is one and its name is well-formed and free. -/
def register (g : Registry) : Option Rule → Except RegisterError Registry
  | none => .error .missing
  | some r =>
    if !isRuleName r.name then .error (.invalidName r.name)
    else if (g.find? r.name).isSome then .error (.duplicate r.name)
    else .ok { rules := g.rules ++ [r] }

/-- What can be done to a registry. -/
inductive Action where
  | register (rule : Option Rule)
  | reset

/-- The registry after an action, and why the action is refused if it is. -/
def perform (g : Registry) : Action → Registry × Option RegisterError
  | .register rule =>
    match g.register rule with
    | .ok grown => (grown, none)
    | .error e => (g, some e)
  | .reset => ({}, none)

/-- The registry after a history of actions, refused ones included. -/
def after (actions : List Action) : Registry := actions.foldl (fun g a => (g.perform a).1) {}

/-- The registered names in byte order. -/
def names (g : Registry) : List Bytes := sortBytes (g.rules.map (·.name))

/-- The registered rules in byte order of their names. -/
def all (g : Registry) : List Rule := g.names.filterMap g.find?

/-- The rules of the given names, in order; the first name without a rule refuses them all. -/
def load (g : Registry) (names : List Bytes) : Except UnknownRule (List Rule) :=
  names.mapM fun name =>
    match g.find? name with
    | some r => .ok r
    | none => .error ⟨name⟩

/-- The six rules of the linter. -/
def standard : Registry where
  rules := [RequireVersion.rule, RequireSingleInstance.rule, RequireWarn.rule,
    TrailingNewline.rule, TrailingWhitespace.rule, UnusedFunctions.rule]

end Registry

end ScriptLint
