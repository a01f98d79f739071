import ScriptLint.Text.Utf8

/-!
# Entries by name

A finite map is held as a list of entries with distinct names, in the order in which the names were
first set.
-/

namespace ScriptLint

/-- Values by name. -/
abbrev Entries (α : Type) := List (Bytes × α)

namespace Entries

variable {α : Type}

/-- Sets an entry, in place when the name is there already. -/
def set (es : Entries α) (name : Bytes) (value : α) : Entries α :=
  match es with
  | [] => [(name, value)]
  | e :: es => if e.1 = name then (name, value) :: es else e :: set es name value

/-- The value under a name. -/
def get? (es : Entries α) (name : Bytes) : Option α := (es.find? (·.1 = name)).map (·.2)

/-- Sets all entries of another map, which win. -/
def overlay (es top : Entries α) : Entries α := top.foldl (fun es e => es.set e.1 e.2) es

/-- The entries in byte order of their names. -/
def sorted (es : Entries α) : Entries α := es.mergeSort fun a b => !bytesLt b.1 a.1

@[simp]
theorem get?_set_self (es : Entries α) (name : Bytes) (value : α) :
    (es.set name value).get? name = some value := by
  induction es with
  | nil => simp [set, get?]
  | cons e es ih =>
    by_cases h : e.1 = name
    · simp [set, get?, h]
    · simpa [set, get?, h] using ih

theorem get?_set_of_ne (es : Entries α) {name other : Bytes} (value : α) (h : name ≠ other) :
    (es.set name value).get? other = es.get? other := by
  induction es with
  | nil => simp [set, get?, h]
  | cons e es ih =>
    by_cases he : e.1 = name
    · simp [set, get?, he, h]
    · rw [set, if_neg he]
      by_cases ho : e.1 = other
      · simp [get?, ho]
      · simpa [get?, ho] using ih

end Entries

end ScriptLint
