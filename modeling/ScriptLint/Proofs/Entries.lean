import ScriptLint.Entries
import Mathlib.Data.List.Nodup
import Mathlib.Data.List.Perm.Basic

/-!
# Entries with distinct names

A list of entries stands for a finite map when its names are distinct. Then the value under a name
is the one that is listed with it (`Entries.get?_eq_some_iff`), two lists answer alike exactly if
they differ in the order of entries at most (`Entries.get?_perm`, `Entries.perm_of_get?_eq`), and of
two maps laid over each other the upper one decides (`Entries.get?_overlay`).
-/

namespace ScriptLint.Entries

variable {α : Type}

/-- Whether no name is listed twice. -/
def IsDistinct (es : Entries α) : Prop := (es.map (·.1)).Nodup

instance (es : Entries α) : Decidable es.IsDistinct :=
  inferInstanceAs (Decidable (es.map (·.1)).Nodup)

theorem isDistinct_nil : IsDistinct ([] : Entries α) := List.nodup_nil

/-- A map that has no name but one has one entry. -/
theorem IsDistinct.exists_eq_singleton {es : Entries α} (hes : es.IsDistinct) (hne : es ≠ [])
    {name : Bytes} (h : ∀ e ∈ es, e.1 = name) : ∃ value, es = [(name, value)] := by
  have hnames : es.map (·.1) = List.replicate es.length name := by
    rw [List.eq_replicate_iff]
    exact ⟨List.length_map _, List.forall_mem_map.mpr h⟩
  have hlength : es.length ≤ 1 := by
    rw [← List.nodup_replicate (a := name), ← hnames]
    exact hes
  have hpos := List.length_pos_iff.mpr hne
  obtain ⟨⟨_, value⟩, rfl⟩ := List.length_eq_one_iff.mp (Nat.le_antisymm hlength hpos)
  obtain rfl := h _ (List.mem_singleton_self _)
  exact ⟨value, rfl⟩

/-! ### Looking up -/

@[simp]
theorem get?_nil (name : Bytes) : get? ([] : Entries α) name = none := rfl

theorem get?_cons (e : Bytes × α) (es : Entries α) (name : Bytes) :
    get? (e :: es) name = if e.1 = name then some e.2 else get? es name := by
  by_cases h : e.1 = name
  · simp [get?, h]
  · simp [get?, h]

theorem mem_of_get?_eq_some {es : Entries α} {name : Bytes} {value : α}
    (h : es.get? name = some value) : (name, value) ∈ es := by
  induction es with
  | nil => simp at h
  | cons e es ih =>
    rw [get?_cons] at h
    split_ifs at h with he
    · obtain rfl := Option.some.inj h
      rw [← he]
      exact List.mem_cons_self ..
    · exact List.mem_cons_of_mem _ (ih h)

/-- **The value under a name is the one listed with it.** -/
theorem get?_eq_some_iff {es : Entries α} (hes : es.IsDistinct) {name : Bytes} {value : α} :
    es.get? name = some value ↔ (name, value) ∈ es := by
  refine ⟨mem_of_get?_eq_some, fun h => ?_⟩
  induction es with
  | nil => exact absurd h List.not_mem_nil
  | cons e es ih =>
    obtain ⟨hnot, hes'⟩ := List.nodup_cons.mp (show (e.1 :: es.map (·.1)).Nodup from hes)
    rw [get?_cons]
    rcases List.mem_cons.mp h with rfl | h
    · rw [if_pos rfl]
    · have hne : e.1 ≠ name := by
        intro he
        exact hnot (he ▸ List.mem_map_of_mem h)
      rw [if_neg hne]
      exact ih hes' h

theorem IsDistinct.perm {es es' : Entries α} (hes : es.IsDistinct) (h : es.Perm es') :
    es'.IsDistinct :=
  (h.map fun e : Bytes × α => e.1).nodup_iff.mp hes

/-- The order of entries does not matter. -/
theorem get?_perm {es es' : Entries α} (hes : es.IsDistinct) (h : es.Perm es') (name : Bytes) :
    es.get? name = es'.get? name := by
  apply Option.ext
  intro value
  rw [get?_eq_some_iff hes, get?_eq_some_iff (hes.perm h), h.mem_iff]

/-- Maps that answer alike list the same entries. -/
theorem perm_of_get?_eq {es es' : Entries α} (hes : es.IsDistinct) (hes' : es'.IsDistinct)
    (h : ∀ name, es.get? name = es'.get? name) : es.Perm es' := by
  rw [List.perm_ext_iff_of_nodup (List.Nodup.of_map _ hes) (List.Nodup.of_map _ hes')]
  rintro ⟨name, value⟩
  rw [← get?_eq_some_iff hes, ← get?_eq_some_iff hes', h name]

/-- Values that are changed under unchanged names. -/
theorem get?_map {β : Type} (f : α → β) (es : Entries α) (name : Bytes) :
    get? (es.map fun e => (e.1, f e.2)) name = (es.get? name).map f := by
  induction es with
  | nil => rfl
  | cons e es ih =>
    rw [List.map_cons, get?_cons, get?_cons, ih]
    split_ifs
    · rfl
    · rfl

theorem get?_eq_none_iff {es : Entries α} {name : Bytes} :
    es.get? name = none ↔ name ∉ es.map (·.1) := by
  constructor
  · intro h hmem
    obtain ⟨e, he, rfl⟩ := List.mem_map.mp hmem
    rw [get?, Option.map_eq_none_iff, List.find?_eq_none] at h
    exact h e he (by simp)
  · intro h
    rw [Option.eq_none_iff_forall_ne_some]
    intro value hvalue
    exact h (List.mem_map_of_mem (f := fun e : Bytes × α => e.1) (mem_of_get?_eq_some hvalue))

/-! ### Setting and laying over -/

theorem mem_names_set {es : Entries α} {name other : Bytes} {value : α}
    (h : other ∈ (es.set name value).map (·.1)) : other = name ∨ other ∈ es.map (·.1) := by
  induction es with
  | nil =>
    rw [set, List.map_singleton, List.mem_singleton] at h
    exact .inl h
  | cons e es ih =>
    rw [set] at h
    split_ifs at h
    · rw [List.map_cons, List.mem_cons] at h
      exact h.imp_right (List.mem_cons_of_mem _)
    · rw [List.map_cons, List.mem_cons] at h ⊢
      rcases h with h | h
      · exact .inr (.inl h)
      · exact (ih h).imp_right .inr

/-- What holds of all entries and of a new one holds after setting it. -/
theorem forall_mem_set {P : Bytes × α → Prop} {es : Entries α} {name : Bytes} {value : α}
    (hes : ∀ e ∈ es, P e) (hnew : P (name, value)) : ∀ e ∈ es.set name value, P e := by
  induction es with
  | nil => exact List.forall_mem_singleton.mpr hnew
  | cons e es ih =>
    rw [List.forall_mem_cons] at hes
    rw [set]
    split_ifs
    · exact List.forall_mem_cons.mpr ⟨hnew, hes.2⟩
    · exact List.forall_mem_cons.mpr ⟨hes.1, ih hes.2⟩

/-- An entry under a new name comes last. -/
theorem set_eq_append {es : Entries α} {name : Bytes} {value : α} (h : ∀ e ∈ es, e.1 ≠ name) :
    es.set name value = es ++ [(name, value)] := by
  induction es with
  | nil => rfl
  | cons e es ih =>
    rw [List.forall_mem_cons] at h
    rw [set, if_neg h.1, ih h.2, List.cons_append]

/-- Setting an entry lists no name twice. -/
theorem IsDistinct.set {es : Entries α} (hes : es.IsDistinct) (name : Bytes) (value : α) :
    (es.set name value).IsDistinct := by
  induction es with
  | nil => exact List.nodup_singleton _
  | cons e es ih =>
    obtain ⟨hnot, hes'⟩ := List.nodup_cons.mp (show (e.1 :: es.map (·.1)).Nodup from hes)
    rw [Entries.set]
    split_ifs with he
    · rw [he] at hnot
      exact List.nodup_cons.mpr ⟨hnot, hes'⟩
    · refine List.nodup_cons.mpr ⟨fun h => ?_, ih hes'⟩
      rcases mem_names_set h with h | h
      · exact he h
      · exact hnot h

/-- **Of two maps laid over each other the upper one decides**, and the lower one where the upper
one says nothing. -/
theorem get?_overlay (es : Entries α) {top : Entries α} (htop : top.IsDistinct) (name : Bytes) :
    (es.overlay top).get? name = (top.get? name).or (es.get? name) := by
  induction top generalizing es with
  | nil => rfl
  | cons e top ih =>
    obtain ⟨hnot, htop'⟩ := List.nodup_cons.mp (show (e.1 :: top.map (·.1)).Nodup from htop)
    have hstep : es.overlay (e :: top) = (es.set e.1 e.2).overlay top := rfl
    rw [hstep, ih _ htop', get?_cons]
    split_ifs with he
    · rw [← he, get?_eq_none_iff.mpr hnot, get?_set_self]
      rfl
    · rw [get?_set_of_ne es e.2 he]

theorem IsDistinct.overlay {es : Entries α} (hes : es.IsDistinct) (top : Entries α) :
    (es.overlay top).IsDistinct := by
  induction top generalizing es with
  | nil => exact hes
  | cons e top ih => exact ih (hes.set e.1 e.2)

theorem forall_mem_overlay {P : Bytes × α → Prop} {es top : Entries α} (hes : ∀ e ∈ es, P e)
    (htop : ∀ e ∈ top, P e) : ∀ e ∈ es.overlay top, P e := by
  induction top generalizing es with
  | nil => exact hes
  | cons e top ih =>
    rw [List.forall_mem_cons] at htop
    exact ih (forall_mem_set hes htop.1) htop.2

/-- Maps are laid over each other in whatever order they are listed. -/
theorem overlay_perm {es es' top top' : Entries α} (hes : es.IsDistinct) (htop : top.IsDistinct)
    (h : es.Perm es') (h' : top.Perm top') : (es.overlay top).Perm (es'.overlay top') := by
  refine perm_of_get?_eq (hes.overlay top) ((hes.perm h).overlay top') fun name => ?_
  rw [get?_overlay es htop, get?_overlay es' (htop.perm h'), get?_perm hes h, get?_perm htop h']

/-! ### Comparing -/

section

variable {β : Type} {R : α → β → Prop}

/-- Whether two maps have the same names, with related values under them, in whatever order they
list them. -/
def Alike (R : α → β → Prop) (es : Entries α) (es' : Entries β) : Prop :=
  ∃ ordered : Entries α, es.Perm ordered ∧
    List.Forall₂ (fun e e' => e'.1 = e.1 ∧ R e.2 e'.2) ordered es'

theorem alike_nil : Alike R [] [] := ⟨[], .nil, .nil⟩

/-- Maps that are alike answer alike. -/
theorem Alike.get? {es : Entries α} {es' : Entries β} (h : es.Alike R es') (hes : es.IsDistinct)
    (name : Bytes) : Option.Rel R (es.get? name) (es'.get? name) := by
  obtain ⟨ordered, hperm, hordered⟩ := h
  rw [get?_perm hes hperm]
  clear hperm
  induction hordered with
  | nil => exact .none
  | cons he _ ih =>
    rw [get?_cons, get?_cons, he.1]
    split_ifs
    · exact .some he.2
    · exact ih

end

end ScriptLint.Entries
