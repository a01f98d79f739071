import ScriptLint.Path
import ScriptLint.Proofs.Text.Bytes
import Mathlib.Data.List.TakeWhile

/-!
# Paths as lists of names

An absolute clean path is a list of names. Locating a path always gives one (`Path.locate_isClean`),
and the way from one such place to another tells the two apart: `Path.between` is injective in the
target, and so is the path that is shown (`Path.splitBytes_relative_injective`), also when it has to
go up. The order of shown paths is the lexicographic one of their components
(`Path.componentsLt_iff`).
-/

namespace ScriptLint.Path

/-! ### Names -/

/-- A name that stands for an entry of a directory: not empty, without slashes, and neither `.` nor
`..`. -/
structure IsName (c : Bytes) : Prop where
  nonempty : c ≠ []
  no_slash : slash ∉ c
  ne_here : c ≠ here
  ne_up : c ≠ up

instance (c : Bytes) : Decidable (IsName c) :=
  decidable_of_iff (c ≠ [] ∧ slash ∉ c ∧ c ≠ here ∧ c ≠ up)
    ⟨fun h => ⟨h.1, h.2.1, h.2.2.1, h.2.2.2⟩, fun h => ⟨h.1, h.2, h.3, h.4⟩⟩

/-- The components of an absolute clean path: names only. -/
def IsClean (cs : List Bytes) : Prop := ∀ c ∈ cs, IsName c

theorem IsClean.append {as bs : List Bytes} (ha : IsClean as) (hb : IsClean bs) :
    IsClean (as ++ bs) := by
  intro c hc
  rcases List.mem_append.mp hc with h | h
  · exact ha c h
  · exact hb c h

theorem IsClean.concat {cs : List Bytes} (hcs : IsClean cs) {c : Bytes} (hc : IsName c) :
    IsClean (cs ++ [c]) :=
  hcs.append fun _ hd => List.mem_singleton.mp hd ▸ hc

theorem IsClean.reverse {cs : List Bytes} (hcs : IsClean cs) : IsClean cs.reverse :=
  fun c hc => hcs c (List.mem_reverse.mp hc)

theorem IsClean.drop {cs : List Bytes} (hcs : IsClean cs) (k : ℕ) : IsClean (cs.drop k) :=
  fun c hc => hcs c (List.mem_of_mem_drop hc)

/-- What `..` takes back from names, and names put after names, are names. -/
theorem foldl_step_isClean {cs before : List Bytes} (hbefore : IsClean before)
    (hcs : ∀ c ∈ cs, c = up ∨ IsName c) : IsClean (cs.foldl (step true) before) := by
  induction cs generalizing before with
  | nil => exact hbefore
  | cons c cs ih =>
    rw [List.foldl_cons]
    refine ih ?_ fun d hd => hcs d (List.mem_cons_of_mem _ hd)
    rcases hcs c (List.mem_cons_self ..) with rfl | hc
    · cases before with
      | nil => simpa [step] using hbefore
      | cons d ds =>
        have hd := hbefore d (List.mem_cons_self ..)
        simp only [step, if_true, hd.ne_up, if_false]
        exact fun x hx => hbefore x (List.mem_cons_of_mem _ hx)
    · simp only [step, hc.ne_up, if_false]
      intro x hx
      rcases List.mem_cons.mp hx with rfl | hx
      · exact hc
      · exact hbefore x hx

theorem mem_components {p c : Bytes} (h : c ∈ components p) : c = up ∨ IsName c := by
  rw [components, List.mem_filter, decide_eq_true_eq] at h
  obtain ⟨hmem, hne, hhere⟩ := h
  by_cases hup : c = up
  · exact .inl hup
  · exact .inr ⟨hne, not_mem_of_mem_splitBytes hmem, hhere, hup⟩

/-- **The absolute form of a path consists of names.** -/
theorem locate_isClean {cwd : List Bytes} (hcwd : IsClean cwd) (p : Bytes) :
    IsClean (locate cwd p) := by
  have hsettle {cs : List Bytes} (hcs : ∀ c ∈ cs, c = up ∨ IsName c) :
      IsClean (settle true cs) := by
    intro c hc
    have hnil : IsClean [] := fun x hx => absurd hx List.not_mem_nil
    exact foldl_step_isClean hnil hcs c (List.mem_reverse.mp hc)
  rw [locate]
  split_ifs
  · exact hsettle fun c hc => mem_components hc
  · refine hsettle fun c hc => ?_
    rcases List.mem_append.mp hc with h | h
    · exact .inr (hcwd c h)
    · exact mem_components h

/-! ### Rendering and locating -/

theorem isAbsolute_render (cs : List Bytes) : isAbsolute (render cs) = true := rfl

theorem components_render {cs : List Bytes} (hcs : IsClean cs) : components (render cs) = cs := by
  have hkeep : cs.filter (fun c => c ≠ [] ∧ c ≠ here) = cs := by
    rw [List.filter_eq_self]
    intro c hc
    exact decide_eq_true ⟨(hcs c hc).nonempty, (hcs c hc).ne_here⟩
  rw [components, render, splitBytes, if_pos rfl, List.filter_cons_of_neg (by simp)]
  by_cases hne : cs = []
  · subst hne
    decide
  · rw [splitBytes_joinBytes hne fun c hc => (hcs c hc).no_slash, hkeep]

theorem foldl_step_of_isClean {cs : List Bytes} (hcs : IsClean cs) (before : List Bytes) :
    cs.foldl (step true) before = cs.reverse ++ before := by
  induction cs generalizing before with
  | nil => rfl
  | cons c cs ih =>
    have hc := hcs c (List.mem_cons_self ..)
    rw [List.foldl_cons, ih fun d hd => hcs d (List.mem_cons_of_mem _ hd), List.reverse_cons,
      List.append_assoc]
    simp only [step, hc.ne_up, if_false, List.singleton_append]

/-- An absolute clean path leads to where it says, from everywhere. -/
theorem locate_render {cs : List Bytes} (hcs : IsClean cs) (cwd : List Bytes) :
    locate cwd (render cs) = cs := by
  rw [locate, if_pos (isAbsolute_render cs), components_render hcs, settle,
    foldl_step_of_isClean hcs, List.append_nil, List.reverse_reverse]

/-! ### Clean paths -/

/-- Taking components one after the other, none that is kept is empty. -/
theorem ne_nil_of_mem_foldl_step {rooted : Bool} {cs before : List Bytes}
    (hbefore : ∀ c ∈ before, c ≠ []) (hcs : ∀ c ∈ cs, c ≠ []) :
    ∀ c ∈ cs.foldl (step rooted) before, c ≠ [] := by
  induction cs generalizing before with
  | nil => exact hbefore
  | cons c cs ih =>
    rw [List.forall_mem_cons] at hcs
    rw [List.foldl_cons]
    refine ih ?_ hcs.2
    have hup : up ≠ [] := by decide
    by_cases hc : c = up
    · cases before with
      | nil => cases rooted <;> simp [step, hc, hup]
      | cons d ds =>
        rw [List.forall_mem_cons] at hbefore
        by_cases hd : d = up
        · simpa [step, hc, hd, hup] using hbefore.2
        · simpa [step, hc, hd] using hbefore.2
    · simp only [step, hc, if_false]
      exact List.forall_mem_cons.mpr ⟨hcs.1, hbefore⟩

/-- A clean path is not empty. -/
theorem clean_ne_nil (p : Bytes) : clean p ≠ [] := by
  have hcs : ∀ c ∈ components p, c ≠ [] := by
    intro c hc
    rw [components, List.mem_filter, decide_eq_true_eq] at hc
    exact hc.2.1
  have hsettled : ∀ c ∈ settle false (components p), c ≠ [] := by
    intro c hc
    exact ne_nil_of_mem_foldl_step (List.forall_mem_nil _) hcs c (List.mem_reverse.mp hc)
  unfold clean
  split_ifs
  · exact List.cons_ne_nil _ _
  · split
    · decide
    · next hne =>
      obtain ⟨c, rest, hsplit⟩ := List.exists_cons_of_ne_nil hne
      rw [hsplit] at hsettled ⊢
      obtain ⟨b, bs, rfl⟩ := List.exists_cons_of_ne_nil (hsettled c (List.mem_cons_self ..))
      cases rest <;> simp [joinBytes]

/-! ### Entries of directories -/

theorem components_append_cons (a b : Bytes) :
    components (a ++ slash :: b) = components a ++ components b := by
  rw [components, splitBytes_append_cons, List.filter_append]
  rfl

theorem components_name {c : Bytes} (hc : IsName c) : components c = [c] := by
  have hsplit : splitBytes slash c = [c] :=
    splitBytes_joinBytes (List.cons_ne_nil c []) (by simpa using hc.no_slash)
  rw [components, hsplit]
  exact List.filter_cons_of_pos (by simpa using ⟨hc.nonempty, hc.ne_here⟩)

theorem isAbsolute_name {c : Bytes} (hc : IsName c) : isAbsolute c = false := by
  obtain ⟨b, r, rfl⟩ := List.exists_cons_of_ne_nil hc.nonempty
  have hb : b ≠ slash := fun h => hc.no_slash (by rw [h]; exact List.mem_cons_self ..)
  simpa [isAbsolute] using hb

theorem settle_isClean {cs : List Bytes} (hcs : IsClean cs) : settle true cs = cs := by
  rw [settle, foldl_step_of_isClean hcs, List.append_nil, List.reverse_reverse]

/-- A name is the entry of the working directory. -/
theorem locate_name {cwd : List Bytes} (hcwd : IsClean cwd) {c : Bytes} (hc : IsName c) :
    locate cwd c = cwd ++ [c] := by
  have hclean : IsClean (cwd ++ [c]) := hcwd.concat hc
  rw [locate, isAbsolute_name hc, components_name hc]
  exact settle_isClean hclean

theorem locate_here {cwd : List Bytes} (hcwd : IsClean cwd) : locate cwd here = cwd := by
  have hcomponents : components here = [] := by decide
  rw [locate, hcomponents, List.append_nil, if_neg (by decide), settle_isClean hcwd]

theorem isAbsolute_render_append (cs : List Bytes) (r : Bytes) :
    isAbsolute (render cs ++ r) = true := by
  simp [isAbsolute, render]

/-- An entry of a directory. -/
theorem join_render {cs : List Bytes} (hcs : IsClean cs) {c : Bytes} (hc : IsName c) :
    join (render cs) c = render (cs ++ [c]) := by
  have hclean : IsClean (cs ++ [c]) := hcs.concat hc
  have hne : render cs ≠ [] := List.cons_ne_nil _ _
  rw [join, if_neg hne, clean, isAbsolute_render_append, if_pos rfl,
    components_append_cons, components_render hcs, components_name hc, settle_isClean hclean]

theorem joinBytes_append_singleton {cs : List Bytes} (hne : cs ≠ []) (c : Bytes) :
    joinBytes [slash] (cs ++ [c]) = joinBytes [slash] cs ++ slash :: c := by
  induction cs with
  | nil => exact absurd rfl hne
  | cons a rest ih =>
    cases rest with
    | nil => simp [joinBytes]
    | cons b rest =>
      have hcons (bs : List Bytes) :
          joinBytes [slash] (a :: b :: bs) = a ++ [slash] ++ joinBytes [slash] (b :: bs) := rfl
      have hrest := ih (List.cons_ne_nil b rest)
      rw [List.cons_append] at hrest
      rw [List.cons_append, List.cons_append, hcons, hcons, hrest, List.append_assoc,
        List.append_assoc, List.append_assoc]

/-- The directory of an entry. -/
theorem directory_render {cs : List Bytes} (hcs : IsClean cs) {c : Bytes} (hc : IsName c) :
    directory (render (cs ++ [c])) = render cs := by
  -- The last component goes, and the slash in front of it stays.
  have hcut (q : Bytes) :
      ((q ++ slash :: c).reverse.dropWhile (· != slash)).reverse = q ++ [slash] := by
    rw [List.reverse_append, List.reverse_cons, List.append_assoc, List.dropWhile_append_of_pos]
    · simp
    · intro b hb
      have hne : b ≠ slash := fun h => hc.no_slash (h ▸ List.mem_reverse.mp hb)
      simpa using hne
  by_cases hnil : cs = []
  · subst hnil
    have hrender : render ([] ++ [c]) = [] ++ slash :: c := rfl
    rw [directory, hrender, hcut]
    decide
  · have hrender : render (cs ++ [c]) = render cs ++ slash :: c := by
      rw [render, joinBytes_append_singleton hnil]
      rfl
    have hnone : components [] = [] := by decide
    rw [directory, hrender, hcut, clean, isAbsolute_render_append, if_pos rfl,
      components_append_cons, components_render hcs, hnone, List.append_nil, settle_isClean hcs]

/-- A path that ends in a name leads to something of this name. -/
theorem getLast?_locate (cwd : List Bytes) {p c : Bytes} {before : List Bytes} (hc : IsName c)
    (h : components p = before ++ [c]) : (locate cwd p).getLast? = some c := by
  have hsettle (cs : List Bytes) : (settle true (cs ++ [c])).getLast? = some c := by
    rw [settle, List.foldl_append, List.getLast?_reverse]
    simp only [List.foldl_cons, List.foldl_nil, step, if_neg hc.ne_up, List.head?_cons]
  rw [locate, h]
  split_ifs
  · exact hsettle before
  · rw [← List.append_assoc]
    exact hsettle (cwd ++ before)

theorem exists_components_join {a c : Bytes} (ha : a ≠ []) (hc : IsName c) :
    ∃ before, components (join a c) = before ++ [c] := by
  have hsettle (rooted : Bool) (cs : List Bytes) :
      settle rooted (cs ++ [c]) = settle rooted cs ++ [c] := by
    rw [settle, List.foldl_append]
    simp only [List.foldl_cons, List.foldl_nil, step, if_neg hc.ne_up, List.reverse_cons]
    rfl
  have hbehind (q : Bytes) : components (q ++ slash :: c) = components q ++ [c] := by
    rw [components_append_cons, components_name hc]
  rw [join, if_neg ha, clean, hbehind, hsettle, hsettle]
  split_ifs
  · by_cases hnil : settle true (components a) = []
    · exact ⟨[], by rw [hnil]; exact hbehind []⟩
    · rw [render, joinBytes_append_singleton hnil, ← List.cons_append, hbehind]
      exact ⟨_, rfl⟩
  · by_cases hnil : settle false (components a) = []
    · exact ⟨[], by rw [hnil]; exact components_name hc⟩
    · split
      · next hempty => exact absurd hempty (by simp)
      · rw [joinBytes_append_singleton hnil, hbehind]
        exact ⟨_, rfl⟩

/-- A name behind a path leads to something of this name. -/
theorem getLast?_locate_join (cwd : List Bytes) {a c : Bytes} (ha : a ≠ []) (hc : IsName c) :
    (locate cwd (join a c)).getLast? = some c := by
  obtain ⟨before, hbefore⟩ := exists_components_join ha hc
  exact getLast?_locate cwd hc hbefore

/-- A name stands in the working directory. -/
theorem directory_name {name : Bytes} (hname : IsName name) : directory name = here := by
  have hgone : name.reverse.dropWhile (· != slash) = [] := by
    rw [List.dropWhile_eq_nil_iff]
    intro b hb
    have hne : b ≠ slash := fun h => hname.no_slash (h ▸ List.mem_reverse.mp hb)
    simpa using hne
  rw [directory, hgone]
  decide

/-! ### The way from one place to another -/

/-- Two lists are the components they share at the front, and what is left of each. -/
theorem exists_shared (as bs : List Bytes) :
    ∃ shared, as = shared ++ (afterShared as bs).1 ∧ bs = shared ++ (afterShared as bs).2 := by
  induction as generalizing bs with
  | nil => exact ⟨[], by simp [afterShared], by simp [afterShared]⟩
  | cons a as ih =>
    cases bs with
    | nil => exact ⟨[], by simp [afterShared], by simp [afterShared]⟩
    | cons b bs =>
      by_cases h : a = b
      · obtain ⟨shared, ha, hb⟩ := ih bs
        refine ⟨a :: shared, ?_, ?_⟩
        · rw [afterShared, if_pos h, List.cons_append, ← ha]
        · rw [afterShared, if_pos h, List.cons_append, ← hb, h]
      · exact ⟨[], by simp [afterShared, h], by simp [afterShared, h]⟩

/-- What is left of names are names. -/
theorem isClean_afterShared_left {base : List Bytes} (hbase : IsClean base) (target : List Bytes) :
    IsClean (afterShared base target).1 := by
  obtain ⟨shared, hsplit, -⟩ := exists_shared base target
  intro c hc
  apply hbase c
  rw [hsplit]
  exact List.mem_append_right shared hc

theorem isClean_afterShared_right (base : List Bytes) {target : List Bytes}
    (htarget : IsClean target) : IsClean (afterShared base target).2 := by
  obtain ⟨shared, -, hsplit⟩ := exists_shared base target
  intro c hc
  apply htarget c
  rw [hsplit]
  exact List.mem_append_right shared hc

/-- A way to names consists of steps up and of names. -/
theorem mem_between {base target : List Bytes} (htarget : IsClean target) {c : Bytes}
    (hc : c ∈ between base target) : c = up ∨ IsName c := by
  rcases List.mem_append.mp hc with h | h
  · exact .inl (List.mem_replicate.mp h).2
  · exact .inr (isClean_afterShared_right base htarget c h)

/-- Steps up before names can be told from the names. -/
theorem replicate_up_append_inj {k l : ℕ} {as bs : List Bytes} (ha : IsClean as) (hb : IsClean bs)
    (h : List.replicate k up ++ as = List.replicate l up ++ bs) : k = l ∧ as = bs := by
  induction k generalizing l with
  | zero =>
    cases l with
    | zero => exact ⟨rfl, by simpa using h⟩
    | succ l =>
      rw [List.replicate_zero, List.nil_append, List.replicate_succ, List.cons_append] at h
      exact absurd rfl (ha up (by rw [h]; exact List.mem_cons_self ..)).ne_up
  | succ k ih =>
    cases l with
    | zero =>
      rw [List.replicate_zero, List.nil_append, List.replicate_succ, List.cons_append] at h
      exact absurd rfl (hb up (by rw [← h]; exact List.mem_cons_self ..)).ne_up
    | succ l =>
      rw [List.replicate_succ, List.replicate_succ, List.cons_append, List.cons_append] at h
      obtain ⟨hkl, hab⟩ := ih (List.cons.inj h).2
      exact ⟨by rw [hkl], hab⟩

/-- **The way from a place tells where it leads.** -/
theorem between_injective (base : List Bytes) {s t : List Bytes} (hs : IsClean s) (ht : IsClean t)
    (h : between base s = between base t) : s = t := by
  obtain ⟨shared, hbase, hshared⟩ := exists_shared base s
  obtain ⟨shared', hbase', hshared'⟩ := exists_shared base t
  obtain ⟨hup, hdown⟩ := replicate_up_append_inj (isClean_afterShared_right base hs)
    (isClean_afterShared_right base ht) h
  -- Equally many steps up leave equally much of the base, so the shared parts are the same.
  have hlen : shared.length = shared'.length := by
    have h₁ := congrArg List.length hbase
    have h₂ := congrArg List.length hbase'
    rw [List.length_append] at h₁ h₂
    omega
  have hsame : shared = shared' :=
    List.append_inj_left (hbase.symm.trans hbase') hlen
  rw [hshared, hshared', hsame, hdown]

/-- No component of a way holds a slash, is empty or is `.`. -/
theorem of_mem_between {base target : List Bytes} (htarget : IsClean target) {c : Bytes}
    (hc : c ∈ between base target) : slash ∉ c ∧ c ≠ [] ∧ c ≠ here := by
  rcases mem_between htarget hc with rfl | hname
  · decide
  · exact ⟨hname.no_slash, hname.nonempty, hname.ne_here⟩

/-- The components of the path that is shown. -/
theorem splitBytes_relative {base t : List Bytes} (ht : IsClean t) :
    splitBytes slash (relative base t)
      = if between base t = [] then [here] else between base t := by
  rw [relative]
  cases hway : between base t with
  | nil => rfl
  | cons c cs =>
    rw [if_neg (List.cons_ne_nil c cs)]
    refine splitBytes_joinBytes (List.cons_ne_nil c cs) fun d hd => ?_
    rw [← hway] at hd
    exact (of_mem_between ht hd).1

/-- **Shown paths tell places apart**, component by component. -/
theorem splitBytes_relative_injective {base s t : List Bytes} (hs : IsClean s) (ht : IsClean t)
    (h : splitBytes slash (relative base s) = splitBytes slash (relative base t)) : s = t := by
  rw [splitBytes_relative hs, splitBytes_relative ht] at h
  apply between_injective base hs ht
  split_ifs at h with h₁ h₂ h₂
  · rw [h₁, h₂]
  · exact absurd rfl (of_mem_between ht (by rw [← h]; exact List.mem_singleton_self here)).2.2
  · exact absurd rfl (of_mem_between hs (by rw [h]; exact List.mem_singleton_self here)).2.2
  · exact h

/-! ### The order of components -/

/-- The components of a path as lists of numbers, by which paths are ordered. -/
def componentsKey (cs : List Bytes) : List (List ℕ) := cs.map byteKey

theorem componentsKey_injective : Function.Injective componentsKey :=
  List.map_injective_iff.mpr byteKey_injective

/-- **The order of paths is the lexicographic order of their components.** -/
theorem componentsLt_iff (as bs : List Bytes) :
    componentsLt as bs = true ↔ componentsKey as < componentsKey bs := by
  induction as generalizing bs with
  | nil =>
    cases bs with
    | nil => simp [componentsLt, componentsKey]
    | cons b bs => simp [componentsLt, componentsKey]
  | cons a as ih =>
    cases bs with
    | nil => simp [componentsLt, componentsKey]
    | cons b bs =>
      simp only [componentsLt, Bool.or_eq_true, Bool.and_eq_true, beq_iff_eq, ih, bytesLt_iff,
        componentsKey, List.map_cons, List.cons_lt_cons_iff, byteKey_injective.eq_iff]

end ScriptLint.Path
