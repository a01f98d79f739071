import ScriptLint.Command.Run
import ScriptLint.Proofs.Command.NewFile
import ScriptLint.Proofs.Config.Defaults
import ScriptLint.Proofs.Pattern.Include
import Mathlib

/-!
# The configuration of a new project

The init command writes the defaults, spelled out, into a file in the working directory. This
changes where the search for a configuration ends (`discoverFrom_addsFile`) and which configuration
is in force (`hasConfig_addsFile`), but not what a check does: the root stays
(`projectRoot_addsFile`), and the new configuration comes to the same as none
(`Config.actsAs_fullDefaults`). So checks go on as before (`init_is_neutral`), unless a
configuration that was there before takes the new file for a script (`init_is_noticed_from_below`).
-/

namespace ScriptLint

/-! ### What is written -/

theorem Config.isName_fileName : Path.IsName Config.fileName := by decide +kernel

/-- **The init command adds the defaults as a file**, which can be read. -/
theorem addsFile_of_init {g : Registry} {w : World} (hw : w.IsProper) {c : Call}
    (hc : c.arguments = [bytes "init"]) (hcode : (runProgram g w c).code = 0) :
    w.AddsFile (runProgram g w c).world (w.cwd ++ [Config.fileName])
        (Config.fullDefaults g).render ∧
      (runProgram g w c).world.lookup Config.fileName
        = .ok (.file (Config.fullDefaults g).render) := by
  have hcommand : Command.ofArguments c.arguments = .init [] := by
    rw [hc]
    decide +kernel
  have hpath : Path.join Path.here Config.fileName = Config.fileName := by decide +kernel
  have hparse : Flag.parse initFlags [] = .ok {} := rfl
  have hdir : (({} : Parsed).last? "dir").getD Path.here = Path.here := rfl
  simp only [runProgram, hcommand, runInit, hparse, hdir, hpath] at hcode ⊢
  simp only [List.isEmpty_nil, Bool.not_true, Bool.false_eq_true, if_false] at hcode ⊢
  split_ifs at hcode ⊢ with hexists
  rw [Bool.not_eq_true] at hexists
  cases hwrite : w.writeFile Config.fileName (Config.fullDefaults g).render with
  | error e =>
    rw [hwrite] at hcode
    cases hcode
  | ok w' => exact World.addsFile_of_writeFile hw Config.isName_fileName hexists hwrite

/-! ### The search for a configuration -/

theorem Config.exists?_of_discoverFrom {w : World} {reversed : List Bytes} {path : Bytes}
    (hfound : discoverFrom w reversed = some path) : w.exists? path = true := by
  have hstep (dir : List Bytes) (rest : Option Bytes)
      (hrest : rest = some path → w.exists? path = true)
      (hdir : (discoverFrom.searchIn w dir).getD rest = some path) : w.exists? path = true := by
    unfold discoverFrom.searchIn at hdir
    dsimp only at hdir
    split_ifs at hdir with hexists hmark
    · obtain rfl := Option.some.inj hdir
      exact hexists
    · cases hdir
    · exact hrest hdir
  induction reversed with
  | nil => exact hstep [] none (fun h => by cases h) (by rwa [discoverFrom] at hfound)
  | cons c above ih => exact hstep (c :: above) _ ih (by rwa [discoverFrom] at hfound)

/-- Whether a search gives the same in a world with a new configuration, or the new one instead of
none. -/
def World.StaysOrBecomesNew (w : World) (before after : Option Bytes) : Prop :=
  after = before ∨ (before = none ∧ after = some (Path.render (w.cwd ++ [Config.fileName])))

section Search

variable {w w' : World} {content : Bytes} {o : CheckOptions} (hw : w.IsProper)
  (h : w.AddsFile w' (w.cwd ++ [Config.fileName]) content)

include hw h

theorem searchIn_of_ne {dir : List Bytes} (hdir : Path.IsClean dir) (hne : dir ≠ w.cwd) :
    Config.discoverFrom.searchIn w' dir.reverse = Config.discoverFrom.searchIn w dir.reverse := by
  have hplace : Path.locate w.cwd (Path.render (dir ++ [Config.fileName]))
      ≠ w.cwd ++ [Config.fileName] := by
    rw [Path.locate_render (hdir.concat Config.isName_fileName)]
    exact fun heq => hne (List.append_cancel_right heq)
  simp only [Config.discoverFrom.searchIn, List.reverse_reverse,
    Path.join_render hdir Config.isName_fileName, World.exists?_eq_shows, h.shows_eq hw hplace,
    h.isDirectory_eq hw]

/-- In the working directory the new file is found, or the search goes on as before. -/
theorem searchIn_cwd :
    Config.discoverFrom.searchIn w' w.cwd.reverse
        = some (some (Path.render (w.cwd ++ [Config.fileName]))) ∨
      Config.discoverFrom.searchIn w' w.cwd.reverse
        = Config.discoverFrom.searchIn w w.cwd.reverse := by
  have hclean := hw.cwd.concat Config.isName_fileName
  have hnothing : w.exists? (Path.render (w.cwd ++ [Config.fileName])) = false := by
    rw [World.exists?_eq_shows, h.shows_eq_none hw (Path.locate_render hclean _)]
    rfl
  simp only [Config.discoverFrom.searchIn, List.reverse_reverse,
    Path.join_render hw.cwd Config.isName_fileName, hnothing, h.isDirectory_eq hw]
  -- The new file is missed if its absolute path is too long to be followed.
  by_cases hexists : w'.exists? (Path.render (w.cwd ++ [Config.fileName])) = true
  · exact .inl (by rw [if_pos hexists])
  · exact .inr (by rw [if_neg hexists, if_neg Bool.false_ne_true])

/-- What the search gives in a directory and above it. -/
theorem getD_searchIn_addsFile {reversed : List Bytes} (hclean : Path.IsClean reversed.reverse)
    {rest rest' : Option Bytes}
    (hstart : reversed.reverse = w.cwd → (Config.discoverFrom.searchIn w reversed).getD rest = none)
    (hrest : w.StaysOrBecomesNew rest rest') :
    w.StaysOrBecomesNew ((Config.discoverFrom.searchIn w reversed).getD rest)
      ((Config.discoverFrom.searchIn w' reversed).getD rest') := by
  have hgoes (hsame : Config.discoverFrom.searchIn w' reversed
      = Config.discoverFrom.searchIn w reversed) :
      w.StaysOrBecomesNew ((Config.discoverFrom.searchIn w reversed).getD rest)
        ((Config.discoverFrom.searchIn w' reversed).getD rest') := by
    rw [hsame]
    cases Config.discoverFrom.searchIn w reversed with
    | none => exact hrest
    | some answer => exact .inl rfl
  by_cases hcwd : reversed.reverse = w.cwd
  · have hreversed : w.cwd.reverse = reversed := by rw [← hcwd, List.reverse_reverse]
    have hdir := searchIn_cwd hw h
    rw [hreversed] at hdir
    rcases hdir with hnew | hsame
    · exact .inr ⟨hstart hcwd, by rw [hnew]; rfl⟩
    · exact hgoes hsame
  · have hsame := searchIn_of_ne hw h hclean hcwd
    rw [List.reverse_reverse] at hsame
    exact hgoes hsame

/-- **The search for a configuration finds what it found, or the new file where it found none.** -/
theorem discoverFrom_addsFile (hnone : Config.discoverFrom w w.cwd.reverse = none)
    {reversed : List Bytes} (hclean : Path.IsClean reversed.reverse) :
    w.StaysOrBecomesNew (Config.discoverFrom w reversed) (Config.discoverFrom w' reversed) := by
  have hstart (reversed : List Bytes) (hcwd : reversed.reverse = w.cwd) :
      Config.discoverFrom w reversed = none := by
    rw [← hnone, ← hcwd, List.reverse_reverse]
  -- Up the directories, as the search goes.
  induction reversed with
  | nil => exact getD_searchIn_addsFile hw h hclean (hstart []) (.inl rfl)
  | cons c above ih =>
    rw [List.reverse_cons] at hclean
    have habove := ih fun d hd => hclean d (List.mem_append_left _ hd)
    rw [← List.reverse_cons] at hclean
    exact getD_searchIn_addsFile hw h hclean (hstart (c :: above)) habove

/-- The configuration file stays, or the new file becomes it where there was none. -/
theorem configPath_addsFile (hnone : Config.discover? w (Path.render w.cwd) = none)
    (hconfig : o.config = []) :
    configPath w' o = configPath w o ∨
      (configPath w o = [] ∧ configPath w' o = Path.render (w.cwd ++ [Config.fileName])) := by
  rw [Config.discover?, Path.locate_render hw.cwd] at hnone
  simp only [configPath, if_pos hconfig, Config.discover?, h.cwd]
  have hclean : Path.IsClean
      (Path.locate w.cwd (if o.root = [] then Path.render w.cwd else o.root)).reverse.reverse := by
    rw [List.reverse_reverse]
    exact Path.locate_isClean hw.cwd _
  rcases discoverFrom_addsFile hw h hnone hclean with hsame | ⟨hnothing, hnew⟩
  · exact .inl (by rw [hsame])
  · exact .inr ⟨by rw [hnothing]; rfl, by rw [hnew]; rfl⟩

/-- The directory of the new file is the root without it. -/
theorem projectRoot_addsFile (hnone : Config.discover? w (Path.render w.cwd) = none)
    (hconfig : o.config = []) : projectRoot w' o = projectRoot w o := by
  unfold projectRoot
  rw [h.cwd]
  rcases configPath_addsFile hw h hnone hconfig with hsame | ⟨hnothing, hnew⟩
  · rw [hsame]
  · have hne : Path.render (w.cwd ++ [Config.fileName]) ≠ [] := List.cons_ne_nil _ _
    rw [hnothing, hnew, if_neg hne, if_pos rfl, Path.directory_render hw.cwd Config.isName_fileName]

end Search

/-! ### Configurations that change nothing -/

namespace Runner

variable {r : Runner} (hr : ∀ rule ∈ r.rules, rule ∈ Registry.standard.rules)
  (hc : r.config.IsNeutral)

include hr hc

theorem validate_of_isNeutral : r.validate = .ok () := by
  rw [validate_eq_ok_iff]
  intro rule hrule table htable e he _
  rw [tables, hc.overrides, List.map_nil, List.mem_singleton] at htable
  subst htable
  obtain ⟨e', he', -, hconfigure⟩ := hc.rules rule (hr rule hrule)
  obtain rfl := Option.some.inj (he.symm.trans he')
  exact ⟨rule, hconfigure⟩

/-- Under such a configuration every rule finds what it finds as it is registered. -/
theorem findings_of_isNeutral (s : Script) : r.findings (.ok s) = r.rules.flatMap (·.check s) := by
  refine List.flatMap_congr fun rule hrule => ?_
  obtain ⟨e, he, hon, hconfigure⟩ := hc.rules rule (hr rule hrule)
  have hentry : r.entry s rule = e := by
    rw [entry, Config.effective, hc.overrides, List.foldl_nil, he, Option.getD_some]
  rw [ruleFindings, hentry, if_pos hon, hconfigure]

end Runner

namespace Config

theorem ActsAs.refl (g : Registry) (c : Config) : c.ActsAs g c :=
  ⟨rfl, rfl, rfl, Iff.rfl, fun _ _ => Iff.rfl, fun _ _ => rfl⟩

/-- **The defaults that are spelled out come to the same as none.** -/
theorem actsAs_fullDefaults :
    ((defaults .standard).merge none).ActsAs .standard
      ((defaults .standard).merge (some (fullDefaults .standard))) where
  scripts := rfl
  patterns := rfl
  ignored := rfl
  sound := iff_of_true validate_merge_fullDefaults validate_merge_none
  settings := fun r hr => iff_of_true
    (Runner.validate_of_isNeutral hr isNeutral_fullDefaults)
    (Runner.validate_of_isNeutral hr isNeutral_defaults)
  findings := by
    intro r hr
    have hfound {c : Config} (hc : c.IsNeutral) (s : Script) :
        ({ r with config := c } : Runner).findings (.ok s) = r.rules.flatMap (·.check s) :=
      Runner.findings_of_isNeutral (r := { r with config := c }) hr hc s
    funext x
    cases x with
    | error e => rfl
    | ok s => rw [hfound isNeutral_fullDefaults, hfound isNeutral_defaults]

end Config

/-! ### The configuration in force -/

section InForce

variable {w w' : World} {o : CheckOptions} (hw : w.IsProper)
  (h : w.AddsFile w' (w.cwd ++ [Config.fileName]) (Config.fullDefaults .standard).render)

theorem exists?_configPath (hconfig : o.config = []) (hne : configPath w o ≠ []) :
    w.exists? (configPath w o) = true := by
  simp only [configPath, if_pos hconfig] at hne ⊢
  cases hfound : Config.discover? w (if o.root = [] then Path.render w.cwd else o.root) with
  | none =>
    rw [hfound] at hne
    exact absurd rfl hne
  | some path => exact Config.exists?_of_discoverFrom hfound

include h in
/-- The new file is loaded as the defaults, wherever it can be reached. -/
theorem load_addsFile {path : Bytes} (hpath : Path.locate w.cwd path = w.cwd ++ [Config.fileName])
    (hexists : w'.exists? path = true) :
    Config.load w' path = .ok (Config.fullDefaults .standard) := by
  rw [World.exists?_eq_shows] at hexists
  have hread : w'.readFile path = .ok (Config.fullDefaults .standard).render := by
    have hcontent := World.toOption_readFile w' path
    rw [h.shows_new hpath hexists] at hcontent
    cases hfile : w'.readFile path with
    | error e =>
      rw [hfile] at hcontent
      cases hcontent
    | ok data =>
      rw [hfile] at hcontent
      rw [Option.some.inj hcontent]
  simp only [Config.load, hread, Config.decode_render_fullDefaults]

variable (hnone : Config.discover? w (Path.render w.cwd) = none) (hconfig : o.config = [])

include hw h hnone hconfig

/-- The configuration in force stays, or it is that of the new file where there was none. -/
theorem hasConfig_addsFile :
    (∀ c, o.HasConfig .standard w' c ↔ o.HasConfig .standard w c) ∨
      (configPath w o = [] ∧ ∀ c, o.HasConfig .standard w' c ↔
        c = (Config.defaults .standard).merge (some (Config.fullDefaults .standard))) := by
  rcases configPath_addsFile hw h hnone hconfig with hsame | ⟨hnothing, hnew⟩
  · refine .inl fun c => ?_
    unfold CheckOptions.HasConfig
    rw [hsame]
    refine or_congr Iff.rfl (and_congr_right fun hne => ?_)
    -- What the search found was there before, so it is not the new file.
    have hload : Config.load w' (configPath w o) = Config.load w (configPath w o) := by
      rw [Config.load, Config.load, h.readFile_eq hw (exists?_configPath hconfig hne)]
    rw [hload]
  · refine .inr ⟨hnothing, fun c => ?_⟩
    have hclean := hw.cwd.concat Config.isName_fileName
    have hne : configPath w' o ≠ [] := by
      rw [hnew]
      exact List.cons_ne_nil _ _
    have hexists := exists?_configPath hconfig hne
    have hload : Config.load w' (configPath w' o) = .ok (Config.fullDefaults .standard) := by
      rw [hnew] at hexists ⊢
      exact load_addsFile h (Path.locate_render hclean _) hexists
    constructor
    · rintro (⟨hempty, -⟩ | ⟨-, loaded, hloaded, rfl⟩)
      · exact absurd hempty hne
      · rw [Except.ok.inj (hloaded.symm.trans hload)]
    · rintro rfl
      exact .inr ⟨hne, _, hload, rfl⟩

theorem exists_hasConfig_addsFile :
    (∃ c, o.HasConfig .standard w' c) ↔ ∃ c, o.HasConfig .standard w c := by
  rcases hasConfig_addsFile hw h hnone hconfig with hsame | ⟨hnothing, hnew⟩
  · exact exists_congr hsame
  · exact iff_of_true ⟨_, (hnew _).mpr rfl⟩ ⟨_, .inl ⟨hnothing, rfl⟩⟩

theorem actsAs_addsFile {c c' : Config} (hc : o.HasConfig .standard w c)
    (hc' : o.HasConfig .standard w' c') : c.ActsAs .standard c' := by
  rcases hasConfig_addsFile hw h hnone hconfig with hsame | ⟨hnothing, hnew⟩
  · rw [hc.unique ((hsame c').mp hc')]
    exact .refl _ _
  · have hdefaults : o.HasConfig .standard w ((Config.defaults .standard).merge none) :=
      .inl ⟨hnothing, rfl⟩
    rw [hc.unique hdefaults, (hnew c').mp hc']
    exact Config.actsAs_fullDefaults

end InForce

/-! ### The search for scripts -/

theorem Discovery.Search.isSuffix_below {rel : List Bytes} {c : Bytes}
    (h : rel.getLast? = some c) : c <:+ below rel := by
  obtain ⟨before, rfl⟩ := List.getLast?_eq_some_iff.mp h
  rw [below]
  by_cases hnil : before = []
  · subst hnil
    exact List.suffix_rfl
  · rw [Path.joinBytes_append_singleton hnil]
    exact (List.suffix_cons _ _).trans (List.suffix_append _ _)

namespace CheckOptions

variable {w : World} {o : CheckOptions}

/-- The patterns that hold without a configuration take no configuration file. -/
theorem not_takes_of_defaultPatterns {c : Config} (hc : c.patterns = Config.defaultPatterns) :
    ¬ (o.searchUnder w c).Takes (w.cwd ++ [Config.fileName]) := by
  rintro ⟨rel, hplace, hincludes, -⟩
  simp only [searchUnder, Discovery.searchOf, hc, List.any_eq_true] at hincludes
  obtain ⟨pattern, hpattern, haccepts⟩ := hincludes
  have hscript := Include.suffix_of_accepts_default hpattern haccepts
  by_cases hnil : rel = []
  · subst hnil
    exact absurd (List.suffix_nil.mp hscript) (by decide +kernel)
  · have hlast : rel.getLast? = some Config.fileName := by
      rw [← List.getLast?_append_of_ne_nil _ hnil, ← hplace, List.getLast?_concat]
    have hname := Discovery.Search.isSuffix_below hlast
    have hboth := List.suffix_of_suffix_length_le hscript hname (by decide +kernel)
    exact absurd hboth (by decide +kernel)

/-- Whether a check takes no notice of a file at a place: it names neither a configuration nor the
file, and what another configuration in force says about the scripts leaves the file out. -/
structure Disregards (w : World) (o : CheckOptions) (place : List Bytes) : Prop where
  config : o.config = []
  ruleFile : o.ruleFile ≠ [] → Path.locate w.cwd o.ruleFile ≠ place
  scripts : o.scripts ≠ [] → Path.locate w.cwd (Path.join (projectRoot w o) o.scripts) ≠ place
  configured : o.fromInput = false → configPath w o ≠ [] →
    ∀ loaded, Config.load w (configPath w o) = .ok loaded →
      let search := o.searchUnder w ((Config.defaults .standard).merge (some loaded))
      search.base ≠ place ∧ ¬ search.Takes place

theorem base_searchUnder (c : Config) : (o.searchUnder w c).base
    = Path.locate w.cwd (scriptsBase o c (projectRoot w o)) := by
  have hne : scriptsBase o c (projectRoot w o) ≠ [] := by
    rw [scriptsBase, Path.join, if_neg (projectRoot_ne_nil w o)]
    exact Path.clean_ne_nil _
  rw [searchUnder, Discovery.searchOf, Discovery.baseOf, if_neg hne]

/-- Without a configuration only the scripts that are asked for can lead to the file. -/
theorem Disregards.search (h : o.Disregards w (w.cwd ++ [Config.fileName]))
    (hinput : o.fromInput = false) (c : Config) (hc : o.HasConfig .standard w c) :
    (o.searchUnder w c).base ≠ w.cwd ++ [Config.fileName] ∧
      ¬ (o.searchUnder w c).Takes (w.cwd ++ [Config.fileName]) := by
  rcases hc with ⟨-, rfl⟩ | ⟨hne, loaded, hload, rfl⟩
  · refine ⟨?_, not_takes_of_defaultPatterns rfl⟩
    rw [base_searchUnder, scriptsBase]
    by_cases hscripts : o.scripts = []
    · -- The default directory and the new file have different names.
      rw [if_pos hscripts]
      intro hplace
      have hname : Path.IsName Config.defaultScripts := by decide +kernel
      have hlast := Path.getLast?_locate_join w.cwd (projectRoot_ne_nil w o) hname
      have hnew : (w.cwd ++ [Config.fileName]).getLast? = some Config.fileName :=
        List.getLast?_concat
      rw [← hplace] at hnew
      exact absurd (hlast.symm.trans hnew) (by decide +kernel)
    · rw [if_neg hscripts]
      exact h.scripts hscripts
  · exact h.configured hinput hne loaded hload

end CheckOptions

/-- **A new configuration changes nothing.** Where no configuration is found, the init command
writes one that is loaded and has no problems, and from then on every check prints what it printed
and ends with the code it ended with, as long as it names neither a configuration nor the new file,
and another configuration that is in force for it leaves the new file out. -/
theorem init_is_neutral {w : World} (hw : w.IsProper)
    (hnone : Config.discover? w (Path.render w.cwd) = none) {c₀ : Call}
    (harguments : c₀.arguments = [bytes "init"])
    (hwritten : (runProgram .standard w c₀).code = 0) :
    let w' := (runProgram .standard w c₀).world
    (∃ loaded, Config.load w' Config.fileName = .ok loaded ∧ loaded.validate .standard = .ok () ∧
      ((Config.defaults .standard).merge (some loaded)).validate .standard = .ok ()) ∧
    ∀ (c : Call) (arguments : List Bytes), Command.ofArguments c.arguments = .check arguments →
      (∀ p, Flag.parse checkFlags arguments = .ok p → ¬ p.Misused →
        p.options.Disregards w (w.cwd ++ [Config.fileName])) →
      (runProgram .standard w' c).stdout = (runProgram .standard w c).stdout ∧
        (runProgram .standard w' c).code = (runProgram .standard w c).code := by
  intro w'
  obtain ⟨hadds, hlookup⟩ := addsFile_of_init hw harguments hwritten
  refine ⟨⟨Config.fullDefaults .standard, ?_, Config.validate_fullDefaults,
    Config.validate_merge_fullDefaults⟩, ?_⟩
  · refine load_addsFile hadds (Path.locate_name hw.cwd Config.isName_fileName) ?_
    rw [World.exists?, hlookup]
    rfl
  · intro c arguments hcommand hdisregards
    simp only [runProgram, hcommand]
    refine runCheck_congr (fun p hp hmis => ?_) c
    have hp := hdisregards p hp hmis
    exact CheckOptions.samePlans_addsFile hadds hw
      (projectRoot_addsFile hw hadds hnone hp.config)
      (exists_hasConfig_addsFile hw hadds hnone hp.config)
      (actsAs_addsFile hw hadds hnone hp.config) hp.ruleFile hp.search

/-- A project in a directory below, which the new configuration is found for. -/
theorem init_is_neutral_below :
    let w : World := ⟨.dir [(bytes "sub", .dir [(bytes "scripts",
      .dir [(bytes "a.ahk", .file [0x78])])])], []⟩
    let c₀ : Call := { arguments := [bytes "init"] }
    let c : Call := { arguments := [bytes "--root", bytes "sub"] }
    let w' := (runProgram .standard w c₀).world
    w.IsProper ∧ Config.discover? w (Path.render w.cwd) = none ∧
      (runProgram .standard w c₀).code = 0 ∧
      Config.discover? w' (bytes "sub") = some (Path.render [Config.fileName]) ∧
      (runProgram .standard w' c).stdout = (runProgram .standard w c).stdout ∧
      (runProgram .standard w' c).code = (runProgram .standard w c).code := by
  intro w c₀ c w'
  have hw : w.IsProper := by
    refine ⟨.dir _ (by decide +kernel) (by decide +kernel) ?_, List.forall_mem_nil _⟩
    refine List.forall_mem_singleton.mpr (.dir _ (by decide +kernel) (by decide +kernel) ?_)
    refine List.forall_mem_singleton.mpr (.dir _ (by decide +kernel) (by decide +kernel) ?_)
    exact List.forall_mem_singleton.mpr (.file _)
  have hnone : Config.discover? w (Path.render w.cwd) = none := by decide +kernel
  have hwritten : (runProgram .standard w c₀).code = 0 := by decide +kernel
  have hfound : Config.discover? w' (bytes "sub") = some (Path.render [Config.fileName]) := by
    decide +kernel
  refine ⟨hw, hnone, hwritten, hfound, ?_⟩
  refine (init_is_neutral hw hnone rfl hwritten).2 c [bytes "--root", bytes "sub"]
    (by decide +kernel) fun p hp _ => ?_
  have hparse : Flag.parse checkFlags [bytes "--root", bytes "sub"]
      = .ok { values := [(bytes "root", bytes "sub")] } := by decide +kernel
  obtain rfl := Except.ok.inj (hparse.symm.trans hp)
  exact
    { config := by decide +kernel
      ruleFile := fun h => absurd (by decide +kernel) h
      scripts := fun h => absurd (by decide +kernel) h
      configured := fun _ h => absurd (by decide +kernel) h }

/-- A configuration in a directory below, which looks for scripts in the directory above and takes
all files there for scripts, takes the new file for one. -/
theorem init_is_noticed_from_below :
    let sub := (bytes "sub", FileTree.dir
      [(Config.fileName, .file (bytes "scripts: ..\ninclude: ['*']\n"))])
    let w : World := ⟨.dir [sub], []⟩
    let c₀ : Call := { arguments := [bytes "init"] }
    let c : Call := { arguments := [bytes "--root", bytes "sub"] }
    let w' := (runProgram .standard w c₀).world
    w.IsProper ∧ Config.discover? w (Path.render w.cwd) = none ∧
      (runProgram .standard w c₀).code = 0 ∧
      (runProgram .standard w c).code = 0 ∧ (runProgram .standard w' c).code = 1 := by
  intro sub w c₀ c w'
  have hw : w.IsProper := by
    refine ⟨.dir _ (by decide +kernel) (by decide +kernel) ?_, List.forall_mem_nil _⟩
    refine List.forall_mem_singleton.mpr (.dir _ (by decide +kernel) (by decide +kernel) ?_)
    exact List.forall_mem_singleton.mpr (.file _)
  let p : Parsed := { values := [(bytes "root", bytes "sub")] }
  -- The search sorts what it finds, so it is computed apart from the plan and the run.
  have hcode (v : World) (files : List Bytes) (clean : Bool)
      (hplan : ((prepareCheck .standard v p.options).run []).1.toOption.map (fun plan =>
        (plan.runner.config.scripts, plan.runner.config.patterns, plan.runner.config.ignored,
          (plan.runner.run v false files).diagnostics.isEmpty,
          (plan.runner.run v false files).errors.isEmpty))
        = some (bytes "..", [bytes "*"], [], clean, true))
      (hfound : Discovery.discover v Path.here (bytes "sub") (some [bytes "*"]) [] = .ok files) :
      (runProgram .standard v c).code = exitCode (!clean) false := by
    obtain ⟨plan, hplan, hview⟩ := Option.map_eq_some_iff.mp hplan
    simp only [Prod.mk.injEq] at hview
    obtain ⟨hscripts, hpatterns, hignored, hdiagnostics, herrors⟩ := hview
    have hprepared := ((toOption_eq_iff (x := .ok plan)).mp hplan plan).mpr rfl
    have hroot : projectRoot v p.options = bytes "sub" := if_pos (by decide +kernel)
    have hbase : scriptsBase p.options plan.runner.config (bytes "sub") = Path.here := by
      rw [scriptsBase, hscripts]
      decide +kernel
    have hscripts : p.options.scriptsUnder v plan.runner.config = .ok files := by
      rw [CheckOptions.scriptsUnder, hroot, hbase, hpatterns, hignored, hfound]
    have hcommand : Command.ofArguments c.arguments = .check [bytes "--root", bytes "sub"] := by
      decide +kernel
    simp only [runProgram, hcommand]
    rw [code_runCheck_of_found rfl (by decide +kernel) (by decide +kernel) (by decide +kernel)
      hprepared hscripts, hdiagnostics, herrors]
    rfl
  have hfound (content : Bytes) :
      Discovery.discover ⟨.dir [sub, (Config.fileName, .file content)], []⟩ Path.here (bytes "sub")
        (some [bytes "*"]) [] = .ok [Path.render [Config.fileName]] := by
    cbv
  refine ⟨hw, by decide +kernel, by decide +kernel, ?_, ?_⟩
  · refine hcode w [] true ?_ (by cbv)
    unfold prepareCheck loadConfig Config.defaults selectRules
    rw [Registry.names_standard]
    decide +kernel
  · have hw' : w' = ⟨.dir [sub, (Config.fileName, .file (Config.fullDefaults .standard).render)],
      []⟩ := by rfl
    rw [hw', Config.render, Config.toTree_fullDefaults]
    refine hcode _ _ false ?_ (hfound _)
    unfold prepareCheck loadConfig Config.defaults selectRules
    rw [Registry.names_standard]
    decide +kernel

end ScriptLint
