import Mathlib.Data.List.AList

/-!
# `generate_interfaces.py`: incremental regeneration of the service interfaces

`main` walks the service definition files under `obj/services`. For each file it compares the MD5 of
the file's text with the signature stored for it in `interface/.svc_signatures.yml`; a match skips
the file unless `--force` is given. Under `--dryrun` a changed file is only counted. Otherwise the
new signature is stored and every YAML document of the file is turned into the file's interface; a
service definition without a `name` raises `IonServiceDefinitionError`, which ends the run. The
signatures are written back only when something was generated, and the exit code is `1` exactly
when the count is positive. Before the walk, `main` exits when run from a `scripts` directory, and a
signature file that `yaml.load` reads as `None` makes the walk raise `TypeError` at its first file.

The walk is the list of the files it visits, each with the MD5 of its text and its documents. The
text of the interfaces (the templates, `build_args_str`, the docstring formatting), the YAML tag
constructors, the package `__init__.py` files, the printed status lines and the validation report
are left out.

A run that raised nothing leaves nothing for a second run to do (`main_idempotent`). A dry run
changes nothing and exits `1` exactly when some file would not be skipped, and when it exits `0` the
real run does nothing either. The converse fails: a changed file that holds only object definitions
keeps the dry run at `1` for good, since the real run generates nothing from it and so never stores
its signature.
-/

namespace Scioncc.Scripts

/-- A YAML document of a service definition file: an object set, or a service definition with its
`name`, if it has one. -/
inductive DefSet
  | obj
  | service (name : Option String)
  deriving DecidableEq, Repr

/-- A file the walk visits: its path, its MD5, the interface file its path names, its documents. -/
structure ServiceYaml where
  yamlFile : String
  md5 : String
  interfaceFile : String
  defs : List DefSet
  deriving DecidableEq, Repr

structure Opts where
  force : Bool
  dryrun : Bool
  deriving DecidableEq, Repr

abbrev Signatures := AList fun _ : String => String

structure GenState where
  svcSignatures : Signatures
  count : Nat
  written : List String
  raised : Option String

/-- The loop over a file's documents; a service definition without a name raises. -/
def generateDefs (y : ServiceYaml) : List DefSet → GenState → GenState
  | [], st => st
  | .obj :: ds, st => generateDefs y ds st
  | .service none :: _, st =>
    { st with
      raised := some ("Service definition file " ++ y.yamlFile ++ " does not define name attribute") }
  | .service (some _) :: ds, st =>
    generateDefs y ds { st with written := st.written ++ [y.interfaceFile], count := st.count + 1 }

/-- The MD5 comparison: without `--force`, a file whose stored signature is its MD5 is skipped. -/
def skips (opts : Opts) (sigs : Signatures) (y : ServiceYaml) : Bool :=
  match sigs.lookup y.yamlFile with
  | some sig => !opts.force && y.md5 == sig
  | none => false

def processFile (opts : Opts) (st : GenState) (y : ServiceYaml) : GenState :=
  if st.raised.isSome || skips opts st.svcSignatures y then st
  else if opts.dryrun then { st with count := st.count + 1 }
  else generateDefs y y.defs { st with svcSignatures := st.svcSignatures.insert y.yamlFile y.md5 }

/-- `interface/.svc_signatures.yml`: absent, read by `yaml.load` as `None`, or a dict. -/
inductive SigFile
  | absent
  | null
  | sigs (svcSignatures : Signatures)

def SigFile.signatures : SigFile → Signatures
  | .sigs s => s
  | _ => ∅

@[simp] theorem SigFile.signatures_sigs (s : Signatures) : (SigFile.sigs s).signatures = s := rfl

def SigFile.isNull : SigFile → Bool
  | .null => true
  | _ => false

structure RunResult where
  raised : Option String
  sigfile : SigFile
  written : List String
  exitCode : Nat

def walkFiles (opts : Opts) (sigfile : SigFile) (files : List ServiceYaml) : RunResult :=
  let st := files.foldl (processFile opts) ⟨sigfile.signatures, 0, [], none⟩
  match st.raised with
  | some e => ⟨some e, sigfile, st.written, 1⟩
  | none =>
    ⟨none, if 0 < st.count ∧ opts.dryrun = false then .sigs st.svcSignatures else sigfile,
      st.written, if 0 < st.count then 1 else 0⟩

/-- `main` run from `cwd`, whose first test is `os.getcwd().endswith('scripts')`. -/
def main (cwd : String) (opts : Opts) (sigfile : SigFile) (files : List ServiceYaml) : RunResult :=
  if "scripts".toList <:+ cwd.toList then
    ⟨some "This script needs to be run from the pyon root.", sigfile, [], 1⟩
  else if sigfile.isNull && !files.isEmpty then
    ⟨some "argument of type \x27NoneType\x27 is not iterable", sigfile, [], 1⟩
  else walkFiles opts sigfile files

/-- A file whose documents are all object definitions: generating it writes nothing. -/
def ObjectsOnly (y : ServiceYaml) : Prop :=
  ∀ d ∈ y.defs, d = .obj

instance : DecidablePred ObjectsOnly :=
  fun y => inferInstanceAs (Decidable (∀ d ∈ y.defs, d = .obj))

/-! ### The MD5 comparison -/

theorem skips_eq_true {opts : Opts} {sigs : Signatures} {y : ServiceYaml} :
    skips opts sigs y = true ↔ opts.force = false ∧ sigs.lookup y.yamlFile = some y.md5 := by
  cases h : sigs.lookup y.yamlFile with
  | none => simp [skips, h]
  | some sig =>
    simp only [skips, h, Option.some_inj, @eq_comm _ sig]
    simp

theorem skips_congr (opts : Opts) {sigs sigs' : Signatures} {y : ServiceYaml}
    (h : sigs.lookup y.yamlFile = sigs'.lookup y.yamlFile) : skips opts sigs y = skips opts sigs' y := by
  simp only [skips, h]

/-! ### One file's documents -/

section GenerateDefs

variable (y : ServiceYaml)

@[simp]
theorem generateDefs_svcSignatures (ds : List DefSet) (st : GenState) :
    (generateDefs y ds st).svcSignatures = st.svcSignatures := by
  induction ds, st using generateDefs.induct y with
  | case1 | case3 => rfl
  | case2 _ _ ih | case4 _ _ _ ih => exact ih

theorem count_le_generateDefs (ds : List DefSet) (st : GenState) :
    st.count ≤ (generateDefs y ds st).count := by
  induction ds, st using generateDefs.induct y with
  | case1 | case3 => exact le_rfl
  | case2 _ _ ih => exact ih
  | case4 _ _ _ ih => exact Nat.le_of_succ_le ih

theorem generateDefs_raised (ds : List DefSet) (st : GenState)
    (h : (generateDefs y ds st).raised = none) : st.raised = none := by
  induction ds, st using generateDefs.induct y with
  | case1 => exact h
  | case2 _ _ ih | case4 _ _ _ ih => exact ih h
  | case3 => simp [generateDefs] at h

theorem generateDefs_of_objectsOnly (ds : List DefSet) (st : GenState) (h : ∀ d ∈ ds, d = .obj) :
    generateDefs y ds st = st := by
  induction ds, st using generateDefs.induct y with
  | case1 => rfl
  | case2 ds st ih => exact ih fun d hd => h d (List.mem_cons_of_mem _ hd)
  | case3 | case4 => simp at h

theorem objectsOnly_of_generateDefs (ds : List DefSet) (st : GenState)
    (hr : (generateDefs y ds st).raised = none) (hc : (generateDefs y ds st).count = st.count) :
    ∀ d ∈ ds, d = .obj := by
  induction ds, st using generateDefs.induct y with
  | case1 => simp
  | case2 _ _ ih => simpa using ih hr hc
  | case3 => simp [generateDefs] at hr
  | case4 _ ds st =>
    have : st.count + 1 ≤ _ := count_le_generateDefs y ds
      { st with written := st.written ++ [y.interfaceFile], count := st.count + 1 }
    simp only [generateDefs] at hc
    omega

end GenerateDefs

/-! ### One file of the walk -/

section ProcessFile

variable (opts : Opts) (st : GenState) (y : ServiceYaml)

theorem processFile_of_skips (h : skips opts st.svcSignatures y = true) :
    processFile opts st y = st := by
  simp [processFile, h]

theorem processFile_raised (h : (processFile opts st y).raised = none) : st.raised = none := by
  unfold processFile at h
  split_ifs at h
  · exact h
  · exact h
  · exact generateDefs_raised y y.defs
      { st with svcSignatures := st.svcSignatures.insert y.yamlFile y.md5 } h

theorem count_le_processFile : st.count ≤ (processFile opts st y).count := by
  unfold processFile
  split_ifs
  · exact le_rfl
  · exact Nat.le_succ _
  · exact count_le_generateDefs y y.defs
      { st with svcSignatures := st.svcSignatures.insert y.yamlFile y.md5 }

theorem processFile_lookup_ne {k : String} (hk : k ≠ y.yamlFile) :
    (processFile opts st y).svcSignatures.lookup k = st.svcSignatures.lookup k := by
  unfold processFile
  split_ifs
  · rfl
  · rfl
  · simp [AList.lookup_insert_ne hk]

theorem processFile_lookup (hdry : opts.dryrun = false) (h : (processFile opts st y).raised = none) :
    (processFile opts st y).svcSignatures.lookup y.yamlFile = some y.md5 := by
  have hr := processFile_raised opts st y h
  by_cases hs : skips opts st.svcSignatures y = true
  · rw [processFile_of_skips opts st y hs]
    exact (skips_eq_true.mp hs).2
  · simp [processFile, hr, hs, hdry, AList.lookup_insert]

end ProcessFile

/-! ### The walk -/

section Walk

variable (opts : Opts)

theorem foldl_raised (files : List ServiceYaml) (st : GenState)
    (h : (files.foldl (processFile opts) st).raised = none) : st.raised = none := by
  induction files generalizing st with
  | nil => exact h
  | cons y files ih => exact processFile_raised opts st y (ih (processFile opts st y) h)

theorem count_le_foldl (files : List ServiceYaml) (st : GenState) :
    st.count ≤ (files.foldl (processFile opts) st).count := by
  induction files generalizing st with
  | nil => exact le_rfl
  | cons y files ih => exact (count_le_processFile opts st y).trans (ih _)

theorem foldl_lookup_of_not_mem (files : List ServiceYaml) (st : GenState) {k : String}
    (hk : k ∉ files.map (·.yamlFile)) :
    (files.foldl (processFile opts) st).svcSignatures.lookup k = st.svcSignatures.lookup k := by
  induction files generalizing st with
  | nil => rfl
  | cons y files ih =>
    simp only [List.map_cons, List.mem_cons, not_or] at hk
    rw [List.foldl_cons, ih _ hk.2, processFile_lookup_ne opts st y hk.1]

theorem foldl_of_skips (files : List ServiceYaml) (st : GenState)
    (h : ∀ y ∈ files, skips opts st.svcSignatures y = true) :
    files.foldl (processFile opts) st = st := by
  induction files with
  | nil => rfl
  | cons y files ih =>
    rw [List.forall_mem_cons] at h
    rw [List.foldl_cons, processFile_of_skips opts st y h.1]
    exact ih h.2

/-- A dry run only counts the files it would not skip. -/
theorem foldl_dryrun (force : Bool) (files : List ServiceYaml) (st : GenState)
    (hr : st.raised = none) :
    files.foldl (processFile ⟨force, true⟩) st =
      { st with count := st.count + files.countP fun y => !skips ⟨force, true⟩ st.svcSignatures y } := by
  induction files generalizing st with
  | nil => rfl
  | cons y files ih =>
    rw [List.foldl_cons, List.countP_cons]
    cases hs : skips ⟨force, true⟩ st.svcSignatures y
    · have hstep : processFile ⟨force, true⟩ st y = { st with count := st.count + 1 } := by
        simp [processFile, hr, hs]
      rw [hstep, ih { st with count := st.count + 1 } hr]
      simp only [Bool.not_false, if_true]
      congr 1
      omega
    · rw [processFile_of_skips _ st y hs, ih st hr]
      simp

theorem foldl_lookup (files : List ServiceYaml) (st : GenState)
    (hnodup : (files.map (·.yamlFile)).Nodup) (hdry : opts.dryrun = false)
    (h : (files.foldl (processFile opts) st).raised = none) :
    ∀ y ∈ files, (files.foldl (processFile opts) st).svcSignatures.lookup y.yamlFile = some y.md5 := by
  induction files generalizing st with
  | nil => simp
  | cons y files ih =>
    simp only [List.map_cons, List.nodup_cons] at hnodup
    refine List.forall_mem_cons.mpr ⟨?_, ih _ hnodup.2 h⟩
    rw [List.foldl_cons, foldl_lookup_of_not_mem opts files _ hnodup.1]
    exact processFile_lookup opts st y hdry (foldl_raised opts files (processFile opts st y) h)

/-- When a real walk counts nothing, each file was skipped or holds only object definitions. -/
theorem foldl_settled (files : List ServiceYaml) (st : GenState)
    (hnodup : (files.map (·.yamlFile)).Nodup) (hdry : opts.dryrun = false)
    (hr : (files.foldl (processFile opts) st).raised = none)
    (hc : (files.foldl (processFile opts) st).count = st.count) :
    ∀ y ∈ files, ObjectsOnly y ∨ skips opts st.svcSignatures y = true := by
  induction files generalizing st with
  | nil => simp
  | cons y files ih =>
    simp only [List.map_cons, List.nodup_cons] at hnodup
    rw [List.foldl_cons] at hr hc
    have hr₁ := foldl_raised opts files (processFile opts st y) hr
    have hc₁ : (processFile opts st y).count = st.count := by
      have := count_le_foldl opts files (processFile opts st y)
      have := count_le_processFile opts st y
      omega
    refine List.forall_mem_cons.mpr ⟨?_, fun z hz => ?_⟩
    · by_cases hs : skips opts st.svcSignatures y = true
      · exact Or.inr hs
      · have hgen : processFile opts st y = generateDefs y y.defs
            { st with svcSignatures := st.svcSignatures.insert y.yamlFile y.md5 } := by
          simp [processFile, processFile_raised opts st y hr₁, hs, hdry]
        rw [hgen] at hr₁ hc₁
        exact Or.inl (objectsOnly_of_generateDefs y _ _ hr₁ hc₁)
    · refine (ih _ hnodup.2 hr (hc.trans hc₁.symm) z hz).imp_right fun hs => ?_
      have hk : z.yamlFile ≠ y.yamlFile := fun he => hnodup.1 (he ▸ List.mem_map_of_mem _ hz)
      rwa [skips_congr opts (processFile_lookup_ne opts st y hk)] at hs

theorem foldl_quiet (files : List ServiceYaml) (st : GenState)
    (hnodup : (files.map (·.yamlFile)).Nodup) (hdry : opts.dryrun = false) (hr : st.raised = none)
    (hq : ∀ y ∈ files, ObjectsOnly y ∨ skips opts st.svcSignatures y = true) :
    (files.foldl (processFile opts) st).count = st.count ∧
      (files.foldl (processFile opts) st).written = st.written ∧
      (files.foldl (processFile opts) st).raised = none := by
  induction files generalizing st with
  | nil => exact ⟨rfl, rfl, hr⟩
  | cons y files ih =>
    simp only [List.map_cons, List.nodup_cons] at hnodup
    rw [List.forall_mem_cons] at hq
    rw [List.foldl_cons]
    by_cases hs : skips opts st.svcSignatures y = true
    · rw [processFile_of_skips opts st y hs]
      exact ih st hnodup.2 hr hq.2
    · have hstep : processFile opts st y =
          { st with svcSignatures := st.svcSignatures.insert y.yamlFile y.md5 } := by
        simp [processFile, hr, hs, hdry, generateDefs_of_objectsOnly y _ _ (hq.1.resolve_right hs)]
      rw [hstep]
      refine ih _ hnodup.2 hr fun z hz => (hq.2 z hz).imp_right fun hz' => ?_
      have hk : z.yamlFile ≠ y.yamlFile := fun he => hnodup.1 (he ▸ List.mem_map_of_mem _ hz)
      rwa [skips_congr opts (AList.lookup_insert_ne hk)]

end Walk

/-! ### Runs -/

section Main

variable (cwd : String) (opts : Opts) (sigfile : SigFile) (files : List ServiceYaml)

theorem main_of_walk (hcwd : ¬"scripts".toList <:+ cwd.toList)
    (hnull : (sigfile.isNull && !files.isEmpty) = false) :
    main cwd opts sigfile files = walkFiles opts sigfile files := by
  simp only [main, hcwd, hnull, if_false, Bool.false_eq_true]

theorem main_walked (h : (main cwd opts sigfile files).raised = none) :
    ¬"scripts".toList <:+ cwd.toList ∧ (sigfile.isNull && !files.isEmpty) = false := by
  unfold main at h
  split_ifs at h with hcwd hnull
  · exact ⟨hcwd, by simpa using hnull⟩

theorem walkFiles_raised :
    (walkFiles opts sigfile files).raised =
      (files.foldl (processFile opts) ⟨sigfile.signatures, 0, [], none⟩).raised := by
  simp only [walkFiles]
  split <;> simp_all

theorem walkFiles_sigfile
    (h : (files.foldl (processFile opts) ⟨sigfile.signatures, 0, [], none⟩).raised = none) :
    (walkFiles opts sigfile files).sigfile =
      if 0 < (files.foldl (processFile opts) ⟨sigfile.signatures, 0, [], none⟩).count ∧
        opts.dryrun = false
      then .sigs (files.foldl (processFile opts) ⟨sigfile.signatures, 0, [], none⟩).svcSignatures
      else sigfile := by
  simp [walkFiles, h]

theorem walkFiles_of_quiet
    (hc : (files.foldl (processFile opts) ⟨sigfile.signatures, 0, [], none⟩).count = 0)
    (hw : (files.foldl (processFile opts) ⟨sigfile.signatures, 0, [], none⟩).written = [])
    (hr : (files.foldl (processFile opts) ⟨sigfile.signatures, 0, [], none⟩).raised = none) :
    walkFiles opts sigfile files = ⟨none, sigfile, [], 0⟩ := by
  simp [walkFiles, hc, hw, hr]

theorem walkFiles_dryrun (force : Bool) :
    walkFiles ⟨force, true⟩ sigfile files =
      ⟨none, sigfile, [], if files.all (skips ⟨force, true⟩ sigfile.signatures) then 0 else 1⟩ := by
  simp only [walkFiles, foldl_dryrun force files ⟨sigfile.signatures, 0, [], none⟩ rfl]
  by_cases h : files.all (skips ⟨force, true⟩ sigfile.signatures) = true
  · have h0 : files.countP (fun y => !skips ⟨force, true⟩ sigfile.signatures y) = 0 := by
      simpa [List.all_eq_true] using h
    simp [h, h0]
  · have hpos : 0 < files.countP (fun y => !skips ⟨force, true⟩ sigfile.signatures y) := by
      simpa [List.all_eq_true] using h
    simp [h, hpos]

end Main

/-- A run that raised nothing leaves nothing for a plain second run over the same files to do. -/
theorem main_idempotent (cwd : String) (opts : Opts) (sigfile : SigFile) (files : List ServiceYaml)
    (hnodup : (files.map (·.yamlFile)).Nodup) (hdry : opts.dryrun = false)
    (hok : (main cwd opts sigfile files).raised = none) :
    main cwd ⟨false, false⟩ (main cwd opts sigfile files).sigfile files =
      ⟨none, (main cwd opts sigfile files).sigfile, [], 0⟩ := by
  obtain ⟨hcwd, hnull⟩ := main_walked cwd opts sigfile files hok
  rw [main_of_walk cwd opts sigfile files hcwd hnull] at hok ⊢
  have hr := (walkFiles_raised opts sigfile files).symm.trans hok
  rw [walkFiles_sigfile opts sigfile files hr]
  by_cases hc : 0 < (files.foldl (processFile opts) ⟨sigfile.signatures, 0, [], none⟩).count
  · -- the signature file now holds every file's MD5, so the second run skips them all
    have hskip := foldl_of_skips ⟨false, false⟩ files
      ⟨(files.foldl (processFile opts) ⟨sigfile.signatures, 0, [], none⟩).svcSignatures, 0, [], none⟩
      fun y hy => skips_eq_true.mpr ⟨rfl, foldl_lookup opts files _ hnodup hdry hr y hy⟩
    rw [if_pos ⟨hc, hdry⟩, main_of_walk cwd _ (.sigs _) files hcwd rfl]
    apply walkFiles_of_quiet <;> simp [hskip]
  · -- the first run stored nothing: every file was skipped or holds only object definitions
    have hq : ∀ y ∈ files, ObjectsOnly y ∨ skips ⟨false, false⟩ sigfile.signatures y = true :=
      fun y hy => (foldl_settled opts files _ hnodup hdry hr (Nat.eq_zero_of_not_pos hc) y hy).imp_right
        fun hs => skips_eq_true.mpr ⟨rfl, (skips_eq_true.mp hs).2⟩
    obtain ⟨hc₂, hw₂, hr₂⟩ := foldl_quiet _ files ⟨sigfile.signatures, 0, [], none⟩ hnodup rfl rfl hq
    rw [if_neg fun h => hc h.1, main_of_walk _ _ _ _ hcwd hnull]
    exact walkFiles_of_quiet _ _ _ hc₂ hw₂ hr₂

def resourceRegistryYaml : ServiceYaml :=
  ⟨"obj/services/coi/resource_registry_service.yml", "9a1c",
    "interface/services/coi/iresource_registry_service.py", [.service (some "resource_registry")]⟩

/-- A service file that holds only object definitions. -/
def objectsYaml : ServiceYaml :=
  ⟨"obj/services/core/objects.yml", "41d8", "interface/services/core/iobjects.py", [.obj]⟩

def pyonRoot : String := "/home/ion/pyon"

theorem main_idempotent_checkout :
    ([resourceRegistryYaml, objectsYaml].map (·.yamlFile)).Nodup ∧
      (main pyonRoot ⟨false, false⟩ .absent [resourceRegistryYaml, objectsYaml]).raised = none ∧
      main pyonRoot ⟨false, false⟩
          (main pyonRoot ⟨false, false⟩ .absent [resourceRegistryYaml, objectsYaml]).sigfile
          [resourceRegistryYaml, objectsYaml] =
        ⟨none, (main pyonRoot ⟨false, false⟩ .absent [resourceRegistryYaml, objectsYaml]).sigfile,
          [], 0⟩ :=
  ⟨by decide, rfl, main_idempotent pyonRoot ⟨false, false⟩ .absent _ (by decide) rfl rfl⟩

/-- A dry run that exits `0` predicts a real run that does nothing. -/
theorem dryrun_clean_predicts_noop (cwd : String) (force : Bool) (sigfile : SigFile)
    (files : List ServiceYaml) (h : (main cwd ⟨force, true⟩ sigfile files).exitCode = 0) :
    main cwd ⟨force, false⟩ sigfile files = ⟨none, sigfile, [], 0⟩ := by
  rw [main, walkFiles_dryrun] at h
  split_ifs at h with hcwd hnull hall
  rw [main_of_walk cwd _ sigfile files hcwd (by simpa using hnull)]
  have hskip := foldl_of_skips ⟨force, false⟩ files ⟨sigfile.signatures, 0, [], none⟩ fun y hy => by
    simpa using List.all_eq_true.mp hall y hy
  apply walkFiles_of_quiet <;> simp [hskip]

theorem dryrun_clean_predicts_noop_checkout :
    (main pyonRoot ⟨false, true⟩ (main pyonRoot ⟨false, false⟩ .absent [resourceRegistryYaml]).sigfile
        [resourceRegistryYaml]).exitCode = 0 ∧
      main pyonRoot ⟨false, false⟩
          (main pyonRoot ⟨false, false⟩ .absent [resourceRegistryYaml]).sigfile [resourceRegistryYaml] =
        ⟨none, (main pyonRoot ⟨false, false⟩ .absent [resourceRegistryYaml]).sigfile, [], 0⟩ :=
  ⟨rfl, dryrun_clean_predicts_noop pyonRoot false _ _ rfl⟩

/-- A change to files holding only object definitions is never recorded, so the dry run keeps
exiting `1` after the real run. -/
theorem objectsOnly_change_keeps_dryrun_failing (cwd : String) (force : Bool) (sigfile : SigFile)
    (files : List ServiceYaml) (hcwd : ¬"scripts".toList <:+ cwd.toList) (hsig : sigfile ≠ .null)
    (hnodup : (files.map (·.yamlFile)).Nodup)
    (hq : ∀ y ∈ files, ObjectsOnly y ∨ skips ⟨force, false⟩ sigfile.signatures y = true)
    (hstale : ∃ y ∈ files, skips ⟨force, true⟩ sigfile.signatures y = false) :
    main cwd ⟨force, false⟩ sigfile files = ⟨none, sigfile, [], 0⟩ ∧
      (main cwd ⟨force, true⟩ (main cwd ⟨force, false⟩ sigfile files).sigfile files).exitCode = 1 := by
  have hnull : (sigfile.isNull && !files.isEmpty) = false := by
    cases sigfile <;> simp_all [SigFile.isNull]
  obtain ⟨hc, hw, hr⟩ :=
    foldl_quiet ⟨force, false⟩ files ⟨sigfile.signatures, 0, [], none⟩ hnodup rfl rfl hq
  have hreal : main cwd ⟨force, false⟩ sigfile files = ⟨none, sigfile, [], 0⟩ := by
    rw [main_of_walk cwd _ sigfile files hcwd hnull]
    exact walkFiles_of_quiet _ _ _ hc hw hr
  obtain ⟨y, hy, hs⟩ := hstale
  refine ⟨hreal, ?_⟩
  rw [hreal, main, if_neg hcwd, if_neg (by simp [hnull]), walkFiles_dryrun, if_neg]
  simpa [List.all_eq_true] using ⟨y, hy, hs⟩

/-- Signatures whose entry for the object file is stale and whose other entry is current. -/
def staleSignatures : Signatures :=
  ((∅ : Signatures).insert "obj/services/core/objects.yml" "0c3e").insert
    "obj/services/coi/resource_registry_service.yml" "9a1c"

theorem objectsOnly_change_keeps_dryrun_failing_checkout :
    (main pyonRoot ⟨false, false⟩ (.sigs staleSignatures) [resourceRegistryYaml, objectsYaml] =
        ⟨none, .sigs staleSignatures, [], 0⟩ ∧
      (main pyonRoot ⟨false, true⟩
        (main pyonRoot ⟨false, false⟩ (.sigs staleSignatures) [resourceRegistryYaml, objectsYaml]).sigfile
        [resourceRegistryYaml, objectsYaml]).exitCode = 1) :=
  objectsOnly_change_keeps_dryrun_failing pyonRoot false (.sigs staleSignatures)
    [resourceRegistryYaml, objectsYaml] (by decide) (fun h => nomatch h) (by decide) (by decide)
    ⟨objectsYaml, by simp, rfl⟩

end Scioncc.Scripts
