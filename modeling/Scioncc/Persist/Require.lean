import Scioncc.Persist.Capacity

/-!
# `require_dataset`: the file system and the creation of a container

`require_dataset` checks `os.path.exists` without a lock, creates the parent directory with
`os.makedirs`, opens the file in the truncating mode `"w"` and initialises it inside a
`try`/`finally` that only closes it. A creation that raises part way therefore leaves a
partly initialised file on disk, and `os.makedirs` raises when the directory is already there.
-/

namespace Scioncc

variable {Val : Type}

structure FileSystem (Val : Type) where
  dirs : Path → Bool := fun _ => false
  files : Path → Option (H5File Val) := fun _ => none

namespace FileSystem

variable (fs : FileSystem Val)

def pathExists (path : Path) : Bool := (fs.files path).isSome || fs.dirs path

def setFile (path : Path) (f : H5File Val) : FileSystem Val :=
  { fs with files := Function.update fs.files path (some f) }

/-- `os.makedirs(dir)`: it raises when `dir` exists or a file stands at one of its ancestors. -/
def makedirs (io : Faults) (dir : Path) : Outcome (FileSystem Val) Unit :=
  if fs.pathExists dir || dir.inits.any (fun q => (fs.files q).isSome) then
    .raised (.osError dir) fs
  else Outcome.call io (.makedirs dir) (fun fs => { fs with dirs := fun q => q.isPrefixOf dir || fs.dirs q }) fs

@[simp] theorem files_setFile (path q : Path) (f : H5File Val) :
    (fs.setFile path f).files q = if q = path then some f else fs.files q := by
  simp [setFile, Function.update_apply]

@[simp] theorem dirs_setFile (path : Path) (f : H5File Val) : (fs.setFile path f).dirs = fs.dirs :=
  rfl

end FileSystem

/-- From the spec: pyon's `FileSystem.get` resolves a path under the root. -/
def fileSystemGet (root rel : Path) : Path := root ++ rel

def getDsFilename (root : Path) (datasetId : String) : Path :=
  fileSystemGet root (dsBasePath ++ [dsFilePrefix ++ datasetId ++ ".hdf5"])

section Create

variable (p : Persistence) (np : Numpy Val) (io : Faults)

/-- numpy rejects an unknown dtype, h5py a negative shape or a name already taken. -/
def createDataset (name : String) (validDtype : Bool) (fresh : Nat → Entry Val)
    (f : H5File Val) : Outcome (H5File Val) Unit :=
  if !validDtype then .raised .typeError f
  else if p.dsIncrement < 0 then .raised .valueError f
  else if (f.vars name).isSome then .raised .valueError f
  else Outcome.call io (.createDataset name) (fun f => f.setVar name (fresh p.dsIncrement.toNat)) f

def setAttr (name key : String) (g : Entry Val → Entry Val) (f : H5File Val) :
    Outcome (H5File Val) Unit :=
  Outcome.call io (.setAttr name key)
    (fun f => match f.vars name with
      | some e => f.setVar name (g e)
      | none => f) f

def createColumn (position : Nat) (vi : VarInfo) (f : H5File Val) : Outcome (H5File Val) Unit :=
  let dtype := vi.storageDtype.getD "f8"
  (createDataset p io vi.name (np.validDtype dtype)
    (fun n => .column dtype {} ⟨List.replicate n (np.fill dtype), none⟩) f).bind fun _ f =>
  (setAttr io vi.name "base_type"
    (Entry.setAttrs fun a => { a with baseType := some (vi.baseType.getD "float") }) f).bind fun _ f =>
  (setAttr io vi.name "position"
    (Entry.setAttrs fun a => { a with position := some position }) f).bind fun _ f =>
  (setAttr io vi.name "description"
    (Entry.setAttrs fun a => { a with description := some (vi.description.getD "") }) f).bind fun _ f =>
  (setAttr io vi.name "unit"
    (Entry.setAttrs fun a => { a with unit := some (vi.unit.getD "") }) f).bind fun _ f =>
  setAttr io vi.name "last_row" (Entry.setLastRow 0) f

def createColumns : List (Nat × VarInfo) → H5File Val → Outcome (H5File Val) Unit
  | [], f => .ok () f
  | (position, vi) :: rest, f => (createColumn p np io position vi f).bind fun _ f =>
    createColumns rest f

/-- `dtype_parts`: each variable's name with its storage dtype. -/
def recordFields : List (String × String) :=
  p.varDefs.map fun vi => (vi.name, vi.storageDtype.getD "f8")

def createRecords (f : H5File Val) : Outcome (H5File Val) Unit :=
  if !(recordFields p).all (np.validDtype ·.2) then .raised .typeError f
  else if ¬((recordFields p).map (·.1)).Nodup then .raised .valueError f
  else
    (createDataset p io dsVariables true (fun n => .records (recordFields p) none
      ⟨List.replicate n ((recordFields p).map (np.fill ·.2)), none⟩) f).bind fun _ f =>
    (setAttr io dsVariables "dtype_repr" (Entry.setDtypeRepr (recordFields p)) f).bind fun _ f =>
    setAttr io dsVariables "last_row" (Entry.setLastRow 0) f

def initContainer (f : H5File Val) : Outcome (H5File Val) Unit :=
  (Outcome.call io (.setFileAttr "dataset_id") (fun f => { f with datasetId := some p.datasetId })
    f).bind fun _ f =>
  (Outcome.call io (.setFileAttr "layout") (fun f => { f with layout := some p.dsLayout.name })
    f).bind fun _ f =>
  (Outcome.call io .createGroup id f).bind fun _ f =>
  match p.dsLayout with
  | .individual => createColumns p np io p.varDefs.enum f
  | .combined => createRecords p np io f

/-- `require_dataset`, returning `(ds_filename, created)`. The `finally` only closes the file, so it
stays on disk in whatever state the `try` left it. -/
def requireDataset (root : Path) (fs : FileSystem Val) : Outcome (FileSystem Val) (Path × Bool) :=
  let dsFilename := getDsFilename root p.datasetId
  if fs.pathExists dsFilename then .ok (dsFilename, false) fs
  else
    (fs.makedirs io dsFilename.dropLast).bind fun _ fs =>
      if io (.openFile "w") then .raised (.ioError (.openFile "w")) fs
      else ((initContainer p np io {}).map (fs.setFile dsFilename)).bind fun _ fs =>
        .ok (dsFilename, true) fs

def freshColumn (position : Nat) (vi : VarInfo) : Entry Val :=
  .column (vi.storageDtype.getD "f8")
    { baseType := some (vi.baseType.getD "float"), position := some position
      description := some (vi.description.getD ""), unit := some (vi.unit.getD "") }
    ⟨List.replicate p.dsIncrement.toNat (np.fill (vi.storageDtype.getD "f8")), some 0⟩

def freshRecords : Entry Val :=
  .records (recordFields p) (some (recordFields p))
    ⟨List.replicate p.dsIncrement.toNat ((recordFields p).map (np.fill ·.2)), some 0⟩

end Create

section CreateSpec

variable {p : Persistence} {np : Numpy Val} {io : Faults}

theorem createDataset_ok {name : String} {valid : Bool} {fresh : Nat → Entry Val}
    {f f' : H5File Val} {a : Unit} (h : createDataset p io name valid fresh f = .ok a f') :
    0 ≤ p.dsIncrement ∧ f.vars name = none ∧ f' = f.setVar name (fresh p.dsIncrement.toNat) := by
  unfold createDataset at h
  split at h
  · cases h
  split at h
  · cases h
  split at h
  · cases h
  exact ⟨by omega, by simpa using ‹¬(f.vars name).isSome = true›, Outcome.call_ok h⟩

theorem setAttr_setVar {name key : String} {g : Entry Val → Entry Val} {f f' : H5File Val}
    {e : Entry Val} {a : Unit} (h : setAttr io name key g (f.setVar name e) = .ok a f') :
    f' = f.setVar name (g e) := by
  rw [Outcome.call_ok h]
  simp

theorem createColumn_ok {position : Nat} {vi : VarInfo} {f f' : H5File Val} {a : Unit}
    (h : createColumn p np io position vi f = .ok a f') :
    0 ≤ p.dsIncrement ∧ f.vars vi.name = none ∧ f' = f.setVar vi.name (freshColumn p np position vi) := by
  simp only [createColumn] at h
  obtain ⟨_, f1, h1, h⟩ := Outcome.bind_eq_ok h
  obtain ⟨hinc, hv, rfl⟩ := createDataset_ok h1
  obtain ⟨_, f2, h2, h⟩ := Outcome.bind_eq_ok h
  cases setAttr_setVar h2
  obtain ⟨_, f3, h3, h⟩ := Outcome.bind_eq_ok h
  cases setAttr_setVar h3
  obtain ⟨_, f4, h4, h⟩ := Outcome.bind_eq_ok h
  cases setAttr_setVar h4
  obtain ⟨_, f5, h5, h⟩ := Outcome.bind_eq_ok h
  cases setAttr_setVar h5
  cases setAttr_setVar h
  exact ⟨hinc, hv, rfl⟩

theorem createColumns_ok : ∀ {l : List (Nat × VarInfo)} {f f' : H5File Val} {a : Unit},
    createColumns p np io l f = .ok a f' →
      (l ≠ [] → 0 ≤ p.dsIncrement) ∧ (l.map (·.2.name)).Nodup ∧
      (∀ x ∈ l, f.vars x.2.name = none) ∧ f'.datasetId = f.datasetId ∧ f'.layout = f.layout ∧
      ∀ v, f'.vars v = ((l.find? (·.2.name = v)).map fun x => freshColumn p np x.1 x.2).or (f.vars v)
  | [], f, f', _, h => by
    cases h
    exact ⟨fun h => absurd rfl h, .nil, by simp, rfl, rfl, by simp⟩
  | (pos, vi) :: rest, f, f', _, h => by
    obtain ⟨_, f1, h1, h⟩ := Outcome.bind_eq_ok h
    obtain ⟨hinc, hv, rfl⟩ := createColumn_ok h1
    obtain ⟨-, hnd, hfree, hid, hlay, hvars⟩ := createColumns_ok h
    have hne : ∀ x ∈ rest, x.2.name ≠ vi.name := fun x hx heq => by
      simpa [heq] using hfree x hx
    refine ⟨fun _ => hinc, ?_, ?_, hid, hlay, fun v => ?_⟩
    · exact List.nodup_cons.mpr
        ⟨fun hm => (List.mem_map.mp hm).elim fun x hx => hne x hx.1 hx.2, hnd⟩
    · intro x hx
      rcases List.mem_cons.mp hx with rfl | hx
      · exact hv
      · simpa [hne x hx] using hfree x hx
    · rw [hvars v, List.find?_cons]
      by_cases hvn : vi.name = v
      · subst hvn
        have hnone : rest.find? (·.2.name = vi.name) = none :=
          List.find?_eq_none.mpr fun x hx => by simpa using hne x hx
        simp [hnone]
      · simp [hvn, Ne.symm hvn]

theorem recordFields_names (p : Persistence) : (recordFields p).map (·.1) = p.varNames := by
  simp [recordFields, Persistence.varNames]

theorem createRecords_ok {f f' : H5File Val} {a : Unit} (h : createRecords p np io f = .ok a f') :
    0 ≤ p.dsIncrement ∧ p.varNames.Nodup ∧ f' = f.setVar dsVariables (freshRecords p np) := by
  unfold createRecords at h
  split at h
  · cases h
  split at h
  · cases h
  rename_i hnd
  obtain ⟨_, f1, h1, h⟩ := Outcome.bind_eq_ok h
  obtain ⟨hinc, -, rfl⟩ := createDataset_ok h1
  obtain ⟨_, f2, h2, h⟩ := Outcome.bind_eq_ok h
  cases setAttr_setVar h2
  cases setAttr_setVar h
  exact ⟨hinc, by simpa [recordFields_names] using hnd, rfl⟩

end CreateSpec

namespace H5File

/-- A completely initialised container for `p`, in either layout. -/
structure Initialized (p : Persistence) (np : Numpy Val) (f : H5File Val) : Prop where
  datasetId : f.datasetId = some p.datasetId
  layout : f.layout = some p.dsLayout.name
  nodup : p.varNames.Nodup
  vars : ∀ v, f.vars v = match p.dsLayout with
    | .individual => (p.varDefs.enum.find? (·.2.name = v)).map fun x => freshColumn p np x.1 x.2
    | .combined => if v = dsVariables then some (freshRecords p np) else none

end H5File

section Created

variable {p : Persistence} {np : Numpy Val} {io : Faults}

theorem initContainer_ok {f : H5File Val} {a : Unit} (h : initContainer p np io {} = .ok a f) :
    f.Initialized p np ∧ ∀ v e, f.vars v = some e → 0 ≤ p.dsIncrement := by
  simp only [initContainer] at h
  obtain ⟨_, f1, h1, h⟩ := Outcome.bind_eq_ok h
  cases Outcome.call_ok h1
  obtain ⟨_, f2, h2, h⟩ := Outcome.bind_eq_ok h
  cases Outcome.call_ok h2
  obtain ⟨_, f3, h3, h⟩ := Outcome.bind_eq_ok h
  cases Outcome.call_ok h3
  cases hl : p.dsLayout with
  | individual =>
    rw [hl] at h
    obtain ⟨hinc, hnd, -, hid, hlay, hvars⟩ := createColumns_ok h
    have hnames : p.varDefs.enum.map (·.2.name) = p.varNames := by
      rw [Persistence.varNames, ← List.enum_map_snd p.varDefs, List.map_map, List.enum_map_snd]
      rfl
    refine ⟨⟨hid, by rw [hlay, hl]; rfl, hnames ▸ hnd, fun v => by rw [hvars v]; simp [hl]⟩,
      fun v e hv => hinc fun hnil => ?_⟩
    rw [hvars v, hnil] at hv
    simp at hv
  | combined =>
    rw [hl] at h
    obtain ⟨hinc, hnd, rfl⟩ := createRecords_ok h
    exact ⟨⟨rfl, by rw [hl]; rfl, hnd, fun v => by simp [hl]⟩, fun _ _ _ => hinc⟩

theorem freshColumn_sized (hinc : 0 ≤ p.dsIncrement) (position : Nat) (vi : VarInfo) :
    (freshColumn p np position vi).Sized p.dsIncrement :=
  ⟨0, rfl, Nat.zero_le _, 1, le_rfl, by simp [freshColumn, Entry.capacity, Extent.capacity]; omega⟩

theorem freshRecords_sized (hinc : 0 ≤ p.dsIncrement) : (freshRecords p np).Sized p.dsIncrement :=
  ⟨0, rfl, Nat.zero_le _, 1, le_rfl, by simp [freshRecords, Entry.capacity, Extent.capacity]; omega⟩

theorem H5File.Initialized.sized {f : H5File Val} (hf : f.Initialized p np)
    (hinc : ∀ v e, f.vars v = some e → 0 ≤ p.dsIncrement) : f.Sized p.dsIncrement := by
  intro v e hv
  have h := hf.vars v
  have hinc := hinc v e hv
  rw [hv] at h
  split at h
  · obtain ⟨x, -, hx⟩ := Option.map_eq_some'.mp h.symm
    rw [← hx]
    exact freshColumn_sized hinc _ _
  · split at h
    · cases h; exact freshRecords_sized hinc
    · cases h

/-- When `require_dataset` returns `(path, True)`, the file is a fully initialised container. -/
theorem requireDataset_created {root : Path} {fs fs' : FileSystem Val} {path : Path}
    (h : requireDataset p np io root fs = .ok (path, true) fs') :
    path = getDsFilename root p.datasetId ∧ ∃ f, fs'.files path = some f ∧
      f.Initialized p np ∧ f.Sized p.dsIncrement := by
  simp only [requireDataset] at h
  split at h
  · cases h
  obtain ⟨_, fs1, -, h⟩ := Outcome.bind_eq_ok h
  split at h
  · cases h
  obtain ⟨_, fs2, h2, h⟩ := Outcome.bind_eq_ok h
  cases h
  obtain ⟨f, ho, rfl⟩ := Outcome.map_eq_ok h2
  obtain ⟨hi, hinc⟩ := initContainer_ok ho
  exact ⟨rfl, f, by simp, hi, hi.sized hinc⟩

end Created

/-- Along every sequence of `extend_dataset` calls, returning or raising, every extent stays sized
and no capacity, `last_row` or committed row goes down. -/
theorem extend_runs_keep_capacity {p : Persistence} {np : Numpy Val} {io : Faults} {root : Path}
    {fs fs' : FileSystem Val} {path : Path}
    (hcreate : requireDataset p np io root fs = .ok (path, true) fs') :
    ∃ f₀, fs'.files path = some f₀ ∧
      ∀ (steps : List (Faults × Packet Val)) (io' : Faults) (pkt : Packet Val),
        (runExtends p np steps f₀).Sized p.dsIncrement ∧
          (runExtends p np steps f₀).Grows (extendDataset p np io' pkt (runExtends p np steps f₀)).state := by
  obtain ⟨-, f₀, hf, -, hs⟩ := requireDataset_created hcreate
  refine ⟨f₀, hf, fun steps io' pkt => ?_⟩
  have h := (runExtends_sized np steps hs).1
  exact ⟨h, (extendDataset_state np io' pkt h).2⟩

theorem extend_runs_keep_capacity_scenario :
    ∃ f₀, (requireDataset scenario plainNumpy noFaults [] {}).state.files
        (getDsFilename [] scenario.datasetId) = some f₀ ∧
      ∀ (steps : List (Faults × Packet Int)) (io' : Faults) (pkt : Packet Int),
        (runExtends scenario plainNumpy steps f₀).Sized scenario.dsIncrement ∧
          (runExtends scenario plainNumpy steps f₀).Grows
            (extendDataset scenario plainNumpy io' pkt (runExtends scenario plainNumpy steps f₀)).state :=
  @extend_runs_keep_capacity Int scenario plainNumpy noFaults [] {} _ _ rfl

/-- Every run of `extend_dataset` calls keeps `dataset_id`, `layout` and every extent as created. -/
theorem extend_runs_keep_layout {p : Persistence} {np : Numpy Val} {io : Faults} {root : Path}
    {fs fs' : FileSystem Val} {path : Path}
    (hcreate : requireDataset p np io root fs = .ok (path, true) fs') :
    ∃ f₀, fs'.files path = some f₀ ∧ ∀ steps : List (Faults × Packet Val),
      (runExtends p np steps f₀).datasetId = some p.datasetId ∧
        (runExtends p np steps f₀).layout = some p.dsLayout.name ∧ f₀.Grows (runExtends p np steps f₀) := by
  obtain ⟨-, f₀, hf, hi, hs⟩ := requireDataset_created hcreate
  refine ⟨f₀, hf, fun steps => ?_⟩
  have hg := (runExtends_sized np steps hs).2
  exact ⟨hg.datasetId_eq.trans hi.datasetId, hg.layout_eq.trans hi.layout, hg⟩

theorem extend_runs_keep_layout_scenario :
    ∃ f₀, (requireDataset scenario plainNumpy noFaults [] {}).state.files
        (getDsFilename [] scenario.datasetId) = some f₀ ∧ ∀ steps : List (Faults × Packet Int),
      (runExtends scenario plainNumpy steps f₀).datasetId = some scenario.datasetId ∧
        (runExtends scenario plainNumpy steps f₀).layout = some scenario.dsLayout.name ∧
        f₀.Grows (runExtends scenario plainNumpy steps f₀) :=
  @extend_runs_keep_layout Int scenario plainNumpy noFaults [] {} _ _ rfl

/-- `os.makedirs` raises for a second dataset under one root. -/
theorem requireDataset_second_dataset_raises :
    ∃ path fs₁, requireDataset scenario plainNumpy noFaults [] {} = .ok (path, true) fs₁ ∧
      requireDataset { scenario with datasetId := "other" } plainNumpy noFaults [] fs₁ =
        .raised (.osError dsBasePath) fs₁ :=
  ⟨_, _, rfl, rfl⟩

/-- A combined layout whose schema repeats a variable name, which `np.dtype` rejects. -/
def repeatedNames : Persistence :=
  parseSchema "repeated"
    { persistence := some { layout := some dsLayoutCombined, rowIncrement := some 10 }
      vars := [{ name := "x" }, { name := "x" }] }

theorem requireDataset_leaves_partial_container :
    ∃ err fs₁, requireDataset repeatedNames plainNumpy noFaults [] {} = .raised err fs₁ ∧
      ((fs₁.files (getDsFilename [] repeatedNames.datasetId)).map fun f =>
        (f.vars dsVariables).isSome) = some false ∧
      (∀ f, fs₁.files (getDsFilename [] repeatedNames.datasetId) = some f →
        ¬ f.Initialized repeatedNames plainNumpy) ∧
      requireDataset repeatedNames plainNumpy noFaults [] fs₁ =
        .ok (getDsFilename [] repeatedNames.datasetId, false) fs₁ :=
  ⟨_, _, rfl, rfl, fun _ _ h => by simpa [repeatedNames, parseSchema, Persistence.varNames] using h.nodup,
    rfl⟩

end Scioncc
