import Scioncc.Persist.Query

/-!
# Callers racing on one dataset

`require_dataset` checks `os.path.exists` without a lock, then calls `os.makedirs`, then opens the
file in the truncating mode `"w"` and initialises it under the file's exclusive lock;
`extend_dataset` runs under the exclusive lock and `get_data` under the shared one. Callers
interleave at these points, in any order a scheduler picks. `os.makedirs` raises when the
directory is already there, and nothing removes a directory, so at most one caller ever gets past
it: the file is opened in mode `"w"` at most once, on no existing file, and from then on it is
the container that open produced followed by every append that ran on it, in the order they ran.
-/

namespace Scioncc

variable {Val : Type}

inductive Op (Val : Type)
  | require (io : Faults)
  | extend (io : Faults) (pkt : Packet Val)
  | query (filter : DataFilter)

/-- A caller's place in `require_dataset`: before the check, after it, or after `os.makedirs`. -/
inductive Phase
  | check
  | makedirs
  | create
  deriving DecidableEq, Repr

structure Caller (Val : Type) where
  ops : List (Op Val)
  phase : Phase := .check

/-- The shared file system, with ghost state: the opens in mode `"w"`, the container the last one
left, whether its initialisation returned, and the appends that ran since, in order. -/
structure World (Val : Type) where
  fs : FileSystem Val
  callers : Nat → Caller Val
  opensW : Nat := 0
  created : Option (H5File Val) := none
  createdOk : Bool := false
  appends : List (Faults × Packet Val) := []

namespace World

def init (fs : FileSystem Val) (progs : Nat → List (Op Val)) : World Val :=
  { fs := fs, callers := fun i => { ops := progs i } }

def setCaller (w : World Val) (i : Nat) (c : Caller Val) : World Val :=
  { w with callers := Function.update w.callers i c }

@[simp] theorem callers_setCaller (w : World Val) (i j : Nat) (c : Caller Val) :
    (w.setCaller i c).callers j = if j = i then c else w.callers j := by
  simp [setCaller, Function.update_apply]

@[simp] theorem fs_setCaller (w : World Val) (i : Nat) (c : Caller Val) :
    (w.setCaller i c).fs = w.fs := rfl
@[simp] theorem opensW_setCaller (w : World Val) (i : Nat) (c : Caller Val) :
    (w.setCaller i c).opensW = w.opensW := rfl
@[simp] theorem created_setCaller (w : World Val) (i : Nat) (c : Caller Val) :
    (w.setCaller i c).created = w.created := rfl
@[simp] theorem createdOk_setCaller (w : World Val) (i : Nat) (c : Caller Val) :
    (w.setCaller i c).createdOk = w.createdOk := rfl
@[simp] theorem appends_setCaller (w : World Val) (i : Nat) (c : Caller Val) :
    (w.setCaller i c).appends = w.appends := rfl

end World

section Step

variable (p : Persistence) (np : Numpy Val) (root : Path)

/-- One step of caller `i`; a caller with nothing left to do does nothing. -/
def step (w : World Val) (i : Nat) : World Val :=
  let path := getDsFilename root p.datasetId
  match (w.callers i).ops, (w.callers i).phase with
  | [], _ => w
  | .require _ :: rest, .check =>
    if w.fs.pathExists path then w.setCaller i ⟨rest, .check⟩
    else w.setCaller i ⟨(w.callers i).ops, .makedirs⟩
  | .require io :: rest, .makedirs =>
    match w.fs.makedirs io path.dropLast with
    | .raised _ fs => { w.setCaller i ⟨rest, .check⟩ with fs := fs }
    | .ok _ fs => { w.setCaller i ⟨(w.callers i).ops, .create⟩ with fs := fs }
  | .require io :: rest, .create =>
    if io (.openFile "w") then w.setCaller i ⟨rest, .check⟩
    else
      { w.setCaller i ⟨rest, .check⟩ with
        fs := w.fs.setFile path (initContainer p np io {}).state
        opensW := w.opensW + 1
        created := some (initContainer p np io {}).state
        createdOk := (initContainer p np io {}).isOk
        appends := [] }
  | .extend io pkt :: rest, _ =>
    match w.fs.files path with
    | none => w.setCaller i ⟨rest, .check⟩
    | some f =>
      if io (.openFile "r+") then w.setCaller i ⟨rest, .check⟩
      else
        { w.setCaller i ⟨rest, .check⟩ with
          fs := w.fs.setFile path (extendDataset p np io pkt f).state
          appends := w.appends ++ [(io, pkt)] }
  | .query _ :: rest, _ => w.setCaller i ⟨rest, .check⟩

def run (w : World Val) : List Nat → World Val
  | [] => w
  | i :: sched => run (step p np root w i) sched

end Step

theorem FileSystem.makedirs_cases (fs : FileSystem Val) (io : Faults) (dir : Path) :
    (∃ e, fs.makedirs io dir = .raised e fs) ∨
      (fs.dirs dir = false ∧ ∃ fs', fs.makedirs io dir = .ok () fs' ∧ fs'.files = fs.files ∧
        (∀ q, fs.dirs q = true → fs'.dirs q = true) ∧ fs'.dirs dir = true) := by
  unfold FileSystem.makedirs
  split
  · exact .inl ⟨_, rfl⟩
  rename_i h
  have hdir : fs.dirs dir = false := by
    simp only [FileSystem.pathExists, Bool.or_eq_true, not_or] at h
    simpa using h.1.2
  rcases Outcome.call_cases io (.makedirs dir) (fun fs => { fs with dirs := fun q => q.isPrefixOf dir || fs.dirs q }) fs
    with h | h
  · exact .inl h
  · exact .inr ⟨hdir, _, h, rfl, fun q hq => by simp [hq], by simp⟩

theorem runExtends_append (p : Persistence) (np : Numpy Val) (io : Faults) (pkt : Packet Val) :
    ∀ (steps : List (Faults × Packet Val)) (f : H5File Val),
      runExtends p np (steps ++ [(io, pkt)]) f = (extendDataset p np io pkt (runExtends p np steps f)).state
  | [], _ => rfl
  | _ :: steps, _ => runExtends_append p np io pkt steps _

theorem extendAll_ok_runExtends {p : Persistence} {np : Numpy Val} :
    ∀ {steps : List (Faults × Packet Val)} {f f' : H5File Val}, extendAll p np steps f = .ok () f' →
      runExtends p np steps f = f'
  | [], _, _, h => by cases h; rfl
  | (io, pkt) :: steps, f, f', h => by
    obtain ⟨_, f1, h1, h⟩ := Outcome.bind_eq_ok h
    show runExtends p np steps (extendDataset p np io pkt f).state = f'
    rw [h1]
    exact extendAll_ok_runExtends h

section StepSpec

variable {p : Persistence} {np : Numpy Val} {root : Path}

/-- Everything one step can do: move the caller, create the directory, open the file, or append. -/
theorem step_cases (w : World Val) (i : Nat) :
    (∃ c : Caller Val, c.phase ≠ .create ∧ step p np root w i = w.setCaller i c) ∨
      step p np root w i = w ∨
      (∃ (c : Caller Val) (fs : FileSystem Val),
        w.fs.dirs (getDsFilename root p.datasetId).dropLast = false ∧ fs.files = w.fs.files ∧
        (∀ q, w.fs.dirs q = true → fs.dirs q = true) ∧
        fs.dirs (getDsFilename root p.datasetId).dropLast = true ∧
        step p np root w i = { w.setCaller i c with fs := fs }) ∨
      (∃ (io : Faults) (c : Caller Val), (w.callers i).phase = .create ∧ c.phase ≠ .create ∧
        step p np root w i =
          { w.setCaller i c with
            fs := w.fs.setFile (getDsFilename root p.datasetId) (initContainer p np io {}).state
            opensW := w.opensW + 1
            created := some (initContainer p np io {}).state
            createdOk := (initContainer p np io {}).isOk
            appends := [] }) ∨
      (∃ (io : Faults) (pkt : Packet Val) (f : H5File Val) (c : Caller Val), c.phase ≠ .create ∧
        w.fs.files (getDsFilename root p.datasetId) = some f ∧
        step p np root w i =
          { w.setCaller i c with
            fs := w.fs.setFile (getDsFilename root p.datasetId) (extendDataset p np io pkt f).state
            appends := w.appends ++ [(io, pkt)] }) := by
  unfold step
  dsimp only
  split
  · exact .inr (.inl rfl)
  · split
    · exact .inl ⟨_, by simp, rfl⟩
    · exact .inl ⟨_, by simp, rfl⟩
  · rename_i io rest _ _
    rcases FileSystem.makedirs_cases w.fs io (getDsFilename root p.datasetId).dropLast with
      ⟨e, h⟩ | ⟨hdir, fs', h, hfiles, hgrow, hnew⟩
    · rw [h]
      exact .inl ⟨_, by simp, rfl⟩
    · rw [h]
      exact .inr (.inr (.inl ⟨_, fs', hdir, hfiles, hgrow, hnew, rfl⟩))
  · rename_i io rest _ hph
    split
    · exact .inl ⟨_, by simp, rfl⟩
    · exact .inr (.inr (.inr (.inl ⟨io, _, hph, by simp, rfl⟩)))
  · rename_i io pkt rest _
    split
    · exact .inl ⟨_, by simp, rfl⟩
    · rename_i f hf
      split
      · exact .inl ⟨_, by simp, rfl⟩
      · exact .inr (.inr (.inr (.inr ⟨io, pkt, f, _, by simp, hf, rfl⟩)))
  · exact .inl ⟨_, by simp, rfl⟩

end StepSpec

/-- What every interleaving keeps: at most one truncating open, and the file is its container
followed by the appends that ran on it. -/
structure World.Consistent (p : Persistence) (np : Numpy Val) (root : Path) (w : World Val) :
    Prop where
  creator_unique : ∀ i j, (w.callers i).phase = .create → (w.callers j).phase = .create → i = j
  creator_first : ∀ i, (w.callers i).phase = .create → w.opensW = 0
  opens_le_one : w.opensW ≤ 1
  dir_of_creator : ∀ i, (w.callers i).phase = .create →
    w.fs.dirs (getDsFilename root p.datasetId).dropLast = true
  dir_of_open : w.opensW = 1 → w.fs.dirs (getDsFilename root p.datasetId).dropLast = true
  open_of_created : w.created.isSome = true → w.opensW = 1
  file : w.fs.files (getDsFilename root p.datasetId) = w.created.map (runExtends p np w.appends)
  created_ok : w.createdOk = true →
    ∃ io a f₀, w.created = some f₀ ∧ initContainer p np io {} = .ok a f₀

section Invariant

variable {p : Persistence} {np : Numpy Val} {root : Path}

theorem World.init_consistent {fs : FileSystem Val}
    (hfs : fs.files (getDsFilename root p.datasetId) = none) (progs : Nat → List (Op Val)) :
    (World.init fs progs).Consistent p np root where
  creator_unique _ _ h := nomatch h
  creator_first _ h := nomatch h
  opens_le_one := Nat.zero_le _
  dir_of_creator _ h := nomatch h
  dir_of_open h := nomatch h
  open_of_created h := nomatch h
  file := hfs
  created_ok h := nomatch h

theorem creator_of_setCaller {w : World Val} {i j : Nat} {c : Caller Val} (hc : c.phase ≠ .create)
    (hj : ((w.setCaller i c).callers j).phase = .create) : (w.callers j).phase = .create ∧ j ≠ i := by
  rw [World.callers_setCaller] at hj
  split at hj
  · exact absurd hj hc
  · exact ⟨hj, ‹_›⟩

theorem World.Consistent.setCaller {w : World Val} (h : w.Consistent p np root) {i : Nat}
    {c : Caller Val} (hc : c.phase ≠ .create) : (w.setCaller i c).Consistent p np root where
  creator_unique j k hj hk := h.creator_unique j k (creator_of_setCaller hc hj).1 (creator_of_setCaller hc hk).1
  creator_first j hj := h.creator_first j (creator_of_setCaller hc hj).1
  opens_le_one := h.opens_le_one
  dir_of_creator j hj := h.dir_of_creator j (creator_of_setCaller hc hj).1
  dir_of_open := h.dir_of_open
  open_of_created := h.open_of_created
  file := h.file
  created_ok := h.created_ok

theorem step_consistent {w : World Val} (h : w.Consistent p np root) (i : Nat) :
    (step p np root w i).Consistent p np root := by
  rcases step_cases w i with ⟨c, hc, hs⟩ | hs | ⟨c, fs, hdir, hfiles, hgrow, hnew, hs⟩ |
      ⟨io, c, hcr, hc, hs⟩ | ⟨io, pkt, f, c, hc, hf, hs⟩ <;> rw [hs]
  · exact h.setCaller hc
  · exact h
  case inr.inr.inl =>
    -- `os.makedirs` returned: nobody was past it, nobody had opened the file
    have hnone : ∀ j, (w.callers j).phase ≠ .create := fun j hj => by
      simpa [hdir] using h.dir_of_creator j hj
    have h0 : w.opensW = 0 := by
      have := h.opens_le_one
      have : w.opensW ≠ 1 := fun h1 => by simpa [hdir] using h.dir_of_open h1
      omega
    refine ⟨fun j k hj hk => ?_, fun _ _ => h0, h.opens_le_one, fun _ _ => hnew,
      fun _ => hnew, h.open_of_created, by rw [hfiles]; exact h.file, h.created_ok⟩
    simp only [World.callers_setCaller] at hj hk
    split at hj <;> split at hk
    · subst_vars; rfl
    all_goals first | exact absurd hj (hnone _) | exact absurd hk (hnone _)
  case inr.inr.inr.inl =>
    -- the truncating open, on no file
    have h0 := h.creator_first i hcr
    have hdirs := h.dir_of_creator i hcr
    have hother : ∀ j, ((w.setCaller i c).callers j).phase ≠ .create := fun j hj => by
      obtain ⟨hj, hji⟩ := creator_of_setCaller hc hj
      exact hji (h.creator_unique j i hj hcr)
    refine ⟨fun j _ hj => absurd hj (hother j), fun j hj => absurd hj (hother j), by simp [h0],
      fun j hj => absurd hj (hother j), fun _ => by simpa using hdirs, fun _ => by simp [h0],
      by simp; rfl, fun hok => ?_⟩
    cases ho : initContainer p np io {} with
    | ok a f₀ => exact ⟨io, a, f₀, by simp [ho], ho⟩
    | raised => simp [ho, Outcome.isOk] at hok
  case inr.inr.inr.inr =>
    -- an append on the file
    obtain ⟨f₀, hc₀, rfl⟩ := Option.map_eq_some'.mp (h.file.symm.trans hf)
    have hs' := h.setCaller (i := i) hc
    refine ⟨hs'.creator_unique, hs'.creator_first, h.opens_le_one, fun j hj => by
      simpa using hs'.dir_of_creator j hj, fun h1 => by simpa using h.dir_of_open h1,
      h.open_of_created, ?_, h.created_ok⟩
    simp [hc₀, runExtends_append]

theorem run_consistent : ∀ {w : World Val} (sched : List Nat), w.Consistent p np root →
    (run p np root w sched).Consistent p np root
  | _, [], h => h
  | _, i :: sched, h => run_consistent sched (step_consistent h i)

end Invariant

section Races

variable {p : Persistence} {np : Numpy Val} {root : Path}

/-- Under every interleaving of callers on one new dataset the file is opened in mode `"w"` at most
once, and is the container that open left followed by every append that ran on it. -/
theorem race_opens_truncating_once {fs₀ : FileSystem Val}
    (hfs : fs₀.files (getDsFilename root p.datasetId) = none) (progs : Nat → List (Op Val))
    (sched : List Nat) :
    let w := run p np root (World.init fs₀ progs) sched
    w.opensW ≤ 1 ∧
      w.fs.files (getDsFilename root p.datasetId) = w.created.map (runExtends p np w.appends) ∧
      (p.dsLayout = .individual → w.createdOk = true → ∀ f₀ f, w.created = some f₀ →
        extendAll p np w.appends f₀ = .ok () f →
        w.fs.files (getDsFilename root p.datasetId) = some f ∧
          ∀ v ∈ p.varNames, f.lastRowOf v = some (w.appends.map fun s => s.2.cols.count v * s.2.numRows).sum) := by
  intro w
  have h : w.Consistent p np root := run_consistent sched (World.init_consistent hfs progs)
  refine ⟨h.opens_le_one, h.file, fun hl hok f₀ f hc hrun => ?_⟩
  obtain ⟨io, a, f₁, hc₁, hinit⟩ := h.created_ok hok
  obtain rfl : f₁ = f₀ := Option.some.inj (hc₁.symm.trans hc)
  refine ⟨by rw [h.file, hc, Option.map_some', extendAll_ok_runExtends hrun], fun v hv => ?_⟩
  exact (extendAll_committed hl (initContainer_ok hinit).1 hrun hv).2

/-- A caller whose `require_dataset` steps run back to back finishes in at most three steps. -/
theorem run_require_sequential (w : World Val) {i : Nat} {io : Faults} {rest : List (Op Val)}
    (hc : w.callers i = ⟨.require io :: rest, .check⟩) :
    ∃ k ≤ 3, (run p np root w (List.replicate k i)).callers i = ⟨rest, .check⟩ ∧
      (run p np root w (List.replicate k i)).fs = (requireDataset p np io root w.fs).state := by
  by_cases hex : w.fs.pathExists (getDsFilename root p.datasetId)
  · exact ⟨1, by omega, by simp [run, step, hc, hex], by simp [run, step, hc, hex, requireDataset]⟩
  rcases FileSystem.makedirs_cases w.fs io (getDsFilename root p.datasetId).dropLast with
    ⟨e, hm⟩ | ⟨-, fs', hm, -⟩
  · exact ⟨2, by omega, by simp [run, step, hc, hex, hm],
      by simp [run, step, hc, hex, hm, requireDataset]⟩
  by_cases hw : io (.openFile "w")
  · exact ⟨3, by omega, by simp [run, step, hc, hex, hm, hw],
      by simp [run, step, hc, hex, hm, hw, requireDataset]⟩
  refine ⟨3, by omega, by simp [run, step, hc, hex, hm, hw], ?_⟩
  cases ho : initContainer p np io {} <;> simp [run, step, hc, hex, hm, hw, requireDataset, ho]

theorem run_require_sequential_scenario :
    ∃ k ≤ 3, (run scenario plainNumpy [] (World.init {} fun _ => [.require noFaults])
        (List.replicate k 0)).callers 0 = ⟨[], .check⟩ ∧
      (run scenario plainNumpy [] (World.init {} fun _ => [.require noFaults])
        (List.replicate k 0)).fs = (requireDataset scenario plainNumpy noFaults [] {}).state :=
  run_require_sequential _ rfl

/-- Two callers, each creating the dataset and then appending one packet. -/
def racingCallers : Nat → List (Op Int) :=
  fun i => if i < 2 then [.require noFaults, .extend noFaults temperatureOnly] else []

theorem race_opens_truncating_once_two_callers :
    let w := run scenario plainNumpy [] (World.init {} racingCallers) [0, 1, 0, 1, 0, 1, 1, 0]
    w.opensW ≤ 1 ∧
      w.fs.files (getDsFilename [] scenario.datasetId) =
        w.created.map (runExtends scenario plainNumpy w.appends) ∧
      (scenario.dsLayout = .individual → w.createdOk = true → ∀ f₀ f, w.created = some f₀ →
        extendAll scenario plainNumpy w.appends f₀ = .ok () f →
        w.fs.files (getDsFilename [] scenario.datasetId) = some f ∧
          ∀ v ∈ scenario.varNames,
            f.lastRowOf v = some (w.appends.map fun s => s.2.cols.count v * s.2.numRows).sum) :=
  race_opens_truncating_once rfl racingCallers [0, 1, 0, 1, 0, 1, 1, 0]

def unreadableTime : Packet Int :=
  { cols := ["temperature", "time"]
    data := { fields := ["temperature"], rows := [[5]], arity := by decide } }

/-- An append raising at its second column has still moved `temperature`'s `last_row` to 1. -/
theorem race_raised_append_moves_last_row :
    let w := run scenario plainNumpy [] (World.init {} fun i =>
      if i = 0 then [.require noFaults, .extend noFaults unreadableTime] else []) [0, 0, 0, 0]
    w.appends = [(noFaults, unreadableTime)] ∧
      (∃ f₀, w.created = some f₀ ∧
        (extendDataset scenario plainNumpy noFaults unreadableTime f₀).isOk = false) ∧
      (w.fs.files (getDsFilename [] "scenario")).bind (·.lastRowOf "temperature") = some 1 :=
  ⟨rfl, ⟨_, rfl, rfl⟩, rfl⟩

end Races

end Scioncc
