import Scioncc.Persist.Log

/-!
# Appending packets: the committed rows along every run

Read through its committed rows, the container `require_dataset` creates is a set of empty logs,
and every run of `extend_dataset` calls keeps each log exact. In the individual layout a
variable's log grows by its converted column once for every time a packet's `cols` names it; in
the combined layout the record log grows by the spec's record of every packet row. A call that
raises leaves the record log as it was, and the individual logs extended by the columns the loop
finished before the failure.
-/

namespace Scioncc

variable {Val : Type}

namespace H5File

variable (f : H5File Val)

/-- The committed rows `vars/v[0:last_row]` of a scalar column. -/
def committedColumn (v : String) : Option (List Val) :=
  match f.vars v with
  | some (.column _ _ x) => some x.committed
  | _ => none

def committedRecords : Option (List (List Val)) :=
  match f.vars dsVariables with
  | some (.records _ _ x) => some x.committed
  | _ => none

def lastRowOf (v : String) : Option Nat := (f.vars v).bind Entry.lastRow

def capacityOf (v : String) : Option Nat := (f.vars v).map Entry.capacity

/-- The combined layout as one log: the record extent with fields `fs` commits exactly `log`. -/
def TracksRecords (fs : List (String × String)) (log : List (List Val)) : Prop :=
  ∃ d x, f.vars dsVariables = some (.records fs d x) ∧ x.Holds log

variable {f}

theorem Tracks.committed {names : List String} {dtype : String → String}
    {log : String → List Val} (h : f.Tracks names dtype log) {v : String} (hv : v ∈ names) :
    f.committedColumn v = some (log v) ∧ f.lastRowOf v = some (log v).length := by
  obtain ⟨a, x, he, hx⟩ := h.column v hv
  simp [committedColumn, lastRowOf, he, hx.committed, Entry.lastRow, hx.1]

theorem TracksRecords.committed {fs : List (String × String)} {log : List (List Val)}
    (h : f.TracksRecords fs log) :
    f.committedRecords = some log ∧ f.lastRowOf dsVariables = some log.length := by
  obtain ⟨d, x, he, hx⟩ := h
  simp [committedRecords, lastRowOf, he, hx.committed, Entry.lastRow, hx.1]

end H5File

theorem find?_enumFrom_map_snd {α : Type} (q : α → Bool) :
    ∀ (n : Nat) (l : List α), ((l.enumFrom n).find? fun x => q x.2).map Prod.snd = l.find? q
  | _, [] => rfl
  | n, a :: l => by
    cases h : q a <;> simp [List.enumFrom_cons, List.find?_cons, h, find?_enumFrom_map_snd]

section Fresh

variable {p : Persistence} {np : Numpy Val} {f : H5File Val}

theorem H5File.Initialized.tracks (hf : f.Initialized p np) (hl : p.dsLayout = .individual) :
    f.Tracks p.varNames p.storageDtypeOf fun _ => [] := by
  have hmap (v : String) := find?_enumFrom_map_snd (fun vi : VarInfo => decide (vi.name = v)) 0 p.varDefs
  have hvars (v : String) := hf.vars v
  simp only [hl] at hvars
  constructor
  · intro v hv
    obtain ⟨vi, hvi⟩ := Option.isSome_iff_exists.mp
      ((List.find?_isSome (p := fun vi : VarInfo => decide (vi.name = v))).mpr
        (by simpa [Persistence.varNames] using hv))
    obtain ⟨x, hx, rfl⟩ := Option.map_eq_some'.mp ((hmap v).trans hvi)
    have hd : p.storageDtypeOf v = x.2.storageDtype.getD "f8" := by
      simp [Persistence.storageDtypeOf, hvi]
    rw [hvars, List.enum, hx, hd]
    exact ⟨_, _, rfl, rfl, Nat.zero_le _, rfl⟩
  · intro v hv
    have hnone : p.varDefs.find? (·.name = v) = none := List.find?_eq_none.mpr fun vi hvi h =>
      hv (by simpa [Persistence.varNames] using ⟨vi, hvi, by simpa using h⟩)
    rw [hvars, List.enum, Option.map_eq_none'.mp ((hmap v).trans hnone)]
    rfl

theorem H5File.Initialized.tracksRecords (hf : f.Initialized p np) (hl : p.dsLayout = .combined) :
    f.TracksRecords (recordFields p) [] := by
  have hvars := hf.vars dsVariables
  simp only [hl, if_pos] at hvars
  exact ⟨_, _, hvars, rfl, Nat.zero_le _, rfl⟩

/-- A container `require_dataset` has just created has `last_row = 0` and `row_increment` rows of
capacity in every extent. -/
theorem requireDataset_fresh_extents {io : Faults} {root : Path} {fs fs' : FileSystem Val}
    {path : Path} (h : requireDataset p np io root fs = .ok (path, true) fs') :
    ∃ f, fs'.files path = some f ∧
      (∀ v e, f.vars v = some e → e.lastRow = some 0 ∧ (e.capacity : Int) = p.dsIncrement) ∧
      (p.dsLayout = .individual → ∀ v, (f.vars v).isSome ↔ v ∈ p.varNames) ∧
      (p.dsLayout = .combined → ∀ v, (f.vars v).isSome ↔ v = dsVariables) := by
  obtain ⟨-, f, hf, hi, hs⟩ := requireDataset_created h
  refine ⟨f, hf, fun v e hv => ?_, fun hl v => ?_, fun hl v => ?_⟩
  · have hinc := (hs v e hv).inc_nonneg
    have h := hi.vars v
    rw [hv] at h
    split at h
    · obtain ⟨x, -, rfl⟩ := Option.map_eq_some'.mp h.symm
      simp [freshColumn, Entry.lastRow, Entry.capacity, Extent.capacity, hinc]
    · split at h
      · cases h
        simp [freshRecords, Entry.lastRow, Entry.capacity, Extent.capacity, hinc]
      · cases h
  · by_cases hv : v ∈ p.varNames
    · obtain ⟨a, x, he, -⟩ := (hi.tracks hl).column v hv
      simp [he, hv]
    · simp [(hi.tracks hl).absent v hv, hv]
  · have hvars := hi.vars v
    simp only [hl] at hvars
    rw [hvars]
    split <;> simp [*]

theorem requireDataset_fresh_extents_scenario :
    ∃ f, (requireDataset scenario plainNumpy noFaults [] {}).state.files
        (getDsFilename [] scenario.datasetId) = some f ∧
      (∀ v e, f.vars v = some e → e.lastRow = some 0 ∧ (e.capacity : Int) = scenario.dsIncrement) ∧
      (scenario.dsLayout = .individual → ∀ v, (f.vars v).isSome ↔ v ∈ scenario.varNames) ∧
      (scenario.dsLayout = .combined → ∀ v, (f.vars v).isSome ↔ v = dsVariables) :=
  @requireDataset_fresh_extents Int scenario plainNumpy noFaults [] {} _ _ rfl

end Fresh

section Combined

variable {p : Persistence} {np : Numpy Val} {io : Faults} {pkt : Packet Val} {f f' : H5File Val}
  {log : List (List Val)}

theorem extendCombined_ok_tracks (hinc : 0 ≤ p.dsIncrement) (h : f.TracksRecords (recordFields p) log)
    {u : Unit} (he : extendCombined p np io pkt f = .ok u f') :
    ∃ recs, schemaRecords p np pkt = some recs ∧ f'.TracksRecords (recordFields p) (log ++ recs) := by
  obtain ⟨d, x, hv, hx⟩ := h
  rw [extendCombined_of_some hv] at he
  obtain ⟨e', ho, rfl⟩ := Outcome.map_eq_ok he
  obtain ⟨recs, x', hrecs, rfl, hx'⟩ := appendRecords_ok_holds hinc hx ho
  exact ⟨recs, hrecs, d, x', by simp, hx'⟩

theorem extendCombined_noFaults (hinc : 0 < p.dsIncrement) (h : f.TracksRecords (recordFields p) log)
    {recs : List (List Val)} (hrecs : schemaRecords p np pkt = some recs) :
    ∃ f', extendCombined p np noFaults pkt f = .ok () f' := by
  obtain ⟨d, x, hv, hx⟩ := h
  obtain ⟨e', he⟩ := appendRecords_noFaults hinc hx hrecs
  exact ⟨f.setVar dsVariables e', by rw [extendCombined_of_some hv, he]; rfl⟩

theorem extendCombined_raised_tracks {fs : List (String × String)} (hinc : 0 ≤ p.dsIncrement)
    (h : f.TracksRecords fs log) {err : PyError} (he : extendCombined p np io pkt f = .raised err f') :
    f'.TracksRecords fs log := by
  obtain ⟨d, x, hv, hx⟩ := h
  rw [extendCombined_of_some hv] at he
  obtain ⟨e', ho, rfl⟩ := Outcome.map_eq_raised he
  obtain ⟨x', rfl, hx'⟩ := appendRecords_raised_holds hinc hx ho
  exact ⟨d, x', by simp, hx'⟩

theorem writeRows_congr {pkt' : Packet Val} (hcols : ∀ v ∈ p.varNames, v ∈ pkt.cols ↔ v ∈ pkt'.cols)
    (hdata : pkt.data = pkt'.data) :
    ∀ (i : Nat) (rows : List (List Val)) (e : Entry Val),
      writeRows p np io pkt i rows e = writeRows p np io pkt' i rows e
  | _, [], _ => rfl
  | i, row :: rows, e => by
    have hvals : rowVals p pkt row = rowVals p pkt' row := by
      simp only [rowVals, mem_pvi, hdata]
      exact congrArg (p.varNames.mapM ·) (funext fun vn => by
        by_cases hv : vn ∈ p.varNames <;> simp [hv, hcols vn])
    simp only [writeRows, hvals, writeRows_congr hcols hdata (i + 1) rows]

theorem extendCombined_congr {pkt' : Packet Val}
    (hcols : ∀ v ∈ p.varNames, v ∈ pkt.cols ↔ v ∈ pkt'.cols) (hdata : pkt.data = pkt'.data) :
    extendCombined p np io pkt f = extendCombined p np io pkt' f := by
  simp only [extendCombined, appendRecords, Packet.numRows, hdata,
    writeRows_congr hcols hdata]

end Combined

section Policy

variable {p : Persistence} {np : Numpy Val} {io : Faults} {pkt : Packet Val} {f f' : H5File Val}

/-- A returning `extend_dataset` of `n` rows moves `last_row` from `r` to `r + n` and grows the
capacity `c` to `new_size` exactly when `r + n > c`. -/
theorem extend_resizes_by_policy {u : Unit} (h : extendDataset p np io pkt f = .ok u f') {v : String}
    (hv : p.dsLayout = .individual ∧ pkt.cols.count v = 1 ∨ p.dsLayout = .combined ∧ v = dsVariables)
    {r c : Nat} (hr : f.lastRowOf v = some r) (hc : f.capacityOf v = some c) :
    f'.lastRowOf v = some (r + pkt.numRows) ∧
      f'.capacityOf v = some (if c < r + pkt.numRows then
        (newSize p.dsIncrement c pkt.numRows).toNat else c) := by
  obtain ⟨e, he, rfl⟩ := Option.map_eq_some'.mp hc
  have hr' : e.lastRow = some r := by simpa [H5File.lastRowOf, he] using hr
  rcases hv with ⟨hl, hcount⟩ | ⟨hl, rfl⟩
  · rw [extendDataset_of_individual hl] at h
    obtain ⟨e', ha, he'⟩ := extendIndividual_ok_once hcount h he
    obtain ⟨r', hr₁, hl', hcap⟩ := appendColumn_ok_extent np io ha
    obtain rfl : r' = r := Option.some.inj (hr₁.symm.trans hr')
    simp [H5File.lastRowOf, H5File.capacityOf, he', hl', hcap]
  · rw [extendDataset_of_combined hl, extendCombined_of_some he] at h
    obtain ⟨e', ha, rfl⟩ := Outcome.map_eq_ok h
    obtain ⟨r', hr₁, hl', hcap⟩ := appendRecords_ok_extent np io ha
    obtain rfl : r' = r := Option.some.inj (hr₁.symm.trans hr')
    simp [H5File.lastRowOf, H5File.capacityOf, hl', hcap]

def fiveRows : Packet Int :=
  { cols := ["time", "temperature"]
    data := { fields := ["time", "temperature"]
              rows := [[1, 20], [2, 21], [3, 22], [4, 23], [5, 24]], arity := by decide } }

def eightRows : Packet Int :=
  { cols := ["time", "temperature"]
    data := { fields := ["time", "temperature"]
              rows := [[6, 25], [7, 26], [8, 27], [9, 28], [10, 29], [11, 30], [12, 31], [13, 32]]
              arity := by decide } }

/-- The spec's scenario: eight rows after five grow the capacity from 10 to 20. -/
theorem extend_resizes_by_policy_scenario :
    let f₁ := (extendDataset scenario plainNumpy noFaults fiveRows
      (initContainer scenario plainNumpy noFaults {}).state).state
    (extendDataset scenario plainNumpy noFaults eightRows f₁).state.lastRowOf "temperature" = some 13 ∧
      (extendDataset scenario plainNumpy noFaults eightRows f₁).state.capacityOf "temperature" = some 20 :=
  @extend_resizes_by_policy Int scenario plainNumpy noFaults eightRows
    (extendDataset scenario plainNumpy noFaults fiveRows (initContainer scenario plainNumpy noFaults {}).state).state
    _ () rfl "temperature" (.inl ⟨rfl, rfl⟩) 5 10 rfl rfl

end Policy

/-- A client appending packets in order, each with its own faults, up to the first exception. -/
def extendAll (p : Persistence) (np : Numpy Val) :
    List (Faults × Packet Val) → H5File Val → Outcome (H5File Val) Unit
  | [], f => .ok () f
  | (io, pkt) :: rest, f => (extendDataset p np io pkt f).bind fun _ f => extendAll p np rest f

/-- The files `extend_dataset` calls can reach from `f₀`, each call returning or raising. -/
def Reachable (p : Persistence) (np : Numpy Val) (f₀ f : H5File Val) : Prop :=
  ∃ steps, runExtends p np steps f₀ = f

section Runs

variable {p : Persistence} {np : Numpy Val} {names : List String} {dtype : String → String}

theorem extendAll_tracks (hl : p.dsLayout = .individual) :
    ∀ {steps : List (Faults × Packet Val)} {f f' : H5File Val} {log : String → List Val},
      f.Tracks names dtype log → extendAll p np steps f = .ok () f' →
      (∀ s ∈ steps, ∀ c ∈ s.2.cols, c ∈ names → (castColumn np (dtype c) s.2 c).isSome) ∧
        f'.Tracks names dtype fun v =>
          log v ++ (steps.map fun s => appendedRows np (dtype v) s.2 s.2.cols v).flatten
  | [], f, f', log, h, he => by
    cases he
    exact ⟨by simp, h.congr fun v _ => by simp⟩
  | (io, pkt) :: rest, f, f', log, h, he => by
    obtain ⟨_, f1, h1, he⟩ := Outcome.bind_eq_ok he
    rw [extendDataset_of_individual hl] at h1
    obtain ⟨hc, h1⟩ := extendIndividual_ok_tracks h h1
    obtain ⟨hcs, h2⟩ := extendAll_tracks hl h1 he
    refine ⟨fun s hs => ?_, h2.congr fun v _ => by simp⟩
    rcases List.mem_cons.mp hs with rfl | hs
    · exact hc
    · exact hcs s hs

theorem extendAll_tracksRecords (hl : p.dsLayout = .combined) (hinc : 0 ≤ p.dsIncrement) :
    ∀ {steps : List (Faults × Packet Val)} {f f' : H5File Val} {log : List (List Val)},
      f.TracksRecords (recordFields p) log → extendAll p np steps f = .ok () f' →
      ∃ recs, steps.mapM (fun s => schemaRecords p np s.2) = some recs ∧
        f'.TracksRecords (recordFields p) (log ++ recs.flatten)
  | [], f, f', log, h, he => by
    cases he
    exact ⟨[], rfl, by simpa using h⟩
  | (io, pkt) :: rest, f, f', log, h, he => by
    obtain ⟨_, f1, h1, he⟩ := Outcome.bind_eq_ok he
    rw [extendDataset_of_combined hl] at h1
    obtain ⟨r, hr, h1⟩ := extendCombined_ok_tracks hinc h h1
    obtain ⟨rs, hrs, h2⟩ := extendAll_tracksRecords hl hinc h1 he
    exact ⟨r :: rs, mapM_cons_eq_some.mpr ⟨r, rs, hr, hrs, rfl⟩, by simpa using h2⟩

theorem extendAll_noFaults (hl : p.dsLayout = .combined) (hinc : 0 < p.dsIncrement) :
    ∀ {steps : List (Faults × Packet Val)} {f : H5File Val} {log : List (List Val)},
      f.TracksRecords (recordFields p) log →
      (∀ s ∈ steps, s.1 = noFaults ∧ (schemaRecords p np s.2).isSome) →
      ∃ f', extendAll p np steps f = .ok () f'
  | [], f, _, _, _ => ⟨f, rfl⟩
  | (io, pkt) :: rest, f, log, h, hs => by
    obtain ⟨rfl, hrec⟩ := hs _ (List.mem_cons_self _ _)
    obtain ⟨recs, hrecs⟩ := Option.isSome_iff_exists.mp hrec
    obtain ⟨f1, h1⟩ := extendCombined_noFaults hinc h hrecs
    obtain ⟨_, -, h1'⟩ := extendCombined_ok_tracks hinc.le h h1
    obtain ⟨f', h'⟩ := extendAll_noFaults hl hinc h1' fun s hs' => hs s (List.mem_cons_of_mem _ hs')
    exact ⟨f', by simp only [extendAll, extendDataset_of_combined hl, h1, Outcome.bind_ok, h']⟩

theorem runExtends_tracks (hl : p.dsLayout = .individual) :
    ∀ (steps : List (Faults × Packet Val)) {f : H5File Val} {log : String → List Val},
      f.Sized p.dsIncrement → f.Tracks names dtype log →
      ∃ log', (runExtends p np steps f).Tracks names dtype log'
  | [], _, log, _, h => ⟨log, h⟩
  | (io, pkt) :: rest, f, log, hf, h => by
    obtain ⟨log1, h1⟩ : ∃ log1, (extendDataset p np io pkt f).state.Tracks names dtype log1 := by
      rw [extendDataset_of_individual hl]
      cases ho : extendIndividual p np io pkt pkt.cols f with
      | ok => exact ⟨_, (extendIndividual_ok_tracks h ho).2⟩
      | raised =>
        obtain ⟨_, _, _, h1⟩ := extendIndividual_raised_tracks hf h ho
        exact ⟨_, h1⟩
    exact runExtends_tracks hl rest (extendDataset_state np io pkt hf).1 h1

theorem runExtends_tracksRecords (hl : p.dsLayout = .combined) (hinc : 0 ≤ p.dsIncrement) :
    ∀ (steps : List (Faults × Packet Val)) {f : H5File Val} {log : List (List Val)},
      f.TracksRecords (recordFields p) log →
      ∃ log', (runExtends p np steps f).TracksRecords (recordFields p) log'
  | [], _, log, h => ⟨log, h⟩
  | (io, pkt) :: rest, f, log, h => by
    obtain ⟨log1, h1⟩ :
        ∃ log1, (extendDataset p np io pkt f).state.TracksRecords (recordFields p) log1 := by
      rw [extendDataset_of_combined hl]
      cases ho : extendCombined p np io pkt f with
      | ok =>
        obtain ⟨_, _, h1⟩ := extendCombined_ok_tracks hinc h ho
        exact ⟨_, h1⟩
      | raised => exact ⟨_, extendCombined_raised_tracks hinc h ho⟩
    exact runExtends_tracksRecords hl hinc rest h1

theorem length_flatten_appendedRows {np : Numpy Val} {d v : String} :
    ∀ {steps : List (Faults × Packet Val)},
      (∀ s ∈ steps, v ∈ s.2.cols → (castColumn np d s.2 v).isSome) →
      ((steps.map fun s => appendedRows np d s.2 s.2.cols v).flatten).length =
        (steps.map fun s => s.2.cols.count v * s.2.numRows).sum
  | [], _ => rfl
  | s :: steps, h => by
    rw [List.map_cons, List.flatten_cons, List.length_append,
      appendedRows_length np (h s (List.mem_cons_self _ _)),
      length_flatten_appendedRows fun s hs => h s (List.mem_cons_of_mem _ hs)]
    rfl

theorem length_flatten_schemaRecords {p : Persistence} {np : Numpy Val} :
    ∀ {steps : List (Faults × Packet Val)} {recs : List (List (List Val))},
      steps.mapM (fun s => schemaRecords p np s.2) = some recs →
      recs.flatten.length = (steps.map fun s => s.2.numRows).sum
  | [], recs, h => by rw [mapM_nil_eq_some.mp h]; rfl
  | s :: steps, recs, h => by
    obtain ⟨r, rs, hr, hrs, rfl⟩ := mapM_cons_eq_some.mp h
    rw [List.flatten_cons, List.length_append, mapM_length hr, length_flatten_schemaRecords hrs]
    rfl

theorem extendAll_committed {p : Persistence} {np : Numpy Val} {f₀ f : H5File Val}
    {steps : List (Faults × Packet Val)} (hl : p.dsLayout = .individual) (hi : f₀.Initialized p np)
    (hrun : extendAll p np steps f₀ = .ok () f) {v : String} (hv : v ∈ p.varNames) :
    f.committedColumn v =
        some (steps.map fun s => appendedRows np (p.storageDtypeOf v) s.2 s.2.cols v).flatten ∧
      f.lastRowOf v = some (steps.map fun s => s.2.cols.count v * s.2.numRows).sum := by
  obtain ⟨hcast, htr⟩ := extendAll_tracks hl (hi.tracks hl) hrun
  obtain ⟨hc, hr⟩ := htr.committed hv
  refine ⟨by simpa using hc, ?_⟩
  rw [hr, List.nil_append, length_flatten_appendedRows fun s hs hvs => hcast s hs v hvs hv]

end Runs

section Appends

variable {p : Persistence} {np : Numpy Val} {io : Faults} {root : Path} {fs fs' : FileSystem Val}
  {path : Path}

/-- In the individual layout every returning run commits each variable's converted column once per
naming, and `last_row` counts those rows. -/
theorem extend_runs_commit_each_naming (hl : p.dsLayout = .individual)
    (hcreate : requireDataset p np io root fs = .ok (path, true) fs') :
    ∃ f₀, fs'.files path = some f₀ ∧
      (∀ (steps : List (Faults × Packet Val)) (f : H5File Val), extendAll p np steps f₀ = .ok () f →
        ∀ v ∈ p.varNames,
          f.committedColumn v =
            some (steps.map fun s => appendedRows np (p.storageDtypeOf v) s.2 s.2.cols v).flatten ∧
          f.lastRowOf v = some (steps.map fun s => s.2.cols.count v * s.2.numRows).sum) ∧
      ∀ (io' : Faults) (pkt : Packet Val) (f : H5File Val) (v : String), v ∉ pkt.cols →
        (extendDataset p np io' pkt f).state.vars v = f.vars v := by
  obtain ⟨-, f₀, hf, hi, -⟩ := requireDataset_created hcreate
  refine ⟨f₀, hf, fun steps f hrun v hv => extendAll_committed hl hi hrun hv, fun io' pkt f v hv => ?_⟩
  rw [extendDataset_of_individual hl]
  exact extendIndividual_frame f hv

theorem extend_runs_commit_each_naming_scenario :
    ∃ f₀, (requireDataset scenario plainNumpy noFaults [] {}).state.files
        (getDsFilename [] scenario.datasetId) = some f₀ ∧
      (∀ (steps : List (Faults × Packet Int)) (f : H5File Int),
        extendAll scenario plainNumpy steps f₀ = .ok () f →
        ∀ v ∈ scenario.varNames,
          f.committedColumn v = some (steps.map fun s =>
            appendedRows plainNumpy (scenario.storageDtypeOf v) s.2 s.2.cols v).flatten ∧
          f.lastRowOf v = some (steps.map fun s => s.2.cols.count v * s.2.numRows).sum) ∧
      ∀ (io' : Faults) (pkt : Packet Int) (f : H5File Int) (v : String), v ∉ pkt.cols →
        (extendDataset scenario plainNumpy io' pkt f).state.vars v = f.vars v :=
  @extend_runs_commit_each_naming Int scenario plainNumpy noFaults [] {} _ _ rfl rfl

def repeatedColumn : Packet Int :=
  { cols := ["temperature", "temperature"]
    data := { fields := ["temperature"], rows := [[5]], arity := by decide } }

/-- The packet's single row is committed twice, and `last_row` advances by two. -/
theorem extend_repeated_column_commits_twice :
    ∃ fs' f₀ f, requireDataset scenario plainNumpy noFaults [] {} =
        .ok (getDsFilename [] "scenario", true) fs' ∧
      fs'.files (getDsFilename [] "scenario") = some f₀ ∧
      extendAll scenario plainNumpy [(noFaults, repeatedColumn)] f₀ = .ok () f ∧
      repeatedColumn.numRows = 1 ∧ f.committedColumn "temperature" = some [5, 5] ∧
      f.lastRowOf "temperature" = some 2 :=
  ⟨_, _, _, rfl, rfl, rfl, rfl, rfl, rfl⟩

def scenarioCombined : Persistence :=
  parseSchema "scenario"
    { persistence := some { layout := some dsLayoutCombined, rowIncrement := some 10 }
      vars := [{ name := "time", baseType := some "ntp_time" }, { name := "temperature" }] }

/-- In the combined layout a run without faults on packets with the spec's records returns, and
every returning run commits exactly those records in order. -/
theorem extend_runs_commit_records (hl : p.dsLayout = .combined)
    (hcreate : requireDataset p np io root fs = .ok (path, true) fs') :
    ∃ f₀, fs'.files path = some f₀ ∧
      (∀ steps : List (Faults × Packet Val),
        (0 < p.dsIncrement → (∀ s ∈ steps, s.1 = noFaults ∧ (schemaRecords p np s.2).isSome) →
          ∃ f, extendAll p np steps f₀ = .ok () f) ∧
        ∀ f, extendAll p np steps f₀ = .ok () f →
          ∃ recs, steps.mapM (fun s => schemaRecords p np s.2) = some recs ∧
            f.committedRecords = some recs.flatten ∧
            f.lastRowOf dsVariables = some (steps.map fun s => s.2.numRows).sum) ∧
      ∀ (io' : Faults) (pkt pkt' : Packet Val) (f : H5File Val), pkt.data = pkt'.data →
        (∀ v ∈ p.varNames, v ∈ pkt.cols ↔ v ∈ pkt'.cols) →
        extendDataset p np io' pkt f = extendDataset p np io' pkt' f := by
  obtain ⟨-, f₀, hf, hi, hs⟩ := requireDataset_created hcreate
  obtain ⟨d, x, hv, -⟩ := id (hi.tracksRecords hl)
  have hinc := (hs _ _ hv).inc_nonneg
  refine ⟨f₀, hf, fun steps => ⟨fun hpos hsteps => extendAll_noFaults hl hpos (hi.tracksRecords hl)
    hsteps, fun f hrun => ?_⟩, fun io' pkt pkt' f hdata hcols => ?_⟩
  · obtain ⟨recs, hrecs, htr⟩ := extendAll_tracksRecords hl hinc (hi.tracksRecords hl) hrun
    obtain ⟨hc, hr⟩ := htr.committed
    refine ⟨recs, hrecs, by simpa using hc, ?_⟩
    rw [hr, List.nil_append, length_flatten_schemaRecords hrecs]
  · rw [extendDataset_of_combined hl, extendDataset_of_combined hl]
    exact extendCombined_congr hcols hdata

def timeOnly : Packet Int :=
  { cols := ["time"]
    data := { fields := ["time"], rows := [[100], [101]], arity := by decide } }

theorem extend_runs_commit_records_scenario :
    ∃ f₀ f, (requireDataset scenarioCombined plainNumpy noFaults [] {}).state.files
        (getDsFilename [] scenarioCombined.datasetId) = some f₀ ∧
      extendAll scenarioCombined plainNumpy [(noFaults, timeOnly)] f₀ = .ok () f ∧
      f.committedRecords = some [[100, 0], [101, 0]] ∧ f.lastRowOf dsVariables = some 2 := by
  obtain ⟨f₀, hf, hruns, -⟩ :=
    @extend_runs_commit_records Int scenarioCombined plainNumpy noFaults [] {} _ _ rfl rfl
  obtain ⟨f, hrun⟩ := (hruns [(noFaults, timeOnly)]).1 (by decide)
    fun s hs => by rw [List.mem_singleton.mp hs]; exact ⟨rfl, rfl⟩
  obtain ⟨recs, hrecs, hc, hr⟩ := (hruns [(noFaults, timeOnly)]).2 f hrun
  have hcomputed : [(noFaults, timeOnly)].mapM (fun s => schemaRecords scenarioCombined plainNumpy s.2) =
      some [[[100, 0], [101, 0]]] := rfl
  rw [hcomputed] at hrecs
  cases hrecs
  exact ⟨f₀, f, hf, hrun, hc, hr⟩

/-- `extend_dataset` ignores the packet columns that are not schema variables. -/
theorem extend_ignores_unknown_columns
    (hcreate : requireDataset p np io root fs = .ok (path, true) fs') :
    ∃ f₀, fs'.files path = some f₀ ∧ ∀ f, Reachable p np f₀ f → ∀ (io' : Faults) (pkt : Packet Val),
      extendDataset p np io' pkt f =
        extendDataset p np io' { pkt with cols := pkt.cols.filter (· ∈ p.varNames) } f := by
  obtain ⟨-, f₀, hf, hi, hs⟩ := requireDataset_created hcreate
  refine ⟨f₀, hf, ?_⟩
  rintro f ⟨steps, rfl⟩ io' pkt
  cases hl : p.dsLayout with
  | individual =>
    rw [extendDataset_of_individual hl, extendDataset_of_individual hl]
    obtain ⟨log, hlog⟩ := runExtends_tracks hl steps hs (hi.tracks hl)
    exact extendIndividual_filter (by rfl) pkt.cols hlog.absent
  | combined =>
    rw [extendDataset_of_combined hl, extendDataset_of_combined hl]
    exact extendCombined_congr (fun v hv => by simp [hv]) rfl

theorem extend_ignores_unknown_columns_scenario :
    ∃ f₀, (requireDataset scenario plainNumpy noFaults [] {}).state.files
        (getDsFilename [] scenario.datasetId) = some f₀ ∧
      ∀ f, Reachable scenario plainNumpy f₀ f → ∀ (io' : Faults) (pkt : Packet Int),
        extendDataset scenario plainNumpy io' pkt f =
          extendDataset scenario plainNumpy io' { pkt with cols := pkt.cols.filter (· ∈ scenario.varNames) } f :=
  @extend_ignores_unknown_columns Int scenario plainNumpy noFaults [] {} _ _ rfl

/-- A raising `extend_dataset` keeps every committed row; in the individual layout it has appended
the columns its loop finished. -/
theorem extend_raise_keeps_committed_rows
    (hcreate : requireDataset p np io root fs = .ok (path, true) fs') :
    ∃ f₀, fs'.files path = some f₀ ∧
      ∀ (f : H5File Val) (io' : Faults) (pkt : Packet Val) (err : PyError) (f' : H5File Val),
        Reachable p np f₀ f → extendDataset p np io' pkt f = .raised err f' →
        f'.Sized p.dsIncrement ∧ f.Grows f' ∧
        (p.dsLayout = .combined → f'.committedRecords = f.committedRecords ∧
          f'.lastRowOf dsVariables = f.lastRowOf dsVariables) ∧
        (p.dsLayout = .individual → ∃ j < pkt.cols.length, ∀ v ∈ p.varNames,
          (v ∈ pkt.cols.take j → (castColumn np (p.storageDtypeOf v) pkt v).isSome) ∧
          f'.committedColumn v = (f.committedColumn v).map
            (· ++ appendedRows np (p.storageDtypeOf v) pkt (pkt.cols.take j) v) ∧
          f'.lastRowOf v = (f.lastRowOf v).map (· + (pkt.cols.take j).count v * pkt.numRows)) := by
  obtain ⟨-, f₀, hf₀, hi, hs⟩ := requireDataset_created hcreate
  refine ⟨f₀, hf₀, ?_⟩
  rintro f io' pkt err f' ⟨steps, rfl⟩ he
  have hsz := (runExtends_sized np steps hs).1
  have hst := extendDataset_state np io' pkt hsz
  rw [he, Outcome.state_raised] at hst
  refine ⟨hst.1, hst.2, fun hl => ?_, fun hl => ?_⟩
  · obtain ⟨d, x, hv, -⟩ := id (hi.tracksRecords hl)
    have hinc := (hs _ _ hv).inc_nonneg
    obtain ⟨log, hlog⟩ := runExtends_tracksRecords hl hinc steps (hi.tracksRecords hl)
    rw [extendDataset_of_combined hl] at he
    have h' := (extendCombined_raised_tracks hinc hlog he).committed
    exact ⟨h'.1.trans hlog.committed.1.symm, h'.2.trans hlog.committed.2.symm⟩
  · obtain ⟨log, hlog⟩ := runExtends_tracks hl steps hs (hi.tracks hl)
    rw [extendDataset_of_individual hl] at he
    obtain ⟨j, hj, hcast, h'⟩ := extendIndividual_raised_tracks hsz hlog he
    refine ⟨j, hj, fun v hv => ⟨fun hvj => hcast v hvj hv, ?_, ?_⟩⟩
    · rw [(h'.committed hv).1, (hlog.committed hv).1]
      rfl
    · rw [(h'.committed hv).2, (hlog.committed hv).2, List.length_append,
        appendedRows_length np fun hvj => hcast v hvj hv]
      rfl

theorem extend_raise_keeps_committed_rows_scenario :
    ∃ f₀, (requireDataset scenario plainNumpy noFaults [] {}).state.files
        (getDsFilename [] scenario.datasetId) = some f₀ ∧
      ∀ (f : H5File Int) (io' : Faults) (pkt : Packet Int) (err : PyError) (f' : H5File Int),
        Reachable scenario plainNumpy f₀ f → extendDataset scenario plainNumpy io' pkt f = .raised err f' →
        f'.Sized scenario.dsIncrement ∧ f.Grows f' ∧
        (scenario.dsLayout = .combined → f'.committedRecords = f.committedRecords ∧
          f'.lastRowOf dsVariables = f.lastRowOf dsVariables) ∧
        (scenario.dsLayout = .individual → ∃ j < pkt.cols.length, ∀ v ∈ scenario.varNames,
          (v ∈ pkt.cols.take j → (castColumn plainNumpy (scenario.storageDtypeOf v) pkt v).isSome) ∧
          f'.committedColumn v = (f.committedColumn v).map
            (· ++ appendedRows plainNumpy (scenario.storageDtypeOf v) pkt (pkt.cols.take j) v) ∧
          f'.lastRowOf v = (f.lastRowOf v).map (· + (pkt.cols.take j).count v * pkt.numRows)) :=
  @extend_raise_keeps_committed_rows Int scenario plainNumpy noFaults [] {} _ _ rfl

def repeatedThenMissing : Packet Int :=
  { cols := ["temperature", "temperature", "time"]
    data := { fields := ["temperature"], rows := [[5]], arity := by decide } }

/-- The loop raises at `time` after appending the single row to `temperature` twice. -/
theorem extend_raise_after_repeated_column :
    ∃ fs' f₀ err f', requireDataset scenario plainNumpy noFaults [] {} =
        .ok (getDsFilename [] "scenario", true) fs' ∧
      fs'.files (getDsFilename [] "scenario") = some f₀ ∧
      extendDataset scenario plainNumpy noFaults repeatedThenMissing f₀ = .raised err f' ∧
      repeatedThenMissing.numRows = 1 ∧ f₀.lastRowOf "temperature" = some 0 ∧
      f'.lastRowOf "temperature" = some 2 :=
  ⟨_, _, _, _, rfl, rfl, rfl, rfl, rfl, rfl⟩

end Appends

end Scioncc
