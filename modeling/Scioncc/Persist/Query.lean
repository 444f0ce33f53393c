import Scioncc.Persist.Append
import Mathlib.Data.List.Nodup

/-!
# `get_data`: reading the committed rows back

In the individual layout `get_data` reads, for every requested variable with an extent, the
window `[max(last_row - max_rows, 0), last_row)` of its column, converts an NTP time variable to
unix milliseconds under `"unix_millis"`, and with `transpose_time` pops the time series and zips
every other series with it by position. `last_row` is a numpy `int64`, so `last_row - max_rows`
wraps; when it does not, the window on a file that keeps one exact log per variable is the last
`min(max(max_rows, 0), n)` values of the log. The zip pairs rows of the same
packet only while the time variable and the other variable grew together: a packet that names
one of them and not the other shifts every later pair.
-/

namespace Scioncc

variable {Val : Type}

/-- The keys `get_data` reads from its filter, with their defaults. -/
structure DataFilter where
  vars : List String := []
  timeFormat : String := "unix_millis"
  maxRows : Int := 999999999
  transposeTime : Bool := false
  deriving DecidableEq, Repr

def DataFilter.readVars (filter : DataFilter) (p : Persistence) : List String :=
  if filter.vars = [] then p.varNames else filter.vars

theorem mem_readVars {filter : DataFilter} {p : Persistence} {v : String} (hv : v ∈ p.varNames) :
    v ∈ filter.readVars p ↔ filter.vars = [] ∨ v ∈ filter.vars := by
  unfold DataFilter.readVars
  split_ifs with h <;> simp [h, hv]

inductive Series (Val : Type)
  | values (xs : List Val)
  | pairs (ps : List (Val × Val))
  deriving DecidableEq, Repr

/-- `var_ds[max(cur_idx-max_rows, 0):cur_idx]`, `cur_idx` being the numpy `int64` `last_row`. -/
def window {α : Type} (maxRows : Int) (cur : Nat) (rows : List α) : List α :=
  (rows.take cur).drop (max (((cur : Int) - maxRows).bmod (2 ^ 64)) 0).toNat

section Read

variable (p : Persistence) (toMillis : Val → Val) (timeFormat : String) (maxRows : Int)
  (f : H5File Val)

/-- One pass of the read loop. The time conversion belongs to pyon's `IonTime` and enters as
`toMillis`; a record extent is not read. -/
def readVar (varName : String) : Except PyError (Option (List Val)) :=
  match f.vars varName with
  | none => .ok none
  | some (.records _ _ _) => .error .typeError
  | some (.column _ _ x) =>
    match x.lastRow with
    | none => .error (.keyError "last_row")
    | some cur =>
      if varName = p.timeVar then
        match p.varDefsMap varName with
        | none => .error (.keyError varName)
        | some vi =>
          if vi.baseType.getD "" = "ntp_time" ∧ timeFormat = "unix_millis" then
            .ok (some ((window maxRows cur x.rows).map toMillis))
          else .ok (some (window maxRows cur x.rows))
      else .ok (some (window maxRows cur x.rows))

def resData : List String → (String → Option (List Val)) →
    Except PyError (String → Option (List Val))
  | [], res => .ok res
  | v :: vs, res =>
    match readVar p toMillis timeFormat maxRows f v with
    | .error e => .error e
    | .ok none => resData vs res
    | .ok (some xs) => resData vs (Function.update res v (some xs))

end Read

def transposeTime (timeVar : String) (res : String → Option (List Val)) :
    Except PyError (String → Option (Series Val)) :=
  match res timeVar with
  | none => .error (.keyError timeVar)
  | some ts => .ok fun v => if v = timeVar then none else (res v).map fun xs => .pairs (ts.zip xs)

def getData (p : Persistence) (toMillis : Val → Val) (filter : DataFilter) (root : Path)
    (fs : FileSystem Val) : Except PyError (String → Option (Series Val)) :=
  let dsFilename := getDsFilename root p.datasetId
  if !fs.pathExists dsFilename then .ok fun _ => none
  else
    match fs.files dsFilename with
    | none => .error (.ioError (.openFile "r"))
    | some f =>
      match p.dsLayout with
      | .combined => .error .notImplemented
      | .individual =>
        match resData p toMillis filter.timeFormat filter.maxRows f (filter.readVars p) fun _ => none with
        | .error e => .error e
        | .ok res =>
          if filter.transposeTime then transposeTime p.timeVar res else .ok fun v => (res v).map .values

section SpecSide

variable (p : Persistence) (toMillis : Val → Val)

/-- The last `min(max(max_rows, 0), n)` of `n` values, as the spec states the query window. -/
def lastRows {α : Type} (maxRows : Int) (xs : List α) : List α :=
  xs.drop (xs.length - (min (max maxRows 0) (xs.length : Int)).toNat)

def convertTime (timeFormat v : String) (xs : List Val) : List Val :=
  if v = p.timeVar ∧ ((p.varDefsMap v).bind (·.baseType)).getD "" = "ntp_time" ∧
      timeFormat = "unix_millis" then xs.map toMillis
  else xs

theorem convertTime_eq_map (timeFormat v : String) :
    ∃ g : Val → Val, ∀ xs, convertTime p toMillis timeFormat v xs = xs.map g := by
  unfold convertTime
  split
  · exact ⟨toMillis, fun _ => rfl⟩
  · exact ⟨id, fun xs => (List.map_id xs).symm⟩

end SpecSide

section Window

variable {α : Type}

theorem window_take (maxRows : Int) (cur : Nat) (rows : List α) :
    window maxRows cur (rows.take cur) = window maxRows cur rows := by
  rw [window, window, List.take_take, min_self]

/-- When `last_row - max_rows` fits an `int64`, the code's slice is the spec's window. -/
theorem window_eq_lastRows {xs : List α} {maxRows : Int} (h1 : maxRows < 2 ^ 63)
    (h2 : (xs.length : Int) - 2 ^ 63 < maxRows) : window maxRows xs.length xs = lastRows maxRows xs := by
  have hfit : ((xs.length : Int) - maxRows).bmod (2 ^ 64) = xs.length - maxRows := by
    rw [Int.bmod_def]
    split <;> omega
  rw [window, hfit, List.take_length, lastRows]
  rcases le_or_lt maxRows 0 with hm | hm
  · rw [List.drop_eq_nil_of_le (by omega), List.drop_eq_nil_of_le (by omega)]
  · congr 1
    omega

theorem window_map {β : Type} (g : α → β) (maxRows : Int) (cur : Nat) (xs : List α) :
    (window maxRows cur xs).map g = window maxRows cur (xs.map g) := by
  rw [window, window, List.map_drop, List.map_take]

theorem window_zip {β : Type} (maxRows : Int) (cur : Nat) (xs : List α) (ys : List β) :
    (window maxRows cur xs).zip (window maxRows cur ys) = window maxRows cur (xs.zip ys) := by
  simp only [window, List.zip_eq_zipWith, List.take_zipWith, List.drop_zipWith]

end Window

section Tracked

variable {p : Persistence} {toMillis : Val → Val} {f : H5File Val} {dtype : String → String}
  {log : String → List Val}

theorem varDefsMap_isSome {v : String} (hv : v ∈ p.varNames) : (p.varDefsMap v).isSome := by
  obtain ⟨vi, hvi, rfl⟩ := List.mem_map.mp hv
  exact List.find?_isSome.mpr ⟨vi, List.mem_reverse.mpr hvi, by simp⟩

theorem readVar_tracked (h : f.Tracks p.varNames dtype log) (timeFormat : String) (maxRows : Int)
    (v : String) : readVar p toMillis timeFormat maxRows f v =
      .ok (if v ∈ p.varNames then
        some (convertTime p toMillis timeFormat v (window maxRows (log v).length (log v))) else none) := by
  by_cases hv : v ∈ p.varNames
  · obtain ⟨a, x, he, hx⟩ := h.column v hv
    obtain ⟨vi, hvi⟩ := Option.isSome_iff_exists.mp (varDefsMap_isSome hv)
    simp only [readVar, he, hx.1, ← window_take maxRows (log v).length x.rows, hx.2.2, if_pos hv,
      convertTime, hvi, Option.some_bind]
    by_cases ht : v = p.timeVar
    · subst ht
      by_cases hc : vi.baseType.getD "" = "ntp_time" ∧ timeFormat = "unix_millis" <;> simp [hc]
    · simp [ht]
  · simp only [readVar, h.absent v hv, if_neg hv]

theorem resData_eq {timeFormat : String} {maxRows : Int} {g : String → Option (List Val)} :
    ∀ {vs : List String} {res : String → Option (List Val)},
      (∀ v ∈ vs, readVar p toMillis timeFormat maxRows f v = .ok (g v)) →
      resData p toMillis timeFormat maxRows f vs res =
        .ok fun k => if k ∈ vs then (g k).or (res k) else res k
  | [], res, _ => by simp [resData]
  | v :: vs, res, h => by
    have ih := @resData_eq timeFormat maxRows g vs
    cases hg : g v <;>
    · simp only [resData, h v (List.mem_cons_self _ _), hg]
      rw [ih fun w hw => h w (List.mem_cons_of_mem _ hw)]
      congr 1
      funext k
      by_cases hk : k = v
      · subst hk; simp [hg]
      · simp [hk, Function.update_apply]

theorem resData_tracked (h : f.Tracks p.varNames dtype log) (timeFormat : String) (maxRows : Int)
    (vs : List String) :
    resData p toMillis timeFormat maxRows f vs (fun _ => none) = .ok fun k =>
      if k ∈ vs ∧ k ∈ p.varNames then
        some (convertTime p toMillis timeFormat k (window maxRows (log k).length (log k))) else none := by
  rw [resData_eq fun v _ => readVar_tracked h timeFormat maxRows v]
  congr 1
  funext k
  by_cases hk : k ∈ vs <;> by_cases hn : k ∈ p.varNames <;> simp [hk, hn]

theorem getData_tracked {root : Path} {fs : FileSystem Val} (hl : p.dsLayout = .individual)
    (hf : fs.files (getDsFilename root p.datasetId) = some f) (h : f.Tracks p.varNames dtype log)
    (filter : DataFilter) :
    getData p toMillis filter root fs =
      let res := fun k => if k ∈ filter.readVars p ∧ k ∈ p.varNames then
        some (convertTime p toMillis filter.timeFormat k
          (window filter.maxRows (log k).length (log k))) else none
      if filter.transposeTime then transposeTime p.timeVar res else .ok fun v => (res v).map .values := by
  simp [getData, FileSystem.pathExists, hf, hl, resData_tracked h]

theorem getData_transposed_tracked {root : Path} {fs : FileSystem Val}
    (hl : p.dsLayout = .individual) (hf : fs.files (getDsFilename root p.datasetId) = some f)
    (h : f.Tracks p.varNames dtype log) {filter : DataFilter} (htt : filter.transposeTime = true)
    {res : String → Option (Series Val)} (hres : getData p toMillis filter root fs = .ok res)
    {x : String} (hx : x ≠ p.timeVar) (hxr : x ∈ filter.readVars p) (hxn : x ∈ p.varNames) :
    p.timeVar ∈ p.varNames ∧ res x = some (.pairs
      ((convertTime p toMillis filter.timeFormat p.timeVar
          (window filter.maxRows (log p.timeVar).length (log p.timeVar))).zip
        (convertTime p toMillis filter.timeFormat x (window filter.maxRows (log x).length (log x))))) := by
  rw [getData_tracked hl hf h, htt] at hres
  simp only [ite_true, transposeTime] at hres
  split at hres
  · cases hres
  rename_i ts hts
  split_ifs at hts with ht
  cases hts
  cases hres
  exact ⟨ht.2, by simp only [if_neg hx, if_pos (And.intro hxr hxn)]; rfl⟩

end Tracked

/-- The values appended to `v` along a run, each cast to `v`'s storage dtype. -/
def columnLog (np : Numpy Val) (p : Persistence) (steps : List (Faults × Packet Val)) (v : String) :
    List Val :=
  (steps.map fun s => if v ∈ s.2.cols then (castColumn np (p.storageDtypeOf v) s.2 v).getD [] else []).flatten

/-- The pairs the spec expects for `x`: each packet's times zipped with its `x` values. -/
def pairedLog (np : Numpy Val) (p : Persistence) (toMillis : Val → Val) (timeFormat : String)
    (steps : List (Faults × Packet Val)) (x : String) : List (Val × Val) :=
  (steps.map fun s => if x ∈ s.2.cols then
    (convertTime p toMillis timeFormat p.timeVar
      ((castColumn np (p.storageDtypeOf p.timeVar) s.2 p.timeVar).getD [])).zip
      ((castColumn np (p.storageDtypeOf x) s.2 x).getD [])
    else []).flatten

section Aligned

variable {np : Numpy Val}

theorem appendedRows_of_nodup {d : String} {pkt : Packet Val} {cols : List String} {v : String}
    (hnd : cols.Nodup) :
    appendedRows np d pkt cols v = if v ∈ cols then (castColumn np d pkt v).getD [] else [] := by
  by_cases hv : v ∈ cols
  · rw [if_pos hv, appendedRows, List.count_eq_one_of_mem hnd hv]
    simp
  · rw [if_neg hv, appendedRows, List.count_eq_zero.mpr hv]
    rfl

theorem extendAll_tracks_nodup {p : Persistence} {steps : List (Faults × Packet Val)}
    {f₀ f : H5File Val} (hl : p.dsLayout = .individual) (hi : f₀.Initialized p np)
    (hrun : extendAll p np steps f₀ = .ok () f) (hnd : ∀ s ∈ steps, s.2.cols.Nodup) :
    (∀ s ∈ steps, ∀ c ∈ s.2.cols, c ∈ p.varNames → (castColumn np (p.storageDtypeOf c) s.2 c).isSome) ∧
      f.Tracks p.varNames p.storageDtypeOf (columnLog np p steps) := by
  obtain ⟨hcast, htracks⟩ := extendAll_tracks hl (hi.tracks hl) hrun
  refine ⟨hcast, htracks.congr fun v _ => ?_⟩
  rw [List.nil_append]
  exact congrArg List.flatten (List.map_congr_left fun s hs => appendedRows_of_nodup (hnd s hs))

/-- Packets naming `t` exactly when they name `x` keep the positional zip within each packet. -/
theorem zip_flatten_aligned (g : Val → Val) {t x : String} {dt dx : String} :
    ∀ {steps : List (Faults × Packet Val)},
      (∀ s ∈ steps, t ∈ s.2.cols ↔ x ∈ s.2.cols) →
      (∀ s ∈ steps, t ∈ s.2.cols → (castColumn np dt s.2 t).isSome) →
      (∀ s ∈ steps, x ∈ s.2.cols → (castColumn np dx s.2 x).isSome) →
      ((steps.map fun s => if t ∈ s.2.cols then (castColumn np dt s.2 t).getD [] else []).flatten.map g).length =
          (steps.map fun s => if x ∈ s.2.cols then (castColumn np dx s.2 x).getD [] else []).flatten.length ∧
        ((steps.map fun s => if t ∈ s.2.cols then (castColumn np dt s.2 t).getD [] else []).flatten.map g).zip
          (steps.map fun s => if x ∈ s.2.cols then (castColumn np dx s.2 x).getD [] else []).flatten =
        (steps.map fun s => if x ∈ s.2.cols then
          ((castColumn np dt s.2 t).getD []).map g |>.zip ((castColumn np dx s.2 x).getD []) else []).flatten
  | [], _, _, _ => ⟨rfl, rfl⟩
  | s :: steps, hal, hct, hcx => by
    obtain ⟨ihl, ihz⟩ := zip_flatten_aligned g (fun s hs => hal s (List.mem_cons_of_mem _ hs))
      (fun s hs => hct s (List.mem_cons_of_mem _ hs)) fun s hs => hcx s (List.mem_cons_of_mem _ hs)
    simp only [List.map_cons, List.flatten_cons, List.map_append, List.length_append,
      List.length_map] at ihl ihz ⊢
    by_cases hx : x ∈ s.2.cols
    · have ht := (hal s (List.mem_cons_self _ _)).mpr hx
      have hlen : ((castColumn np dt s.2 t).getD []).length = ((castColumn np dx s.2 x).getD []).length := by
        obtain ⟨ys, hys⟩ := Option.isSome_iff_exists.mp (hct s (List.mem_cons_self _ _) ht)
        obtain ⟨zs, hzs⟩ := Option.isSome_iff_exists.mp (hcx s (List.mem_cons_self _ _) hx)
        rw [hys, hzs, Option.getD_some, Option.getD_some, castColumn_length np hys,
          castColumn_length np hzs]
      simp only [if_pos ht, if_pos hx]
      refine ⟨by rw [hlen, ihl], ?_⟩
      rw [List.zip_append (by rw [List.length_map, hlen]), ihz]
    · have ht : t ∉ s.2.cols := fun ht => hx ((hal s (List.mem_cons_self _ _)).mp ht)
      simp only [if_neg ht, if_neg hx, List.map_nil, List.nil_append, List.length_nil, Nat.zero_add]
      exact ⟨ihl, ihz⟩

end Aligned

section Queries

variable {p : Persistence} {np : Numpy Val} {io : Faults} {root : Path} {fs fs' : FileSystem Val}
  {path : Path}

/-- Under `transpose_time`, the pairs for `x` are a suffix of the rows of the packets naming `x`,
the last `min(max(max_rows, 0), n)` of them when no `int64` wraps. -/
theorem getData_pairs_rows_named_together (hl : p.dsLayout = .individual)
    (hcreate : requireDataset p np io root fs = .ok (path, true) fs') :
    ∃ f₀, fs'.files path = some f₀ ∧
      ∀ (steps : List (Faults × Packet Val)) (f : H5File Val), extendAll p np steps f₀ = .ok () f →
        (∀ s ∈ steps, s.2.cols.Nodup) →
        ∀ x, x ≠ p.timeVar → (∀ s ∈ steps, p.timeVar ∈ s.2.cols ↔ x ∈ s.2.cols) →
        ∀ (toMillis : Val → Val) (filter : DataFilter) (res : String → Option (Series Val)),
          filter.transposeTime = true → (filter.vars = [] ∨ x ∈ filter.vars) → x ∈ p.varNames →
          getData p toMillis filter root (fs'.setFile path f) = .ok res →
          (∃ k, res x = some (.pairs ((pairedLog np p toMillis filter.timeFormat steps x).drop k))) ∧
          (filter.maxRows < 2 ^ 63 →
            ((columnLog np p steps x).length : Int) - 2 ^ 63 < filter.maxRows →
            res x = some (.pairs (lastRows filter.maxRows
              (pairedLog np p toMillis filter.timeFormat steps x)))) := by
  obtain ⟨rfl, f₀, hf, hi, -⟩ := requireDataset_created hcreate
  refine ⟨f₀, hf, fun steps f hrun hnd x hx hal toMillis filter res htt hxr hxn hres => ?_⟩
  obtain ⟨hcast, hlog⟩ := extendAll_tracks_nodup hl hi hrun hnd
  obtain ⟨htv, hx'⟩ :=
    getData_transposed_tracked hl (by simp) hlog htt hres hx ((mem_readVars hxn).mpr hxr) hxn
  obtain ⟨g, hg⟩ := convertTime_eq_map p toMillis filter.timeFormat p.timeVar
  have hxid : ∀ xs, convertTime p toMillis filter.timeFormat x xs = xs := fun xs => by
    simp [convertTime, hx]
  obtain ⟨hlen, hzip⟩ := zip_flatten_aligned g hal (fun s hs ht => hcast s hs _ ht htv)
    fun s hs hxs => hcast s hs x hxs hxn
  have hlen' : (columnLog np p steps p.timeVar).length = (columnLog np p steps x).length :=
    (List.length_map _ g).symm.trans hlen
  have hpaired : ((columnLog np p steps p.timeVar).map g).zip (columnLog np p steps x) =
      pairedLog np p toMillis filter.timeFormat steps x := by
    simp only [pairedLog, hg]
    exact hzip
  have hplen : (pairedLog np p toMillis filter.timeFormat steps x).length =
      (columnLog np p steps x).length := by
    rw [← hpaired, List.length_zip, List.length_map, hlen', min_self]
  -- both columns are sliced at the same `last_row`, so the slice of the pairs is the query's
  have hwin : res x = some (.pairs (window filter.maxRows (columnLog np p steps x).length
      (pairedLog np p toMillis filter.timeFormat steps x))) := by
    rw [hx', hg, hxid, window_map, hlen', window_zip, hpaired]
  rw [hwin, ← hplen]
  exact ⟨⟨_, by rw [window, List.take_length]⟩, fun h1 h2 => by
    rw [window_eq_lastRows h1 (hplen ▸ h2)]⟩

theorem getData_pairs_rows_named_together_scenario :
    ∃ f₀, (requireDataset scenario plainNumpy noFaults [] {}).state.files
        (getDsFilename [] scenario.datasetId) = some f₀ ∧
      ∀ (steps : List (Faults × Packet Int)) (f : H5File Int),
        extendAll scenario plainNumpy steps f₀ = .ok () f → (∀ s ∈ steps, s.2.cols.Nodup) →
        ∀ x, x ≠ scenario.timeVar → (∀ s ∈ steps, scenario.timeVar ∈ s.2.cols ↔ x ∈ s.2.cols) →
        ∀ (toMillis : Int → Int) (filter : DataFilter) (res : String → Option (Series Int)),
          filter.transposeTime = true → (filter.vars = [] ∨ x ∈ filter.vars) →
          x ∈ scenario.varNames →
          getData scenario toMillis filter []
              ((requireDataset scenario plainNumpy noFaults [] {}).state.setFile
                (getDsFilename [] scenario.datasetId) f) = .ok res →
          (∃ k, res x = some (.pairs
            ((pairedLog plainNumpy scenario toMillis filter.timeFormat steps x).drop k))) ∧
          (filter.maxRows < 2 ^ 63 →
            ((columnLog plainNumpy scenario steps x).length : Int) - 2 ^ 63 < filter.maxRows →
            res x = some (.pairs (lastRows filter.maxRows
              (pairedLog plainNumpy scenario toMillis filter.timeFormat steps x)))) :=
  @getData_pairs_rows_named_together Int scenario plainNumpy noFaults [] {} _ _ rfl rfl

def temperatureOnly : Packet Int :=
  { cols := ["temperature"]
    data := { fields := ["temperature"], rows := [[7]], arity := by decide } }

def timeAndTemperature : Packet Int :=
  { cols := ["time", "temperature"]
    data := { fields := ["time", "temperature"], rows := [[100, 8]], arity := by decide } }

/-- After a packet without `time`, a pair mixes the rows of two packets. -/
theorem getData_pairs_time_of_later_packet :
    ∃ fs' f₀ f, requireDataset scenario plainNumpy noFaults [] {} =
        .ok (getDsFilename [] "scenario", true) fs' ∧
      fs'.files (getDsFilename [] "scenario") = some f₀ ∧
      extendAll scenario plainNumpy [(noFaults, temperatureOnly), (noFaults, timeAndTemperature)] f₀ =
        .ok () f ∧
      (getData scenario id { transposeTime := true } []
        (fs'.setFile (getDsFilename [] "scenario") f)).map (· "temperature") =
        .ok (some (.pairs [(100, 7)])) :=
  ⟨_, _, _, rfl, rfl, rfl, rfl⟩

end Queries

end Scioncc
