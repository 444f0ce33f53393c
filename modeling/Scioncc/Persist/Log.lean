import Scioncc.Persist.Require

/-!
# The committed rows as an append-only log

Abstractly a container is a log of committed rows per variable (individual layout) or one log
of records (combined layout), and `extend_dataset` appends to it. `Extent.Holds x rows` says the
extent commits exactly `rows`. Every returning `extend_dataset` appends to each log what the
packet contributes, and one that raises has appended the contributions of the columns it
finished and left the rest of the log as it was.
-/

namespace Scioncc

variable {Val : Type}

namespace Extent

variable {α : Type}

/-- `x` commits exactly `rows`: `last_row` counts them, they fit, and they are the first rows. -/
def Holds (x : Extent α) (rows : List α) : Prop :=
  x.lastRow = some rows.length ∧ rows.length ≤ x.capacity ∧ x.rows.take rows.length = rows

theorem Holds.committed {x : Extent α} {rows : List α} (h : x.Holds rows) : x.committed = rows := by
  show x.rows.take (x.lastRow.getD 0) = rows
  rw [h.1]; exact h.2.2

theorem Holds.resize {x : Extent α} {rows : List α} (h : x.Holds rows) (fill : α) {size : Nat}
    (hs : rows.length ≤ size) : (x.resize fill size).Holds rows :=
  ⟨h.1, by simpa using hs, by rw [x.take_resize fill h.2.1 hs, h.2.2]⟩

theorem Holds.splice {x : Extent α} {rows : List α} (h : x.Holds rows) {start : Nat} {ys : List α}
    (hs : rows.length ≤ start) (hb : start + ys.length ≤ x.capacity) : (x.splice start ys).Holds rows :=
  ⟨h.1, by rw [x.capacity_splice hb]; exact h.2.1,
    by rw [x.take_splice_of_le ys hs (by omega), h.2.2]⟩

theorem Holds.append {x : Extent α} {rows ys : List α} (h : x.Holds rows)
    (hb : rows.length + ys.length ≤ x.capacity) :
    ((x.splice rows.length ys).setLastRow (rows.length + ys.length)).Holds (rows ++ ys) := by
  refine ⟨by simp, by simpa [x.capacity_splice hb] using hb, ?_⟩
  simp only [rows_setLastRow, List.length_append]
  rw [x.take_splice hb, h.2.2]

end Extent

section Columns

variable {p : Persistence} {np : Numpy Val} {io : Faults}

/-- A returning loop body commits the slice, cast to the column's dtype, after the other rows. -/
theorem appendColumn_ok_holds {name : String} {numRows : Nat} {slice : Option (List Val)}
    {d : String} {a : ColumnAttrs} {x : Extent Val} {rows : List Val} (hx : x.Holds rows)
    (hlen : ∀ xs, slice = some xs → xs.length = numRows) {u : Unit} {e' : Entry Val}
    (h : appendColumn p np io name numRows slice (.column d a x) = .ok u e') :
    ∃ ys x', slice.bind (·.mapM (np.cast d)) = some ys ∧ e' = .column d a x' ∧
      x'.Holds (rows ++ ys) := by
  simp only [appendColumn, Entry.lastRow, hx.1] at h
  obtain ⟨_, e1, hg, h⟩ := Outcome.bind_eq_ok h
  cases slice with
  | none => cases h
  | some xs =>
  obtain ⟨_, e2, hw, h⟩ := Outcome.bind_eq_ok h
  cases Outcome.call_ok h
  obtain ⟨d', a', x2, ys, he1, hys, hb, rfl⟩ := Entry.writeColumn_ok np (Outcome.attempt_ok hw)
  obtain rfl : ys.length = numRows := (mapM_length hys).trans (hlen xs rfl)
  rcases growFor_cases name rows.length ys.length (.column d a x) with ⟨_, h'⟩ | ⟨-, h'⟩ | ⟨-, -, -, h'⟩ <;>
    rw [h'] at hg <;> cases hg <;> cases he1
  · exact ⟨ys, _, hys, rfl, hx.append hb⟩
  · exact ⟨ys, _, hys, rfl, (hx.resize _ (by simp at hb ⊢; omega)).append hb⟩

theorem growFor_ok {name : String} {curIdx numRows : Nat} {e e1 : Entry Val}
    (hinc : 0 ≤ p.dsIncrement) (h : growFor p np io name curIdx numRows e = .ok () e1) :
    e1 = e ∨ ∃ size, e.capacity ≤ size ∧ e1 = e.resize np size := by
  rcases growFor_cases name curIdx numRows e with ⟨_, h'⟩ | ⟨-, h'⟩ | ⟨-, h0, -, h'⟩ <;>
    rw [h'] at h <;> cases h
  · exact .inl rfl
  · have := capacity_le_newSize (lt_of_le_of_ne hinc (Ne.symm h0)) e.capacity numRows
    exact .inr ⟨_, by omega, rfl⟩

theorem appendColumn_raised_holds {name : String} {numRows : Nat} {slice : Option (List Val)}
    {d : String} {a : ColumnAttrs} {x : Extent Val} {rows : List Val} (hx : x.Holds rows)
    (hinc : 0 ≤ p.dsIncrement) {err : PyError} {e' : Entry Val}
    (h : appendColumn p np io name numRows slice (.column d a x) = .raised err e') :
    ∃ x', e' = .column d a x' ∧ x'.Holds rows := by
  simp only [appendColumn, Entry.lastRow, hx.1] at h
  rcases Outcome.bind_eq_raised h with h | ⟨_, e1, hg, h⟩
  · exact ⟨x, growFor_raised h, hx⟩
  obtain ⟨x1, rfl, hx1⟩ : ∃ x1, e1 = .column d a x1 ∧ x1.Holds rows := by
    rcases growFor_ok hinc hg with rfl | ⟨size, hs, rfl⟩
    · exact ⟨x, rfl, hx⟩
    · exact ⟨_, rfl, hx.resize _ (hx.2.1.trans hs)⟩
  cases slice with
  | none => cases h; exact ⟨x1, rfl, hx1⟩
  | some xs =>
    rcases Outcome.bind_eq_raised h with h | ⟨_, e2, hw, h⟩
    · exact ⟨x1, Outcome.attempt_raised h, hx1⟩
    · cases Outcome.call_raised h
      obtain ⟨d', a', x2, ys, he, -, hb, rfl⟩ := Entry.writeColumn_ok np (Outcome.attempt_ok hw)
      cases he
      exact ⟨_, rfl, hx1.splice le_rfl hb⟩

end Columns

def Persistence.storageDtypeOf (p : Persistence) (v : String) : String :=
  ((p.varDefs.find? (·.name = v)).bind (·.storageDtype)).getD "f8"

section Individual

variable (np : Numpy Val)

/-- `packet.data["data"][:][v]`, converted to the dtype `d` as numpy does for the write. -/
def castColumn (d : String) (pkt : Packet Val) (v : String) : Option (List Val) :=
  (pkt.data.column? v).bind (·.mapM (np.cast d))

/-- What the individual-layout loop appends to `v`: its column once per naming in `cols`. -/
def appendedRows (d : String) (pkt : Packet Val) (cols : List String) (v : String) : List Val :=
  (List.replicate (cols.count v) ((castColumn np d pkt v).getD [])).flatten

@[simp] theorem appendedRows_nil (d : String) (pkt : Packet Val) (v : String) :
    appendedRows np d pkt [] v = [] := rfl

theorem appendedRows_cons (d : String) (pkt : Packet Val) (c : String) (cols : List String)
    (v : String) : appendedRows np d pkt (c :: cols) v =
      (if c = v then (castColumn np d pkt v).getD [] else []) ++ appendedRows np d pkt cols v := by
  by_cases h : c = v
  · subst h; simp [appendedRows, List.count_cons, List.replicate_succ]
  · simp [appendedRows, List.count_cons, h]

theorem castColumn_length {d : String} {pkt : Packet Val} {v : String} {ys : List Val}
    (h : castColumn np d pkt v = some ys) : ys.length = pkt.numRows := by
  obtain ⟨xs, hxs, hys⟩ := Option.bind_eq_some.mp h
  rw [mapM_length hys, pkt.data.column?_length hxs]
  rfl

theorem length_flatten_replicate {α : Type} (ys : List α) :
    ∀ n, (List.replicate n ys).flatten.length = n * ys.length
  | 0 => by simp
  | n + 1 => by
    rw [List.replicate_succ, List.flatten_cons, List.length_append, length_flatten_replicate ys n,
      Nat.succ_mul, Nat.add_comm]

theorem appendedRows_length {d : String} {pkt : Packet Val} {cols : List String} {v : String}
    (h : v ∈ cols → (castColumn np d pkt v).isSome) :
    (appendedRows np d pkt cols v).length = cols.count v * pkt.numRows := by
  rw [appendedRows, length_flatten_replicate]
  by_cases hv : v ∈ cols
  · obtain ⟨ys, hys⟩ := Option.isSome_iff_exists.mp (h hv)
    rw [hys, Option.getD_some, castColumn_length np hys]
  · rw [List.count_eq_zero.mpr hv, Nat.zero_mul, Nat.zero_mul]

end Individual

namespace H5File

/-- The individual layout as a log per variable: each of `names` commits exactly `log v`. -/
structure Tracks (f : H5File Val) (names : List String) (dtype : String → String)
    (log : String → List Val) : Prop where
  column : ∀ v ∈ names, ∃ a x, f.vars v = some (.column (dtype v) a x) ∧ x.Holds (log v)
  absent : ∀ v, v ∉ names → f.vars v = none

theorem Tracks.congr {f : H5File Val} {names : List String} {dtype : String → String}
    {log log' : String → List Val} (h : f.Tracks names dtype log) (heq : ∀ v ∈ names, log v = log' v) :
    f.Tracks names dtype log' :=
  ⟨fun v hv => heq v hv ▸ h.column v hv, h.absent⟩

theorem Tracks.setVar {f : H5File Val} {names : List String} {dtype : String → String}
    {log : String → List Val} (h : f.Tracks names dtype log) {c : String} (hc : c ∈ names)
    {a : ColumnAttrs} {x : Extent Val} {rows : List Val} (hx : x.Holds rows) :
    (f.setVar c (.column (dtype c) a x)).Tracks names dtype
      (fun v => if v = c then rows else log v) := by
  refine ⟨fun v hv => ?_, fun v hv => ?_⟩
  · by_cases hvc : v = c
    · subst hvc; exact ⟨a, x, by simp, by simpa using hx⟩
    · simp only [H5File.vars_setVar, if_neg hvc]
      exact h.column v hv
  · have : v ≠ c := fun he => hv (he ▸ hc)
    simpa [this] using h.absent v hv

end H5File

section IndividualRuns

variable {p : Persistence} {np : Numpy Val} {io : Faults} {names : List String}
  {dtype : String → String}

theorem extendColumn_frame {pkt : Packet Val} {c v : String} (h : c ≠ v) (f : H5File Val) :
    (extendColumn p np io pkt c f).state.vars v = f.vars v := by
  unfold extendColumn
  split
  · rfl
  · rw [Outcome.state_map, H5File.vars_setVar, if_neg (Ne.symm h)]

theorem extendIndividual_frame {pkt : Packet Val} {v : String} :
    ∀ {cols : List String} (f : H5File Val), v ∉ cols →
      (extendIndividual p np io pkt cols f).state.vars v = f.vars v
  | [], _, _ => rfl
  | c :: cs, f, hv => by
    have hcv : c ≠ v := fun h => hv (h ▸ List.mem_cons_self _ _)
    refine Outcome.state_bind_of (P := fun s : H5File Val => s.vars v = f.vars v) (extendColumn_frame hcv f)
      fun _ f1 h1 => ?_
    show _ = _
    rw [extendIndividual_frame f1 fun h => hv (List.mem_cons_of_mem _ h), ← extendColumn_frame hcv f,
      h1, Outcome.state_ok]

/-- While only `names` have extents, the loop runs as on the columns of `cols` in `names`. -/
theorem extendIndividual_filter {pkt pkt' : Packet Val} (hdata : pkt.data = pkt'.data) :
    ∀ (cols : List String) {f : H5File Val}, (∀ v, v ∉ names → f.vars v = none) →
      extendIndividual p np io pkt cols f = extendIndividual p np io pkt' (cols.filter (· ∈ names)) f
  | [], _, _ => rfl
  | c :: cs, f, hab => by
    have hcol : extendColumn p np io pkt c f = extendColumn p np io pkt' c f := by
      simp only [extendColumn, Packet.numRows, hdata]
    by_cases hc : c ∈ names
    · rw [List.filter_cons_of_pos (by simpa using hc), extendIndividual, extendIndividual, ← hcol]
      cases ho : extendColumn p np io pkt c f with
      | raised => rfl
      | ok a f1 =>
        refine extendIndividual_filter hdata cs fun v hv => ?_
        rw [← hab v hv, ← extendColumn_frame (show c ≠ v from fun h => hv (h ▸ hc)) f, ho,
          Outcome.state_ok]
    · rw [List.filter_cons_of_neg (by simpa using hc), extendIndividual,
        extendColumn_of_none (hab c hc), Outcome.bind_ok]
      exact extendIndividual_filter hdata cs hab

theorem extendIndividual_ok_once {pkt : Packet Val} {v : String} :
    ∀ {cols : List String} {f f' : H5File Val} {u : Unit} {e : Entry Val}, cols.count v = 1 →
      extendIndividual p np io pkt cols f = .ok u f' → f.vars v = some e →
      ∃ e', appendColumn p np io v pkt.numRows (pkt.data.column? v) e = .ok () e' ∧
        f'.vars v = some e'
  | [], _, _, _, _, hc, _, _ => by simp at hc
  | c :: cs, f, f', u, e, hc, h, hv => by
    obtain ⟨_, f1, h1, h⟩ := Outcome.bind_eq_ok h
    by_cases hcv : c = v
    · subst hcv
      have hcs : c ∉ cs := List.count_eq_zero.mp (by simpa [List.count_cons] using hc)
      rw [extendColumn_of_some hv] at h1
      obtain ⟨e1, ho, rfl⟩ := Outcome.map_eq_ok h1
      have hfr : (extendIndividual p np io pkt cs (f.setVar c e1)).state.vars c =
          (f.setVar c e1).vars c := extendIndividual_frame _ hcs
      rw [h, Outcome.state_ok] at hfr
      exact ⟨e1, ho, by simpa using hfr⟩
    · have hcs : cs.count v = 1 := by simpa [List.count_cons, hcv] using hc
      have hv1 : f1.vars v = some e := by
        rw [← hv, ← extendColumn_frame hcv f, h1, Outcome.state_ok]
      exact extendIndividual_ok_once hcs h hv1

theorem extendColumn_ok_tracks {pkt : Packet Val} {c : String} {f f' : H5File Val}
    {log : String → List Val} (h : f.Tracks names dtype log) {u : Unit}
    (he : extendColumn p np io pkt c f = .ok u f') :
    (c ∈ names → (castColumn np (dtype c) pkt c).isSome) ∧
      f'.Tracks names dtype (fun v => log v ++ appendedRows np (dtype v) pkt [c] v) := by
  by_cases hc : c ∈ names
  · obtain ⟨a, x, hv, hx⟩ := h.column c hc
    rw [extendColumn_of_some hv] at he
    obtain ⟨e', ho, rfl⟩ := Outcome.map_eq_ok he
    obtain ⟨ys, x', hys, rfl, hx'⟩ := appendColumn_ok_holds hx (fun _ => pkt.data.column?_length) ho
    refine ⟨fun _ => by rw [castColumn, hys]; rfl, (h.setVar hc hx').congr fun v _ => ?_⟩
    by_cases hvc : v = c
    · subst hvc
      rw [if_pos rfl, appendedRows_cons, if_pos rfl, appendedRows_nil, castColumn, hys,
        Option.getD_some, List.append_nil]
    · rw [if_neg hvc, appendedRows_cons, if_neg (Ne.symm hvc), appendedRows_nil, List.append_nil,
        List.append_nil]
  · rw [extendColumn_of_none (h.absent c hc)] at he
    cases he
    exact ⟨fun h => absurd h hc, h.congr fun v hv => by
      rw [appendedRows_cons, if_neg fun (he : c = v) => hc (he ▸ hv), appendedRows_nil,
        List.append_nil, List.append_nil]⟩

theorem extendColumn_raised_tracks {pkt : Packet Val} {c : String} {f f' : H5File Val}
    {log : String → List Val} (hf : f.Sized p.dsIncrement) (h : f.Tracks names dtype log)
    {err : PyError} (he : extendColumn p np io pkt c f = .raised err f') :
    f'.Tracks names dtype log := by
  by_cases hc : c ∈ names
  · obtain ⟨a, x, hv, hx⟩ := h.column c hc
    rw [extendColumn_of_some hv] at he
    obtain ⟨e', ho, rfl⟩ := Outcome.map_eq_raised he
    obtain ⟨x', rfl, hx'⟩ := appendColumn_raised_holds hx (hf c _ hv).inc_nonneg ho
    exact (h.setVar hc hx').congr fun v _ => by by_cases hvc : v = c <;> simp [hvc]
  · rw [extendColumn_of_none (h.absent c hc)] at he
    cases he

theorem extendIndividual_ok_tracks {pkt : Packet Val} :
    ∀ {cols : List String} {f f' : H5File Val} {log : String → List Val} {u : Unit},
      f.Tracks names dtype log → extendIndividual p np io pkt cols f = .ok u f' →
      (∀ c ∈ cols, c ∈ names → (castColumn np (dtype c) pkt c).isSome) ∧
        f'.Tracks names dtype (fun v => log v ++ appendedRows np (dtype v) pkt cols v)
  | [], f, f', log, u, h, he => by
    cases he
    exact ⟨by simp, h.congr fun v _ => by simp⟩
  | c :: cs, f, f', log, u, h, he => by
    obtain ⟨_, f1, h1, he⟩ := Outcome.bind_eq_ok he
    obtain ⟨hc, h1⟩ := extendColumn_ok_tracks h h1
    obtain ⟨hcs, h2⟩ := extendIndividual_ok_tracks h1 he
    refine ⟨fun c' hc' => ?_, h2.congr fun v _ => ?_⟩
    · rcases List.mem_cons.mp hc' with rfl | hc'
      · exact hc
      · exact hcs c' hc'
    · simp only [appendedRows_cons, appendedRows_nil, List.append_nil, List.append_assoc]

theorem extendIndividual_raised_tracks {pkt : Packet Val} :
    ∀ {cols : List String} {f f' : H5File Val} {log : String → List Val} {err : PyError},
      f.Sized p.dsIncrement → f.Tracks names dtype log →
      extendIndividual p np io pkt cols f = .raised err f' →
      ∃ j < cols.length, (∀ c ∈ cols.take j, c ∈ names → (castColumn np (dtype c) pkt c).isSome) ∧
        f'.Tracks names dtype (fun v => log v ++ appendedRows np (dtype v) pkt (cols.take j) v)
  | [], _, _, _, _, _, _, he => by cases he
  | c :: cs, f, f', log, err, hf, h, he => by
    rcases Outcome.bind_eq_raised he with he | ⟨_, f1, h1, he⟩
    · exact ⟨0, by simp, by simp, (extendColumn_raised_tracks hf h he).congr fun v _ => by simp⟩
    · obtain ⟨hc, h1'⟩ := extendColumn_ok_tracks h h1
      have hf1 := (extendColumn_state np io pkt c hf).1
      rw [h1, Outcome.state_ok] at hf1
      obtain ⟨j, hj, hcs, h2⟩ := extendIndividual_raised_tracks hf1 h1' he
      refine ⟨j + 1, by simpa using hj, fun c' hc' => ?_, h2.congr fun v _ => ?_⟩
      · rcases List.mem_cons.mp (by simpa using hc') with rfl | hc'
        · exact hc
        · exact hcs c' hc'
      · simp only [List.take_succ_cons, appendedRows_cons, appendedRows_nil, List.append_nil,
          List.append_assoc]

end IndividualRuns

section Records

variable (p : Persistence) (np : Numpy Val)

/-- The spec's record for a row: per schema variable in order, the row's value when `cols` names
the variable, the dtype's `None` otherwise. -/
def schemaRecord (pkt : Packet Val) (row : List Val) : Option (List Val) :=
  (recordFields p).mapM fun q =>
    if q.1 ∈ pkt.cols then (pkt.data.get? row q.1).bind (np.cast q.2) else np.castNone q.2

def schemaRecords (pkt : Packet Val) : Option (List (List Val)) :=
  pkt.data.rows.mapM (schemaRecord p np pkt)

end Records

section RecordRows

variable {p : Persistence} {np : Numpy Val} {io : Faults}

theorem mem_pvi {pkt : Packet Val} {vn : String} : vn ∈ pvi p pkt ↔ vn ∈ pkt.cols ∧ vn ∈ p.varNames := by
  simp [pvi]

/-- `row_vals` stored field by field is the spec's record. -/
theorem store_rowVals {pkt : Packet Val} {row : List Val} :
    ∀ {fs : List (String × String)} {vals : List (Option Val)}, (∀ q ∈ fs, q.1 ∈ p.varNames) →
      (fs.map (·.1)).mapM (fun vn =>
        if vn ∈ pvi p pkt then (pkt.data.get? row vn).map some else some none) = some vals →
      (fs.zip vals).mapM (fun q => np.store q.1.2 q.2) = fs.mapM fun q =>
        if q.1 ∈ pkt.cols then (pkt.data.get? row q.1).bind (np.cast q.2) else np.castNone q.2
  | [], vals, _, h => by rw [mapM_nil_eq_some.mp h]; rfl
  | q :: fs, vals, hfs, h => by
    obtain ⟨y, zs, hy, hzs, rfl⟩ := mapM_cons_eq_some.mp h
    have hq : np.store q.2 y =
        if q.1 ∈ pkt.cols then (pkt.data.get? row q.1).bind (np.cast q.2) else np.castNone q.2 := by
      by_cases hc : q.1 ∈ pkt.cols
      · rw [if_pos (mem_pvi.mpr ⟨hc, hfs q (List.mem_cons_self _ _)⟩)] at hy
        obtain ⟨z, hz, rfl⟩ := Option.map_eq_some'.mp hy
        rw [if_pos hc, hz]; rfl
      · rw [if_neg fun h => hc (mem_pvi.mp h).1] at hy
        cases hy
        rw [if_neg hc]; rfl
    simp only [List.zip_cons_cons, List.mapM_cons]
    rw [hq, store_rowVals (fun q hq => hfs q (List.mem_cons_of_mem _ hq)) hzs]

theorem rowVals_store {pkt : Packet Val} {row : List Val} {vals : List (Option Val)}
    (h : rowVals p pkt row = some vals) :
    ((recordFields p).zip vals).mapM (fun q => np.store q.1.2 q.2) = schemaRecord p np pkt row :=
  store_rowVals (fun q hq => recordFields_names p ▸ List.mem_map_of_mem _ hq)
    (by rw [recordFields_names]; exact h)

theorem writeRows_ok_records {pkt : Packet Val} {d : Option (List (String × String))} :
    ∀ {i : Nat} {rows : List (List Val)} {x : Extent (List Val)} {u : Unit} {e' : Entry Val},
      writeRows p np io pkt i rows (.records (recordFields p) d x) = .ok u e' → i ≤ x.capacity →
      ∃ recs x', rows.mapM (schemaRecord p np pkt) = some recs ∧
        e' = .records (recordFields p) d x' ∧ x'.rows.take (i + recs.length) = x.rows.take i ++ recs ∧
        i + recs.length ≤ x'.capacity ∧ x'.capacity = x.capacity ∧ x'.lastRow = x.lastRow
  | i, [], x, _, _, h, hi => by
    cases h
    exact ⟨[], x, rfl, rfl, by simp, hi, rfl, rfl⟩
  | i, row :: rows, x, _, _, h, hi => by
    simp only [writeRows] at h
    split at h
    · cases h
    rename_i vals hvals
    obtain ⟨_, e1, hw, h⟩ := Outcome.bind_eq_ok h
    obtain ⟨_, _, _, r, he, -, hr, hlt, rfl⟩ := Entry.writeRecord_ok np (Outcome.attempt_ok hw)
    cases he
    have hb : i + [r].length ≤ x.capacity := hlt
    obtain ⟨recs, x', hrecs, rfl, htake, hfit, hcap, hlast⟩ :=
      writeRows_ok_records h (by rw [x.capacity_splice hb]; exact hlt)
    have hsplice := x.take_splice hb
    simp only [List.length_singleton] at hsplice
    refine ⟨r :: recs, x', mapM_cons_eq_some.mpr ⟨r, recs, (rowVals_store hvals).symm.trans hr,
      hrecs, rfl⟩, rfl, ?_, by simp only [List.length_cons]; omega,
      hcap.trans (x.capacity_splice hb), hlast⟩
    rw [show i + (r :: recs).length = i + 1 + recs.length by simp only [List.length_cons]; omega,
      htake, hsplice, List.append_assoc, List.singleton_append]

theorem writeRows_state_holds {pkt : Packet Val} {fs : List (String × String)}
    {d : Option (List (String × String))} {log : List (List Val)} :
    ∀ {i : Nat} {rows : List (List Val)} {x : Extent (List Val)}, x.Holds log → log.length ≤ i →
      ∃ x', (writeRows p np io pkt i rows (.records fs d x)).state = .records fs d x' ∧ x'.Holds log
  | _, [], x, hx, _ => ⟨x, rfl, hx⟩
  | i, row :: rows, x, hx, hi => by
    simp only [writeRows]
    split
    · exact ⟨x, rfl, hx⟩
    refine Outcome.state_bind_of (P := fun s : Entry Val => ∃ x', s = .records fs d x' ∧ x'.Holds log)
      (Outcome.attempt_state_of (P := fun s : Entry Val => ∃ x', s = .records fs d x' ∧ x'.Holds log)
        ⟨x, rfl, hx⟩ fun e' hw => ?_) fun _ e' ha => ?_
    · obtain ⟨_, _, _, r, he, -, -, hlt, rfl⟩ := Entry.writeRecord_ok np hw
      cases he
      exact ⟨_, rfl, hx.splice hi hlt⟩
    · obtain ⟨_, _, _, r, he, -, -, hlt, rfl⟩ := Entry.writeRecord_ok np (Outcome.attempt_ok ha)
      cases he
      exact writeRows_state_holds (hx.splice hi hlt) (by omega)

/-- A returning combined-layout branch appends the spec's records of the packet. -/
theorem appendRecords_ok_holds {pkt : Packet Val} {d : Option (List (String × String))}
    {x : Extent (List Val)} {log : List (List Val)} (hinc : 0 ≤ p.dsIncrement) (hx : x.Holds log)
    {u : Unit} {e' : Entry Val}
    (h : appendRecords p np io pkt (.records (recordFields p) d x) = .ok u e') :
    ∃ recs x', schemaRecords p np pkt = some recs ∧ e' = .records (recordFields p) d x' ∧
      x'.Holds (log ++ recs) := by
  simp only [appendRecords, Entry.lastRow, hx.1] at h
  obtain ⟨_, e1, hg, h⟩ := Outcome.bind_eq_ok h
  obtain ⟨x1, rfl, hx1⟩ : ∃ x1, e1 = .records (recordFields p) d x1 ∧ x1.Holds log := by
    rcases growFor_ok hinc hg with rfl | ⟨size, hs, rfl⟩
    · exact ⟨x, rfl, hx⟩
    · exact ⟨_, rfl, hx.resize _ (hx.2.1.trans hs)⟩
  obtain ⟨_, e2, hw, h⟩ := Outcome.bind_eq_ok h
  obtain ⟨recs, x2, hrecs, rfl, htake, hfit, -, -⟩ := writeRows_ok_records hw hx1.2.1
  cases Outcome.call_ok h
  rw [show pkt.numRows = recs.length from (mapM_length hrecs).symm]
  exact ⟨recs, _, hrecs, rfl, by simp, by simpa using hfit,
    by simp only [Extent.rows_setLastRow, List.length_append, htake, hx1.2.2]⟩

theorem appendRecords_raised_holds {pkt : Packet Val} {fs : List (String × String)}
    {d : Option (List (String × String))} {x : Extent (List Val)} {log : List (List Val)}
    (hinc : 0 ≤ p.dsIncrement) (hx : x.Holds log) {err : PyError} {e' : Entry Val}
    (h : appendRecords p np io pkt (.records fs d x) = .raised err e') :
    ∃ x', e' = .records fs d x' ∧ x'.Holds log := by
  simp only [appendRecords, Entry.lastRow, hx.1] at h
  rcases Outcome.bind_eq_raised h with h | ⟨_, e1, hg, h⟩
  · exact ⟨x, growFor_raised h, hx⟩
  obtain ⟨x1, rfl, hx1⟩ : ∃ x1, e1 = .records fs d x1 ∧ x1.Holds log := by
    rcases growFor_ok hinc hg with rfl | ⟨size, hs, rfl⟩
    · exact ⟨x, rfl, hx⟩
    · exact ⟨_, rfl, hx.resize _ (hx.2.1.trans hs)⟩
  have hw : ∃ x2, (writeRows p np io pkt log.length pkt.data.rows (.records fs d x1)).state =
      .records fs d x2 ∧ x2.Holds log := writeRows_state_holds hx1 le_rfl
  rcases Outcome.bind_eq_raised h with h | ⟨_, e2, h2, h⟩
  · rwa [h] at hw
  · cases Outcome.call_raised h
    rwa [h2] at hw

/-! ### Appends that return -/

theorem rowVals_of_mapM {pkt : Packet Val} {row : List Val} :
    ∀ {fs : List (String × String)} {r : List Val}, fs.mapM (fun q =>
        if q.1 ∈ pkt.cols then (pkt.data.get? row q.1).bind (np.cast q.2) else np.castNone q.2) = some r →
      ∃ vals, (fs.map (·.1)).mapM (fun vn =>
        if vn ∈ pvi p pkt then (pkt.data.get? row vn).map some else some none) = some vals
  | [], _, _ => ⟨[], rfl⟩
  | q :: fs, _, h => by
    obtain ⟨y, ys, hy, hys, -⟩ := mapM_cons_eq_some.mp h
    obtain ⟨vals, hvals⟩ := rowVals_of_mapM hys
    have hq : ∃ z, (if q.1 ∈ pvi p pkt then (pkt.data.get? row q.1).map some else some none) = some z := by
      split_ifs with hp
      · rw [if_pos (mem_pvi.mp hp).1] at hy
        obtain ⟨w, hw, -⟩ := Option.bind_eq_some.mp hy
        exact ⟨some w, by rw [hw]; rfl⟩
      · exact ⟨none, rfl⟩
    obtain ⟨z, hz⟩ := hq
    exact ⟨z :: vals, mapM_cons_eq_some.mpr ⟨z, vals, hz, hvals, rfl⟩⟩

theorem rowVals_of_schemaRecord {pkt : Packet Val} {row r : List Val}
    (h : schemaRecord p np pkt row = some r) : ∃ vals, rowVals p pkt row = some vals := by
  rw [rowVals, ← recordFields_names]
  exact rowVals_of_mapM h

theorem writeRows_noFaults {pkt : Packet Val} {d : Option (List (String × String))} :
    ∀ {i : Nat} {rows : List (List Val)} {x : Extent (List Val)} {recs : List (List Val)},
      rows.mapM (schemaRecord p np pkt) = some recs → i + rows.length ≤ x.capacity →
      ∃ x', writeRows p np noFaults pkt i rows (.records (recordFields p) d x) =
        .ok () (.records (recordFields p) d x')
  | _, [], x, _, _, _ => ⟨x, rfl⟩
  | i, row :: rows, x, _, h, hfit => by
    obtain ⟨r, rs, hr, hrs, -⟩ := mapM_cons_eq_some.mp h
    obtain ⟨vals, hvals⟩ := rowVals_of_schemaRecord hr
    have hlen : vals.length = (recordFields p).length := by
      rw [mapM_length hvals, ← recordFields_names, List.length_map]
    rw [List.length_cons] at hfit
    have hb : i + [r].length ≤ x.capacity := by
      rw [List.length_singleton]
      omega
    have hw : (Entry.records (recordFields p) d x).writeRecord np i vals =
        .ok (.records (recordFields p) d (x.splice i [r])) := by
      simp only [Entry.writeRecord, if_pos hlen, rowVals_store hvals, hr,
        if_pos (show i < x.capacity by omega)]
    obtain ⟨x', h'⟩ := writeRows_noFaults (d := d) (i := i + 1) (x := x.splice i [r]) hrs
      (by rw [x.capacity_splice hb]; omega)
    exact ⟨x', by simp only [writeRows, hvals, hw, Outcome.attempt_noFaults, Outcome.bind_ok, h']⟩

/-- With no fault and a positive increment, the combined-layout branch returns on a packet whose
rows all have the spec's records. -/
theorem appendRecords_noFaults {pkt : Packet Val} {d : Option (List (String × String))}
    {x : Extent (List Val)} {log : List (List Val)} (hinc : 0 < p.dsIncrement) (hx : x.Holds log)
    {recs : List (List Val)} (hrecs : schemaRecords p np pkt = some recs) :
    ∃ e', appendRecords p np noFaults pkt (.records (recordFields p) d x) = .ok () e' := by
  obtain ⟨e1, hg, hfit⟩ := growFor_noFaults np hinc dsVariables pkt.numRows
    (e := .records (recordFields p) d x) hx.2.1
  obtain ⟨x1, rfl⟩ : ∃ x1, e1 = .records (recordFields p) d x1 := by
    rcases growFor_ok hinc.le hg with rfl | ⟨size, -, rfl⟩
    · exact ⟨x, rfl⟩
    · exact ⟨_, rfl⟩
  obtain ⟨x2, hw⟩ := writeRows_noFaults (d := d) (i := log.length) (x := x1) hrecs hfit
  exact ⟨(Entry.records (recordFields p) d x2).setLastRow (log.length + pkt.numRows), by
    simp only [appendRecords, Entry.lastRow, hx.1, hg, Outcome.bind_ok, hw, Outcome.call_noFaults]⟩

end RecordRows

end Scioncc
