import Scioncc.Persist.Container

/-!
# `extend_dataset` on the open file

Both layouts read `last_row`, resize once when the batch does not fit, write, and only then
advance `last_row`. The individual layout runs this for every packet column that names an
extent, re-reading the extent each time, so a column named twice is appended twice. The
combined layout assembles one record per packet row in schema order, with `None` for every
schema variable the packet does not name, and writes the records one by one.
-/

namespace Scioncc

variable {Val : Type} (p : Persistence) (np : Numpy Val) (io : Faults)

/-- `new_size` of `_resize_dataset`: `int(num_rows / inc)` is Python 2 floor division. -/
def newSize (inc : Int) (curSize numRows : Nat) : Int :=
  curSize + (Int.fdiv numRows inc + 1) * inc

/-- `_resize_dataset`: the division raises for a zero increment, h5py refuses a negative size. -/
def resizeDataset (name : String) (numRows : Nat) (e : Entry Val) : Outcome (Entry Val) Unit :=
  if p.dsIncrement = 0 then .raised .zeroDivision e
  else if newSize p.dsIncrement e.capacity numRows < 0 then .raised .valueError e
  else Outcome.call io (.resize name (newSize p.dsIncrement e.capacity numRows))
    (Entry.resize np (newSize p.dsIncrement e.capacity numRows).toNat) e

def growFor (name : String) (curIdx numRows : Nat) (e : Entry Val) : Outcome (Entry Val) Unit :=
  if e.capacity < curIdx + numRows then resizeDataset p np io name numRows e else .ok () e

/-- The individual-layout loop body for a packet column whose extent exists; `slice` is
`packet.data["data"][:][var_name]`, read after the resize. -/
def appendColumn (name : String) (numRows : Nat) (slice : Option (List Val)) (e : Entry Val) :
    Outcome (Entry Val) Unit :=
  match e.lastRow with
  | none => .raised (.keyError "last_row") e
  | some curIdx =>
    (growFor p np io name curIdx numRows e).bind fun _ e =>
      match slice with
      | none => .raised .valueError e
      | some xs =>
        (Outcome.attempt io (.write name curIdx) (e.writeColumn np curIdx xs) e).bind fun _ e =>
          Outcome.call io (.setAttr name "last_row") (Entry.setLastRow (curIdx + numRows)) e

def extendColumn (pkt : Packet Val) (varName : String) (f : H5File Val) :
    Outcome (H5File Val) Unit :=
  match f.vars varName with
  | none => .ok () f
  | some e =>
    (appendColumn p np io varName pkt.numRows (pkt.data.column? varName) e).map (f.setVar varName)

def extendIndividual (pkt : Packet Val) : List String → H5File Val → Outcome (H5File Val) Unit
  | [], f => .ok () f
  | c :: cs, f => (extendColumn p np io pkt c f).bind fun _ f => extendIndividual pkt cs f

/-- `pvi`: the packet columns that are schema variables. -/
def pvi (pkt : Packet Val) : List String := pkt.cols.filter (· ∈ p.varNames)

/-- `row_vals`: per schema variable its field of the packet row when the packet names it, else
`None`; reading a named field the array lacks raises. -/
def rowVals (pkt : Packet Val) (row : List Val) : Option (List (Option Val)) :=
  p.varNames.mapM fun vn => if vn ∈ pvi p pkt then (pkt.data.get? row vn).map some else some none

/-- The per-row loop: `var_ds[cur_idx+row_idx] = row_vals`. -/
def writeRows (pkt : Packet Val) : Nat → List (List Val) → Entry Val → Outcome (Entry Val) Unit
  | _, [], e => .ok () e
  | i, row :: rows, e =>
    match rowVals p pkt row with
    | none => .raised .valueError e
    | some vals =>
      (Outcome.attempt io (.write dsVariables i) (e.writeRecord np i vals) e).bind fun _ e =>
        writeRows pkt (i + 1) rows e

def appendRecords (pkt : Packet Val) (e : Entry Val) : Outcome (Entry Val) Unit :=
  match e.lastRow with
  | none => .raised (.keyError "last_row") e
  | some curIdx =>
    (growFor p np io dsVariables curIdx pkt.numRows e).bind fun _ e =>
      (writeRows p np io pkt curIdx pkt.data.rows e).bind fun _ e =>
        Outcome.call io (.setAttr dsVariables "last_row") (Entry.setLastRow (curIdx + pkt.numRows)) e

def extendCombined (pkt : Packet Val) (f : H5File Val) : Outcome (H5File Val) Unit :=
  match f.vars dsVariables with
  | none => .raised (.badRequest "Cannot find combined dataset") f
  | some e => (appendRecords p np io pkt e).map (f.setVar dsVariables)

/-- `extend_dataset` between opening the file in mode `"r+"` and closing it. -/
def extendDataset (pkt : Packet Val) (f : H5File Val) : Outcome (H5File Val) Unit :=
  match p.dsLayout with
  | .individual => extendIndividual p np io pkt pkt.cols f
  | .combined => extendCombined p np io pkt f

section Spec

variable {p np io}

theorem resizeDataset_cases (name : String) (numRows : Nat) (e : Entry Val) :
    (∃ err, resizeDataset p np io name numRows e = .raised err e) ∨
      (p.dsIncrement ≠ 0 ∧ 0 ≤ newSize p.dsIncrement e.capacity numRows ∧
        resizeDataset p np io name numRows e =
          .ok () (e.resize np (newSize p.dsIncrement e.capacity numRows).toNat)) := by
  unfold resizeDataset
  split
  · exact .inl ⟨_, rfl⟩
  split
  · exact .inl ⟨_, rfl⟩
  rcases Outcome.call_cases io _ (Entry.resize np _) e with h | h
  · exact .inl (by rw [h.choose_spec]; exact ⟨_, rfl⟩)
  · exact .inr ⟨‹_›, by omega, h⟩

theorem growFor_cases (name : String) (curIdx numRows : Nat) (e : Entry Val) :
    (∃ err, growFor p np io name curIdx numRows e = .raised err e) ∨
      (curIdx + numRows ≤ e.capacity ∧ growFor p np io name curIdx numRows e = .ok () e) ∨
      (e.capacity < curIdx + numRows ∧ p.dsIncrement ≠ 0 ∧
        0 ≤ newSize p.dsIncrement e.capacity numRows ∧ growFor p np io name curIdx numRows e =
          .ok () (e.resize np (newSize p.dsIncrement e.capacity numRows).toNat)) := by
  unfold growFor
  split
  · rcases resizeDataset_cases name numRows e with h | ⟨h0, h1, h⟩
    · exact .inl h
    · exact .inr (.inr ⟨‹_›, h0, h1, h⟩)
  · exact .inr (.inl ⟨by omega, rfl⟩)

theorem growFor_raised {name : String} {curIdx numRows : Nat} {e e' : Entry Val} {err : PyError}
    (h : growFor p np io name curIdx numRows e = .raised err e') : e' = e := by
  rcases growFor_cases name curIdx numRows e with ⟨_, h'⟩ | ⟨-, h'⟩ | ⟨-, -, -, h'⟩ <;>
    rw [h'] at h <;> cases h
  rfl

theorem extendDataset_of_individual {pkt : Packet Val} {f : H5File Val}
    (hl : p.dsLayout = .individual) :
    extendDataset p np io pkt f = extendIndividual p np io pkt pkt.cols f := by
  rw [extendDataset, hl]

theorem extendDataset_of_combined {pkt : Packet Val} {f : H5File Val} (hl : p.dsLayout = .combined) :
    extendDataset p np io pkt f = extendCombined p np io pkt f := by
  rw [extendDataset, hl]

theorem extendColumn_of_none {pkt : Packet Val} {c : String} {f : H5File Val}
    (hv : f.vars c = none) : extendColumn p np io pkt c f = .ok () f := by
  simp [extendColumn, hv]

theorem extendColumn_of_some {pkt : Packet Val} {c : String} {f : H5File Val} {e : Entry Val}
    (hv : f.vars c = some e) : extendColumn p np io pkt c f =
      (appendColumn p np io c pkt.numRows (pkt.data.column? c) e).map (f.setVar c) := by
  simp [extendColumn, hv]

theorem extendCombined_of_some {pkt : Packet Val} {f : H5File Val} {e : Entry Val}
    (hv : f.vars dsVariables = some e) :
    extendCombined p np io pkt f = (appendRecords p np io pkt e).map (f.setVar dsVariables) := by
  simp [extendCombined, hv]

end Spec

end Scioncc
