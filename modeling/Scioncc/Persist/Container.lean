import Scioncc.Persist.Schema
import Mathlib.Logic.Function.Basic

/-!
# The HDF5 container

A container file has the `dataset_id` and `layout` attributes and, under the group `vars`, one
entry per extent: in the individual layout a scalar column per variable with the attributes
`base_type`, `position`, `description`, `unit` and `last_row`; in the combined layout a single
record extent `vars/data` with `dtype_repr` and `last_row`. Every attribute is optional here,
because a write that raises part way leaves the ones set before it. An extent's length is its
capacity, and the slots past `last_row` hold the dtype's fill value or rows of a write whose
`last_row` update never happened.
-/

namespace Scioncc

/-- A growable one-dimensional HDF5 dataset: its slots and its `last_row` attribute, once set. -/
structure Extent (α : Type) where
  rows : List α
  lastRow : Option Nat := none

namespace Extent

variable {α : Type} (x : Extent α)

/-- `len(ds)`. -/
def capacity : Nat := x.rows.length

/-- `ds.resize(size, axis=0)`: truncate, or pad with the fill value. -/
def resize (fill : α) (size : Nat) : Extent α :=
  { x with rows := x.rows.take size ++ List.replicate (size - x.rows.length) fill }

/-- `ds[start:start+len(xs)] = xs`, inside the extent. -/
def splice (start : Nat) (xs : List α) : Extent α :=
  { x with rows := x.rows.take start ++ xs ++ x.rows.drop (start + xs.length) }

def setLastRow (r : Nat) : Extent α := { x with lastRow := some r }

/-- The committed rows `ds[0:last_row]`. -/
def committed : List α := x.rows.take (x.lastRow.getD 0)

@[simp] theorem capacity_resize (fill : α) (size : Nat) : (x.resize fill size).capacity = size := by
  simp only [capacity, resize, List.length_append, List.length_take, List.length_replicate]
  omega

@[simp] theorem lastRow_resize (fill : α) (size : Nat) : (x.resize fill size).lastRow = x.lastRow :=
  rfl

theorem take_resize (fill : α) {size m : Nat} (hm : m ≤ x.capacity) (hs : m ≤ size) :
    (x.resize fill size).rows.take m = x.rows.take m := by
  simp only [resize, capacity] at *
  rw [List.take_append_of_le_length (by rw [List.length_take]; omega), List.take_take,
    Nat.min_eq_left hs]

theorem capacity_splice {start : Nat} {xs : List α} (h : start + xs.length ≤ x.capacity) :
    (x.splice start xs).capacity = x.capacity := by
  simp only [capacity, splice, List.length_append, List.length_take, List.length_drop] at *
  omega

@[simp] theorem lastRow_splice (start : Nat) (xs : List α) : (x.splice start xs).lastRow = x.lastRow :=
  rfl

theorem take_splice_of_le {start m : Nat} (xs : List α) (hm : m ≤ start)
    (h : start ≤ x.capacity) : (x.splice start xs).rows.take m = x.rows.take m := by
  simp only [splice, capacity] at *
  rw [List.append_assoc, List.take_append_of_le_length (by rw [List.length_take]; omega), List.take_take,
    Nat.min_eq_left hm]

theorem take_splice {start : Nat} {xs : List α} (h : start + xs.length ≤ x.capacity) :
    (x.splice start xs).rows.take (start + xs.length) = x.rows.take start ++ xs := by
  simp only [splice, capacity] at *
  have hs : (x.rows.take start).length = start := by rw [List.length_take]; omega
  rw [List.take_append_eq_append_take, List.take_of_length_le (by rw [List.length_append, hs]),
    List.length_append, hs, Nat.sub_self, List.take_zero, List.append_nil]

@[simp] theorem capacity_setLastRow (r : Nat) : (x.setLastRow r).capacity = x.capacity := rfl
@[simp] theorem lastRow_setLastRow (r : Nat) : (x.setLastRow r).lastRow = some r := rfl
@[simp] theorem rows_setLastRow (r : Nat) : (x.setLastRow r).rows = x.rows := rfl

end Extent

/-- The attributes `require_dataset` sets on an individual-layout column besides `last_row`. -/
structure ColumnAttrs where
  baseType : Option String := none
  position : Option Nat := none
  description : Option String := none
  unit : Option String := none
  deriving DecidableEq, Repr

/-- A member of the `vars` group: a scalar column of one storage dtype, or the record extent
whose fields pair each variable name with its storage dtype. -/
inductive Entry (Val : Type)
  | column (dtype : String) (attrs : ColumnAttrs) (ext : Extent Val)
  | records (fields : List (String × String)) (dtypeRepr : Option (List (String × String)))
      (ext : Extent (List Val))

/-- `None` or a value, as a Python expression to be stored under a dtype. -/
def Numpy.store {Val : Type} (np : Numpy Val) (dtype : String) : Option Val → Option Val
  | some v => np.cast dtype v
  | none => np.castNone dtype

namespace Entry

variable {Val : Type} (np : Numpy Val)

def capacity : Entry Val → Nat
  | column _ _ x => x.capacity
  | records _ _ x => x.capacity

def lastRow : Entry Val → Option Nat
  | column _ _ x => x.lastRow
  | records _ _ x => x.lastRow

def setLastRow (r : Nat) : Entry Val → Entry Val
  | column d a x => column d a (x.setLastRow r)
  | records fs d x => records fs d (x.setLastRow r)

/-- `ds.resize(size, axis=0)`, padding with the dtype's fill value. -/
def resize (size : Nat) : Entry Val → Entry Val
  | column d a x => column d a (x.resize (np.fill d) size)
  | records fs d x => records fs d (x.resize (fs.map (np.fill ·.2)) size)

/-- `ds[start:start+len(xs)] = xs` for a numpy column: numpy converts the whole column to the
storage dtype before h5py writes it, and a record extent cannot take scalars. -/
def writeColumn (start : Nat) (xs : List Val) : Entry Val → Except PyError (Entry Val)
  | column d a x =>
    match xs.mapM (np.cast d) with
    | none => .error .typeError
    | some ys => if start + ys.length ≤ x.capacity then .ok (column d a (x.splice start ys))
      else .error .valueError
  | records _ _ _ => .error .typeError

/-- `ds[i] = row_vals` for a tuple holding a value or `None` per field, converted field by field. -/
def writeRecord (i : Nat) (vals : List (Option Val)) : Entry Val → Except PyError (Entry Val)
  | records fs d x =>
    if vals.length = fs.length then
      match (fs.zip vals).mapM (fun p => np.store p.1.2 p.2) with
      | none => .error .typeError
      | some r => if i < x.capacity then .ok (records fs d (x.splice i [r])) else .error .valueError
    else .error .valueError
  | column _ _ _ => .error .typeError

theorem writeColumn_ok {start : Nat} {xs : List Val} {e e' : Entry Val}
    (h : e.writeColumn np start xs = .ok e') :
    ∃ d a x ys, e = column d a x ∧ xs.mapM (np.cast d) = some ys ∧
      start + ys.length ≤ x.capacity ∧ e' = column d a (x.splice start ys) := by
  cases e with
  | records => cases h
  | column d a x =>
    simp only [writeColumn] at h
    split at h
    · cases h
    · split at h
      · cases h
        exact ⟨d, a, x, _, rfl, ‹_›, ‹_›, rfl⟩
      · cases h

theorem writeRecord_ok {i : Nat} {vals : List (Option Val)} {e e' : Entry Val}
    (h : e.writeRecord np i vals = .ok e') :
    ∃ fs d x r, e = records fs d x ∧ vals.length = fs.length ∧
      (fs.zip vals).mapM (fun p => np.store p.1.2 p.2) = some r ∧ i < x.capacity ∧
      e' = records fs d (x.splice i [r]) := by
  cases e with
  | column => cases h
  | records fs d x =>
    simp only [writeRecord] at h
    split at h
    · split at h
      · cases h
      · split at h
        · cases h
          exact ⟨fs, d, x, _, rfl, ‹_›, ‹_›, ‹_›, rfl⟩
        · cases h
    · cases h

/-- Set attributes of a scalar column other than `last_row`. -/
def setAttrs (g : ColumnAttrs → ColumnAttrs) : Entry Val → Entry Val
  | column d a x => column d (g a) x
  | e => e

def setDtypeRepr (r : List (String × String)) : Entry Val → Entry Val
  | records fs _ x => records fs (some r) x
  | e => e

@[simp] theorem capacity_resize (size : Nat) (e : Entry Val) : (e.resize np size).capacity = size := by
  cases e <;> simp [resize, capacity]

@[simp] theorem lastRow_resize (size : Nat) (e : Entry Val) : (e.resize np size).lastRow = e.lastRow := by
  cases e <;> rfl

@[simp] theorem capacity_setLastRow (r : Nat) (e : Entry Val) :
    (e.setLastRow r).capacity = e.capacity := by
  cases e <;> rfl

@[simp] theorem lastRow_setLastRow (r : Nat) (e : Entry Val) : (e.setLastRow r).lastRow = some r := by
  cases e <;> rfl

end Entry

/-- An open container file. -/
structure H5File (Val : Type) where
  datasetId : Option String := none
  layout : Option String := none
  vars : String → Option (Entry Val) := fun _ => none

/-- Replace the member `vars/name`. -/
def H5File.setVar {Val : Type} (f : H5File Val) (name : String) (e : Entry Val) : H5File Val :=
  { f with vars := Function.update f.vars name (some e) }

@[simp] theorem H5File.setVar_setVar {Val : Type} (f : H5File Val) (name : String) (e e' : Entry Val) :
    (f.setVar name e).setVar name e' = f.setVar name e' := by
  simp [setVar]

@[simp] theorem H5File.vars_setVar {Val : Type} (f : H5File Val) (name v : String) (e : Entry Val) :
    (f.setVar name e).vars v = if v = name then some e else f.vars v := by
  simp [setVar, Function.update_apply]

end Scioncc
