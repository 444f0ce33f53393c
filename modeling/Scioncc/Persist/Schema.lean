import Mathlib.Data.List.Basic

/-!
# Dataset schema, ingestion packets and the numpy boundary

`DatasetHDF5Persistence._parse_schema` reduces a raw dataset schema to what the engine reads:
the layout, the row increment, the time variable and the variable list. Packets carry a
numpy structured array whose rows hold one value per field. What numpy and h5py decide and
the repository does not (which dtype strings exist, how a value is stored under a dtype, the
fill value of a fresh slot, I/O faults) enters as parameters. Operations on the open file
return an `Outcome`: the state they leave behind, also when they raise, since a Python
exception does not undo the writes made before it.
-/

namespace Scioncc

/-- A file-system path, as its components. -/
abbrev Path := List String

def dsLayoutCombined : String := "vars_combined"
def dsLayoutIndividual : String := "vars_individual"
def dsFilePrefix : String := "ds_"
def dsBasePath : Path := ["SCIDATA", "datasets"]
def defaultRowIncrement : Int := 1000
def defaultTimeVariable : String := "time"
def dsVariables : String := "data"

/-- One entry of the schema's `variables` list; absent keys are `none`. -/
structure VarInfo where
  name : String
  baseType : Option String := none
  storageDtype : Option String := none
  description : Option String := none
  unit : Option String := none
  deriving DecidableEq, Repr

/-- The schema's `attributes["persistence"]` dictionary. -/
structure PersistenceAttrs where
  layout : Option String := none
  rowIncrement : Option Int := none
  timeVariable : Option String := none
  deriving DecidableEq, Repr

/-- A raw schema: its `attributes["persistence"]` and its `variables` list. -/
structure DatasetSchema where
  persistence : Option PersistenceAttrs := none
  vars : List VarInfo
  deriving DecidableEq, Repr

inductive Layout
  | individual
  | combined
  deriving DecidableEq, Repr

/-- The string the layout is stored under in the file's `layout` attribute. -/
def Layout.name : Layout → String
  | .individual => dsLayoutIndividual
  | .combined => dsLayoutCombined

/-- The fields `_parse_schema` sets on a `DatasetHDF5Persistence`. -/
structure Persistence where
  datasetId : String
  dsLayout : Layout
  dsIncrement : Int
  varDefs : List VarInfo
  timeVar : String
  deriving DecidableEq, Repr

/-- An illegal layout degrades to the individual one with a warning. -/
def parseLayout (layout : Option String) : Layout :=
  if layout.getD dsLayoutIndividual = dsLayoutCombined then .combined else .individual

def parseSchema (datasetId : String) (schema : DatasetSchema) : Persistence :=
  let attrs := schema.persistence.getD {}
  { datasetId := datasetId
    dsLayout := parseLayout attrs.layout
    dsIncrement := attrs.rowIncrement.getD defaultRowIncrement
    varDefs := schema.vars
    timeVar := attrs.timeVariable.getD defaultTimeVariable }

/-- The spec's scenario: an NTP `time` and a float `temperature`, with `row_increment = 10`. -/
def scenario : Persistence :=
  parseSchema "scenario"
    { persistence := some { rowIncrement := some 10 }
      vars := [{ name := "time", baseType := some "ntp_time" }, { name := "temperature" }] }

namespace Persistence

/-- `var_defs_map`: a dictionary comprehension, so a repeated name keeps its last entry. -/
def varDefsMap (p : Persistence) (name : String) : Option VarInfo :=
  p.varDefs.reverse.find? (·.name = name)

def varNames (p : Persistence) : List String := p.varDefs.map (·.name)

end Persistence

section MapM

variable {α β : Type} {f : α → Option β}

/-! `List.mapM` in `Option` is numpy's all-or-nothing conversion of a list. -/

@[simp] theorem mapM_nil_eq_some {ys : List β} : ([] : List α).mapM f = some ys ↔ ys = [] := by
  simp only [List.mapM_nil, pure, Option.some.injEq, eq_comm]

@[simp] theorem mapM_cons_eq_some {x : α} {xs : List α} {ys : List β} :
    (x :: xs).mapM f = some ys ↔ ∃ y zs, f x = some y ∧ xs.mapM f = some zs ∧ ys = y :: zs := by
  simp only [List.mapM_cons, Option.bind_eq_bind, bind, Option.bind_eq_some, pure,
    Option.some.injEq]
  constructor
  · rintro ⟨y, hy, zs, hzs, rfl⟩; exact ⟨y, zs, hy, hzs, rfl⟩
  · rintro ⟨y, zs, hy, hzs, rfl⟩; exact ⟨y, hy, zs, hzs, rfl⟩

theorem mapM_length : ∀ {xs : List α} {ys : List β}, xs.mapM f = some ys → ys.length = xs.length
  | [], ys, h => by rw [mapM_nil_eq_some.mp h]; rfl
  | x :: xs, ys, h => by
    obtain ⟨y, zs, -, hzs, rfl⟩ := mapM_cons_eq_some.mp h
    simp [mapM_length hzs]

end MapM

/-- A numpy structured array: every row holds one value per field. -/
structure Table (Val : Type) where
  fields : List String
  rows : List (List Val)
  arity : ∀ r ∈ rows, r.length = fields.length

namespace Table

variable {Val : Type} (t : Table Val)

/-- `row[name]` on one row of the array. -/
def get? (row : List Val) (name : String) : Option Val := (t.fields.zip row).lookup name

/-- `array[:][name]`, which raises when `name` is not a field. -/
def column? (name : String) : Option (List Val) :=
  if name ∈ t.fields then t.rows.mapM (t.get? · name) else none

theorem column?_length {name : String} {xs : List Val} (h : t.column? name = some xs) :
    xs.length = t.rows.length := by
  unfold column? at h
  split at h
  · exact mapM_length h
  · cases h

end Table

/-- An ingestion packet: `data["cols"]` and the structured array `data["data"]`. -/
structure Packet (Val : Type) where
  cols : List String
  data : Table Val

def Packet.numRows {Val : Type} (pkt : Packet Val) : Nat := pkt.data.rows.length

/-- What numpy and h5py decide and the repository does not: whether a dtype string names a
dtype, how a value is stored under a dtype (`none` where numpy raises), how `None` is stored,
and the value a fresh slot holds. -/
structure Numpy (Val : Type) where
  validDtype : String → Bool
  cast : String → Val → Option Val
  castNone : String → Option Val
  fill : String → Val

/-- A numpy in which `f8` is the only dtype and stores every integer as itself, `None` as `0`. -/
def plainNumpy : Numpy Int where
  validDtype d := d = "f8"
  cast _ v := some v
  castNone _ := some 0
  fill _ := 0

/-- An h5py or file-system call of the engine; an I/O fault can make any of them raise. -/
inductive Call
  | openFile (mode : String)
  | setFileAttr (key : String)
  | createGroup
  | createDataset (name : String)
  | setAttr (name key : String)
  | resize (name : String) (size : Int)
  | write (name : String) (row : Nat)
  | makedirs (dir : Path)
  deriving DecidableEq, Repr

/-- Which calls raise an I/O error. -/
abbrev Faults := Call → Bool

def noFaults : Faults := fun _ => false

/-- The exceptions the engine raises or lets through. -/
inductive PyError
  | badRequest (msg : String)
  | notImplemented
  | keyError (key : String)
  | valueError
  | typeError
  | zeroDivision
  | osError (path : Path)
  | ioError (call : Call)
  deriving DecidableEq, Repr

/-- The state an operation leaves behind, with its result or the exception it raised. -/
inductive Outcome (σ α : Type)
  | ok (a : α) (s : σ)
  | raised (e : PyError) (s : σ)

namespace Outcome

variable {σ τ α β : Type}

def state : Outcome σ α → σ
  | ok _ s => s
  | raised _ s => s

def isOk : Outcome σ α → Bool
  | ok _ _ => true
  | raised _ _ => false

/-- Run `k` on the result unless the operation raised, in which case the exception propagates. -/
def bind (o : Outcome σ α) (k : α → σ → Outcome σ β) : Outcome σ β :=
  match o with
  | ok a s => k a s
  | raised e s => raised e s

def map (g : σ → τ) : Outcome σ α → Outcome τ α
  | ok a s => ok a (g s)
  | raised e s => raised e (g s)

/-- One call computing the new state `r`: it raises with the state unchanged when `r` is an
error, or when an I/O fault hits the call. -/
def attempt (io : Faults) (c : Call) (r : Except PyError σ) (s : σ) : Outcome σ Unit :=
  match r with
  | .error err => raised err s
  | .ok s' => if io c then raised (.ioError c) s else ok () s'

/-- One call that changes the state by `g`, unless an I/O fault makes it raise first. -/
def call (io : Faults) (c : Call) (g : σ → σ) (s : σ) : Outcome σ Unit :=
  attempt io c (.ok (g s)) s

@[simp] theorem state_ok (a : α) (s : σ) : (ok a s).state = s := rfl
@[simp] theorem state_raised (e : PyError) (s : σ) : (raised e s : Outcome σ α).state = s := rfl
@[simp] theorem bind_ok (a : α) (s : σ) (k : α → σ → Outcome σ β) : (ok a s).bind k = k a s := rfl
@[simp] theorem bind_raised (e : PyError) (s : σ) (k : α → σ → Outcome σ β) :
    (raised e s).bind k = raised e s := rfl
@[simp] theorem map_ok (g : σ → τ) (a : α) (s : σ) : (ok a s).map g = ok a (g s) := rfl
@[simp] theorem map_raised (g : σ → τ) (e : PyError) (s : σ) :
    (raised e s : Outcome σ α).map g = raised e (g s) := rfl
@[simp] theorem state_map (g : σ → τ) (o : Outcome σ α) : (o.map g).state = g o.state := by
  cases o <;> rfl

/-- A property of the state left behind holds after `o.bind k` when it holds after `o` and after
`k` from every state `o` returns in. -/
theorem state_bind_of {P : σ → Prop} {o : Outcome σ α} {k : α → σ → Outcome σ β}
    (ho : P o.state) (hk : ∀ a s, o = ok a s → P (k a s).state) : P (o.bind k).state := by
  cases o with
  | ok a s => exact hk a s rfl
  | raised e s => exact ho

theorem bind_eq_ok {o : Outcome σ α} {k : α → σ → Outcome σ β} {b : β} {s' : σ}
    (h : o.bind k = ok b s') : ∃ a s, o = ok a s ∧ k a s = ok b s' := by
  cases o with
  | ok a s => exact ⟨a, s, rfl, h⟩
  | raised e s => cases h

theorem attempt_cases (io : Faults) (c : Call) (r : Except PyError σ) (s : σ) :
    (∃ e, attempt io c r s = raised e s) ∨ ∃ s', r = .ok s' ∧ attempt io c r s = ok () s' := by
  unfold attempt
  split
  · exact .inl ⟨_, rfl⟩
  · split
    · exact .inl ⟨_, rfl⟩
    · exact .inr ⟨_, rfl, rfl⟩

theorem bind_eq_raised {o : Outcome σ α} {k : α → σ → Outcome σ β} {e : PyError} {s : σ}
    (h : o.bind k = raised e s) : o = raised e s ∨ ∃ a s', o = ok a s' ∧ k a s' = raised e s := by
  cases o with
  | ok a s' => exact .inr ⟨a, s', rfl, h⟩
  | raised e' s' => exact .inl (by simpa using h)

theorem map_eq_ok {o : Outcome σ α} {g : σ → τ} {a : α} {t : τ} (h : o.map g = ok a t) :
    ∃ s, o = ok a s ∧ t = g s := by
  cases o with
  | ok a' s => cases h; exact ⟨s, rfl, rfl⟩
  | raised => cases h

theorem map_eq_raised {o : Outcome σ α} {g : σ → τ} {e : PyError} {t : τ} (h : o.map g = raised e t) :
    ∃ s, o = raised e s ∧ t = g s := by
  cases o with
  | ok => cases h
  | raised e' s => cases h; exact ⟨s, rfl, rfl⟩

theorem attempt_raised {io : Faults} {c : Call} {r : Except PyError σ} {s s' : σ} {e : PyError}
    (h : attempt io c r s = raised e s') : s' = s := by
  unfold attempt at h
  split at h
  · cases h; rfl
  · split at h
    · cases h; rfl
    · cases h

theorem call_raised {io : Faults} {c : Call} {g : σ → σ} {s s' : σ} {e : PyError}
    (h : call io c g s = raised e s') : s' = s :=
  attempt_raised h

theorem attempt_state_of {P : σ → Prop} {io : Faults} {c : Call} {r : Except PyError σ} {s : σ}
    (hs : P s) (hr : ∀ s', r = .ok s' → P s') : P (attempt io c r s).state := by
  unfold attempt
  split
  · exact hs
  · split
    · exact hs
    · exact hr _ rfl

theorem call_state_of {P : σ → Prop} {io : Faults} {c : Call} {g : σ → σ} {s : σ}
    (hs : P s) (hg : P (g s)) : P (call io c g s).state :=
  attempt_state_of hs fun _ h => by cases h; exact hg

theorem attempt_ok {io : Faults} {c : Call} {r : Except PyError σ} {s s' : σ} {a : Unit}
    (h : attempt io c r s = ok a s') : r = .ok s' := by
  unfold attempt at h
  split at h
  · cases h
  · split at h
    · cases h
    · cases h; rfl

theorem call_ok {io : Faults} {c : Call} {g : σ → σ} {s s' : σ} {a : Unit}
    (h : call io c g s = ok a s') : s' = g s := by
  cases attempt_ok h; rfl

@[simp] theorem attempt_noFaults (c : Call) (s s' : σ) : attempt noFaults c (.ok s') s = ok () s' :=
  rfl

@[simp] theorem call_noFaults (c : Call) (g : σ → σ) (s : σ) : call noFaults c g s = ok () (g s) :=
  rfl

theorem call_cases (io : Faults) (c : Call) (g : σ → σ) (s : σ) :
    (∃ e, call io c g s = raised e s) ∨ call io c g s = ok () (g s) := by
  rcases attempt_cases io c (.ok (g s)) s with h | ⟨s', hs, h⟩
  · exact .inl h
  · cases hs
    exact .inr h

end Outcome

end Scioncc
