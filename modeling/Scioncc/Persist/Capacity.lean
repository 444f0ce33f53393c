import Scioncc.Persist.Extend
import Mathlib.Tactic.Ring

/-!
# Capacity, `last_row` and the committed rows along every run

`_resize_dataset` grows from the current capacity by whole increments without looking at
`last_row`; every write checks its range, and `last_row` only moves past rows just written. So
from a state where `last_row ≤ capacity = k * row_increment`, every outcome of
`extend_dataset`, also one that raises part way, keeps that bound, keeps the committed rows of
every extent, and lowers no capacity and no `last_row`.
-/

namespace Scioncc

variable {Val : Type}

namespace Extent

variable {α : Type}

/-- `x'` keeps the committed rows of `x`, and neither its capacity nor its `last_row` goes down. -/
structure Grows (x x' : Extent α) : Prop where
  capacity_le : x.capacity ≤ x'.capacity
  lastRow_le : x.lastRow.getD 0 ≤ x'.lastRow.getD 0
  committed_eq : x'.rows.take (x.lastRow.getD 0) = x.committed

theorem Grows.refl (x : Extent α) : x.Grows x := ⟨le_rfl, le_rfl, rfl⟩

theorem Grows.trans {x y z : Extent α} (h₁ : x.Grows y) (h₂ : y.Grows z) : x.Grows z where
  capacity_le := h₁.capacity_le.trans h₂.capacity_le
  lastRow_le := h₁.lastRow_le.trans h₂.lastRow_le
  committed_eq := by
    rw [← h₁.committed_eq, ← Nat.min_eq_left h₁.lastRow_le, ← List.take_take,
      h₂.committed_eq, committed, List.take_take]

theorem grows_resize (x : Extent α) (fill : α) {size : Nat} (hr : x.lastRow.getD 0 ≤ x.capacity)
    (hs : x.capacity ≤ size) : x.Grows (x.resize fill size) :=
  ⟨by simpa using hs, le_rfl, x.take_resize fill hr (hr.trans hs)⟩

theorem grows_splice (x : Extent α) {start : Nat} {xs : List α} (hr : x.lastRow.getD 0 ≤ start)
    (hb : start + xs.length ≤ x.capacity) : x.Grows (x.splice start xs) :=
  ⟨(x.capacity_splice hb).ge, le_rfl, x.take_splice_of_le xs hr (by omega)⟩

theorem grows_setLastRow (x : Extent α) {r : Nat} (hr : x.lastRow.getD 0 ≤ r) :
    x.Grows (x.setLastRow r) :=
  ⟨le_rfl, by simpa using hr, rfl⟩

end Extent

/-- Only a positive increment sizes an extent, and growth stays a whole number of increments. -/
theorem newSize_multiple {inc : Int} {cap k : Nat} (numRows : Nat) (hk : 1 ≤ k)
    (hcap : (cap : Int) = k * inc) (h0 : inc ≠ 0) :
    0 < inc ∧ 0 ≤ Int.fdiv numRows inc ∧ ∃ k' : Nat, 1 ≤ k' ∧ newSize inc cap numRows = k' * inc := by
  have hpos : 0 < inc := by
    rcases lt_or_gt_of_ne h0 with h | h
    · have := Int.mul_neg_of_pos_of_neg (show (0 : Int) < k by omega) h
      omega
    · exact h
  have hq : 0 ≤ Int.fdiv numRows inc := by
    rw [Int.fdiv_eq_ediv _ hpos.le]; exact Int.ediv_nonneg (by omega) hpos.le
  refine ⟨hpos, hq, k + (Int.fdiv numRows inc).toNat + 1, by omega, ?_⟩
  rw [newSize, hcap]
  push_cast
  rw [Int.toNat_of_nonneg hq]
  ring

theorem newSize_fits {inc : Int} {cap : Nat} (numRows : Nat) (hpos : 0 < inc) :
    (cap : Int) + numRows < newSize inc cap numRows := by
  have := Int.lt_ediv_add_one_mul_self (numRows : Int) hpos
  rw [newSize, Int.fdiv_eq_ediv _ hpos.le]
  omega

theorem capacity_le_newSize {inc : Int} (hinc : 0 < inc) (cap numRows : Nat) :
    (cap : Int) ≤ newSize inc cap numRows := by
  have : 0 ≤ Int.fdiv numRows inc := by
    rw [Int.fdiv_eq_ediv _ hinc.le]; exact Int.ediv_nonneg (by omega) hinc.le
  have := Int.mul_pos (show 0 < Int.fdiv numRows inc + 1 by omega) hinc
  rw [newSize]; omega

namespace Entry

/-- The same member, with its dtype and other attributes, grown as an extent. -/
def Grows : Entry Val → Entry Val → Prop
  | column d a x, column d' a' x' => d' = d ∧ a' = a ∧ x.Grows x'
  | records fs r x, records fs' r' x' => fs' = fs ∧ r' = r ∧ x.Grows x'
  | _, _ => False

theorem Grows.refl (e : Entry Val) : e.Grows e := by
  cases e <;> exact ⟨rfl, rfl, .refl _⟩

theorem Grows.trans {e₁ e₂ e₃ : Entry Val} (h₁ : e₁.Grows e₂) (h₂ : e₂.Grows e₃) : e₁.Grows e₃ := by
  cases e₁ <;> cases e₂ <;> cases e₃ <;> simp only [Grows] at h₁ h₂ ⊢
  all_goals first
    | exact False.elim h₁
    | exact False.elim h₂
    | exact ⟨h₂.1.trans h₁.1, h₂.2.1.trans h₁.2.1, h₁.2.2.trans h₂.2.2⟩

theorem Grows.capacity_le {e e' : Entry Val} (h : e.Grows e') : e.capacity ≤ e'.capacity := by
  cases e <;> cases e' <;> first | exact False.elim h | exact h.2.2.capacity_le

theorem Grows.lastRow_le {e e' : Entry Val} (h : e.Grows e') :
    e.lastRow.getD 0 ≤ e'.lastRow.getD 0 := by
  cases e <;> cases e' <;> first | exact False.elim h | exact h.2.2.lastRow_le

/-- `0 ≤ last_row ≤ len(ds)`, and the length is a positive whole number of increments. -/
def Sized (inc : Int) (e : Entry Val) : Prop :=
  ∃ r, e.lastRow = some r ∧ r ≤ e.capacity ∧ ∃ k : Nat, 1 ≤ k ∧ (e.capacity : Int) = k * inc

variable (np : Numpy Val)

theorem grows_resize (e : Entry Val) {size : Nat} (hr : e.lastRow.getD 0 ≤ e.capacity)
    (hs : e.capacity ≤ size) : e.Grows (e.resize np size) := by
  cases e <;> exact ⟨rfl, rfl, Extent.grows_resize _ _ hr hs⟩

theorem grows_setLastRow (e : Entry Val) {r : Nat} (hr : e.lastRow.getD 0 ≤ r) :
    e.Grows (e.setLastRow r) := by
  cases e <;> exact ⟨rfl, rfl, Extent.grows_setLastRow _ hr⟩

theorem writeColumn_grows {start : Nat} {xs : List Val} {e e' : Entry Val}
    (h : e.writeColumn np start xs = .ok e') (hr : e.lastRow.getD 0 ≤ start) :
    e.Grows e' ∧ e'.capacity = e.capacity ∧ e'.lastRow = e.lastRow ∧
      start + xs.length ≤ e.capacity := by
  obtain ⟨d, a, x, ys, rfl, hys, hb, rfl⟩ := writeColumn_ok np h
  exact ⟨⟨rfl, rfl, x.grows_splice hr hb⟩, x.capacity_splice hb, rfl, by
    rwa [mapM_length hys] at hb⟩

theorem writeRecord_grows {i : Nat} {vals : List (Option Val)} {e e' : Entry Val}
    (h : e.writeRecord np i vals = .ok e') (hr : e.lastRow.getD 0 ≤ i) :
    e.Grows e' ∧ e'.capacity = e.capacity ∧ e'.lastRow = e.lastRow ∧ i < e.capacity := by
  obtain ⟨fs, d, x, r, rfl, -, -, hb, rfl⟩ := writeRecord_ok np h
  have hb' : i + [r].length ≤ x.capacity := by simpa using hb
  exact ⟨⟨rfl, rfl, x.grows_splice hr hb'⟩, x.capacity_splice hb', rfl, hb⟩

theorem writeColumn_capacity {start : Nat} {xs : List Val} {e e' : Entry Val}
    (h : e.writeColumn np start xs = .ok e') : e'.capacity = e.capacity := by
  obtain ⟨d, a, x, ys, rfl, -, hb, rfl⟩ := writeColumn_ok np h
  exact x.capacity_splice hb

variable {inc : Int}

theorem Sized.inc_nonneg {e : Entry Val} (hs : e.Sized inc) : 0 ≤ inc := by
  obtain ⟨_, _, _, k, hk, hcap⟩ := hs
  by_contra h
  have := Int.mul_neg_of_pos_of_neg (show (0 : Int) < k by omega) (by omega : inc < 0)
  omega

theorem Sized.of_eq {e e' : Entry Val} (hs : e.Sized inc) (hc : e'.capacity = e.capacity)
    (hl : e'.lastRow = e.lastRow) : e'.Sized inc := by
  rw [Sized, hc, hl]; exact hs

theorem Sized.setLastRow {e : Entry Val} {r : Nat} (hs : e.Sized inc) (hr : r ≤ e.capacity) :
    (e.setLastRow r).Sized inc := by
  obtain ⟨_, _, _, k⟩ := hs
  exact ⟨r, by simp, by simpa using hr, by simpa using k⟩

/-- `_resize_dataset` on a sized extent: still sized, and grown. -/
theorem Sized.resize {e : Entry Val} (hs : e.Sized inc) (h0 : inc ≠ 0) (numRows : Nat) :
    (e.resize np (newSize inc e.capacity numRows).toNat).Sized inc ∧
      e.Grows (e.resize np (newSize inc e.capacity numRows).toNat) := by
  obtain ⟨r, hr, hrc, k, hk, hcap⟩ := hs
  obtain ⟨hpos, hq, k', hk', hnew⟩ := newSize_multiple numRows hk hcap h0
  have hge := capacity_le_newSize hpos e.capacity numRows
  have hcap' : e.capacity ≤ (newSize inc e.capacity numRows).toNat := by omega
  refine ⟨⟨r, by simp [hr], by simp; omega, k', hk', ?_⟩, e.grows_resize np (by simp [hr, hrc]) hcap'⟩
  simp only [capacity_resize]
  rw [Int.toNat_of_nonneg (by omega), hnew]

end Entry

section Steps

variable {p : Persistence} (np : Numpy Val) (io : Faults)

theorem growFor_state (name : String) (numRows : Nat) {cur : Nat} {e : Entry Val}
    (hs : e.Sized p.dsIncrement) (hcur : e.lastRow = some cur) :
    (growFor p np io name cur numRows e).state.Sized p.dsIncrement ∧
      e.Grows (growFor p np io name cur numRows e).state ∧
      (growFor p np io name cur numRows e).state.lastRow = some cur := by
  rcases growFor_cases name cur numRows e with ⟨_, h⟩ | ⟨-, h⟩ | ⟨-, h0, -, h⟩ <;> rw [h]
  · exact ⟨hs, .refl e, hcur⟩
  · exact ⟨hs, .refl e, hcur⟩
  · exact ⟨(hs.resize np h0 numRows).1, (hs.resize np h0 numRows).2, by simp [hcur]⟩

/-- Every outcome of the individual-layout loop body keeps its extent sized and grows it. -/
theorem appendColumn_state (name : String) (numRows : Nat) (slice : Option (List Val))
    {e : Entry Val} (hs : e.Sized p.dsIncrement)
    (hlen : ∀ xs, slice = some xs → xs.length = numRows) :
    (appendColumn p np io name numRows slice e).state.Sized p.dsIncrement ∧
      e.Grows (appendColumn p np io name numRows slice e).state := by
  obtain ⟨cur, hcur, -⟩ := id hs
  have hg := growFor_state np io name numRows hs hcur
  simp only [appendColumn, hcur]
  refine Outcome.state_bind_of (P := fun s => s.Sized p.dsIncrement ∧ e.Grows s) ⟨hg.1, hg.2.1⟩ fun _ e1 h1 => ?_
  rw [h1, Outcome.state_ok] at hg
  obtain ⟨h1s, h1g, h1l⟩ := hg
  cases slice with
  | none => exact ⟨h1s, h1g⟩
  | some xs =>
    refine Outcome.state_bind_of (P := fun s => s.Sized p.dsIncrement ∧ e.Grows s)
      (Outcome.attempt_state_of (P := fun s => s.Sized p.dsIncrement ∧ e.Grows s) ⟨h1s, h1g⟩ fun e2 hw => ?_)
      fun _ e2 ha => ?_
    · obtain ⟨g, hc, hl, -⟩ := Entry.writeColumn_grows np hw (by simp [h1l])
      exact ⟨h1s.of_eq hc hl, h1g.trans g⟩
    · obtain ⟨g, hc, hl, hb⟩ := Entry.writeColumn_grows np (Outcome.attempt_ok ha) (by simp [h1l])
      have h2s := h1s.of_eq hc hl
      have hb' : cur + numRows ≤ e2.capacity := by rw [hc, ← hlen xs rfl]; exact hb
      exact Outcome.call_state_of (P := fun s => s.Sized p.dsIncrement ∧ e.Grows s) ⟨h2s, h1g.trans g⟩
        ⟨h2s.setLastRow hb', (h1g.trans g).trans (e2.grows_setLastRow (by simp [hl, h1l]))⟩

theorem writeRows_state {inc : Int} (pkt : Packet Val) {cur : Nat} :
    ∀ {i : Nat} (rows : List (List Val)) {e : Entry Val},
      e.Sized inc → e.lastRow = some cur → cur ≤ i →
      (writeRows p np io pkt i rows e).state.Sized inc ∧
        e.Grows (writeRows p np io pkt i rows e).state ∧
        (writeRows p np io pkt i rows e).state.lastRow = some cur
  | _, [], e, hs, hcur, _ => ⟨hs, .refl e, hcur⟩
  | i, row :: rows, e, hs, hcur, hi => by
    simp only [writeRows]
    split
    · exact ⟨hs, .refl e, hcur⟩
    · refine Outcome.state_bind_of (P := fun s => s.Sized inc ∧ e.Grows s ∧ s.lastRow = some cur)
        (Outcome.attempt_state_of (P := fun s => s.Sized inc ∧ e.Grows s ∧ s.lastRow = some cur)
          ⟨hs, .refl e, hcur⟩ fun e' hw => ?_) fun _ e' ha => ?_
      · obtain ⟨g, hc, hl, -⟩ := Entry.writeRecord_grows np hw (by simp [hcur, hi])
        exact ⟨hs.of_eq hc hl, g, hl.trans hcur⟩
      · obtain ⟨g, hc, hl, -⟩ := Entry.writeRecord_grows np (Outcome.attempt_ok ha) (by simp [hcur, hi])
        have ih := writeRows_state pkt rows (hs.of_eq hc hl) (hl.trans hcur) (Nat.le_succ_of_le hi)
        exact ⟨ih.1, g.trans ih.2.1, ih.2.2⟩

theorem writeRows_ok (pkt : Packet Val) :
    ∀ {i : Nat} {rows : List (List Val)} {e e' : Entry Val} {a : Unit},
      writeRows p np io pkt i rows e = .ok a e' →
      e'.capacity = e.capacity ∧ e'.lastRow = e.lastRow ∧ (rows = [] ∨ i + rows.length ≤ e.capacity)
  | _, [], e, e', _, h => by cases h; exact ⟨rfl, rfl, .inl rfl⟩
  | i, row :: rows, e, e', _, h => by
    simp only [writeRows] at h
    split at h
    · cases h
    · obtain ⟨_, e1, ha, hr⟩ := Outcome.bind_eq_ok h
      obtain ⟨fs, d, x, r, rfl, -, -, hb, rfl⟩ := Entry.writeRecord_ok np (Outcome.attempt_ok ha)
      obtain ⟨hc, hl, hrest⟩ := writeRows_ok pkt hr
      have hc1 : (Entry.records fs d (x.splice i [r])).capacity = x.capacity :=
        x.capacity_splice (by simpa using hb)
      refine ⟨hc.trans hc1, hl, .inr ?_⟩
      rcases hrest with rfl | hrest
      · simpa [Entry.capacity] using hb
      · simp only [List.length_cons]; rw [hc1] at hrest; simp only [Entry.capacity]; omega

/-- The resize policy: a returning `growFor` leaves the capacity `new_size` exactly when the batch
does not fit. -/
theorem growFor_ok_capacity {name : String} {curIdx numRows : Nat} {e e1 : Entry Val} {u : Unit}
    (h : growFor p np io name curIdx numRows e = .ok u e1) :
    e1.capacity = if e.capacity < curIdx + numRows then
      (newSize p.dsIncrement e.capacity numRows).toNat else e.capacity := by
  rcases growFor_cases name curIdx numRows e with ⟨_, h'⟩ | ⟨hfit, h'⟩ | ⟨hgrow, -, -, h'⟩ <;>
    rw [h'] at h <;> cases h
  · rw [if_neg (by omega)]
  · rw [if_pos hgrow, Entry.capacity_resize]

theorem growFor_noFaults (hinc : 0 < p.dsIncrement) (name : String) (numRows : Nat) {curIdx : Nat}
    {e : Entry Val} (hcur : curIdx ≤ e.capacity) :
    ∃ e1, growFor p np noFaults name curIdx numRows e = .ok () e1 ∧ curIdx + numRows ≤ e1.capacity := by
  unfold growFor
  split_ifs with hgrow
  · have hfit : (e.capacity : Int) + numRows < newSize p.dsIncrement e.capacity numRows :=
      newSize_fits numRows hinc
    have hnn : ¬newSize p.dsIncrement e.capacity numRows < 0 := by omega
    have htoNat := Int.toNat_of_nonneg (not_lt.mp hnn)
    refine ⟨e.resize np (newSize p.dsIncrement e.capacity numRows).toNat,
      by simp only [resizeDataset, hinc.ne', hnn, if_false, Outcome.call_noFaults],
      by rw [Entry.capacity_resize]; omega⟩
  · exact ⟨e, rfl, by omega⟩

theorem appendColumn_ok_extent {name : String} {numRows : Nat} {slice : Option (List Val)}
    {e e' : Entry Val} {u : Unit} (h : appendColumn p np io name numRows slice e = .ok u e') :
    ∃ r, e.lastRow = some r ∧ e'.lastRow = some (r + numRows) ∧
      e'.capacity = if e.capacity < r + numRows then
        (newSize p.dsIncrement e.capacity numRows).toNat else e.capacity := by
  unfold appendColumn at h
  split at h
  · cases h
  rename_i r hr
  obtain ⟨_, e1, hg, h⟩ := Outcome.bind_eq_ok h
  split at h
  · cases h
  obtain ⟨_, e2, hw, h⟩ := Outcome.bind_eq_ok h
  cases Outcome.call_ok h
  refine ⟨r, hr, by simp, ?_⟩
  rw [Entry.capacity_setLastRow, Entry.writeColumn_capacity np (Outcome.attempt_ok hw),
    growFor_ok_capacity np io hg]

/-- A returning combined-layout branch moves `last_row` past the batch, resizing by the policy. -/
theorem appendRecords_ok_extent {pkt : Packet Val} {e e' : Entry Val} {u : Unit}
    (h : appendRecords p np io pkt e = .ok u e') :
    ∃ r, e.lastRow = some r ∧ e'.lastRow = some (r + pkt.numRows) ∧
      e'.capacity = if e.capacity < r + pkt.numRows then
        (newSize p.dsIncrement e.capacity pkt.numRows).toNat else e.capacity := by
  unfold appendRecords at h
  split at h
  · cases h
  rename_i r hr
  obtain ⟨_, e1, hg, h⟩ := Outcome.bind_eq_ok h
  obtain ⟨_, e2, hw, h⟩ := Outcome.bind_eq_ok h
  cases Outcome.call_ok h
  refine ⟨r, hr, by simp, ?_⟩
  rw [Entry.capacity_setLastRow, (writeRows_ok np io pkt hw).1, growFor_ok_capacity np io hg]

theorem appendRecords_state (pkt : Packet Val) {e : Entry Val} (hs : e.Sized p.dsIncrement) :
    (appendRecords p np io pkt e).state.Sized p.dsIncrement ∧
      e.Grows (appendRecords p np io pkt e).state := by
  obtain ⟨cur, hcur, -⟩ := id hs
  have hg := growFor_state np io dsVariables pkt.numRows hs hcur
  simp only [appendRecords, hcur]
  refine Outcome.state_bind_of (P := fun s => s.Sized p.dsIncrement ∧ e.Grows s) ⟨hg.1, hg.2.1⟩ fun _ e1 h1 => ?_
  rw [h1, Outcome.state_ok] at hg
  obtain ⟨h1s, h1g, h1l⟩ := hg
  have hw := writeRows_state np io (p := p) pkt pkt.data.rows h1s h1l le_rfl
  refine Outcome.state_bind_of (P := fun s => s.Sized p.dsIncrement ∧ e.Grows s) ⟨hw.1, h1g.trans hw.2.1⟩
    fun _ e2 h2 => ?_
  rw [h2, Outcome.state_ok] at hw
  obtain ⟨h2s, h2g, h2l⟩ := hw
  obtain ⟨hc, -, hfit⟩ := writeRows_ok np io pkt h2
  have hb : cur + pkt.numRows ≤ e2.capacity := by
    rcases hfit with h | h
    · obtain ⟨r, hr, hrc, -⟩ := h1s
      simp only [Packet.numRows, h, List.length_nil, Nat.add_zero, hc]
      rw [h1l] at hr; cases hr; exact hrc
    · rw [hc]; exact h
  exact Outcome.call_state_of (P := fun s => s.Sized p.dsIncrement ∧ e.Grows s) ⟨h2s, h1g.trans h2g⟩
    ⟨h2s.setLastRow hb, (h1g.trans h2g).trans (e2.grows_setLastRow (by simp [h2l]))⟩

namespace H5File

/-- Every extent of the file is sized. -/
def Sized (inc : Int) (f : H5File Val) : Prop := ∀ v e, f.vars v = some e → e.Sized inc

/-- `f'` keeps the file attributes of `f` and every member of `f`, grown, and has no other. -/
structure Grows (f f' : H5File Val) : Prop where
  datasetId_eq : f'.datasetId = f.datasetId
  layout_eq : f'.layout = f.layout
  vars : ∀ v, Option.Rel Entry.Grows (f.vars v) (f'.vars v)

theorem Grows.refl (f : H5File Val) : f.Grows f := ⟨rfl, rfl, fun v => by
  cases f.vars v with
  | none => exact .none
  | some e => exact .some (.refl e)⟩

theorem Grows.trans {f g h : H5File Val} (h₁ : f.Grows g) (h₂ : g.Grows h) : f.Grows h := by
  refine ⟨h₂.datasetId_eq.trans h₁.datasetId_eq, h₂.layout_eq.trans h₁.layout_eq, fun v => ?_⟩
  have h₁ := h₁.vars v
  have h₂ := h₂.vars v
  revert h₁ h₂
  generalize f.vars v = a
  generalize g.vars v = b
  generalize h.vars v = c
  intro h₁ h₂
  cases h₁ with
  | none => exact h₂
  | some ha => cases h₂ with | some hb => exact .some (ha.trans hb)

theorem Sized.setVar {inc : Int} {f : H5File Val} {v : String} {e : Entry Val} (hf : f.Sized inc)
    (he : e.Sized inc) : (f.setVar v e).Sized inc := by
  intro w e' h
  rw [vars_setVar] at h
  split at h
  · cases h; exact he
  · exact hf w e' h

theorem grows_setVar {f : H5File Val} {v : String} {e e' : Entry Val} (hv : f.vars v = some e)
    (h : e.Grows e') : f.Grows (f.setVar v e') := ⟨rfl, rfl, fun w => by
  rw [vars_setVar]
  split
  · subst w; rw [hv]; exact .some h
  · cases f.vars w with
    | none => exact .none
    | some e => exact .some (.refl e)⟩

end H5File

theorem extendColumn_state (pkt : Packet Val) (c : String) {f : H5File Val}
    (hf : f.Sized p.dsIncrement) :
    (extendColumn p np io pkt c f).state.Sized p.dsIncrement ∧
      f.Grows (extendColumn p np io pkt c f).state := by
  unfold extendColumn
  split
  · exact ⟨hf, .refl f⟩
  · rename_i e hv
    have h := appendColumn_state np io c pkt.numRows (pkt.data.column? c) (hf c e hv)
      fun xs hxs => pkt.data.column?_length hxs
    rw [Outcome.state_map]
    exact ⟨hf.setVar h.1, H5File.grows_setVar hv h.2⟩

theorem extendIndividual_state (pkt : Packet Val) :
    ∀ (cols : List String) {f : H5File Val}, f.Sized p.dsIncrement →
      (extendIndividual p np io pkt cols f).state.Sized p.dsIncrement ∧
        f.Grows (extendIndividual p np io pkt cols f).state
  | [], f, hf => ⟨hf, .refl f⟩
  | c :: cs, f, hf => by
    have h := extendColumn_state np io pkt c hf
    refine Outcome.state_bind_of (P := fun s => s.Sized p.dsIncrement ∧ f.Grows s) h
      fun _ f1 h1 => ?_
    rw [h1, Outcome.state_ok] at h
    have ih := extendIndividual_state pkt cs h.1
    exact ⟨ih.1, h.2.trans ih.2⟩

theorem extendCombined_state (pkt : Packet Val) {f : H5File Val} (hf : f.Sized p.dsIncrement) :
    (extendCombined p np io pkt f).state.Sized p.dsIncrement ∧
      f.Grows (extendCombined p np io pkt f).state := by
  unfold extendCombined
  split
  · exact ⟨hf, .refl f⟩
  · rename_i e hv
    have h := appendRecords_state np io pkt (hf _ e hv)
    rw [Outcome.state_map]
    exact ⟨hf.setVar h.1, H5File.grows_setVar hv h.2⟩

/-- Every outcome of `extend_dataset`, returned or raised, keeps a sized file sized and grows it. -/
theorem extendDataset_state (pkt : Packet Val) {f : H5File Val} (hf : f.Sized p.dsIncrement) :
    (extendDataset p np io pkt f).state.Sized p.dsIncrement ∧
      f.Grows (extendDataset p np io pkt f).state := by
  unfold extendDataset
  split
  · exact extendIndividual_state np io pkt pkt.cols hf
  · exact extendCombined_state np io pkt hf

end Steps

/-- The file after a sequence of `extend_dataset` calls, whatever each returned or raised. -/
def runExtends (p : Persistence) (np : Numpy Val) : List (Faults × Packet Val) → H5File Val → H5File Val
  | [], f => f
  | (io, pkt) :: rest, f => runExtends p np rest (extendDataset p np io pkt f).state

theorem runExtends_sized {p : Persistence} (np : Numpy Val) :
    ∀ (steps : List (Faults × Packet Val)) {f : H5File Val}, f.Sized p.dsIncrement →
      (runExtends p np steps f).Sized p.dsIncrement ∧ f.Grows (runExtends p np steps f)
  | [], f, hf => ⟨hf, .refl f⟩
  | (io, pkt) :: rest, f, hf => by
    have h := extendDataset_state np io pkt hf
    have ih := runExtends_sized np rest h.1
    exact ⟨ih.1, h.2.trans ih.2⟩

end Scioncc
