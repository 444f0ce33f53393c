import Scioncc.Gateway.Request

/-!
# `create_ion_object` and `set_object_field`

A parameter of an RPC that `is_ion_object_dict` accepts is built by `create_ion_object`: an object
of the dict's `type_` with its schema's defaults, into which every member of the dict is walked
by `set_object_field`. A value that is not a dict, and any value under `kwargs`, becomes the
attribute. A dict for an attribute that holds an `IonObject` is walked into that object, which is
first replaced by a new object of the dict's `type_` when that names another type: a subtype of the
attribute's type, or `Inconsistent` is raised. A dict for a `dict` attribute replaces it. A dict for
any other value is walked into that value, where CPython sets no attribute: that walk raises
`AttributeError` or changes nothing.

pyon's object registry is a parameter (`IonObject(t)`, `issubtype`, `_validate`), with `str()` of a
JSON value and the outcome of walking a dict into a builtin value, which depends on CPython's
attribute tables. `json_loads` builds Python dicts, in which a key given twice keeps the place of
its first occurrence and its last value (`Json.toPy`); the walk iterates those dicts. When the walk
raises, the object it was filling is dropped with the exception, so the model returns only the
exception.

What the walk is for (`createIonObject_holds_payload`): the object it returns is of the type the
payload names and holds the payload, every plain value at every depth as the attribute of its name,
and every nested object of the type its dict names. Over the gateway's routes
(`rpc_ion_objects_hold_payload`), every `IonObject` an RPC receives is such an object, built from the
entry of its name in the POST payload's `params`.
-/

namespace Scioncc.Gateway

open Scioncc.Core

/-- An attribute value of an `IonObject`: a nested `IonObject`, or another value as its JSON. The
walk never looks into a list. -/
inductive PyVal
  | ion (type_ : String) (attrs : List (String × PyVal))
  | plain (v : Json)

/-- `d[k] = v` and `setattr(obj, k, v)`: a key keeps its place, a new one goes last. -/
def assign {β : Type} : List (String × β) → String → β → List (String × β)
  | [], k, v => [(k, v)]
  | (k', x) :: rest, k, v => if k' = k then (k, v) :: rest else (k', x) :: assign rest k v

def getAttr (t : String) (attrs : List (String × PyVal)) (name : String) : Option PyVal :=
  if name = "type_" then some (.plain (.str t)) else attrs.lookup name

def Json.isDict : Json → Bool
  | .object _ => true
  | _ => false

mutual
/-- The Python value `json_loads` builds from parsed JSON. -/
def Json.toPy : Json → Json
  | .array xs => .array (Json.toPyList xs)
  | .object kvs => .object (Json.toPyDict [] kvs)
  | j => j

def Json.toPyList : List Json → List Json
  | [] => []
  | x :: xs => x.toPy :: Json.toPyList xs

def Json.toPyDict (d : List (String × Json)) : List (String × Json) → List (String × Json)
  | [] => d
  | (k, v) :: rest => Json.toPyDict (assign d k v.toPy) rest
end

mutual
/-- Every dict in the value, through the dicts that hold it, has each key once. -/
def Json.WellKeyed : Json → Prop
  | .object kvs => (kvs.map Prod.fst).Nodup ∧ Json.WellKeyedMembers kvs
  | _ => True

def Json.WellKeyedMembers : List (String × Json) → Prop
  | [] => True
  | (_, v) :: rest => v.WellKeyed ∧ Json.WellKeyedMembers rest
end

/-- What the walk consults outside the repository; `IonObject(t)` accepts only a type name. -/
structure Registry where
  ionObject : Json → Except Raised (String × List (String × PyVal))
  ionObject_str : ∀ x t attrs, ionObject x = .ok (t, attrs) → x = .str t
  issubtype : Json → String → Bool
  validate : String → List (String × PyVal) → Except Raised Unit
  pyStr : Json → String
  walkPlain : Json → List (String × Json) → Option Raised

section Walk

variable (r : Registry)

/-- The object a dict is walked into when the attribute holds an `IonObject` of type `t`. -/
def walkTarget (field t : String) (attrs : List (String × PyVal)) (fieldVal : Json) :
    Except Raised (String × List (String × PyVal)) :=
  match fieldVal.getItem "type_" with
  | .ok x =>
    if x.eqStr t then .ok (t, attrs)
    else if r.issubtype x t then r.ionObject x
    else .error (.ion .inconsistent ("Unable to walk the field " ++ field ++
      " as an IonObject since the types don't match: " ++ t ++ " " ++ r.pyStr x))
  | .error _ => .ok (t, attrs)

mutual
def setObjectField (t : String) (attrs : List (String × PyVal)) (field : String) :
    Json → Except Raised (List (String × PyVal))
  | .object kvs =>
    if field = "kwargs" then .ok (assign attrs field (.plain (.object kvs)))
    else
      match getAttr t attrs field with
      | none => .error (.builtin "AttributeError" none)
      | some (.ion t₀ sub) => do
        let (t₁, sub₁) ← walkTarget r field t₀ sub (.object kvs)
        let sub₂ ← setObjectFields t₁ sub₁ kvs
        .ok (assign attrs field (.ion t₁ sub₂))
      | some (.plain w) =>
        if w.isDict then .ok (assign attrs field (.plain (.object kvs)))
        else
          match r.walkPlain w kvs with
          | none => .ok attrs
          | some e => .error e
  | v => if field = "type_" then .ok attrs else .ok (assign attrs field (.plain v))

def setObjectFields (t : String) (attrs : List (String × PyVal)) :
    List (String × Json) → Except Raised (List (String × PyVal))
  | [] => .ok attrs
  | (k, v) :: rest => do
    let attrs' ← setObjectField t attrs k v
    setObjectFields t attrs' rest
end

/-- `create_ion_object(object_params)`; indexing a value that is not a dict raises `TypeError`. -/
def createIonObject (objectParams : Json) : Except Raised PyVal :=
  match objectParams.toPy with
  | .object kvs => do
    let (t, attrs) ← r.ionObject (← (Json.object kvs).getItem "type_")
    let attrs' ← setObjectFields r t attrs kvs
    r.validate t attrs'
    .ok (.ion t attrs')
  | _ => .error (.builtin "TypeError" none)

end Walk

/-! ### Attributes and dicts -/

section Assign

variable {β : Type}

@[simp]
theorem lookup_assign_self (d : List (String × β)) (k : String) (v : β) :
    (assign d k v).lookup k = some v := by
  induction d with
  | nil => simp [assign]
  | cons kx rest ih =>
    obtain ⟨k', x⟩ := kx
    by_cases h : k' = k
    · simp [assign, h]
    · simp only [assign, h, if_false, List.lookup_cons, beq_false_of_ne (Ne.symm h), ih]

theorem lookup_assign_ne (d : List (String × β)) {k k' : String} (v : β) (h : k' ≠ k) :
    (assign d k v).lookup k' = d.lookup k' := by
  induction d with
  | nil => simp only [assign, List.lookup_cons, beq_false_of_ne h, List.lookup_nil]
  | cons kx rest ih =>
    obtain ⟨k'', x⟩ := kx
    by_cases hk : k'' = k
    · subst hk
      simp only [assign, if_true, List.lookup_cons, beq_false_of_ne h]
    · simp only [assign, hk, if_false, List.lookup_cons, ih]

theorem mem_assign {d : List (String × β)} {k : String} {v : β} {m : String × β}
    (hm : m ∈ assign d k v) : m ∈ d ∨ m = (k, v) := by
  induction d with
  | nil => simpa [assign] using hm
  | cons kx rest ih =>
    obtain ⟨k', x⟩ := kx
    simp only [assign] at hm
    split_ifs at hm
    · rcases List.mem_cons.mp hm with rfl | hm
      · exact .inr rfl
      · exact .inl (List.mem_cons_of_mem _ hm)
    · rcases List.mem_cons.mp hm with rfl | hm
      · exact .inl (List.mem_cons_self _ _)
      · exact (ih hm).imp_left (List.mem_cons_of_mem _)

theorem nodup_keys_assign {d : List (String × β)} (k : String) (v : β)
    (h : (d.map Prod.fst).Nodup) : ((assign d k v).map Prod.fst).Nodup := by
  induction d with
  | nil => simp [assign]
  | cons kx rest ih =>
    obtain ⟨k', x⟩ := kx
    simp only [List.map_cons, List.nodup_cons] at h
    by_cases hk : k' = k
    · subst hk
      simpa [assign] using h
    · simp only [assign, hk, if_false, List.map_cons, List.nodup_cons]
      refine ⟨fun hmem => ?_, ih h.2⟩
      obtain ⟨m, hm, hm1⟩ := List.mem_map.mp hmem
      rcases mem_assign hm with hm | rfl
      · exact h.1 (hm1 ▸ List.mem_map_of_mem _ hm)
      · exact hk hm1.symm

theorem assign_of_lookup {d : List (String × β)} {k : String} {v : β} (h : d.lookup k = some v) :
    assign d k v = d := by
  induction d with
  | nil => cases h
  | cons kx rest ih =>
    obtain ⟨k', x⟩ := kx
    by_cases hk : k' = k
    · subst hk
      simp only [List.lookup_cons_self, Option.some.injEq] at h
      simp [assign, h]
    · rw [List.lookup_cons, beq_false_of_ne (Ne.symm hk)] at h
      simp only [assign, hk, if_false, ih h]

end Assign

theorem getAttr_assign_self (t : String) (attrs : List (String × PyVal)) {field : String} (v : PyVal)
    (h : field ≠ "type_") : getAttr t (assign attrs field v) field = some v := by
  simp [getAttr, h]

theorem getAttr_assign_ne (t : String) (attrs : List (String × PyVal)) {field k : String} (v : PyVal)
    (h : k ≠ field) : getAttr t (assign attrs field v) k = getAttr t attrs k := by
  unfold getAttr
  split <;> simp [lookup_assign_ne _ _ h]

theorem assign_of_getAttr {t : String} {attrs : List (String × PyVal)} {field : String} {x : PyVal}
    (hf : field ≠ "type_") (h : getAttr t attrs field = some x) : assign attrs field x = attrs :=
  assign_of_lookup (by simpa [getAttr, hf] using h)

theorem wellKeyedMembers_iff {kvs : List (String × Json)} :
    Json.WellKeyedMembers kvs ↔ ∀ m ∈ kvs, m.2.WellKeyed := by
  induction kvs with
  | nil => simp [Json.WellKeyedMembers]
  | cons kv rest ih => simp [Json.WellKeyedMembers, ih]

mutual
theorem Json.wellKeyed_toPy : ∀ j : Json, j.toPy.WellKeyed
  | .object kvs => by
    obtain ⟨hnd, hwk⟩ := Json.wellKeyed_toPyDict kvs [] List.nodup_nil (by simp)
    exact ⟨hnd, wellKeyedMembers_iff.mpr hwk⟩
  | .null | .bool _ | .num _ | .str _ | .array _ => trivial

theorem Json.wellKeyed_toPyDict : ∀ (kvs d : List (String × Json)), (d.map Prod.fst).Nodup →
    (∀ m ∈ d, m.2.WellKeyed) →
    ((Json.toPyDict d kvs).map Prod.fst).Nodup ∧ ∀ m ∈ Json.toPyDict d kvs, m.2.WellKeyed
  | [], _, hnd, hwk => ⟨hnd, hwk⟩
  | (k, v) :: rest, d, hnd, hwk =>
    Json.wellKeyed_toPyDict rest (assign d k v.toPy) (nodup_keys_assign k _ hnd) fun m hm =>
      (mem_assign hm).elim (hwk m) fun he => he ▸ Json.wellKeyed_toPy v
end

/-! ### What the walk leaves -/

mutual
/-- The attribute `field` holds `v` as the walk puts it there: a plain value as itself, a dict for
a nested object in an object of the type it names, a dict for a `dict` attribute as itself. -/
def HoldsField (t : String) (attrs : List (String × PyVal)) (field : String) : Json → Prop
  | .object kvs =>
    if field = "kwargs" then getAttr t attrs field = some (.plain (.object kvs))
    else
      match getAttr t attrs field with
      | some (.ion t' sub) =>
        (∀ x, (Json.object kvs).getItem "type_" = .ok x → x = .str t') ∧ HoldsFields t' sub kvs
      | some (.plain w) => ∀ kvs', w = .object kvs' → kvs' = kvs
      | none => False
  | v => field = "type_" ∨ getAttr t attrs field = some (.plain v)

def HoldsFields (t : String) (attrs : List (String × PyVal)) : List (String × Json) → Prop
  | [] => True
  | (k, v) :: rest => HoldsField t attrs k v ∧ HoldsFields t attrs rest
end

theorem holdsField_congr {t : String} {attrs attrs' : List (String × PyVal)} {field : String}
    (v : Json) (h : getAttr t attrs field = getAttr t attrs' field) :
    HoldsField t attrs field v ↔ HoldsField t attrs' field v := by
  cases v <;> simp only [HoldsField, h]

section WalkSpec

variable (r : Registry)

theorem walkTarget_type {field t : String} {attrs : List (String × PyVal)} {fieldVal : Json}
    {t' : String} {attrs' : List (String × PyVal)}
    (h : walkTarget r field t attrs fieldVal = .ok (t', attrs')) :
    ∀ x, fieldVal.getItem "type_" = .ok x → x = .str t' := by
  intro x hx
  simp only [walkTarget, hx] at h
  split_ifs at h with heq
  · cases h
    exact Json.eqStr_iff.mp heq
  · exact r.ionObject_str x t' attrs' h

theorem field_ne_type_of_isDict {t : String} {attrs : List (String × PyVal)} {field : String}
    {w : Json} (hget : getAttr t attrs field = some (.plain w)) (hd : w.isDict) :
    field ≠ "type_" := by
  rintro rfl
  simp only [getAttr, if_true, Option.some.injEq, PyVal.plain.injEq] at hget
  subst hget
  simp [Json.isDict] at hd

theorem field_ne_type_of_ion {t t₀ : String} {attrs sub : List (String × PyVal)} {field : String}
    (hget : getAttr t attrs field = some (.ion t₀ sub)) : field ≠ "type_" := by
  rintro rfl
  simp [getAttr] at hget

theorem setObjectField_of_not_dict {t : String} {attrs : List (String × PyVal)} {field : String}
    {v : Json} (hv : v.isDict = false) :
    setObjectField r t attrs field v =
      if field = "type_" then .ok attrs else .ok (assign attrs field (.plain v)) := by
  cases v <;> first | rfl | cases hv

theorem holdsField_of_not_dict {t : String} {attrs : List (String × PyVal)} {field : String}
    {v : Json} (hv : v.isDict = false) :
    HoldsField t attrs field v ↔ field = "type_" ∨ getAttr t attrs field = some (.plain v) := by
  cases v <;> first | rfl | cases hv

theorem setObjectField_dict_ok {t : String} {attrs attrs' : List (String × PyVal)} {field : String}
    {kvs : List (String × Json)} (h : setObjectField r t attrs field (.object kvs) = .ok attrs') :
    field = "kwargs" ∧ attrs' = assign attrs field (.plain (.object kvs)) ∨
      field ≠ "kwargs" ∧
        ((∃ t₀ sub t₁ sub₁ sub₂, getAttr t attrs field = some (.ion t₀ sub) ∧
            walkTarget r field t₀ sub (.object kvs) = .ok (t₁, sub₁) ∧
            setObjectFields r t₁ sub₁ kvs = .ok sub₂ ∧ attrs' = assign attrs field (.ion t₁ sub₂)) ∨
          (∃ w, getAttr t attrs field = some (.plain w) ∧ w.isDict = true ∧
            attrs' = assign attrs field (.plain (.object kvs))) ∨
          (∃ w, getAttr t attrs field = some (.plain w) ∧ w.isDict = false ∧
            r.walkPlain w kvs = none ∧ attrs' = attrs)) := by
  simp only [setObjectField] at h
  split_ifs at h with hkw
  · exact .inl ⟨hkw, (Except.ok.inj h).symm⟩
  refine .inr ⟨hkw, ?_⟩
  split at h
  · cases h
  · rename_i t₀ sub hget
    obtain ⟨⟨t₁, sub₁⟩, htarget, h⟩ := bind_eq_ok.mp h
    obtain ⟨sub₂, hsub, h⟩ := bind_eq_ok.mp h
    exact .inl ⟨t₀, sub, t₁, sub₁, sub₂, hget, htarget, hsub, (Except.ok.inj h).symm⟩
  · rename_i w hget
    split_ifs at h with hd
    · exact .inr (.inl ⟨w, hget, hd, (Except.ok.inj h).symm⟩)
    · split at h
      · rename_i hwalk
        exact .inr (.inr ⟨w, hget, by simpa using hd, hwalk, (Except.ok.inj h).symm⟩)
      · cases h

/-- The walk of one member changes the attribute of its name and no other. -/
theorem setObjectField_cases {t : String} {attrs attrs' : List (String × PyVal)} {field : String}
    {v : Json} (h : setObjectField r t attrs field v = .ok attrs') :
    attrs' = attrs ∨ ∃ x, attrs' = assign attrs field x := by
  cases hv : v.isDict
  · rw [setObjectField_of_not_dict r hv] at h
    split_ifs at h
    · exact .inl (Except.ok.inj h).symm
    · exact .inr ⟨_, (Except.ok.inj h).symm⟩
  · obtain ⟨kvs, rfl⟩ : ∃ kvs, v = .object kvs := by
      cases v <;> first | exact ⟨_, rfl⟩ | cases hv
    rcases setObjectField_dict_ok r h with
      ⟨-, rfl⟩ | ⟨-, ⟨_, _, _, _, _, -, -, -, rfl⟩ | ⟨_, -, -, rfl⟩ | ⟨_, -, -, -, rfl⟩⟩
    all_goals first | exact .inl rfl | exact .inr ⟨_, rfl⟩

theorem setObjectFields_frame {t : String} {kvs : List (String × Json)} :
    ∀ {attrs attrs' : List (String × PyVal)}, setObjectFields r t attrs kvs = .ok attrs' →
      ∀ {k}, k ∉ kvs.map Prod.fst → getAttr t attrs' k = getAttr t attrs k := by
  induction kvs with
  | nil => intro attrs attrs' h k _; cases h; rfl
  | cons kv rest ih =>
    intro attrs attrs' h k hk
    obtain ⟨k', v⟩ := kv
    simp only [List.map_cons, List.mem_cons, not_or] at hk
    obtain ⟨attrs₁, h₁, h⟩ := bind_eq_ok.mp h
    rw [ih h hk.2]
    rcases setObjectField_cases r h₁ with rfl | ⟨x, rfl⟩
    · rfl
    · exact getAttr_assign_ne t attrs x hk.1

theorem setObjectField_holds_of_not_dict {t : String} {attrs attrs' : List (String × PyVal)}
    {field : String} {v : Json} (hv : v.isDict = false)
    (h : setObjectField r t attrs field v = .ok attrs') : HoldsField t attrs' field v := by
  rw [setObjectField_of_not_dict r hv] at h
  rw [holdsField_of_not_dict hv]
  split_ifs at h with hf
  · exact .inl hf
  · cases h
    exact .inr (getAttr_assign_self t attrs _ hf)

mutual
theorem setObjectField_holds (t : String) (attrs : List (String × PyVal)) (field : String) :
    ∀ (v : Json) {attrs' : List (String × PyVal)}, v.WellKeyed →
      setObjectField r t attrs field v = .ok attrs' → HoldsField t attrs' field v
  | .object kvs, attrs', hwk, h => by
    obtain ⟨hnd, hmem⟩ : (kvs.map Prod.fst).Nodup ∧ Json.WellKeyedMembers kvs := hwk
    simp only [HoldsField]
    rcases setObjectField_dict_ok r h with ⟨hkw, rfl⟩ | ⟨hkw, hcases⟩
    · rw [if_pos hkw]
      exact getAttr_assign_self t attrs _ (by rw [hkw]; decide)
    rw [if_neg hkw]
    rcases hcases with ⟨t₀, sub, t₁, sub₁, sub₂, hget, htarget, hsub, rfl⟩ | ⟨w, hget, hd, rfl⟩ |
      ⟨w, hget, hd, -, rfl⟩
    · rw [getAttr_assign_self t attrs _ (field_ne_type_of_ion hget)]
      exact ⟨walkTarget_type r htarget, setObjectFields_holds t₁ sub₁ kvs hnd hmem hsub⟩
    · rw [getAttr_assign_self t attrs _ (field_ne_type_of_isDict hget hd)]
      exact fun kvs' he => (Json.object.inj he).symm
    · rw [hget]
      rintro kvs' rfl
      cases hd
  | .null, _, _, h | .bool _, _, _, h | .num _, _, _, h | .str _, _, _, h | .array _, _, _, h =>
    setObjectField_holds_of_not_dict r (by rfl) h

theorem setObjectFields_holds (t : String) :
    ∀ (attrs : List (String × PyVal)) (kvs : List (String × Json)) {attrs' : List (String × PyVal)},
      (kvs.map Prod.fst).Nodup → Json.WellKeyedMembers kvs →
      setObjectFields r t attrs kvs = .ok attrs' → HoldsFields t attrs' kvs
  | _, [], _, _, _, _ => trivial
  | attrs, (k, v) :: rest, attrs', hnd, hwk, h => by
    obtain ⟨attrs₁, h₁, h⟩ := bind_eq_ok.mp h
    simp only [List.map_cons, List.nodup_cons] at hnd
    obtain ⟨hv, hwk⟩ : v.WellKeyed ∧ Json.WellKeyedMembers rest := hwk
    refine ⟨?_, setObjectFields_holds t attrs₁ rest hnd.2 hwk h⟩
    exact (holdsField_congr v (setObjectFields_frame r h hnd.1)).mpr
      (setObjectField_holds t attrs k v hv h₁)
end

/-- What `create_ion_object` did when it returns. -/
theorem createIonObject_ok {objectParams : Json} {o : PyVal}
    (h : createIonObject r objectParams = .ok o) :
    ∃ kvs t attrs₀ attrs, objectParams.toPy = .object kvs ∧
      (Json.object kvs).getItem "type_" = .ok (.str t) ∧ r.ionObject (.str t) = .ok (t, attrs₀) ∧
      setObjectFields r t attrs₀ kvs = .ok attrs ∧ r.validate t attrs = .ok () ∧ o = .ion t attrs := by
  unfold createIonObject at h
  split at h
  · rename_i kvs hkvs
    obtain ⟨x, hx, h⟩ := bind_eq_ok.mp h
    obtain ⟨⟨t, attrs₀⟩, hobj, h⟩ := bind_eq_ok.mp h
    obtain ⟨attrs, hwalk, h⟩ := bind_eq_ok.mp h
    obtain ⟨⟨⟩, hvalid, h⟩ := bind_eq_ok.mp h
    cases h
    obtain rfl := r.ionObject_str x t attrs₀ hobj
    exact ⟨kvs, t, attrs₀, attrs, hkvs, hx, hobj, hwalk, hvalid, rfl⟩
  · cases h

theorem holdsFields_of_toPy {objectParams : Json} {kvs : List (String × Json)} {t : String}
    {attrs₀ attrs : List (String × PyVal)} (hkvs : objectParams.toPy = .object kvs)
    (hwalk : setObjectFields r t attrs₀ kvs = .ok attrs) : HoldsFields t attrs kvs := by
  have hwk := Json.wellKeyed_toPy objectParams
  rw [hkvs] at hwk
  exact setObjectFields_holds r t attrs₀ kvs hwk.1 hwk.2 hwalk

/-- The object `create_ion_object` returns is of the type the payload names and holds the payload
at every depth. -/
theorem createIonObject_holds_payload (objectParams : Json) (o : PyVal)
    (h : createIonObject r objectParams = .ok o) :
    ∃ t attrs kvs, o = .ion t attrs ∧ objectParams.toPy = .object kvs ∧
      (Json.object kvs).getItem "type_" = .ok (.str t) ∧ HoldsFields t attrs kvs := by
  obtain ⟨kvs, t, _, attrs, hkvs, hx, -, hwalk, -, rfl⟩ := createIonObject_ok r h
  exact ⟨t, attrs, kvs, rfl, hkvs, hx, holdsFields_of_toPy r hkvs hwalk⟩

/-! ### Walking the payload again -/

theorem walkTarget_retarget {field t₀ t₁ : String} {sub sub₁ : List (String × PyVal)} {v : Json}
    (h : walkTarget r field t₀ sub v = .ok (t₁, sub₁)) (sub' : List (String × PyVal)) :
    walkTarget r field t₁ sub' v = .ok (t₁, sub') := by
  have htype := walkTarget_type r h
  unfold walkTarget
  split
  · rename_i x hx
    rw [htype x hx]
    simp [Json.eqStr]
  · rfl

mutual
theorem setObjectField_fixed (t : String) (attrs : List (String × PyVal)) (field : String) :
    ∀ (v : Json) {attrs' : List (String × PyVal)}, v.WellKeyed →
      setObjectField r t attrs field v = .ok attrs' →
      ∀ B, getAttr t B field = getAttr t attrs' field → setObjectField r t B field v = .ok B
  | .object kvs, attrs', hwk, h, B, hB => by
    obtain ⟨hnd, hmem⟩ : (kvs.map Prod.fst).Nodup ∧ Json.WellKeyedMembers kvs := hwk
    rcases setObjectField_dict_ok r h with ⟨hkw, rfl⟩ | ⟨hkw, hcases⟩
    · have hf : field ≠ "type_" := by rw [hkw]; decide
      simp only [setObjectField, if_pos hkw]
      rw [assign_of_getAttr hf (hB.trans (getAttr_assign_self t attrs _ hf))]
    simp only [setObjectField, if_neg hkw]
    rcases hcases with ⟨t₀, sub, t₁, sub₁, sub₂, hget, htarget, hsub, rfl⟩ | ⟨w, hget, hd, rfl⟩ |
      ⟨w, hget, hd, hwalk, rfl⟩
    · have hf := field_ne_type_of_ion hget
      have hB' := hB.trans (getAttr_assign_self t attrs _ hf)
      rw [hB']
      simp only [walkTarget_retarget r htarget, ok_bind,
        setObjectFields_fixed t₁ sub₁ kvs hnd hmem hsub, assign_of_getAttr hf hB']
    · have hf := field_ne_type_of_isDict hget hd
      have hB' := hB.trans (getAttr_assign_self t attrs _ hf)
      rw [hB', assign_of_getAttr hf hB']
      rfl
    · rw [hB.trans hget]
      simp only [hd, hwalk]
      rfl
  | .null, _, _, h, B, hB | .bool _, _, _, h, B, hB | .num _, _, _, h, B, hB
  | .str _, _, _, h, B, hB | .array _, _, _, h, B, hB => by
    rw [setObjectField_of_not_dict r (by rfl)] at h ⊢
    split_ifs at h ⊢ with hf
    · rfl
    · cases h
      rw [assign_of_getAttr hf (hB.trans (getAttr_assign_self t attrs _ hf))]

/-- Walking a dict again into the object the first walk left changes nothing. -/
theorem setObjectFields_fixed (t : String) :
    ∀ (attrs : List (String × PyVal)) (kvs : List (String × Json)) {attrs' : List (String × PyVal)},
      (kvs.map Prod.fst).Nodup → Json.WellKeyedMembers kvs →
      setObjectFields r t attrs kvs = .ok attrs' → setObjectFields r t attrs' kvs = .ok attrs'
  | _, [], _, _, _, _ => rfl
  | attrs, (k, v) :: rest, attrs', hnd, hwk, h => by
    obtain ⟨attrs₁, h₁, h⟩ := bind_eq_ok.mp h
    simp only [List.map_cons, List.nodup_cons] at hnd
    obtain ⟨hv, hwk⟩ : v.WellKeyed ∧ Json.WellKeyedMembers rest := hwk
    have hk := setObjectField_fixed t attrs k v hv h₁ attrs' (setObjectFields_frame r h hnd.1)
    simp only [setObjectFields, hk, ok_bind]
    exact setObjectFields_fixed t attrs₁ rest hnd.2 hwk h
end

/-- `create_ion_object` fills its object in one walk: a second walk changes nothing. -/
theorem createIonObject_walk_idempotent (objectParams : Json) (t : String)
    (attrs : List (String × PyVal)) (h : createIonObject r objectParams = .ok (.ion t attrs)) :
    ∃ kvs, objectParams.toPy = .object kvs ∧ setObjectFields r t attrs kvs = .ok attrs := by
  obtain ⟨kvs, _, attrs₀, _, hkvs, -, -, hwalk, -, ho⟩ := createIonObject_ok r h
  cases ho
  have hwk := Json.wellKeyed_toPy objectParams
  rw [hkvs] at hwk
  exact ⟨kvs, hkvs, setObjectFields_fixed r t attrs₀ kvs hwk.1 hwk.2 hwalk⟩

end WalkSpec

/-! ### The objects an RPC receives -/

/-- Every `IonObject` an RPC of either route receives holds the payload entry it came from. -/
theorem rpc_ion_objects_hold_payload {H V : Type} (p : Platform PyVal H V) (r : Registry)
    (hp : p.createIonObject = createIonObject r) (rq : Request) (d : Dispatch PyVal H)
    (hd : (∃ serviceName operation, prepareServiceCall p serviceName operation rq = .ok d) ∨
      ∃ resourceId operation, prepareAgentCall p resourceId operation rq = .ok d)
    (k : String) (o : PyVal) (hk : d.params.lookup k = some (.ionObject o)) :
    ∃ requestType j rqj params v, readPayload p rq.form = .ok j ∧
      j.getItem requestType = .ok rqj ∧ rqj.getItem "params" = .ok params ∧
      params.getItem k = .ok v ∧ ∃ t attrs kvs, o = .ion t attrs ∧ v.toPy = .object kvs ∧
        (Json.object kvs).getItem "type_" = .ok (.str t) ∧ HoldsFields t attrs kvs := by
  obtain ⟨requestType, j, rqj, params, v, hj, hrq, hparams, hv, ho⟩ :=
    rpc_ionObject_from_payload hd hk
  rw [hp] at ho
  obtain ⟨kvs, t, _, attrs, hkvs, hx, -, hwalk, -, rfl⟩ := createIonObject_ok r ho
  exact ⟨requestType, j, rqj, params, v, hj, hrq, hparams, hv, t, attrs, kvs, rfl, hkvs, hx,
    holdsFields_of_toPy r hkvs hwalk⟩

/-! ### A registry -/

/-- The schema defaults of `BankAccount`, `ActorIdentity` and its subtype `UserIdentity`. -/
def bankDefaults : String → Option (List (String × PyVal))
  | "BankAccount" =>
    some [("name", .plain (.str "")), ("owner", .ion "ActorIdentity" [("name", .plain (.str ""))])]
  | "ActorIdentity" => some [("name", .plain (.str ""))]
  | "UserIdentity" => some [("name", .plain (.str "")), ("contact", .plain (.object []))]
  | _ => none

def bankIonObject : Json → Except Raised (String × List (String × PyVal))
  | .str t =>
    match bankDefaults t with
    | some attrs => .ok (t, attrs)
    | none => .error (.ion .badRequest t)
  | _ => .error (.builtin "TypeError" none)

theorem bankIonObject_str (x : Json) (t : String) (attrs : List (String × PyVal))
    (h : bankIonObject x = .ok (t, attrs)) : x = .str t := by
  cases x with
  | str s =>
    simp only [bankIonObject] at h
    split at h
    · cases h
      rfl
    · cases h
  | _ => cases h

def bankRegistry : Registry where
  ionObject := bankIonObject
  ionObject_str := bankIonObject_str
  issubtype x t := x.eqStr "UserIdentity" && t == "ActorIdentity"
  validate _ _ := .ok ()
  pyStr
    | .str s => s
    | _ => ""
  walkPlain _ kvs := if kvs.all (·.1 == "type_") then none else some (.builtin "AttributeError" none)

/-- A payload for a `BankAccount` whose owner is a `UserIdentity`. -/
def bankPayload : Json :=
  .object [("type_", .str "BankAccount"), ("name", .str "savings"),
    ("owner", .object [("type_", .str "UserIdentity"), ("name", .str "alice")])]

theorem createIonObject_holds_payload_bankPayload :
    createIonObject bankRegistry bankPayload =
        .ok (.ion "BankAccount" [("name", .plain (.str "savings")),
          ("owner", .ion "UserIdentity" [("name", .plain (.str "alice")), ("contact", .plain (.object []))])]) ∧
      ∃ t attrs kvs, PyVal.ion "BankAccount" [("name", .plain (.str "savings")),
          ("owner", .ion "UserIdentity" [("name", .plain (.str "alice")), ("contact", .plain (.object []))])] =
          .ion t attrs ∧ bankPayload.toPy = .object kvs ∧
        (Json.object kvs).getItem "type_" = .ok (.str t) ∧ HoldsFields t attrs kvs :=
  ⟨rfl, createIonObject_holds_payload bankRegistry bankPayload _ rfl⟩

theorem createIonObject_walk_idempotent_bankPayload :
    createIonObject bankRegistry bankPayload =
        .ok (.ion "BankAccount" [("name", .plain (.str "savings")),
          ("owner", .ion "UserIdentity" [("name", .plain (.str "alice")), ("contact", .plain (.object []))])]) ∧
      ∃ kvs, bankPayload.toPy = .object kvs ∧
        setObjectFields bankRegistry "BankAccount" [("name", .plain (.str "savings")),
          ("owner", .ion "UserIdentity" [("name", .plain (.str "alice")), ("contact", .plain (.object []))])] kvs =
          .ok [("name", .plain (.str "savings")),
            ("owner", .ion "UserIdentity" [("name", .plain (.str "alice")), ("contact", .plain (.object []))])] :=
  ⟨rfl, createIonObject_walk_idempotent bankRegistry bankPayload _ _ rfl⟩

def createSpec : ArgSpec :=
  ⟨["self", "object"], none, by decide⟩

def bankPlatform : Platform PyVal (List String) Json where
  getServiceByName name :=
    if name = "resource_registry" then
      some ⟨"resource_registry", some fun op => if op = "create" then some createSpec else none⟩
    else none
  jsonLoads _ := some (.object [("serviceRequest", .object [("serviceName", .str "resource_registry"),
    ("serviceOp", .str "create"), ("params", .object [("object", bankPayload)])])])
  literalEval _ := .error (.builtin "ValueError" none)
  isIonObjectDict
    | .object kvs => (kvs.lookup "type_").isSome
    | _ => false
  createIonObject := createIonObject bankRegistry
  pyStr _ := ""
  pyInt _ := none
  checkAuthenticationToken _ := none
  readActorIdentity _ := .error (.ion .notFound "")
  currentTimeMillis := 1000
  defaultActorId := "anonymous"
  roleHeader _ := ["ION_MANAGER"]
  noRoles := []
  callService _ := .ok .null
  resourceAgentClient _ := .ok ()
  agentArgspec _ := none
  callAgent _ := .ok .null

/-- `POST /ion-service/resource_registry/create` with a payload. -/
def bankRequest : Request :=
  ⟨.post, [], [("payload", "serviceRequest")], none⟩

def bankAccount : PyVal :=
  .ion "BankAccount" [("name", .plain (.str "savings")),
    ("owner", .ion "UserIdentity" [("name", .plain (.str "alice")), ("contact", .plain (.object []))])]

theorem rpc_ion_objects_hold_payload_createAccount :
    ∃ d, prepareServiceCall bankPlatform "resource_registry" "create" bankRequest = .ok d ∧
      d.params.lookup "object" = some (.ionObject bankAccount) ∧
      ∃ requestType j rqj params v, readPayload bankPlatform bankRequest.form = .ok j ∧
        j.getItem requestType = .ok rqj ∧ rqj.getItem "params" = .ok params ∧
        params.getItem "object" = .ok v ∧ ∃ t attrs kvs, bankAccount = .ion t attrs ∧
          v.toPy = .object kvs ∧ (Json.object kvs).getItem "type_" = .ok (.str t) ∧
          HoldsFields t attrs kvs :=
  ⟨_, rfl, rfl, rpc_ion_objects_hold_payload bankPlatform bankRegistry rfl bankRequest _
    (.inl ⟨"resource_registry", "create", rfl⟩) "object" _ rfl⟩

/-- An owner that is not an `ActorIdentity` is refused. -/
example :
    createIonObject bankRegistry
        (.object [("type_", .str "BankAccount"), ("owner", .object [("type_", .str "BankAccount")])]) =
      .error (.ion .inconsistent
        "Unable to walk the field owner as an IonObject since the types don't match: ActorIdentity BankAccount") :=
  rfl

end Scioncc.Gateway
