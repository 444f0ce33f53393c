import Scioncc.Core.Exception
import Mathlib.Data.List.AList

/-!
# Request values and `create_parameter_list`

The gateway turns an HTTP request into the keyword arguments of an RPC. For a request without a JSON
payload, each argument of the operation's client method other than `self` that the query string
names is passed as the query's string when the method's default at `arg_index - 1` is a `str`, and as
the literal `ast.literal_eval` reads from the string otherwise; the query arguments left over go in
`optional_args` when the method takes it. For a request with a payload the arguments come from the
payload's `params`, and every query argument is left over. Python 2's `str(u)` on a query value
raises `UnicodeEncodeError` past ASCII, on the literal branch and in `optional_args`.

A Python method's defaults belong to its last arguments, while the loop reads the default at
`arg_index - 1`. The two agree when every argument after `self` has a default, as in the generated
clients. Otherwise the loop tests another argument's default, and an argument whose position is past
the defaults raises.

JSON values are modelled without floats. `ast.literal_eval`, `is_ion_object_dict` and
`create_ion_object`, which builds pyon `IonObject`s, are parameters.
-/

namespace Scioncc.Gateway

open Scioncc.Core

inductive Json
  | null
  | bool (b : Bool)
  | num (n : Int)
  | str (s : String)
  | array (xs : List Json)
  | object (kvs : List (String × Json))

/-- An exception: a `pyon.core.exception` class with its message, or a builtin one by name, with
its message where the repository decides it. -/
inductive Raised
  | ion (cls : ExceptionClass) (message : String)
  | builtin (name : String) (message : Option String)

namespace Json

def truthy : Json → Bool
  | null => false
  | bool b => b
  | num n => n != 0
  | str s => !s.isEmpty
  | array xs => !xs.isEmpty
  | object kvs => !kvs.isEmpty

def eqStr : Json → String → Bool
  | str t, s => t == s
  | _, _ => false

def isStr : Json → Bool
  | str _ => true
  | _ => false

/-- `k in v`: a key of a dict, an element of a list, a substring of a string. -/
def contains (v : Json) (k : String) : Except Raised Bool :=
  match v with
  | object kvs => .ok (kvs.any fun kv => kv.1 == k)
  | array xs => .ok (xs.any fun x => x.eqStr k)
  | str s => .ok (decide (k.toList <:+: s.toList))
  | _ => .error (.builtin "TypeError" none)

/-- `v[k]`: only a dict can be indexed by a string; `json_loads` keeps a key's last occurrence. -/
def getItem (v : Json) (k : String) : Except Raised Json :=
  match v with
  | object kvs =>
    match kvs.reverse.lookup k with
    | some x => .ok x
    | none => .error (.builtin "KeyError" (some k))
  | _ => .error (.builtin "TypeError" none)

end Json

structure Headers (H : Type) where
  actorId : Json
  expiry : Json
  roles : H

inductive Param (O H : Type)
  | value (v : Json)
  | ionObject (o : O)
  | optionalArgs (args : AList fun _ : String => String)
  | headers (h : Headers H)

abbrev OptionalArgs := AList fun _ : String => String

abbrev ParamList (O H : Type) := AList fun _ : String => Param O H

/-- `inspect.getargspec` of a method: its distinct argument names and its defaults, if any. -/
structure ArgSpec where
  args : List String
  defaults : Option (List Json)
  nodup : args.Nodup

/-- Python's default for the argument at position `i`: the defaults belong to the last arguments. -/
def ArgSpec.defaultAt (spec : ArgSpec) (i : Nat) : Option Json :=
  match spec.defaults with
  | none => none
  | some ds =>
    if spec.args.length - ds.length ≤ i then ds[i - (spec.args.length - ds.length)]? else none

/-- `method_args[3][i]`; indexing `None`, which `getargspec` gives for no defaults, raises. -/
def pyIndex : Option (List Json) → Int → Except Raised Json
  | none, _ => .error (.builtin "TypeError" none)
  | some ds, i =>
    let j := if i < 0 then ds.length + i else i
    if j < 0 then .error (.builtin "IndexError" none)
    else
      match ds[j.toNat]? with
      | some d => .ok d
      | none => .error (.builtin "IndexError" none)

theorem pyIndex_pred (ds : List Json) {i : Nat} (hi : 1 ≤ i) :
    pyIndex (some ds) ((i : Int) - 1) =
      match ds[i - 1]? with
      | some d => .ok d
      | none => .error (.builtin "IndexError" none) := by
  have hj : ¬((i : Int) - 1 < 0) := by omega
  have ht : ((i : Int) - 1).toNat = i - 1 := by omega
  simp only [pyIndex, hj, ↓reduceIte, ht]

/-- `request.args.to_dict(flat=True)`: each query argument with its first value. -/
def toDict (args : List (String × String)) : OptionalArgs :=
  args.foldr (fun kv d => d.insert kv.1 kv.2) ∅

@[simp] theorem lookup_toDict (args : List (String × String)) (k : String) :
    (toDict args).lookup k = args.lookup k := by
  induction args with
  | nil => rfl
  | cons kv args ih =>
    obtain ⟨k', v⟩ := kv
    change (AList.insert k' v (toDict args)).lookup k = List.lookup k ((k', v) :: args)
    by_cases hk : k = k'
    · subst hk
      rw [AList.lookup_insert]
      simp [List.lookup_cons]
    · rw [AList.lookup_insert_ne hk, ih, List.lookup_cons, beq_false_of_ne hk]

theorem keys_length_pos_of_lookup {d : OptionalArgs} {k v : String} (h : d.lookup k = some v) :
    0 < d.keys.length :=
  List.length_pos.mpr (List.ne_nil_of_mem (AList.mem_keys.mp
    (AList.lookup_isSome.mp (by rw [h]; rfl))))

theorem bind_eq_ok {ε α β : Type} {x : Except ε α} {f : α → Except ε β} {b : β} :
    x >>= f = .ok b ↔ ∃ a, x = .ok a ∧ f a = .ok b := by
  cases x <;> simp [bind, Except.bind]

@[simp] theorem ok_bind {ε α β : Type} (a : α) (f : α → Except ε β) : (Except.ok a >>= f) = f a :=
  rfl

@[simp] theorem error_bind {ε α β : Type} (e : ε) (f : α → Except ε β) :
    (Except.error e >>= f) = .error e :=
  rfl

/-! ### `str(u)` on a query string -/

def isAscii (u : String) : Bool :=
  u.toList.all fun c => c.toNat < 128

/-- `str(u)` for a query string, which werkzeug gives as `unicode`. -/
def unicodeStr (u : String) : Except Raised String :=
  if isAscii u then .ok u else .error (.builtin "UnicodeEncodeError" none)

def strOptionalArg (d : OptionalArgs) (kv : Σ _ : String, String) : Except Raised OptionalArgs :=
  (d.insert kv.1 ·) <$> unicodeStr kv.2

/-- `for arg in optional_args`: `request.args[arg]` is the value `optional_args` holds. -/
def strOptionalArgs (optionalArgs : OptionalArgs) : Except Raised OptionalArgs :=
  optionalArgs.entries.foldlM strOptionalArg ∅

theorem unicodeStr_ok {u u' : String} (h : unicodeStr u = .ok u') : u' = u := by
  unfold unicodeStr at h
  split at h <;> cases h
  rfl

theorem foldlM_strOptionalArg :
    ∀ (l : List (Σ _ : String, String)) (acc : OptionalArgs),
      l.foldlM strOptionalArg acc =
        if l.all fun kv => isAscii kv.2 then .ok (l.foldl (fun d kv => d.insert kv.1 kv.2) acc)
        else .error (.builtin "UnicodeEncodeError" none)
  | [], _ => rfl
  | kv :: l, acc => by
    rw [List.foldlM_cons, List.all_cons, List.foldl_cons]
    cases h : isAscii kv.2 <;> simp [strOptionalArg, unicodeStr, h, Functor.map, Except.map,
      foldlM_strOptionalArg l]

theorem lookup_foldl_insert :
    ∀ {l : List (Σ _ : String, String)} (acc : OptionalArgs), l.NodupKeys → ∀ k,
      (l.foldl (fun d kv => d.insert kv.1 kv.2) acc).lookup k = (l.dlookup k).or (acc.lookup k)
  | [], _, _, _ => rfl
  | ⟨k₀, v₀⟩ :: l, acc, hnd, k => by
    have hnd' := List.nodupKeys_cons.mp hnd
    rw [List.foldl_cons, lookup_foldl_insert _ hnd'.2 k]
    by_cases hk : k = k₀
    · subst hk
      rw [List.dlookup_eq_none.mpr hnd'.1, List.dlookup_cons_eq, AList.lookup_insert]
      rfl
    · rw [List.dlookup_cons_ne l ⟨k₀, v₀⟩ hk, AList.lookup_insert_ne hk]

theorem all_isAscii_iff (d : OptionalArgs) :
    (d.entries.all fun kv => isAscii kv.2) = true ↔ ∀ k v, d.lookup k = some v → isAscii v = true := by
  simp only [List.all_eq_true, Sigma.forall]
  exact forall₂_congr fun k v => imp_congr_left AList.mem_lookup_iff.symm

theorem strOptionalArgs_cases (d : OptionalArgs) :
    (∃ d', strOptionalArgs d = .ok d' ∧ ∀ k, d'.lookup k = d.lookup k) ∧
        (∀ k v, d.lookup k = some v → isAscii v = true) ∨
      strOptionalArgs d = .error (.builtin "UnicodeEncodeError" none) ∧
        ∃ k v, d.lookup k = some v ∧ isAscii v = false := by
  unfold strOptionalArgs
  rw [foldlM_strOptionalArg]
  by_cases h : (d.entries.all fun kv => isAscii kv.2) = true
  · refine .inl ⟨⟨_, if_pos h, fun k => ?_⟩, (all_isAscii_iff d).mp h⟩
    rw [lookup_foldl_insert _ d.nodupKeys, AList.lookup_empty, Option.or_none]
    rfl
  · refine .inr ⟨if_neg h, ?_⟩
    rw [all_isAscii_iff] at h
    push_neg at h
    simpa only [ne_eq, Bool.not_eq_true] using h

section Loop

variable {O H : Type} (literalEval : String → Except Raised Json) (isIonObjectDict : Json → Bool)
  (createIonObject : Json → Except Raised O)

/-- The value passed for a query argument: the string when the default at `arg_index - 1` is a
`str`, the literal it spells otherwise. -/
def queryValue (spec : ArgSpec) (argIndex : Nat) (v : String) : Except Raised Json := do
  let d ← pyIndex spec.defaults ((argIndex : Int) - 1)
  if d.isStr then pure (.str v) else literalEval (← unicodeStr v)

/-- The value the caller means: the string when the argument's own default is a `str`, the literal
it spells otherwise. -/
def intendedValue (spec : ArgSpec) (i : Nat) (v : String) : Except Raised Json :=
  if (spec.defaultAt i).any Json.isStr then .ok (.str v) else literalEval v

def fromQuery (spec : ArgSpec) (args : List (String × String)) (acc : ParamList O H × OptionalArgs)
    (argIndex : Nat) (arg : String) : Except Raised (ParamList O H × OptionalArgs) :=
  match args.lookup arg with
  | none => .ok acc
  | some v => do
    let x ← queryValue literalEval spec argIndex v
    pure (acc.1.insert arg (.value x), acc.2.erase arg)

def fromPayload (requestType : String) (jsonParams : Json) (paramList : ParamList O H)
    (arg : String) : Except Raised (ParamList O H) := do
  let params ← (← jsonParams.getItem requestType).getItem "params"
  if ← params.contains arg then
    let v ← params.getItem arg
    if isIonObjectDict v then
      let o ← createIonObject v
      pure (paramList.insert arg (.ionObject o))
    else pure (paramList.insert arg (.value v))
  else pure paramList

/-- One pass of the loop over `enumerate(method_args[0])`. -/
def argStep (spec : ArgSpec) (requestType : String) (args : List (String × String))
    (jsonParams : Option Json) (acc : ParamList O H × OptionalArgs) (ia : Nat × String) :
    Except Raised (ParamList O H × OptionalArgs) :=
  if ia.2 = "self" then .ok acc
  else
    match jsonParams.filter Json.truthy with
    | none => fromQuery literalEval spec args acc ia.1 ia.2
    | some j => (·, acc.2) <$> fromPayload isIonObjectDict createIonObject requestType j acc.1 ia.2

def payloadStep (requestType : String) (j : Json) (paramList : ParamList O H) (ia : Nat × String) :
    Except Raised (ParamList O H) :=
  if ia.2 = "self" then .ok paramList
  else fromPayload isIonObjectDict createIonObject requestType j paramList ia.2

def withOptionalArgs (spec : ArgSpec) (acc : ParamList O H × OptionalArgs) :
    Except Raised (ParamList O H) :=
  if 0 < acc.2.keys.length ∧ "optional_args" ∈ spec.args then
    (fun d => acc.1.insert "optional_args" (.optionalArgs d)) <$> strOptionalArgs acc.2
  else .ok acc.1

/-- `create_parameter_list`, for the argspec of the client's method, `None` when it has none. -/
def createParameterList (requestType : String) (method : Option ArgSpec)
    (args : List (String × String)) (jsonParams : Option Json) : Except Raised (ParamList O H) :=
  match method with
  | none => .error (.builtin "AttributeError" none)
  | some spec => do
    let acc ← spec.args.enum.foldlM
      (argStep literalEval isIonObjectDict createIonObject spec requestType args jsonParams)
      (∅, toDict args)
    withOptionalArgs spec acc

def IonFromPayload (requestType : String) (j : Json) (paramList : ParamList O H) : Prop :=
  ∀ k o, paramList.lookup k = some (.ionObject o) →
    ∃ rq params v, j.getItem requestType = .ok rq ∧ rq.getItem "params" = .ok params ∧
      params.getItem k = .ok v ∧ createIonObject v = .ok o

variable {literalEval isIonObjectDict createIonObject}

/-- What `create_parameter_list` returns after its loop. -/
theorem withOptionalArgs_ok {spec : ArgSpec} {acc : ParamList O H × OptionalArgs}
    {ps : ParamList O H} (h : withOptionalArgs spec acc = .ok ps) :
    ∃ d : OptionalArgs, (∀ k, d.lookup k = acc.2.lookup k) ∧ ∀ k, ps.lookup k =
      if k = "optional_args" ∧ 0 < acc.2.keys.length ∧ "optional_args" ∈ spec.args then
        some (.optionalArgs d)
      else acc.1.lookup k := by
  unfold withOptionalArgs at h
  split_ifs at h with ho
  · rcases strOptionalArgs_cases acc.2 with ⟨⟨d, hd, hl⟩, -⟩ | ⟨he, -⟩
    · rw [hd] at h
      cases h
      refine ⟨d, hl, fun k => ?_⟩
      by_cases hk : k = "optional_args"
      · subst hk
        rw [AList.lookup_insert, if_pos ⟨rfl, ho⟩]
      · rw [AList.lookup_insert_ne hk, if_neg fun h => hk h.1]
    · rw [he] at h
      cases h
  · cases h
    exact ⟨acc.2, fun _ => rfl, fun k => by rw [if_neg fun h => ho h.2]⟩

theorem withOptionalArgs_error {spec : ArgSpec} {acc : ParamList O H × OptionalArgs} {e : Raised}
    (h : withOptionalArgs spec acc = .error e) : e = .builtin "UnicodeEncodeError" none := by
  unfold withOptionalArgs at h
  split_ifs at h
  · rcases strOptionalArgs_cases acc.2 with ⟨⟨d, hd, -⟩, -⟩ | ⟨he, -⟩
    · rw [hd] at h
      cases h
    · rw [he] at h
      cases h
      rfl

theorem withOptionalArgs_of_isAscii (spec : ArgSpec) {acc : ParamList O H × OptionalArgs}
    (h : ∀ k v, acc.2.lookup k = some v → isAscii v = true) :
    ∃ ps, withOptionalArgs spec acc = .ok ps := by
  unfold withOptionalArgs
  split_ifs
  · rcases strOptionalArgs_cases acc.2 with ⟨⟨d, hd, -⟩, -⟩ | ⟨-, k, v, hv, hna⟩
    · exact ⟨_, by rw [hd]; rfl⟩
    · exact absurd (h k v hv) (by rw [hna]; decide)
  · exact ⟨_, rfl⟩

theorem withOptionalArgs_raises {spec : ArgSpec} {acc : ParamList O H × OptionalArgs} {k v : String}
    (ho : "optional_args" ∈ spec.args) (hk : acc.2.lookup k = some v) (hv : isAscii v = false) :
    withOptionalArgs spec acc = .error (.builtin "UnicodeEncodeError" none) := by
  unfold withOptionalArgs
  rw [if_pos ⟨keys_length_pos_of_lookup hk, ho⟩]
  rcases strOptionalArgs_cases acc.2 with ⟨-, hall⟩ | ⟨he, -⟩
  · exact absurd (hall k v hk) (by rw [hv]; decide)
  · rw [he]
    rfl

/-- When every argument after `self` has a default, the loop passes the value the caller means. -/
theorem intendedValue_of_queryValue {spec : ArgSpec} {ds : List Json}
    (hds : spec.defaults = some ds) (hlen : ds.length + 1 = spec.args.length) {i : Nat}
    (hi : 1 ≤ i) (hi' : i < spec.args.length) {v : String} {x : Json}
    (h : queryValue literalEval spec i v = .ok x) : intendedValue literalEval spec i v = .ok x := by
  have hd : ds[i - 1]? = some ds[i - 1] := List.getElem?_eq_getElem (by omega)
  have hdef : spec.defaultAt i = some ds[i - 1] := by
    simp only [ArgSpec.defaultAt, hds, show spec.args.length - ds.length = 1 by omega, hi,
      ↓reduceIte, hd]
  simp only [queryValue, hds, pyIndex_pred ds hi, hd, ok_bind] at h
  simp only [intendedValue, hdef, Option.any_some]
  split at h
  · rwa [if_pos ‹_›]
  · obtain ⟨u, hu, h⟩ := bind_eq_ok.mp h
    rwa [if_neg ‹_›, ← unicodeStr_ok hu]

theorem queryValue_past_defaults {spec : ArgSpec} {i : Nat}
    (h : ∀ ds, spec.defaults = some ds → ds.length < i) (v : String) :
    ∃ e, queryValue literalEval spec i v = .error e := by
  cases hds : spec.defaults with
  | none => exact ⟨.builtin "TypeError" none, by simp only [queryValue, hds, pyIndex, error_bind]⟩
  | some ds =>
    have hlt := h ds hds
    have hd : ds[i - 1]? = none := List.getElem?_eq_none (by omega)
    exact ⟨.builtin "IndexError" none,
      by simp only [queryValue, hds, pyIndex_pred ds (by omega : 1 ≤ i), hd, error_bind]⟩

theorem argStep_query_cases {spec : ArgSpec} {requestType : String} {args : List (String × String)}
    {jsonParams : Option Json} (hq : jsonParams.filter Json.truthy = none)
    {acc acc' : ParamList O H × OptionalArgs} {i : Nat} {k : String}
    (h : argStep literalEval isIonObjectDict createIonObject spec requestType args jsonParams acc
      (i, k) = .ok acc') :
    (acc' = acc ∧ (k = "self" ∨ args.lookup k = none)) ∨
      (k ≠ "self" ∧ ∃ v x, args.lookup k = some v ∧ queryValue literalEval spec i v = .ok x ∧
        acc' = (acc.1.insert k (.value x), acc.2.erase k)) := by
  simp only [argStep, hq] at h
  split_ifs at h with hs
  · exact .inl ⟨(Except.ok.inj h).symm, .inl hs⟩
  · simp only [fromQuery] at h
    split at h
    · rename_i hv
      exact .inl ⟨(Except.ok.inj h).symm, .inr hv⟩
    · rename_i v hv
      obtain ⟨x, hx, hacc⟩ := bind_eq_ok.mp h
      exact .inr ⟨hs, v, x, hv, hx, (Except.ok.inj hacc).symm⟩

theorem argStep_query_frame {spec : ArgSpec} {requestType : String} {args : List (String × String)}
    {jsonParams : Option Json} (hq : jsonParams.filter Json.truthy = none)
    {acc acc' : ParamList O H × OptionalArgs} {i₀ : Nat} {k₀ k : String}
    (h : argStep literalEval isIonObjectDict createIonObject spec requestType args jsonParams acc
      (i₀, k₀) = .ok acc')
    (hk : k ≠ k₀ ∨ k = "self" ∨ args.lookup k = none) :
    acc'.1.lookup k = acc.1.lookup k ∧ acc'.2.lookup k = acc.2.lookup k := by
  rcases argStep_query_cases hq h with ⟨rfl, -⟩ | ⟨hs, v, x, hv, -, rfl⟩
  · exact ⟨rfl, rfl⟩
  · have hne : k ≠ k₀ := by
      rintro rfl
      rcases hk with hk | hk | hk
      · exact hk rfl
      · exact hs hk
      · rw [hv] at hk
        cases hk
    exact ⟨AList.lookup_insert_ne hne, AList.lookup_erase_ne hne⟩

theorem foldlM_query_frame {spec : ArgSpec} {requestType : String} {args : List (String × String)}
    {jsonParams : Option Json} (hq : jsonParams.filter Json.truthy = none) :
    ∀ (l : List (Nat × String)) {acc res : ParamList O H × OptionalArgs},
      l.foldlM (argStep literalEval isIonObjectDict createIonObject spec requestType args
        jsonParams) acc = .ok res →
      ∀ {k}, (k ∉ l.map Prod.snd ∨ k = "self" ∨ args.lookup k = none) →
        res.1.lookup k = acc.1.lookup k ∧ res.2.lookup k = acc.2.lookup k
  | [], _, _, h, _, _ => by
    cases h
    exact ⟨rfl, rfl⟩
  | (i₀, k₀) :: l, acc, res, h, k, hk => by
    rw [List.foldlM_cons] at h
    obtain ⟨acc', hstep, hrest⟩ := bind_eq_ok.mp h
    simp only [List.map_cons, List.mem_cons, not_or] at hk
    obtain ⟨h1, h2⟩ := foldlM_query_frame hq l hrest (hk.imp_left And.right)
    obtain ⟨h3, h4⟩ := argStep_query_frame hq hstep (hk.imp_left And.left)
    exact ⟨h1.trans h3, h2.trans h4⟩

theorem foldlM_query_named {spec : ArgSpec} {requestType : String} {args : List (String × String)}
    {jsonParams : Option Json} (hq : jsonParams.filter Json.truthy = none) :
    ∀ (l : List (Nat × String)) {acc res : ParamList O H × OptionalArgs},
      (l.map Prod.snd).Nodup →
      l.foldlM (argStep literalEval isIonObjectDict createIonObject spec requestType args
        jsonParams) acc = .ok res →
      ∀ {i k v}, (i, k) ∈ l → k ≠ "self" → args.lookup k = some v →
        ∃ x, queryValue literalEval spec i v = .ok x ∧ res.1.lookup k = some (.value x) ∧
          res.2.lookup k = none
  | [], _, _, _, _, _, _, _, hm, _, _ => absurd hm (List.not_mem_nil _)
  | (i₀, k₀) :: l, acc, res, hnd, h, i, k, v, hm, hs, hv => by
    rw [List.foldlM_cons] at h
    obtain ⟨acc', hstep, hrest⟩ := bind_eq_ok.mp h
    simp only [List.map_cons, List.nodup_cons] at hnd
    rcases List.mem_cons.mp hm with he | hm
    · obtain ⟨rfl, rfl⟩ := Prod.mk.inj he
      obtain ⟨h1, h2⟩ := foldlM_query_frame hq l hrest (.inl hnd.1)
      rcases argStep_query_cases hq hstep with ⟨-, hs' | hn⟩ | ⟨-, v', x, hv', hx, rfl⟩
      · exact absurd hs' hs
      · rw [hn] at hv
        cases hv
      · rw [hv] at hv'
        cases hv'
        exact ⟨x, hx, by rw [h1, AList.lookup_insert], by rw [h2, AList.lookup_erase]⟩
    · exact foldlM_query_named hq l hnd.2 hrest hm hs hv

/-- The whole query loop, from an empty `param_list` and the query's `to_dict`. -/
theorem queryLoop_lookup {spec : ArgSpec} {requestType : String} {args : List (String × String)}
    {res : ParamList O H × OptionalArgs}
    (hloop : spec.args.enum.foldlM
      (argStep literalEval isIonObjectDict createIonObject spec requestType args none)
      (∅, toDict args) = .ok res) (k : String) :
    ((k ∉ spec.args ∨ k = "self" ∨ args.lookup k = none) →
        res.1.lookup k = none ∧ res.2.lookup k = args.lookup k) ∧
      (∀ i v, (i, k) ∈ spec.args.enum → k ≠ "self" → args.lookup k = some v →
        ∃ x, queryValue literalEval spec i v = .ok x ∧ res.1.lookup k = some (.value x) ∧
          res.2.lookup k = none) := by
  have hnd : (spec.args.enum.map Prod.snd).Nodup := by
    rw [List.enum_map_snd]
    exact spec.nodup
  have hq : (none : Option Json).filter Json.truthy = none := rfl
  refine ⟨fun hc => ?_, fun i v hm hs hv => foldlM_query_named hq _ hnd hloop hm hs hv⟩
  rw [← List.enum_map_snd spec.args] at hc
  simpa using foldlM_query_frame hq _ hloop hc

theorem pos_of_ne_self {spec : ArgSpec} (hself : spec.args.head? = some "self") {i : Nat}
    {k : String} (hm : (i, k) ∈ spec.args.enum) (hk : k ≠ "self") : 1 ≤ i := by
  rcases Nat.eq_zero_or_pos i with rfl | hpos
  · have h0 := List.mem_enum_iff_getElem?.mp hm
    rw [← List.head?_eq_getElem?, hself] at h0
    exact absurd (Option.some.inj h0).symm hk
  · exact hpos

/-- For a request without a payload to a method with a default for every argument after `self`, as
the generated clients have, each argument the query names is passed as the caller means it, no
other key but `optional_args` is passed, and that holds the other query arguments. -/
theorem query_arguments_reach_operation (spec : ArgSpec) (hself : spec.args.head? = some "self")
    (hdefaults : ∃ ds, spec.defaults = some ds ∧ ds.length + 1 = spec.args.length)
    (requestType : String) (args : List (String × String)) (params : ParamList O H)
    (h : createParameterList literalEval isIonObjectDict createIonObject requestType (some spec)
      args none = .ok params) :
    (∀ i k v, (i, k) ∈ spec.args.enum → k ≠ "self" → k ≠ "optional_args" → args.lookup k = some v →
      ∃ x, intendedValue literalEval spec i v = .ok x ∧ params.lookup k = some (.value x)) ∧
    (∀ k, (params.lookup k).isSome →
      k = "optional_args" ∨ (k ∈ spec.args ∧ k ≠ "self" ∧ (args.lookup k).isSome)) ∧
    ("optional_args" ∈ spec.args → ∀ k v, args.lookup k = some v → (k ∉ spec.args ∨ k = "self") →
      ∃ d, params.lookup "optional_args" = some (.optionalArgs d) ∧
        ∀ k', d.lookup k' = if k' ∈ spec.args ∧ k' ≠ "self" then none else args.lookup k') := by
  obtain ⟨ds, hds, hlen⟩ := hdefaults
  obtain ⟨res, hloop, hres⟩ := bind_eq_ok.mp h
  obtain ⟨d, hd, hps⟩ := withOptionalArgs_ok hres
  have hl := queryLoop_lookup hloop
  refine ⟨fun i k v hm hs ho hv => ?_, fun k hk => ?_, fun hopt k v hv hk => ?_⟩
  · obtain ⟨x, hx, h1, -⟩ := (hl k).2 i v hm hs hv
    have hi := pos_of_ne_self hself hm hs
    refine ⟨x, intendedValue_of_queryValue hds hlen hi (List.fst_lt_of_mem_enum hm) hx, ?_⟩
    rw [hps, if_neg fun h => ho h.1, h1]
  · rw [hps] at hk
    split_ifs at hk with ho
    · exact .inl ho.1
    · refine .inr (Classical.by_contradiction fun hc => ?_)
      have hfree : k ∉ spec.args ∨ k = "self" ∨ args.lookup k = none := by
        simpa only [not_and_or, not_not, Option.not_isSome_iff_eq_none] using hc
      simp [((hl k).1 hfree).1] at hk
  · have hleft : res.2.lookup k = some v :=
      ((hl k).1 (hk.elim .inl (.inr ∘ .inl))).2.trans hv
    refine ⟨d, by rw [hps, if_pos ⟨rfl, keys_length_pos_of_lookup hleft, hopt⟩], fun k' => ?_⟩
    rw [hd]
    split_ifs with hk'
    · cases hv' : args.lookup k' with
      | none => exact ((hl k').1 (.inr (.inr hv'))).2.trans hv'
      | some v' =>
        obtain ⟨i, hi⟩ := List.mem_iff_getElem?.mp hk'.1
        obtain ⟨_, -, -, h2⟩ := (hl k').2 i v' (List.mem_enum_iff_getElem?.mpr hi) hk'.2 hv'
        exact h2
    · exact ((hl k').1 ((not_and_or.mp hk').imp_right (.inl ∘ not_not.mp))).2

/-- The argspec of `find_resources(self, restype='', id_only=False, optional_args=None)`. -/
def findResourcesSpec : ArgSpec :=
  ⟨["self", "restype", "id_only", "optional_args"], some [.str "", .bool false, .null], by decide⟩

def literalEvalTrue (s : String) : Except Raised Json :=
  if s = "True" then .ok (.bool true) else .error (.builtin "ValueError" none)

theorem query_arguments_reach_operation_findResources :
    ∃ params : ParamList Unit Unit,
      createParameterList literalEvalTrue (fun _ => false) (fun _ => .error (.builtin "TypeError" none))
        "serviceRequest" (some findResourcesSpec)
        [("restype", "BankAccount"), ("id_only", "True"), ("requester", "alice")] none = .ok params ∧
      (∀ i k v, (i, k) ∈ findResourcesSpec.args.enum → k ≠ "self" → k ≠ "optional_args" →
        List.lookup k [("restype", "BankAccount"), ("id_only", "True"), ("requester", "alice")] =
          some v →
        ∃ x, intendedValue literalEvalTrue findResourcesSpec i v = .ok x ∧
          params.lookup k = some (.value x)) ∧
      (∀ k, (params.lookup k).isSome → k = "optional_args" ∨ (k ∈ findResourcesSpec.args ∧
        k ≠ "self" ∧
        (List.lookup k [("restype", "BankAccount"), ("id_only", "True"), ("requester", "alice")]).isSome)) ∧
      ("optional_args" ∈ findResourcesSpec.args → ∀ k v,
        List.lookup k [("restype", "BankAccount"), ("id_only", "True"), ("requester", "alice")] =
          some v → (k ∉ findResourcesSpec.args ∨ k = "self") →
        ∃ d, params.lookup "optional_args" = some (.optionalArgs d) ∧
          ∀ k', d.lookup k' = if k' ∈ findResourcesSpec.args ∧ k' ≠ "self" then none else
            List.lookup k' [("restype", "BankAccount"), ("id_only", "True"), ("requester", "alice")]) :=
  ⟨_, rfl, @query_arguments_reach_operation Unit Unit literalEvalTrue (fun _ => false)
    (fun _ => .error (.builtin "TypeError" none)) findResourcesSpec rfl ⟨_, rfl, rfl⟩
    "serviceRequest" _ _ rfl⟩

theorem argStep_payload {spec : ArgSpec} {requestType : String} {args : List (String × String)}
    {j : Json} (hj : j.truthy = true) (p : ParamList O H) (o : OptionalArgs) (ia : Nat × String) :
    argStep literalEval isIonObjectDict createIonObject spec requestType args (some j) (p, o) ia =
      (·, o) <$> payloadStep isIonObjectDict createIonObject requestType j p ia := by
  unfold argStep payloadStep
  split_ifs
  · rfl
  · simp only [Option.filter, hj, ↓reduceIte]

theorem foldlM_payload {spec : ArgSpec} {requestType : String} {args : List (String × String)}
    {j : Json} (hj : j.truthy = true) :
    ∀ (l : List (Nat × String)) (p : ParamList O H) (o : OptionalArgs),
      l.foldlM (argStep literalEval isIonObjectDict createIonObject spec requestType args (some j))
          (p, o) =
        (·, o) <$> l.foldlM (payloadStep isIonObjectDict createIonObject requestType j) p
  | [], _, _ => rfl
  | ia :: l, p, o => by
    simp only [List.foldlM_cons, argStep_payload hj]
    cases payloadStep isIonObjectDict createIonObject requestType j p ia with
    | error e => rfl
    | ok p' => exact foldlM_payload hj l p' o

theorem createParameterList_payload (spec : ArgSpec) (requestType : String)
    (args : List (String × String)) {j : Json} (hj : j.truthy = true) :
    (createParameterList literalEval isIonObjectDict createIonObject requestType (some spec) args
      (some j) : Except Raised (ParamList O H)) =
      spec.args.enum.foldlM (payloadStep isIonObjectDict createIonObject requestType j) ∅ >>=
        fun p => withOptionalArgs spec (p, toDict args) := by
  simp only [createParameterList, foldlM_payload hj]
  cases spec.args.enum.foldlM (payloadStep isIonObjectDict createIonObject requestType j) ∅ <;> rfl

/-! ### Where `IonObject` parameters come from -/

theorem fromPayload_ionFromPayload {requestType : String} {j : Json}
    {paramList paramList' : ParamList O H} {arg : String}
    (hinv : IonFromPayload createIonObject requestType j paramList)
    (h : fromPayload isIonObjectDict createIonObject requestType j paramList arg = .ok paramList') :
    IonFromPayload createIonObject requestType j paramList' := by
  intro k o hk
  unfold fromPayload at h
  obtain ⟨rq, hrq, h⟩ := bind_eq_ok.mp h
  obtain ⟨params, hparams, h⟩ := bind_eq_ok.mp h
  obtain ⟨b, -, h⟩ := bind_eq_ok.mp h
  cases b
  · cases h
    exact hinv k o hk
  obtain ⟨v, hv, h⟩ := bind_eq_ok.mp h
  by_cases hka : k = arg
  · subst hka
    split at h
    · obtain ⟨o', ho', h⟩ := bind_eq_ok.mp h
      cases h
      rw [AList.lookup_insert] at hk
      cases hk
      exact ⟨rq, params, v, hrq, hparams, hv, ho'⟩
    · cases h
      rw [AList.lookup_insert] at hk
      cases hk
  · have hframe : paramList'.lookup k = paramList.lookup k := by
      split at h
      · obtain ⟨_, -, h⟩ := bind_eq_ok.mp h
        cases h
        exact AList.lookup_insert_ne hka
      · cases h
        exact AList.lookup_insert_ne hka
    exact hinv k o (hframe ▸ hk)

theorem foldlM_payloadStep_ionFromPayload {requestType : String} {j : Json} :
    ∀ (l : List (Nat × String)) {paramList paramList' : ParamList O H},
      IonFromPayload createIonObject requestType j paramList →
      l.foldlM (payloadStep isIonObjectDict createIonObject requestType j) paramList =
        .ok paramList' →
      IonFromPayload createIonObject requestType j paramList'
  | [], _, _, hinv, h => by
    cases h
    exact hinv
  | ia :: l, _, _, hinv, h => by
    rw [List.foldlM_cons] at h
    obtain ⟨paramList₁, h₁, h⟩ := bind_eq_ok.mp h
    refine foldlM_payloadStep_ionFromPayload l ?_ h
    unfold payloadStep at h₁
    split_ifs at h₁
    · cases h₁
      exact hinv
    · exact fromPayload_ionFromPayload hinv h₁

theorem foldlM_query_no_ionObject {spec : ArgSpec} {requestType : String}
    {args : List (String × String)} {jsonParams : Option Json}
    (hq : jsonParams.filter Json.truthy = none) :
    ∀ (l : List (Nat × String)) {acc res : ParamList O H × OptionalArgs},
      (∀ k o, acc.1.lookup k ≠ some (.ionObject o)) →
      l.foldlM (argStep literalEval isIonObjectDict createIonObject spec requestType args
        jsonParams) acc = .ok res →
      ∀ k o, res.1.lookup k ≠ some (.ionObject o)
  | [], _, _, hacc, h => by
    cases h
    exact hacc
  | (i₀, k₀) :: l, _, _, hacc, h => by
    rw [List.foldlM_cons] at h
    obtain ⟨acc₁, h₁, h⟩ := bind_eq_ok.mp h
    refine foldlM_query_no_ionObject hq l (fun k o => ?_) h
    rcases argStep_query_cases hq h₁ with ⟨rfl, -⟩ | ⟨-, v, x, -, -, rfl⟩
    · exact hacc k o
    · by_cases hk : k = k₀
      · subst hk
        simp
      · rw [AList.lookup_insert_ne hk]
        exact hacc k o

theorem createParameterList_ionObject {requestType : String} {spec : ArgSpec}
    {args : List (String × String)} {jsonParams : Option Json} {ps : ParamList O H}
    (h : createParameterList literalEval isIonObjectDict createIonObject requestType (some spec) args
      jsonParams = .ok ps) {k : String} {o : O} (hk : ps.lookup k = some (.ionObject o)) :
    ∃ j, jsonParams = some j ∧ ∃ rq params v, j.getItem requestType = .ok rq ∧
      rq.getItem "params" = .ok params ∧ params.getItem k = .ok v ∧ createIonObject v = .ok o := by
  obtain ⟨acc, hacc, h⟩ := bind_eq_ok.mp h
  obtain ⟨d, -, hps⟩ := withOptionalArgs_ok h
  rw [hps] at hk
  split_ifs at hk
  · cases hk
  cases hq : jsonParams.filter Json.truthy with
  | none => exact absurd hk (foldlM_query_no_ionObject hq _ (fun _ _ => by simp) hacc k o)
  | some j =>
    obtain ⟨rfl, hj⟩ := Option.filter_eq_some.mp hq
    rw [foldlM_payload hj] at hacc
    cases hpl : spec.args.enum.foldlM (payloadStep isIonObjectDict createIonObject requestType j) ∅ with
    | error e =>
      rw [hpl] at hacc
      cases hacc
    | ok pl =>
      rw [hpl] at hacc
      cases hacc
      exact ⟨j, rfl, foldlM_payloadStep_ionFromPayload _ (fun _ _ h => by simp at h) hpl k o hk⟩

/-- For a request with a payload, the arguments come from the payload alone; the query matters only
through `optional_args`, whose `str(u)` raises past ASCII. -/
theorem payload_arguments_ignore_query (spec : ArgSpec) (requestType : String) (j : Json)
    (hj : j.truthy = true) (args args' : List (String × String)) :
    (∀ k, k ≠ "optional_args" → ∀ ps ps' : ParamList O H,
      createParameterList literalEval isIonObjectDict createIonObject requestType (some spec) args
        (some j) = .ok ps →
      createParameterList literalEval isIonObjectDict createIonObject requestType (some spec) args'
        (some j) = .ok ps' →
      ps.lookup k = ps'.lookup k) ∧
    (∀ e, (createParameterList literalEval isIonObjectDict createIonObject requestType (some spec)
        args (some j) : Except Raised (ParamList O H)) = .error e →
      e = .builtin "UnicodeEncodeError" none ∨
        (createParameterList literalEval isIonObjectDict createIonObject requestType (some spec)
          args' (some j) : Except Raised (ParamList O H)) = .error e) ∧
    ((∀ k v, args.lookup k = some v → isAscii v = true) →
      ∀ ps' : ParamList O H, createParameterList literalEval isIonObjectDict createIonObject
        requestType (some spec) args' (some j) = .ok ps' →
      ∃ ps : ParamList O H, createParameterList literalEval isIonObjectDict createIonObject
        requestType (some spec) args (some j) = .ok ps) ∧
    ("optional_args" ∈ spec.args →
      (∀ params : ParamList O H, createParameterList literalEval isIonObjectDict createIonObject
          requestType (some spec) args (some j) = .ok params → args ≠ [] →
        ∃ d, params.lookup "optional_args" = some (.optionalArgs d) ∧
          ∀ k, d.lookup k = args.lookup k) ∧
      ∀ k v, args.lookup k = some v → isAscii v = false →
        ∃ e, (createParameterList literalEval isIonObjectDict createIonObject requestType
          (some spec) args (some j) : Except Raised (ParamList O H)) = .error e) := by
  simp only [createParameterList_payload spec requestType _ hj]
  cases spec.args.enum.foldlM (payloadStep isIonObjectDict createIonObject requestType j) ∅ with
  | error e =>
    exact ⟨fun _ _ _ _ h => (nomatch h), fun _ h => .inr h, fun _ _ h => (nomatch h),
      fun _ => ⟨fun _ h => (nomatch h), fun _ _ _ _ => ⟨e, rfl⟩⟩⟩
  | ok p =>
    refine ⟨fun k hk ps ps' h h' => ?_, fun e h => .inl (withOptionalArgs_error h),
      fun hasc _ _ => withOptionalArgs_of_isAscii spec (by simpa only [lookup_toDict] using hasc),
      fun hopt => ⟨fun params h hargs => ?_, fun k v hv hna =>
        ⟨_, withOptionalArgs_raises hopt (by rwa [lookup_toDict]) hna⟩⟩⟩
    · obtain ⟨d, -, hps⟩ := withOptionalArgs_ok h
      obtain ⟨d', -, hps'⟩ := withOptionalArgs_ok h'
      rw [hps, hps', if_neg fun h => hk h.1, if_neg fun h => hk h.1]
    · obtain ⟨d, hd, hps⟩ := withOptionalArgs_ok h
      obtain ⟨⟨k, v⟩, rest, rfl⟩ := List.exists_cons_of_ne_nil hargs
      have hk : (toDict ((k, v) :: rest)).lookup k = some v := by
        simp [List.lookup_cons]
      exact ⟨d, by rw [hps, if_pos ⟨rfl, keys_length_pos_of_lookup hk, hopt⟩],
        fun k' => by rw [hd, lookup_toDict]⟩

def bankAccountPayload : Json :=
  .object [("serviceRequest", .object [("params", .object [("restype", .str "BankAccount")])])]

theorem payload_arguments_ignore_query_findResources :
    (∀ k, k ≠ "optional_args" → ∀ ps ps' : ParamList Unit Unit,
      createParameterList literalEvalTrue (fun _ => false) (fun _ => .error (.builtin "TypeError" none))
        "serviceRequest" (some findResourcesSpec) [("return_mimetype", "text/plain")]
        (some bankAccountPayload) = .ok ps →
      createParameterList literalEvalTrue (fun _ => false) (fun _ => .error (.builtin "TypeError" none))
        "serviceRequest" (some findResourcesSpec) [] (some bankAccountPayload) = .ok ps' →
      ps.lookup k = ps'.lookup k) ∧
    (∀ e, (createParameterList literalEvalTrue (fun _ => false)
        (fun _ => .error (.builtin "TypeError" none)) "serviceRequest" (some findResourcesSpec)
        [("return_mimetype", "text/plain")] (some bankAccountPayload)
        : Except Raised (ParamList Unit Unit)) = .error e →
      e = .builtin "UnicodeEncodeError" none ∨
        (createParameterList literalEvalTrue (fun _ => false)
          (fun _ => .error (.builtin "TypeError" none)) "serviceRequest" (some findResourcesSpec) []
          (some bankAccountPayload) : Except Raised (ParamList Unit Unit)) = .error e) ∧
    ((∀ k v, List.lookup k [("return_mimetype", "text/plain")] = some v → isAscii v = true) →
      ∀ ps' : ParamList Unit Unit, createParameterList literalEvalTrue (fun _ => false)
        (fun _ => .error (.builtin "TypeError" none)) "serviceRequest" (some findResourcesSpec) []
        (some bankAccountPayload) = .ok ps' →
      ∃ ps : ParamList Unit Unit, createParameterList literalEvalTrue (fun _ => false)
        (fun _ => .error (.builtin "TypeError" none)) "serviceRequest" (some findResourcesSpec)
        [("return_mimetype", "text/plain")] (some bankAccountPayload) = .ok ps) ∧
    ("optional_args" ∈ findResourcesSpec.args →
      (∀ params : ParamList Unit Unit, createParameterList literalEvalTrue (fun _ => false)
          (fun _ => .error (.builtin "TypeError" none)) "serviceRequest" (some findResourcesSpec)
          [("return_mimetype", "text/plain")] (some bankAccountPayload) = .ok params →
        [("return_mimetype", "text/plain")] ≠ [] →
        ∃ d, params.lookup "optional_args" = some (.optionalArgs d) ∧
          ∀ k, d.lookup k = List.lookup k [("return_mimetype", "text/plain")]) ∧
      ∀ k v, List.lookup k [("return_mimetype", "text/plain")] = some v → isAscii v = false →
        ∃ e, (createParameterList literalEvalTrue (fun _ => false)
          (fun _ => .error (.builtin "TypeError" none)) "serviceRequest" (some findResourcesSpec)
          [("return_mimetype", "text/plain")] (some bankAccountPayload)
          : Except Raised (ParamList Unit Unit)) = .error e) :=
  @payload_arguments_ignore_query Unit Unit literalEvalTrue (fun _ => false)
    (fun _ => .error (.builtin "TypeError" none)) findResourcesSpec "serviceRequest"
    bankAccountPayload rfl _ _

/-- A query argument past the method's defaults makes `create_parameter_list` raise. -/
theorem query_argument_past_defaults_raises (spec : ArgSpec) (requestType : String)
    (args : List (String × String)) (i : Nat) (k v : String) (hk : (i, k) ∈ spec.args.enum)
    (hself : k ≠ "self") (hpast : ∀ ds, spec.defaults = some ds → ds.length < i)
    (hv : args.lookup k = some v) :
    ∃ e, (createParameterList literalEval isIonObjectDict createIonObject requestType (some spec)
      args none : Except Raised (ParamList O H)) = .error e := by
  cases h : (createParameterList literalEval isIonObjectDict createIonObject requestType (some spec)
      args none : Except Raised (ParamList O H)) with
  | error e => exact ⟨e, rfl⟩
  | ok params =>
    obtain ⟨res, hloop, -⟩ := bind_eq_ok.mp h
    obtain ⟨x, hx, -⟩ := (queryLoop_lookup hloop k).2 i v hk hself hv
    obtain ⟨e, he⟩ : ∃ e, queryValue literalEval spec i v = .error e :=
      queryValue_past_defaults hpast v
    rw [he] at hx
    cases hx

/-- The argspec of `op(self, resource_id, lcstate='')`. -/
def lcstateSpec : ArgSpec :=
  ⟨["self", "resource_id", "lcstate"], some [.str ""], by decide⟩

theorem query_argument_past_defaults_raises_lcstate :
    ∃ e, (createParameterList literalEvalTrue (fun _ => false)
      (fun _ => .error (.builtin "TypeError" none)) "serviceRequest" (some lcstateSpec)
      [("lcstate", "DEPLOYED")] none : Except Raised (ParamList Unit Unit)) = .error e :=
  query_argument_past_defaults_raises lcstateSpec "serviceRequest" _ 2 "lcstate" "DEPLOYED"
    (by decide) (by decide) (fun _ h => by cases h; decide) rfl

end Loop

end Scioncc.Gateway
