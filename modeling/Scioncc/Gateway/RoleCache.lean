import Mathlib.Logic.Function.Basic

/-!
# The gateway's role cache

`build_message_headers` looks the actor up in `user_role_cache`; on a miss it asks the org
service for the actor's roles with `find_all_roles_by_user`, computes the role header and puts it
into the cache. The gevent greenlet serving the request yields while that RPC is outstanding, so
the org can change the actor's roles, and `user_role_event_callback` can evict the actor on the
resulting `UserRoleModifiedEvent`, after the RPC read the roles and before the put. The put then
stores the header of the old roles, and every later request for the actor is served from it.

`LRUCache` and `get_role_message_headers` belong to pyon, outside the repository: the cache is a
map from actor ids to headers with the operations the gateway calls (its capacity bound and its
age limit, which is off here, are not modelled), and the header computation is a parameter. An
exception after the cache lookup, in the RPC or in the header computation, is a step of its own:
the `except` branch gives the actor an empty header and caches nothing.
-/

namespace Scioncc.Gateway

variable {R H : Type}

/-- A greenlet inside `build_message_headers`, from the lookup to the role header. -/
inductive Handler (R H : Type)
  | start (actor : String)
  | awaiting (actor : String)
  | received (actor : String) (roles : R)
  | done (header : H)

/-- The org's roles, the cache, the greenlets, and the undelivered `UserRoleModifiedEvent`s. -/
structure State (R H : Type) where
  roles : String → R
  cache : String → Option H := fun _ => none
  handlers : Nat → Option (Handler R H) := fun _ => none
  events : List String := []

inductive Event (R : Type)
  | request (i : Nat) (actor : String)
  | handle (i : Nat)
  | change (actor : String) (roles : R)
  | deliver
  | reset
  | fail (i : Nat)

section Step

variable (header : R → H) (noRoles : H) (anonymous : String)

/-- Greenlet `i` runs to its next yield: the cache lookup, the RPC's answer, or the put. -/
def handle (s : State R H) (i : Nat) : State R H :=
  match s.handlers i with
  | some (.start a) =>
    if a = anonymous then { s with handlers := Function.update s.handlers i (some (.done noRoles)) }
    else
      match s.cache a with
      | some h => { s with handlers := Function.update s.handlers i (some (.done h)) }
      | none => { s with handlers := Function.update s.handlers i (some (.awaiting a)) }
  | some (.awaiting a) =>
    { s with handlers := Function.update s.handlers i (some (.received a (s.roles a))) }
  | some (.received a r) =>
    { s with
      cache := Function.update s.cache a (some (header r))
      handlers := Function.update s.handlers i (some (.done (header r))) }
  | _ => s

/-- The `except` branch: the RPC or the header computation raised, so the header is empty and
nothing is cached. -/
def failRpc (s : State R H) (i : Nat) : State R H :=
  match s.handlers i with
  | some (.awaiting _) | some (.received _ _) =>
    { s with handlers := Function.update s.handlers i (some (.done noRoles)) }
  | _ => s

def deliver (s : State R H) : State R H :=
  match s.events with
  | [] => s
  | a :: rest => { s with cache := Function.update s.cache a none, events := rest }

def next (s : State R H) : Event R → State R H
  | .request i a =>
    match s.handlers i with
    | none | some (.done _) => { s with handlers := Function.update s.handlers i (some (.start a)) }
    | _ => s
  | .handle i => handle header noRoles anonymous s i
  | .change a r => { s with roles := Function.update s.roles a r, events := s.events ++ [a] }
  | .deliver => deliver s
  | .reset => { s with cache := fun _ => none }
  | .fail i => failRpc noRoles s i

def runEvents (s : State R H) : List (Event R) → State R H
  | [] => s
  | e :: es => runEvents (next header noRoles anonymous s e) es

end Step

theorem runEvents_append (header : R → H) (noRoles : H) (anonymous : String) :
    ∀ (s : State R H) (es es' : List (Event R)),
      runEvents header noRoles anonymous s (es ++ es') =
        runEvents header noRoles anonymous (runEvents header noRoles anonymous s es) es'
  | _, [], _ => rfl
  | _, _ :: es, es' => runEvents_append header noRoles anonymous _ es es'

section Sequential

variable (header : R → H) (noRoles : H) (anonymous : String)

/-- Every cached header is of the actor's current roles, unless a change is still undelivered. -/
def CacheFresh (s : State R H) : Prop :=
  ∀ a h, s.cache a = some h → h = header (s.roles a) ∨ a ∈ s.events

def Idle (s : State R H) : Prop :=
  ∀ i, s.handlers i = none ∨ ∃ h, s.handlers i = some (.done h)

/-- What happens next when requests do not interleave. -/
inductive SeqEvent (R : Type)
  | serve (i : Nat) (actor : String)
  | serveFailing (i : Nat) (actor : String)
  | change (actor : String) (roles : R)
  | deliver
  | reset

def SeqEvent.events : SeqEvent R → List (Event R)
  | .serve i a => [.request i a, .handle i, .handle i, .handle i]
  | .serveFailing i a => [.request i a, .handle i, .fail i]
  | .change a r => [.change a r]
  | .deliver => [.deliver]
  | .reset => [.reset]

variable {header noRoles anonymous}

theorem serve_eq {s : State R H} {i : Nat} (hi : s.handlers i = none ∨ ∃ h, s.handlers i = some (.done h))
    (a : String) :
    runEvents header noRoles anonymous s (SeqEvent.serve i a).events =
      if a = anonymous then { s with handlers := Function.update s.handlers i (some (.done noRoles)) }
      else
        match s.cache a with
        | some h => { s with handlers := Function.update s.handlers i (some (.done h)) }
        | none =>
          { s with
            cache := Function.update s.cache a (some (header (s.roles a)))
            handlers := Function.update s.handlers i (some (.done (header (s.roles a)))) } := by
  have hreq : next header noRoles anonymous s (.request i a) =
      { s with handlers := Function.update s.handlers i (some (.start a)) } := by
    rcases hi with h | ⟨h', h⟩ <;> simp [next, h]
  simp only [SeqEvent.events, runEvents]
  rw [hreq]
  simp only [next]
  by_cases han : a = anonymous
  · simp [handle, han]
  · cases hc : s.cache a <;> simp [handle, han, hc]

theorem serveFailing_eq {s : State R H} {i : Nat}
    (hi : s.handlers i = none ∨ ∃ h, s.handlers i = some (.done h)) (a : String) :
    runEvents header noRoles anonymous s (SeqEvent.serveFailing i a).events =
      { s with
        handlers := Function.update s.handlers i
          (some (.done (if a = anonymous then noRoles else (s.cache a).getD noRoles))) } := by
  have hreq : next header noRoles anonymous s (.request i a) =
      { s with handlers := Function.update s.handlers i (some (.start a)) } := by
    rcases hi with h | ⟨h', h⟩ <;> simp [next, h]
  simp only [SeqEvent.events, runEvents]
  rw [hreq]
  by_cases han : a = anonymous
  · simp [next, handle, failRpc, han]
  · cases hc : s.cache a <;> simp [next, handle, failRpc, han, hc]

theorem serve_fresh {s : State R H} (hi : Idle s) (hf : CacheFresh header s) (i : Nat) (a : String) :
    let s' := runEvents header noRoles anonymous s (SeqEvent.serve i a).events
    Idle s' ∧ CacheFresh header s' ∧ s'.roles = s.roles ∧ s'.events = s.events ∧
      (a ≠ anonymous → a ∉ s.events → s'.handlers i = some (.done (header (s.roles a)))) := by
  intro s'
  have hidle : ∀ h, Idle { s with handlers := Function.update s.handlers i (some (.done h)) } :=
    fun h j => by
      by_cases hj : j = i
      · subst hj; simp
      · simpa [hj] using hi j
  simp only [s', serve_eq (hi i)]
  by_cases han : a = anonymous
  · rw [if_pos han]
    exact ⟨hidle _, hf, rfl, rfl, fun h => absurd han h⟩
  · rw [if_neg han]
    cases hc : s.cache a with
    | some h =>
      refine ⟨hidle h, hf, rfl, rfl, fun _ hev => ?_⟩
      rcases hf a h hc with rfl | hmem
      · simp
      · exact absurd hmem hev
    | none =>
      refine ⟨hidle _, fun b h hb => ?_, rfl, rfl, fun _ _ => by simp⟩
      by_cases hba : b = a
      · subst hba; simp at hb; exact .inl hb.symm
      · simp only [Function.update_noteq hba] at hb
        exact hf b h hb

theorem serveFailing_fresh {s : State R H} (hi : Idle s) (hf : CacheFresh header s) (i : Nat)
    (a : String) :
    let s' := runEvents header noRoles anonymous s (SeqEvent.serveFailing i a).events
    Idle s' ∧ CacheFresh header s' ∧ s'.roles = s.roles ∧ s'.events = s.events ∧
      (a ≠ anonymous → a ∉ s.events → s'.handlers i = some (.done (header (s.roles a))) ∨
        s'.handlers i = some (.done noRoles)) := by
  intro s'
  simp only [s', serveFailing_eq (hi i)]
  refine ⟨fun j => ?_, hf, trivial, trivial, fun han hev => ?_⟩
  · by_cases hj : j = i
    · subst hj; simp
    · simpa [hj] using hi j
  · simp only [Function.update_same, if_neg han]
    cases hc : s.cache a with
    | none => exact .inr rfl
    | some h =>
      rcases hf a h hc with rfl | hmem
      · exact .inl rfl
      · exact absurd hmem hev

theorem change_fresh {s : State R H} (hf : CacheFresh header s) (a : String) (r : R) :
    CacheFresh header (next header noRoles anonymous s (.change a r)) := fun b h hb => by
  rcases hf b h hb with hh | hm
  · by_cases hba : b = a
    · subst hba; exact .inr (List.mem_append_right _ (List.mem_singleton_self _))
    · exact .inl (by simpa [next, Function.update_noteq hba] using hh)
  · exact .inr (List.mem_append_left _ hm)

theorem deliver_fresh {s : State R H} (hf : CacheFresh header s) :
    CacheFresh header (next header noRoles anonymous s .deliver) := fun b h hb => by
  simp only [next, deliver] at hb ⊢
  split at hb
  · rename_i hev; simpa [hev] using hf b h hb
  · rename_i a rest hev
    by_cases hba : b = a
    · subst hba; simp at hb
    · simp only [Function.update_noteq hba] at hb
      rcases hf b h hb with hh | hm
      · exact .inl hh
      · rw [hev] at hm
        exact .inr ((List.mem_cons.mp hm).resolve_left hba)

theorem seqRun_fresh : ∀ (es : List (SeqEvent R)) {s : State R H}, Idle s → CacheFresh header s →
    Idle (runEvents header noRoles anonymous s (es.flatMap SeqEvent.events)) ∧
      CacheFresh header (runEvents header noRoles anonymous s (es.flatMap SeqEvent.events))
  | [], _, hi, hf => ⟨hi, hf⟩
  | e :: es, s, hi, hf => by
    rw [List.flatMap_cons, runEvents_append]
    have he : Idle (runEvents header noRoles anonymous s e.events) ∧
        CacheFresh header (runEvents header noRoles anonymous s e.events) := by
      cases e with
      | serve i a => exact ⟨(serve_fresh hi hf i a).1, (serve_fresh hi hf i a).2.1⟩
      | serveFailing i a =>
        exact ⟨(serveFailing_fresh hi hf i a).1, (serveFailing_fresh hi hf i a).2.1⟩
      | change a r =>
        show Idle (next header noRoles anonymous s (.change a r)) ∧
          CacheFresh header (next header noRoles anonymous s (.change a r))
        exact ⟨hi, change_fresh hf a r⟩
      | deliver =>
        show Idle (next header noRoles anonymous s .deliver) ∧
          CacheFresh header (next header noRoles anonymous s .deliver)
        refine ⟨fun j => ?_, deliver_fresh hf⟩
        simp only [next, deliver]
        split <;> exact hi j
      | reset => exact ⟨hi, fun _ _ hb => Option.noConfusion hb⟩
    exact seqRun_fresh es he.1 he.2

/-- Without interleaving, once every role change is delivered a request returns the header of the
actor's current roles, or, when its RPC raises, that header or the empty one. -/
theorem sequential_request_sees_delivered_changes (roles₀ : String → R) (es : List (SeqEvent R))
    (i : Nat) (a : String) (ha : a ≠ anonymous) :
    let s := runEvents header noRoles anonymous { roles := roles₀ } (es.flatMap SeqEvent.events)
    a ∉ s.events →
      (runEvents header noRoles anonymous s (SeqEvent.serve i a).events).handlers i =
          some (.done (header (s.roles a))) ∧
        ((runEvents header noRoles anonymous s (SeqEvent.serveFailing i a).events).handlers i =
            some (.done (header (s.roles a))) ∨
          (runEvents header noRoles anonymous s (SeqEvent.serveFailing i a).events).handlers i =
            some (.done noRoles)) := by
  intro s hev
  obtain ⟨hi, hf⟩ := seqRun_fresh es (s := { roles := roles₀ }) (fun _ => .inl rfl)
    fun _ _ hb => Option.noConfusion hb
  exact ⟨(serve_fresh hi hf i a).2.2.2.2 ha hev, (serveFailing_fresh hi hf i a).2.2.2.2 ha hev⟩

end Sequential

theorem sequential_request_sees_delivered_changes_alice :
    let s := runEvents id [] "anonymous" { roles := fun _ => [] }
      ([.serveFailing 0 "alice", .change "alice" ["ION_MANAGER"], .deliver].flatMap SeqEvent.events)
    (runEvents id [] "anonymous" s (SeqEvent.serve 1 "alice").events).handlers 1 =
        some (.done (id (s.roles "alice"))) ∧
      ((runEvents id [] "anonymous" s (SeqEvent.serveFailing 1 "alice").events).handlers 1 =
          some (.done (id (s.roles "alice"))) ∨
        (runEvents id [] "anonymous" s (SeqEvent.serveFailing 1 "alice").events).handlers 1 =
          some (.done [])) :=
  sequential_request_sees_delivered_changes _ _ 1 "alice" (by decide) (by decide)

/-- A put that lands after the eviction reinstates `alice`'s old roles for the next request. -/
theorem build_message_headers_stale_after_eviction :
    ∃ s, runEvents id [] "anonymous" { roles := fun _ => [] }
        [.request 0 "alice", .handle 0, .handle 0, .change "alice" ["ION_MANAGER"], .deliver,
          .handle 0, .request 1 "alice", .handle 1] = s ∧
      s.events = [] ∧ s.roles "alice" = ["ION_MANAGER"] ∧ s.handlers 1 = some (.done []) :=
  ⟨_, rfl, rfl, rfl, rfl⟩

end Scioncc.Gateway
