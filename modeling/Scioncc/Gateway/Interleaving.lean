import Scioncc.Gateway.RoleCache

/-!
# The role cache under any interleaving

`CacheFresh` and `sequential_request_sees_delivered_changes` are about runs in which each request
runs to its end before anything else happens. Here greenlets, role changes, event deliveries and
cache resets interleave in any order, and two things still hold.

A lookup never returns a header built from roles its actor did not hold at some point of the run:
the cache is keyed by the actor, and the RPC reads the actor's own roles.

The staleness of `build_message_headers_stale_after_eviction` needs a change of the actor's roles to
land while a greenlet holds what the RPC read for that actor and has not put it yet. In a run where
no change of an actor's roles lands in such a window, a lookup for the actor made once every change
of its roles was delivered returns the header of its current roles.
-/

namespace Scioncc.Gateway

variable {R H : Type}

section Lookup

variable {header : R → H} {noRoles : H} {anonymous : String}

end Lookup

section Held

variable (header : R → H) (noRoles : H) (anonymous : String)

/-- Every role assignment the state reveals is one its actor may hold. -/
structure Sound (held : String → R → Prop) (s : State R H) : Prop where
  roles : ∀ a, held a (s.roles a)
  cache : ∀ a h, s.cache a = some h → ∃ r, held a r ∧ h = header r
  received : ∀ i a r, s.handlers i = some (.received a r) → held a r

variable {header} {held : String → R → Prop} {s : State R H}

theorem Sound.update_handler (hs : Sound header held s) {i : Nat} {v : Option (Handler R H)}
    (hv : ∀ a r, v = some (.received a r) → held a r) :
    Sound header held { s with handlers := Function.update s.handlers i v } where
  roles := hs.roles
  cache := hs.cache
  received j a r hj := by
    by_cases hji : j = i
    · subst hji
      exact hv a r (by simpa using hj)
    · exact hs.received j a r (by simpa [Function.update_noteq hji] using hj)

theorem Sound.update_cache (hs : Sound header held s) {a : String} {v : Option H}
    (hv : ∀ h, v = some h → ∃ r, held a r ∧ h = header r) :
    Sound header held { s with cache := Function.update s.cache a v } where
  roles := hs.roles
  cache b h hb := by
    by_cases hba : b = a
    · subst hba
      exact hv h (by simpa using hb)
    · exact hs.cache b h (by simpa [Function.update_noteq hba] using hb)
  received := hs.received

theorem Sound.handle (hs : Sound header held s) (i : Nat) :
    Sound header held (handle header noRoles anonymous s i) := by
  unfold Scioncc.Gateway.handle
  split
  · split_ifs
    · exact hs.update_handler (by simp)
    · split <;> exact hs.update_handler (by simp)
  · rename_i a _
    exact hs.update_handler fun _ _ hv => by cases hv; exact hs.roles a
  · rename_i a r hi
    exact (hs.update_cache fun _ hv => ⟨r, hs.received i a r hi, by cases hv; rfl⟩).update_handler
      (by simp)
  · exact hs

theorem Sound.next (hs : Sound header held s) {e : Event R}
    (he : ∀ a r, e = .change a r → held a r) : Sound header held (next header noRoles anonymous s e) := by
  cases e with
  | request i a =>
    simp only [Scioncc.Gateway.next]
    split
    · exact hs.update_handler (by simp)
    · exact hs.update_handler (by simp)
    · exact hs
  | handle i => exact hs.handle noRoles anonymous i
  | change a r =>
    refine ⟨fun b => ?_, hs.cache, hs.received⟩
    simp only [Scioncc.Gateway.next]
    by_cases hba : b = a
    · subst hba
      simpa using he b r rfl
    · simpa [Function.update_noteq hba] using hs.roles b
  | deliver =>
    simp only [Scioncc.Gateway.next, deliver]
    split
    · exact hs
    · exact ⟨hs.roles, (hs.update_cache (v := none) (by simp)).cache, hs.received⟩
  | reset => exact ⟨hs.roles, fun _ _ hb => Option.noConfusion hb, hs.received⟩
  | fail i =>
    simp only [Scioncc.Gateway.next, failRpc]
    split <;> first | exact hs | exact hs.update_handler (by simp)

theorem Sound.run : ∀ (es : List (Event R)) {s : State R H}, Sound header held s →
    (∀ a r, Event.change a r ∈ es → held a r) →
      Sound header held (runEvents header noRoles anonymous s es)
  | [], _, hs, _ => hs
  | _ :: es, _, hs, he =>
    Sound.run es (hs.next noRoles anonymous fun a r he' => he a r (he' ▸ List.mem_cons_self _ _))
      fun a r hm => he a r (List.mem_cons_of_mem _ hm)

end Held

section Quiet

variable (header : R → H) (noRoles : H) (anonymous : String) (a : String)

/-- A change of `a`'s roles does not land while a greenlet holds roles the RPC read for `a`. -/
def QuietStep (s : State R H) : Event R → Prop
  | .change b _ => b = a → ∀ i r, s.handlers i ≠ some (.received a r)
  | _ => True

def QuietRun : State R H → List (Event R) → Prop
  | _, [] => True
  | s, e :: es => QuietStep a s e ∧ QuietRun (next header noRoles anonymous s e) es

/-- The cache and every RPC answer held for `a` agree with `a`'s current roles. -/
structure FreshFor (s : State R H) : Prop where
  cache : ∀ h, s.cache a = some h → h = header (s.roles a) ∨ a ∈ s.events
  received : ∀ i r, s.handlers i = some (.received a r) → r = s.roles a

variable {header a} {s : State R H}

theorem FreshFor.update_handler (hs : FreshFor header a s) {i : Nat} {v : Option (Handler R H)}
    (hv : ∀ r, v = some (.received a r) → r = s.roles a) :
    FreshFor header a { s with handlers := Function.update s.handlers i v } where
  cache := hs.cache
  received j r hj := by
    by_cases hji : j = i
    · subst hji
      exact hv r (by simpa using hj)
    · exact hs.received j r (by simpa [Function.update_noteq hji] using hj)

theorem FreshFor.evict (hs : FreshFor header a s) (b : String) (events : List String)
    (hev : a ∈ s.events → a ≠ b → a ∈ events) :
    FreshFor header a { s with cache := Function.update s.cache b none, events := events } where
  cache h hc := by
    by_cases hab : a = b
    · subst hab
      simp at hc
    · simp only [Function.update_noteq hab] at hc
      exact (hs.cache h hc).imp id fun hm => hev hm hab
  received := hs.received

theorem FreshFor.put (hs : FreshFor header a s) {b : String} {r : R} (hr : b = a → r = s.roles a) :
    FreshFor header a { s with cache := Function.update s.cache b (some (header r)) } where
  cache h hc := by
    by_cases hab : a = b
    · subst hab
      simp only [Function.update_same, Option.some.injEq] at hc
      exact .inl (hc ▸ hr rfl ▸ rfl)
    · simp only [Function.update_noteq hab] at hc
      exact hs.cache h hc
  received := hs.received

theorem FreshFor.handle (hs : FreshFor header a s) (i : Nat) :
    FreshFor header a (handle header noRoles anonymous s i) := by
  unfold Scioncc.Gateway.handle
  split
  · split_ifs
    · exact hs.update_handler (by simp)
    · split <;> exact hs.update_handler (by simp)
  · exact hs.update_handler fun _ hv => by cases hv; rfl
  · rename_i b r hi
    exact (hs.put fun hab => hs.received i r (hab ▸ hi)).update_handler (by simp)
  · exact hs

theorem FreshFor.next (hs : FreshFor header a s) {e : Event R} (hq : QuietStep a s e) :
    FreshFor header a (next header noRoles anonymous s e) := by
  cases e with
  | request i b =>
    simp only [Scioncc.Gateway.next]
    split
    · exact hs.update_handler (by simp)
    · exact hs.update_handler (by simp)
    · exact hs
  | handle i => exact hs.handle noRoles anonymous i
  | change b r =>
    by_cases hab : a = b
    · subst hab
      exact ⟨fun _ _ => .inr (List.mem_append_right _ (List.mem_singleton_self _)),
        fun i r' hi => absurd hi (hq rfl i r')⟩
    · refine ⟨fun h hc => ?_, fun i r' hi => ?_⟩ <;>
        simp only [Scioncc.Gateway.next, Function.update_noteq hab]
      · exact (hs.cache h hc).imp id (List.mem_append_left _)
      · exact hs.received i r' hi
  | deliver =>
    simp only [Scioncc.Gateway.next, deliver]
    split
    · exact hs
    · rename_i b rest hev
      exact hs.evict b rest fun hm hab => by
        rw [hev] at hm
        exact (List.mem_cons.mp hm).resolve_left hab
  | reset => exact ⟨fun _ hc => Option.noConfusion hc, hs.received⟩
  | fail i =>
    simp only [Scioncc.Gateway.next, failRpc]
    split <;> first | exact hs | exact hs.update_handler (by simp)

theorem FreshFor.run : ∀ (es : List (Event R)) {s : State R H}, FreshFor header a s →
    QuietRun header noRoles anonymous a s es → FreshFor header a (runEvents header noRoles anonymous s es)
  | [], _, hs, _ => hs
  | _ :: es, _, hs, ⟨hq, hqs⟩ => FreshFor.run es (hs.next noRoles anonymous hq) hqs

theorem QuietRun.append : ∀ (xs : List (Event R)) {ys : List (Event R)} {s : State R H},
    QuietRun header noRoles anonymous a s xs →
      QuietRun header noRoles anonymous a (runEvents header noRoles anonymous s xs) ys →
      QuietRun header noRoles anonymous a s (xs ++ ys)
  | [], _, _, _, h => h
  | _ :: xs, _, _, ⟨hq, hqs⟩, h => ⟨hq, QuietRun.append xs hqs h⟩

theorem seqRun_quiet : ∀ (es : List (SeqEvent R)) {s : State R H}, Idle s → CacheFresh header s →
    QuietRun header noRoles anonymous a s (es.flatMap SeqEvent.events)
  | [], _, _, _ => trivial
  | e :: es, s, hi, hf => by
    have hrun := @seqRun_fresh R H header noRoles anonymous [e] s hi hf
    rw [List.flatMap_singleton] at hrun
    rw [List.flatMap_cons]
    refine QuietRun.append noRoles anonymous _ ?_ (seqRun_quiet es hrun.1 hrun.2)
    cases e with
    | serve => exact ⟨trivial, trivial, trivial, trivial, trivial⟩
    | serveFailing => exact ⟨trivial, trivial, trivial, trivial⟩
    | change b r =>
      refine ⟨fun _ i r' hr => ?_, trivial⟩
      rcases hi i with h' | ⟨_, h'⟩ <;> rw [h'] at hr <;> cases hr
    | deliver | reset => exact ⟨trivial, trivial⟩

end Quiet

end Scioncc.Gateway
