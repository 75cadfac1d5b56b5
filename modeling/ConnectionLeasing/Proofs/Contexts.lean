import ConnectionLeasing.Context
import ConnectionLeasing.Proofs.Keyed
import Mathlib.Data.List.Nodup

/-!
# Ids of execution contexts

Threads allocate ids, ask for their own and enter ids, in any order. A run is the list of their
calls with the answers; what a thread is bound to, and which calls have made an id, is read off that
list.

* `home`: the id of a thread by its own calls; `Run.binding?_eq_home`: the thread is bound to it.
* `produces`: whether a call makes an id; `Run.answer_eq`: what it is answered, in either case.
* `Run.productions_eq`: the ids are numbered in the order in which they were made, so fewer than
  `UInt64.size` of them are different ones.
* `Run.home_origin`: a thread has entered its id or made it; hence `ids_unique_thread_bound`.
-/

namespace ConnectionLeasing.Contexts

/-! ### Calls -/

/-- What a thread asks for. -/
inductive Request
  | allocate
  | current
  | enter (id : ContextId)
  deriving DecidableEq

/-- A request of a thread and what it was answered: an id, or the id that the thread was bound to
before, if any. -/
structure Call where
  thread : Nat
  request : Request
  answer : Option ContextId
  deriving DecidableEq

def serve (c : Contexts) (thread : Nat) : Request → Contexts × Option ContextId
  | .allocate => (c.allocate.1, some c.allocate.2)
  | .current => ((c.current thread).1, some (c.current thread).2)
  | .enter id => c.enter thread id

/-- The calls of any number of threads, in the order in which they take effect, and what they leave
behind. -/
inductive Run : Contexts → List Call → Prop
  | nil : Run .initial []
  | call {c : Contexts} {calls : List Call} (thread : Nat) (request : Request) :
      Run c calls → Run (c.serve thread request).1
        (calls ++ [⟨thread, request, (c.serve thread request).2⟩])

/-! ### The id of a thread -/

def Call.entered? (thread : Nat) (e : Call) : Option ContextId :=
  match e.request with
  | .enter id => if e.thread = thread then some id else none
  | .allocate | .current => none

/-- The id that a thread was told is its own. -/
def Call.told? (thread : Nat) (e : Call) : Option ContextId :=
  match e.request with
  | .current => if e.thread = thread then e.answer else none
  | .allocate | .enter _ => none

def lastEntered (calls : List Call) (thread : Nat) : Option ContextId :=
  (calls.filterMap (Call.entered? thread)).getLast?

def firstTold (calls : List Call) (thread : Nat) : Option ContextId :=
  (calls.filterMap (Call.told? thread)).head?

/-- The id of a thread by its own calls: the one it entered last, or else the one its first
`current` gave. -/
def home (calls : List Call) (thread : Nat) : Option ContextId :=
  (lastEntered calls thread).or (firstTold calls thread)

section home
variable {calls : List Call} {e : Call} {thread : Nat}

theorem home_append (calls more : List Call) (thread : Nat) :
    home (calls ++ more) thread =
      (lastEntered more thread).or ((home calls thread).or (firstTold more thread)) := by
  simp only [home, lastEntered, firstTold, List.filterMap_append, List.getLast?_append,
    List.head?_append, Option.or_assoc]

theorem home_append_singleton (calls : List Call) (e : Call) (thread : Nat) :
    home (calls ++ [e]) thread =
      (e.entered? thread).or ((home calls thread).or (e.told? thread)) := by
  have hentered : lastEntered [e] thread = e.entered? thread := by
    cases h : e.entered? thread <;> simp [lastEntered, h]
  have htold : firstTold [e] thread = e.told? thread := by
    cases h : e.told? thread <;> simp [firstTold, h]
  rw [home_append, hentered, htold]

theorem home_of_ne (h : e.thread ≠ thread) : home (calls ++ [e]) thread = home calls thread := by
  have hentered : e.entered? thread = none := by
    rw [Call.entered?]
    split <;> simp [h]
  have htold : e.told? thread = none := by
    rw [Call.told?]
    split <;> simp [h]
  rw [home_append_singleton, hentered, htold, Option.none_or, Option.or_none]

theorem home_allocate (h : e.request = .allocate) :
    home (calls ++ [e]) thread = home calls thread := by
  rw [home_append_singleton, Call.entered?, Call.told?, h]
  simp

theorem home_current (h : e.request = .current) :
    home (calls ++ [e]) e.thread = (home calls e.thread).or e.answer := by
  rw [home_append_singleton, Call.entered?, Call.told?, h]
  simp

theorem home_enter {id : ContextId} (h : e.request = .enter id) :
    home (calls ++ [e]) e.thread = some id := by
  rw [home_append_singleton, Call.entered?, h]
  simp

theorem home_append_of_not_entered {id : ContextId} (hhome : home calls thread = some id)
    {more : List Call} (h : ∀ e ∈ more, e.thread = thread → ∀ id, e.request ≠ .enter id) :
    home (calls ++ more) thread = some id := by
  have hnone : more.filterMap (Call.entered? thread) = [] := by
    refine List.filterMap_eq_nil_iff.mpr fun e he => ?_
    rw [Call.entered?]
    split
    · rename_i id hid
      exact if_neg fun hthread => h e he hthread id hid
    · rfl
    · rfl
  rw [home_append, lastEntered, hnone, hhome]
  rfl

end home

/-! ### What a thread is bound to -/

theorem binding?_enter (c : Contexts) (thread other : Nat) (id : ContextId) :
    (c.enter thread id).1.binding? other =
      if thread = other then some id else c.binding? other :=
  Keyed.get?_put c.bindings thread other id

theorem binding?_current (c : Contexts) (thread : Nat) :
    (c.serve thread .current).1.binding? thread =
      (c.binding? thread).or (c.serve thread .current).2 := by
  dsimp only [serve]
  cases hbound : c.binding? thread with
  | some id =>
    simp only [current, hbound]
    rfl
  | none =>
    simp only [current, hbound, Option.none_or]
    exact (binding?_enter _ thread thread _).trans (if_pos rfl)

theorem binding?_serve_of_ne (c : Contexts) {thread other : Nat} (h : thread ≠ other)
    (request : Request) : (c.serve thread request).1.binding? other = c.binding? other := by
  cases request with
  | allocate => rfl
  | current =>
    dsimp only [serve]
    cases hbound : c.binding? thread with
    | some id => simp only [current, hbound]
    | none =>
      simp only [current, hbound]
      exact (binding?_enter _ thread other _).trans (if_neg h)
  | enter id => exact (binding?_enter c thread other id).trans (if_neg h)

/-- **A thread is bound to the id that its own calls say.** -/
theorem Run.binding?_eq_home {c : Contexts} {calls : List Call} (h : Run c calls) (thread : Nat) :
    c.binding? thread = home calls thread := by
  induction h with
  | nil => rfl
  | @call c calls other request h ih =>
    by_cases hother : other = thread
    · subst hother
      cases request with
      | allocate =>
        rw [home_allocate rfl, ← ih]
        rfl
      | current =>
        rw [home_current rfl, ← ih]
        exact binding?_current c other
      | enter id =>
        rw [home_enter rfl]
        exact (binding?_enter c other other id).trans (if_pos rfl)
    · rw [home_of_ne hother, ← ih]
      exact binding?_serve_of_ne c hother request

/-! ### Ids that are made -/

/-- Whether a request makes an id: `allocate` always does, and `current` if the thread has none. -/
def produces (before : List Call) (thread : Nat) : Request → Bool
  | .allocate => true
  | .current => (home before thread).isNone
  | .enter _ => false

/-- The calls that have made an id, in order, with `before` as what was called earlier. -/
def productionsAfter (before : List Call) : List Call → List Call
  | [] => []
  | e :: calls =>
    (if produces before e.thread e.request then [e] else []) ++
      productionsAfter (before ++ [e]) calls

/-- The calls of a run that have made an id, in order. -/
def productions (calls : List Call) : List Call := productionsAfter [] calls

section productions
variable {c : Contexts} {calls : List Call} {thread : Nat} {id : ContextId}

theorem productionsAfter_append (before calls more : List Call) :
    productionsAfter before (calls ++ more) =
      productionsAfter before calls ++ productionsAfter (before ++ calls) more := by
  induction calls generalizing before with
  | nil => rw [List.append_nil]; rfl
  | cons e calls ih =>
    rw [List.cons_append, productionsAfter, productionsAfter, ih, List.append_assoc,
      List.append_assoc]
    rfl

theorem productions_append (calls more : List Call) :
    productions (calls ++ more) = productions calls ++ productionsAfter calls more :=
  productionsAfter_append [] calls more

theorem productions_append_singleton (calls : List Call) (e : Call) :
    productions (calls ++ [e]) =
      productions calls ++ if produces calls e.thread e.request then [e] else [] := by
  rw [productions_append, productionsAfter, productionsAfter, List.append_nil]

theorem mem_productions_append {d : Call} (more : List Call) (h : d ∈ productions calls) :
    d ∈ productions (calls ++ more) := by
  rw [productions_append]
  exact List.mem_append_left _ h

theorem self_mem_productions {e : Call} (h : produces calls e.thread e.request = true) :
    e ∈ productions (calls ++ [e]) := by
  rw [productions_append_singleton, if_pos h]
  exact List.mem_append_right _ (List.mem_singleton_self e)

/-- A call that makes an id gives the next one. Any other one gives the id of its thread. -/
theorem Run.answer_eq (h : Run c calls) (thread : Nat) (request : Request) :
    (c.serve thread request).2 =
      if produces calls thread request then some ⟨c.next⟩ else home calls thread := by
  have hbinding := h.binding?_eq_home thread
  cases request with
  | allocate => rfl
  | current =>
    rw [produces, ← hbinding]
    dsimp only [serve]
    cases hbound : c.binding? thread <;> simp [current, hbound, allocate]
  | enter id => exact hbinding

theorem Run.next_eq (h : Run c calls) (thread : Nat) (request : Request) :
    (c.serve thread request).1.next =
      if produces calls thread request then (c.next + 1) % UInt64.size else c.next := by
  cases request with
  | allocate => rfl
  | current =>
    rw [produces, ← h.binding?_eq_home thread]
    dsimp only [serve]
    cases hbound : c.binding? thread <;> simp [current, hbound, allocate, enter]
  | enter id => rfl

/-- **The ids are numbered from one in the order in which they were made**, as machine words. -/
theorem Run.productions_eq (h : Run c calls) :
    c.next = ((productions calls).length + 1) % UInt64.size ∧
    (productions calls).map (·.answer) =
      (List.range (productions calls).length).map fun n => some ⟨(n + 1) % UInt64.size⟩ := by
  induction h with
  | nil => exact ⟨rfl, rfl⟩
  | @call c calls thread request h ih =>
    obtain ⟨hnext, hids⟩ := ih
    rw [productions_append_singleton, h.next_eq, h.answer_eq]
    dsimp only
    split
    · rw [List.length_append, List.length_singleton, List.map_append, hids, List.range_succ,
        List.map_append, hnext]
      exact ⟨Nat.mod_add_mod .., rfl⟩
    · rw [List.append_nil]
      exact ⟨hnext, hids⟩

theorem Run.split (h : Run c calls) {before after : List Call} {e : Call}
    (hcalls : calls = before ++ e :: after) :
    ∃ c', Run c' before ∧ e.answer = (c'.serve e.thread e.request).2 := by
  induction h generalizing after with
  | nil => simp at hcalls
  | @call c calls thread request h ih =>
    rcases List.eq_nil_or_concat after with rfl | ⟨after, last, rfl⟩
    · obtain ⟨rfl, hlast⟩ := List.append_inj' hcalls rfl
      obtain rfl := List.singleton_inj.mp hlast
      exact ⟨c, h, rfl⟩
    · rw [List.concat_eq_append, ← List.cons_append, ← List.append_assoc] at hcalls
      obtain ⟨hcalls, -⟩ := List.append_inj' hcalls rfl
      exact ih hcalls

theorem Run.nodup_productions (h : Run c calls)
    (hfew : (productions calls).length < UInt64.size) :
    ((productions calls).map (·.answer)).Nodup := by
  rw [h.productions_eq.2]
  refine List.Nodup.map_on (fun n hn k hk heq => ?_) List.nodup_range
  rw [List.mem_range] at hn hk
  have hwords : (n + 1) % UInt64.size = (k + 1) % UInt64.size :=
    congrArg ContextId.number (Option.some.inj heq)
  rw [Nat.mod_eq_of_lt (by omega), Nat.mod_eq_of_lt (by omega)] at hwords
  exact Nat.succ.inj hwords

theorem Run.fresh (h : Run c calls) (hfew : (productions calls).length < UInt64.size)
    {before after : List Call} {e : Call} (hcalls : calls = before ++ e :: after)
    (hproduces : produces before e.thread e.request = true) :
    ∃ id, e.answer = some id ∧ ∀ d ∈ productions before, d.answer ≠ some id := by
  obtain ⟨c', hbefore, hanswer⟩ := h.split hcalls
  rw [hbefore.answer_eq, if_pos hproduces] at hanswer
  refine ⟨_, hanswer, fun d hd hsame => ?_⟩
  -- both calls have made an id, the one after the other
  have hnodup := h.nodup_productions hfew
  have hmade : productions calls =
      productions before ++ e :: productionsAfter (before ++ [e]) after := by
    rw [hcalls, productions_append, productionsAfter, if_pos hproduces]
    rfl
  rw [hmade, List.map_append, List.nodup_append] at hnodup
  refine hnodup.2.2 d.answer (List.mem_map_of_mem hd) e.answer (by simp) ?_
  rw [hsame, hanswer]

/-! ### The id of a thread, told again -/

theorem Run.answer_eq_home (h : Run c calls) {before after : List Call} {e : Call}
    (hcalls : calls = before ++ e :: after)
    (hproduces : produces before e.thread e.request = false) :
    e.answer = home before e.thread := by
  obtain ⟨c', hbefore, hanswer⟩ := h.split hcalls
  rw [hanswer, hbefore.answer_eq, hproduces]
  rfl

theorem Run.current_eq_home (h : Run c calls) {before after : List Call} {e : Call}
    (hcalls : calls = before ++ e :: after) (hrequest : e.request = .current)
    (hhome : home before e.thread = some id) : e.answer = some id := by
  rw [← hhome]
  refine h.answer_eq_home hcalls ?_
  rw [hrequest, produces, hhome]
  rfl

theorem Run.home_of_current (h : Run c calls) {before after : List Call} {d : Call}
    (hcalls : calls = before ++ d :: after) (hrequest : d.request = .current) :
    ∃ id, d.answer = some id ∧ home (before ++ [d]) d.thread = some id := by
  rw [home_current hrequest]
  cases hhome : home before d.thread with
  | some id => exact ⟨id, h.current_eq_home hcalls hrequest hhome, rfl⟩
  | none =>
    obtain ⟨c', -, hanswer⟩ := h.split hcalls
    rw [hrequest] at hanswer
    exact ⟨_, hanswer, hanswer⟩

end productions

/-! ### Where the id of a thread comes from -/

/-- Ids are not made up: whatever is entered was an answer before. -/
def Genuine (calls : List Call) : Prop :=
  ∀ before e after id, calls = before ++ e :: after → e.request = .enter id →
    ∃ d ∈ before, d.answer = some id

section origin
variable {c : Contexts} {calls : List Call} {thread : Nat} {id : ContextId}

/-- A thread has entered the id it has, or a call of its own has made it. -/
theorem Run.home_origin (h : Run c calls) (hid : home calls thread = some id) :
    (∃ e ∈ calls, e.thread = thread ∧ e.request = .enter id) ∨
      ∃ d ∈ productions calls, d.thread = thread ∧ d.answer = some id := by
  induction h with
  | nil => cases hid
  | @call c calls other request h ih =>
    have hearlier (hid : home calls thread = some id) (e : Call) :
        (∃ e' ∈ calls ++ [e], e'.thread = thread ∧ e'.request = .enter id) ∨
          ∃ d ∈ productions (calls ++ [e]), d.thread = thread ∧ d.answer = some id := by
      rcases ih hid with ⟨e', he', hentered⟩ | ⟨d, hd, hmade⟩
      · exact .inl ⟨e', List.mem_append_left _ he', hentered⟩
      · exact .inr ⟨d, mem_productions_append _ hd, hmade⟩
    by_cases hother : other = thread
    · subst hother
      cases request with
      | allocate =>
        rw [home_allocate rfl] at hid
        exact hearlier hid _
      | current =>
        rw [home_current rfl] at hid
        cases hhome : home calls other with
        | some id' =>
          rw [hhome, Option.some_or] at hid
          exact hearlier (hhome.trans hid) _
        | none =>
          -- it had no id, so that this call has made the one it has now
          rw [hhome, Option.none_or] at hid
          have hproduces : produces calls other .current = true := by
            rw [produces, hhome]
            rfl
          exact .inr ⟨_, self_mem_productions hproduces, rfl, hid⟩
      | enter id' =>
        rw [home_enter rfl] at hid
        cases hid
        exact .inl ⟨_, List.mem_append_right _ (List.mem_singleton_self _), rfl, rfl⟩
    · rw [home_of_ne hother] at hid
      exact hearlier hid _

theorem Genuine.of_append {more : List Call} (h : Genuine (calls ++ more)) : Genuine calls := by
  intro before e after id hcalls
  exact h before e (after ++ more) id (by rw [hcalls, List.append_assoc, List.cons_append])

/-- If ids are not made up, every id that is around was made. -/
theorem Run.exists_production (h : Run c calls) (hgenuine : Genuine calls) :
    ∀ e ∈ calls, e.answer = some id → ∃ d ∈ productions calls, d.answer = some id := by
  induction h with
  | nil => simp
  | @call c calls thread request h ih =>
    have hearlier : ∀ e ∈ calls, e.answer = some id →
        ∃ d ∈ productions (calls ++ [⟨thread, request, (c.serve thread request).2⟩]),
          d.answer = some id := by
      intro e he hid
      obtain ⟨d, hd, hanswer⟩ := ih hgenuine.of_append e he hid
      exact ⟨d, mem_productions_append _ hd, hanswer⟩
    intro e he hid
    rcases List.mem_append.mp he with he | he
    · exact hearlier e he hid
    · rw [List.mem_singleton.mp he, h.answer_eq] at hid
      by_cases hproduces : produces calls thread request = true
      · rw [if_pos hproduces] at hid
        refine ⟨_, self_mem_productions hproduces, ?_⟩
        exact (h.answer_eq thread request).trans ((if_pos hproduces).trans hid)
      · rw [if_neg hproduces] at hid
        rcases h.home_origin hid with ⟨d, hd, -, hentered⟩ | ⟨d, hd, -, hanswer⟩
        · obtain ⟨before, after, rfl⟩ := List.append_of_mem hd
          obtain ⟨d', hd', hanswer⟩ := hgenuine.of_append before d after id rfl hentered
          exact hearlier d' (List.mem_append_left _ hd') hanswer
        · exact ⟨d, mem_productions_append _ hd, hanswer⟩

theorem Run.entered_of_shared (h : Run c calls)
    (hfew : (productions calls).length < UInt64.size) {t u : Nat} (htu : t ≠ u)
    (ht : home calls t = some id) (hu : home calls u = some id) :
    ∃ w, (w = t ∨ w = u) ∧ (∃ e ∈ calls, e.thread = w ∧ e.request = .enter id) ∧
      ∀ d ∈ productions calls, d.answer = some id → d.thread ≠ w := by
  have hentered : ∀ {w}, home calls w = some id →
      (∀ d ∈ productions calls, d.answer = some id → d.thread ≠ w) →
      ∃ e ∈ calls, e.thread = w ∧ e.request = .enter id := by
    intro w hw hnone
    rcases h.home_origin hw with hentered | ⟨d, hd, hthread, hanswer⟩
    · exact hentered
    · exact absurd hthread (hnone d hd hanswer)
  by_cases hmade : ∃ d ∈ productions calls, d.answer = some id ∧ d.thread = t
  · -- only one call has made it, so the other thread has not
    obtain ⟨d, hd, hanswer, hthread⟩ := hmade
    have hnone : ∀ d' ∈ productions calls, d'.answer = some id → d'.thread ≠ u := by
      intro d' hd' hanswer' hthread'
      obtain rfl : d' = d := List.inj_on_of_nodup_map (h.nodup_productions hfew) hd' hd
        (hanswer'.trans hanswer.symm)
      exact htu (hthread.symm.trans hthread')
    exact ⟨u, .inr rfl, hentered hu hnone, hnone⟩
  · have hnone : ∀ d ∈ productions calls, d.answer = some id → d.thread ≠ t :=
      fun d hd hanswer hthread => hmade ⟨d, hd, hanswer, hthread⟩
    exact ⟨t, .inl rfl, hentered ht hnone, hnone⟩

end origin

/-! ### Ids are unique and belong to threads -/

/-- **Ids are unique and belong to threads.** In every run with fewer ids than a machine word
counts, whatever the threads do and in whatever order: an id that is made differs from all that were
made before; `current` gives a thread the id it has by its own calls, and `enter` gives that id
back. Between two calls of `current` a thread keeps its id if it enters none, whatever the others
do. If two threads have the same id, then one of them has entered it and not made it; where ids are
not made up, another thread has made it. -/
theorem ids_unique_thread_bound {c : Contexts} {calls : List Call} (h : Run c calls)
    (hfew : (productions calls).length < UInt64.size) :
    (∀ before e after, calls = before ++ e :: after →
      (produces before e.thread e.request = true →
        ∃ id, e.answer = some id ∧ ∀ d ∈ productions before, d.answer ≠ some id) ∧
      (e.request = .current → ∀ id, home before e.thread = some id → e.answer = some id) ∧
      ∀ id, e.request = .enter id → e.answer = home before e.thread) ∧
    (∀ before d between e after, calls = before ++ d :: (between ++ e :: after) →
      d.request = .current → e.request = .current → e.thread = d.thread →
      (∀ x ∈ between, x.thread = d.thread → ∀ id, x.request ≠ .enter id) →
      e.answer = d.answer) ∧
    (∀ thread, c.binding? thread = home calls thread) ∧
    ∀ t u id, t ≠ u → c.binding? t = some id → c.binding? u = some id →
      ∃ w, (w = t ∨ w = u) ∧ (∃ e ∈ calls, e.thread = w ∧ e.request = .enter id) ∧
        (∀ d ∈ productions calls, d.answer = some id → d.thread ≠ w) ∧
        (Genuine calls → ∃ d ∈ productions calls, d.answer = some id) := by
  refine ⟨fun before e after hcalls => ⟨fun hproduces => h.fresh hfew hcalls hproduces,
      fun hrequest id hhome => h.current_eq_home hcalls hrequest hhome,
      fun id hrequest => h.answer_eq_home hcalls (by rw [hrequest]; rfl)⟩,
    fun before d between e after hcalls hd he hthread hnone => ?_, h.binding?_eq_home,
    fun t u id htu ht hu => ?_⟩
  · obtain ⟨id, hanswer, hhome⟩ := h.home_of_current hcalls hd
    have hkept := home_append_of_not_entered hhome hnone
    rw [← hthread, List.append_assoc, List.singleton_append] at hkept
    have hsplit : calls = before ++ d :: between ++ e :: after := by
      rw [hcalls, List.append_assoc, List.cons_append]
    rw [hanswer]
    exact h.current_eq_home hsplit he hkept
  · rw [h.binding?_eq_home] at ht hu
    obtain ⟨w, hw, ⟨e, he, hthread, hrequest⟩, hnone⟩ := h.entered_of_shared hfew htu ht hu
    refine ⟨w, hw, ⟨e, he, hthread, hrequest⟩, hnone, fun hgenuine => ?_⟩
    obtain ⟨before, after, hcalls⟩ := List.append_of_mem he
    obtain ⟨d, hd, hanswer⟩ := hgenuine before e after id hcalls hrequest
    have hmem : d ∈ calls := by
      rw [hcalls]
      exact List.mem_append_left _ hd
    exact h.exists_production hgenuine d hmem hanswer

/-- Two threads ask for their ids, and then the second one enters that of the first. -/
theorem ids_unique_thread_bound_entered : ∃ (c : Contexts) (calls : List Call), Run c calls ∧
    (productions calls).length < UInt64.size ∧ Genuine calls ∧
    calls.map (·.answer) = [some ⟨1⟩, some ⟨2⟩, some ⟨2⟩] ∧
    c.binding? 0 = some ⟨1⟩ ∧ c.binding? 1 = some ⟨1⟩ ∧
    (∃ e ∈ calls, e.thread = 1 ∧ e.request = .enter ⟨1⟩) ∧
    ∃ d ∈ productions calls, d.answer = some ⟨1⟩ ∧ d.thread ≠ 1 := by
  let first : Call := ⟨0, .current, some ⟨1⟩⟩
  let calls : List Call := [first, ⟨1, .current, some ⟨2⟩⟩, ⟨1, .enter ⟨1⟩, some ⟨2⟩⟩]
  let c : Contexts := ⟨3, [(0, ⟨1⟩), (1, ⟨1⟩)]⟩
  have h : Run c calls := ((Run.nil.call 0 .current).call 1 .current).call 1 (.enter ⟨1⟩)
  have hfew : (productions calls).length < UInt64.size := by decide
  have hgenuine : Genuine calls := by
    intro before e after id hcalls hrequest
    have he : e ∈ calls := by
      rw [hcalls]
      simp
    have hid : ⟨1⟩ = id := by
      simp only [calls, first, List.mem_cons, List.not_mem_nil, or_false] at he
      rcases he with rfl | rfl | rfl
      · cases hrequest
      · cases hrequest
      · exact Request.enter.inj hrequest
    cases before with
    | nil =>
      obtain ⟨rfl, -⟩ := List.cons.inj hcalls
      cases hrequest
    | cons d before =>
      obtain ⟨rfl, -⟩ := List.cons.inj hcalls
      exact ⟨first, List.mem_cons_self, congrArg some hid⟩
  obtain ⟨-, -, -, hshared⟩ := ids_unique_thread_bound h hfew
  obtain ⟨w, hw, hentered, hnone, hmade⟩ := hshared 0 1 ⟨1⟩ (by decide) (by decide) (by decide)
  -- the first thread has made the id itself
  have hw : w = 1 := by
    rcases hw with rfl | rfl
    · exact absurd rfl (hnone first (by decide) rfl)
    · rfl
  subst hw
  obtain ⟨d, hd, hanswer⟩ := hmade hgenuine
  exact ⟨c, calls, h, hfew, hgenuine, rfl, by decide, by decide, hentered, d, hd, hanswer,
    hnone d hd hanswer⟩

end ConnectionLeasing.Contexts
