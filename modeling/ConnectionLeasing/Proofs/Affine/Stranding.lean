import ConnectionLeasing.Proofs.Affine.Leak
import ConnectionLeasing.Proofs.Affine.Opening
import Mathlib.Data.List.Perm.Subperm
import Mathlib.Data.List.Permutation

/-!
# Stranded connections

A connection is registered in the entry in which room was claimed for it. If everything was closed
while it opened, then nobody looks into that entry any more: the connection is lent, but its context
cannot release or close it, no sweep meets it, and it is not counted against the limit. Checks and
disconnects do not call back here.

* `resumeOpening_registers`: an opened connection has a new slot in the entry of its claim.
* `Stage.Pinned`, `Change.pinned`: the slot that holds a handle stays in its entry.
* `opened_found_iff`: the connection can be found exactly if nobody closed everything while it
  opened, and without such an overlap the open connections of an identity stay within the limit.
-/

namespace ConnectionLeasing.Affine

/-! ### The slot of a new connection -/

theorem resumeOpening_registers {g : Stage} (now : Nat) {e : Nat} {r : Request} {x : Connected}
    (hx : x.failure = none) (he : e < g.state.registry.entries.length)
    (hdis : ∀ id, g.state.slotIn? e r.context = some id → id < g.state.slots.length) :
    (resumeOpening g.state now r e x).1.registry.known = g.state.registry.known ∧
    (resumeOpening g.state now r e x).1.slotIn? e r.context = some g.state.slots.length ∧
    (resumeOpening g.state now r e x).1.handle? g.state.slots.length = some x.handle := by
  let g₁ := g.withState (g.state.note (.opened r.identity r.channel))
  have hslot : (g₁.register now r e x.handle).state.slotIn? e r.context =
      some g.state.slots.length := by
    rw [Stage.slotIn?_register (g := g₁) he, if_pos ⟨rfl, rfl⟩]
    rfl
  have hhandle : (g₁.register now r e x.handle).state.handle? g.state.slots.length =
      some x.handle := by
    rw [Stage.handle?_register]
    exact if_pos rfl
  rw [resumeOpening_eq g hx]
  dsimp only
  split
  · rename_i c hc
    obtain ⟨id, hid, hc⟩ := Option.bind_eq_some_iff.mp hc
    obtain ⟨_, _, hcid, _, _⟩ := State.anyClosing?_eq_some hc
    refine ⟨rfl, hslot, (State.handle?_beginClosing c _).trans ?_⟩
    rw [if_neg, hhandle]
    rw [hcid]
    exact Nat.ne_of_lt (hdis id hid)
  · exact ⟨rfl, hslot, hhandle⟩

/-! ### The entry of a handle -/

section change
variable {calm : Prop} {k : Command} {now : Nat} {g g' : Stage}

theorem Change.held (h : Change calm k now g g') (hc : calm) {id : Nat} {x : Handle}
    (hx : g'.state.handle? id = some x) :
    g.state.handle? id = some x ∨ ∀ p ∈ g.opened, p.2 ≠ x := by
  cases h with
  | register r e y hk hg hd he hh =>
    rw [Stage.handle?_register] at hx
    split at hx
    · cases hx
      exact .inr (hh hc)
    · exact .inl hx
  | idle id' hidle =>
    exact .inl ((State.handle?_mapSlot (f := (·.markIdle now)) (fun _ => rfl) id' id).symm.trans hx)
  | lend r id' hk hown =>
    exact .inl
      ((State.handle?_mapSlot (f := (·.markBorrowed now)) (fun _ => rfl) id' id).symm.trans hx)
  | move r e source id' hk hs hd hne he ho hl =>
    exact .inl ((Stage.handle?_move id).symm.trans hx)
  | take c hh ho hp hd hw hcl =>
    rw [Stage.handle?_take] at hx
    split at hx
    · cases hx
    · exact .inl hx
  | finish c failure hcl => exact .inl ((State.handle?_finishClosing c failure id).symm.trans hx)
  | silent | know | claim | cancel | forget | drain => exact .inl hx

theorem Change.opened (h : Change calm k now g g') : g.opened <+: g'.opened := by
  cases h with
  | register r e y hk hg hd he hh => exact List.prefix_append _ _
  | _ => exact List.prefix_refl _

/-- The handle was connected to the identity, and a slot that holds it is in the entry. -/
structure Stage.Pinned (i : Identity) (h : Handle) (e : Nat) (g : Stage) : Prop where
  home : g.homes[e]? = some i
  opened : (i, h) ∈ g.opened
  place : ∀ id, g.state.handle? id = some h → g.places[id]? = some e

variable {i : Identity} {h : Handle} {e : Nat}

theorem Change.pinned (hch : Change calm k now g g') (hc : calm) (hp : g.Pinned i h e) :
    g'.Pinned i h e where
  home := Stage.getElem?_of_isPrefix hch.grows.1 hp.home
  opened := hch.opened.subset hp.opened
  place id hh := by
    rcases hch.held hc hh with hh | hnew
    · exact Stage.getElem?_of_isPrefix hch.grows.2 (hp.place id hh)
    · exact absurd rfl (hnew _ hp.opened)

theorem Trail.pinned (ht : Trail calm k now g g') (hc : calm) (hp : g.Pinned i h e) :
    g'.Pinned i h e := by
  induction ht with
  | refl => exact hp
  | tail _ step ih => exact step.pinned hc ih

end change

section runs
variable {m m' : System} {g : Stage} {i : Identity} {h : Handle} {e : Nat} {r : Request}
  {x : Connected} {ks : List (Option Command)}

/-- Along a run the slot that holds a handle stays in its entry. The entry stays the known one as
long as it is in use and nobody closes everything, and once forgotten it stays forgotten. -/
theorem Run.pinned {stays : System → Prop} (hrun : Run .calm stays m ks m')
    (hm : Reachable .calm m) (hg : m.Good True g) (hp : g.Pinned i h e) :
    Reachable .calm m' ∧ ∃ g', m'.Good True g' ∧ g'.Pinned i h e ∧
      (some .closeAll ∉ ks → g.Anchored i e → g'.Anchored i e) ∧
      (m.state.registry.entryId? i ≠ some e → m'.state.registry.entryId? i ≠ some e) := by
  induction hrun with
  | refl => exact ⟨hm, g, hg, hp, fun _ h => h, fun h => h⟩
  | next _ hstep _ ih =>
    obtain ⟨hm₁, g₁, hg₁, hp₁, hanchored, hunknown⟩ := ih
    obtain ⟨g₂, hpassage⟩ := hg₁.next (fun _ _ _ h => h) hstep
    obtain ⟨claim, y, -, -, ht, -⟩ := hpassage.trail
    have hlt : e < _ := (List.getElem?_eq_some_iff.mp hp₁.home).1
    rw [hg₁.indexed.homes, hg₁.state] at hlt
    refine ⟨.next hm₁ hstep, g₂, hpassage.good, ht.pinned trivial ⟨hp₁.home, hp₁.opened, hp₁.place⟩,
      fun hks ha => ?_, fun h => (System.unknown_next hm₁ hstep hlt (hunknown h)).2⟩
    rw [List.mem_append, List.mem_singleton, not_or] at hks
    exact hpassage.anchored hg₁ hm₁.metered (fun h => hks.2 h.symm) (hanchored hks.1 ha)

/-- A connection that has been opened is in the entry of its claim, which is the known one exactly
if nobody closed everything meanwhile. -/
theorem Opens.pinned (ho : Opens r ks x m m') (hm : Reachable .calm m) (hx : x.failure = none) :
    Reachable .calm m' ∧ ∃ g e, m'.Good True g ∧ g.Pinned r.identity x.handle e ∧
      (m'.state.registry.entryId? r.identity = some e ↔ some .closeAll ∉ ks) := by
  cases ho with
  | @mk m₁ m₂ e produces timeout before later hmove hpause hrun hongoing hyields ha =>
    have ho : ⟨.borrow r, .opening r e produces timeout⟩ ∈ m₁.ongoing := by
      obtain ⟨seen, rest, step, rfl, hstep⟩ := hpause
      simp [System.moved, left, hstep]
    obtain ⟨hm₂, ho₂, hknown⟩ := hrun.known_iff (.next hm hmove) ho rfl (hpause.known hm hmove)
    obtain ⟨g₂, hg₂⟩ := hm₂.calm_good
    have hs := hg₂.sound trivial
    have hstep : Moves .calm m₂ _ _ := .resume m₂ before _ later x hongoing hyields ha
    obtain ⟨g₃, hpassage⟩ := hg₂.next (fun _ _ _ h => h) hstep
    have hs₃ := hpassage.good.sound trivial
    obtain ⟨claim, y, -, -, ht, -⟩ := hpassage.trail
    have hhome : g₂.homes[e]? = some r.identity := (hg₂.holds trivial _ ho₂).2
    have hlt : e < g₂.state.registry.entries.length := by
      rw [← hs.indexed.homes]
      exact (List.getElem?_eq_some_iff.mp hhome).1
    obtain ⟨hreg, hslot, hhandle⟩ := resumeOpening_registers m₂.now hx hlt
      fun id hid => State.lt_of_owner? (hs.placed.owner e r.context id hid)
    rw [show (resumeOpening g₂.state m₂.now r e x).1 = g₃.state by
      rw [hg₂.state, hpassage.good.state]; rfl] at hreg hslot hhandle
    refine ⟨.next hm₂ hstep, g₃, e, hpassage.good,
      ⟨Stage.getElem?_of_isPrefix ht.grows.1 hhome, ?_, fun id hid => ?_⟩, ?_⟩
    · rw [hpassage.good.opened]
      simp [System.opened, System.resumed, System.moved, Event.opened?, Call.opened?, hx]
    · rw [hs₃.accounted.once id _ _ hid hhandle]
      exact hs₃.placed.place e r.context _ hslot
    · rw [← hknown, ← hpassage.good.state, Registry.entryId?, hreg, hg₂.state]
      rfl

theorem Stage.Pinned.entry_eq (hp : g.Pinned i h e) (hs : g.Sound) {e' id : Nat} {c : ContextId}
    (hin : g.state.slotIn? e' c = some id) (hid : g.state.handle? id = some h) : e' = e := by
  have he : some e' = some e := (hs.placed.place e' c id hin).symm.trans (hp.place id hid)
  exact Option.some.inj he

theorem Stage.Pinned.known (hp : g.Pinned i h e) (hs : g.Sound) {j : Identity} {c : ContextId}
    {id : Nat} (hr : g.state.Registers j c id h) : g.state.registry.entryId? i = some e := by
  obtain ⟨e', he', hhome', hin⟩ := hs.of_slot? hr.1
  obtain rfl := hp.entry_eq hs hin hr.2
  have hj : some j = some i := hhome'.symm.trans hp.home
  cases hj
  exact he'

/-! ### The open connections of an identity -/

/-- An open connection is in a registered slot of an entry of its identity. -/
theorem System.Good.housed (hg : m.Good True g) (hh : h ∈ m.openFor i) :
    (i, h) ∈ g.opened ∧ ∃ e c id, g.homes[e]? = some i ∧ g.state.slotIn? e c = some id ∧
      g.state.handle? id = some h := by
  have hs := hg.sound trivial
  obtain ⟨hmem, hdis⟩ := List.mem_filter.mp hh
  have hdis : h ∉ m.disconnected := of_decide_eq_true hdis
  obtain ⟨⟨j, y⟩, hj, rfl⟩ := List.mem_map.mp hmem
  obtain ⟨hopened, hji⟩ := List.mem_filter.mp hj
  obtain rfl : j = i := of_decide_eq_true hji
  have ho : (j, y) ∈ g.opened := hg.opened ▸ hopened
  refine ⟨ho, ?_⟩
  rcases hs.accounted.asked _ ho with ⟨id, hid⟩ | hone
  · obtain ⟨e, c, hin⟩ := hs.placed.exists_slotIn? (hg.settled trivial) hid
    exact ⟨e, c, id, hs.home_of_opened ho hid (hs.placed.place e c id hin), hin, hid⟩
  · refine absurd (List.count_pos_iff.mp ?_) hdis
    rw [← hg.disconnected, hone]
    exact Nat.one_pos

/-- **The open connections of an identity stay within the limit**, unless everything is closed
while one of them opens. -/
theorem Reachable.openFor_le (hm : Reachable (.sparing i) m) :
    (m.openFor i).length ≤ m.state.settings.maxConnections := by
  obtain ⟨g, hg, ht⟩ := hm.tidy
  have hnodup : (m.openFor i).Nodup := by
    refine List.Nodup.filter _ (List.Nodup.sublist (List.filter_sublist.map _) ?_)
    rw [← hg.opened]
    exact (hg.sound trivial).accounted.nodup
  cases hopen : m.openFor i with
  | nil => exact Nat.zero_le _
  | cons h₀ rest =>
    obtain ⟨-, e, c, id, hhome, hin, -⟩ := hg.housed (i := i) (h := h₀) (by simp [hopen])
    -- all of them are in one entry
    have hsub : m.openFor i ⊆ (g.state.slotsOf e).filterMap (g.state.handle? ·.2) := by
      intro h hh
      obtain ⟨-, e', c', id', hhome', hin', hid'⟩ := hg.housed hh
      obtain rfl := ht.single e' e ⟨hhome', c', id', hin'⟩ ⟨hhome, c, id, hin⟩
      exact List.mem_filterMap.mpr ⟨(c', id'), Registry.mem_of_slotIn? hin', hid'⟩
    rw [← hopen]
    calc (m.openFor i).length
        ≤ ((g.state.slotsOf e).filterMap (g.state.handle? ·.2)).length :=
          (List.Nodup.subperm hnodup hsub).length_le
      _ ≤ (g.state.slotsOf e).length := List.length_filterMap_le _ _
      _ = m.state.registry.sizeIn e := by rw [hg.state]; rfl
      _ ≤ m.state.settings.maxConnections := by have := (hm.metered e).2; omega

/-! ### What becomes of a connection that was opened -/

/-- **A connection can be found exactly if nobody closed everything while it opened.** When its
borrow has returned it is open in any case. If nobody closed everything meanwhile, it is registered
for the borrower; otherwise it is stranded, and it is never registered for anybody again. Unless
everything is closed while a connection of an identity opens, the open connections of the identity
stay within the limit. -/
theorem opened_found_iff (hm : Reachable .calm m) (ho : Opens r ks x m m') (hx : x.failure = none) :
    (∀ ks' m'', Run .calm (fun _ => True) m' ks' m'' →
      (m''.events.getLast? = some (.returned (.borrow r) (.lent x.handle)) →
        x.handle ∉ m''.disconnected ∧ (some .closeAll ∉ ks' →
          ((∃ id, m''.state.Registers r.identity r.context id x.handle) ↔
            some .closeAll ∉ ks))) ∧
      (some .closeAll ∈ ks → ∀ j c id, ¬ m''.state.Registers j c id x.handle)) ∧
    ∀ i m, Reachable (.sparing i) m → (m.openFor i).length ≤ m.state.settings.maxConnections := by
  refine ⟨fun ks' m'' hrun => ?_, fun i m hm => hm.openFor_le⟩
  obtain ⟨hm', g', e, hg', hp', hiff⟩ := ho.pinned hm hx
  obtain ⟨-, g, hg, hp, hanchored, hunknown⟩ := hrun.pinned hm' hg' hp'
  have hs := hg.sound trivial
  have hstranded : some .closeAll ∈ ks → ∀ j c id, ¬ m''.state.Registers j c id x.handle := by
    intro hks j c id hr
    rw [← hg.state] at hr
    refine hunknown (fun h => hiff.mp h hks) ?_
    rw [← hg.state]
    exact hp.known hs hr
  refine ⟨fun hlast => ?_, hstranded⟩
  obtain ⟨e', id, hhome, hin, hid, -⟩ := hg.lent trivial r x.handle hlast
  obtain rfl := hp.entry_eq hs hin hid
  refine ⟨hg.disconnected ▸ hs.accounted.unasked id _ hid, fun hks' => ⟨fun hr hks => ?_,
    fun hks => ⟨id, ?_⟩⟩⟩
  · obtain ⟨id', hr⟩ := hr
    exact hstranded hks _ _ _ hr
  · have hknown : g.state.registry.entryId? r.identity = some e' := by
      refine hanchored hks' (fun _ _ => ?_) hhome (.inl ⟨_, id, hin⟩)
      rw [hg'.state]
      exact hiff.mpr hks
    rw [← hg.state]
    exact ⟨(Registry.slot?_entry hknown _).trans hin, hid⟩

/-- A connection that opens while a sweep runs. -/
theorem opened_found_iff_swept : ∃ (m : System) (r : Request) (x : Connected),
    m.disconnected = [] ∧ (∃ id, m.state.Registers r.identity r.context id x.handle) ∧
      (m.openFor r.identity).length ≤ m.state.settings.maxConnections := by
  let r : Request := ⟨⟨"host", 22, "user", "secret"⟩, ⟨1⟩, .sftp⟩
  let o : Ongoing := ⟨.borrow r, .opening r 0 .sftp (.ofMillis 5000)⟩
  let x : Connected := ⟨⟨1, .sftp⟩, none⟩
  let m₀ := System.initial { maxConnections := 1 } .faithful 0
  let m₁ := m₀.started (.borrow r)
  let m₂ := m₁.started .sweep
  let m₃ := m₂.resumed o x []
  have hborrow : Moves .orderly m₀ _ m₁ := .start m₀ (.borrow r) fun o ho => by cases ho
  have hyields : ∀ p ∈ m₁.ongoing, p.frame.call.yields := by
    intro p hp
    rw [List.mem_singleton.mp (show p ∈ [o] from hp)]
    rfl
  have hsweep : Moves .orderly m₁ _ m₂ := .start m₁ .sweep fun p hp _ =>
    ⟨hyields p hp, fun _ _ _ => Command.noConfusion⟩
  have hongoing : m₂.ongoing = [] ++ o :: [] := by cbv
  have hopened : Moves .orderly m₂ _ m₃ := .resume m₂ [] o [] x hongoing (by simp) ⟨by decide, rfl⟩
  have hcalm : ∀ call k, Overlap.orderly call k → Overlap.calm call k := fun _ _ h =>
    (h r.identity).1
  have hrun : Run .calm (o ∈ ·.ongoing) m₁ [some .sweep] m₂ := by
    refine .next (.refl m₁) (hsweep.mono hcalm) ?_
    rw [hongoing]
    exact List.mem_singleton_self _
  have hopens : Opens r [some .sweep] x m₀ m₃ :=
    .mk [] [] (hborrow.mono hcalm) ⟨_, _, _, rfl, rfl⟩ hrun hongoing (by simp) ⟨by decide, rfl⟩
  have hm₃ : Reachable .orderly m₃ :=
    .next (.next (.next (.initial _ _ 0) hborrow) hsweep) hopened
  obtain ⟨hfound, hlimit⟩ := opened_found_iff (.initial _ _ 0) hopens rfl
  obtain ⟨-, hiff⟩ := (hfound [] m₃ (.refl m₃)).1 (by cbv)
  exact ⟨m₃, r, x, by cbv, (hiff (by simp)).mpr (by simp),
    hlimit r.identity m₃ (hm₃.mono fun _ _ h => h r.identity)⟩

/-- Everything is closed while the one connection opens that there is room for. It is lent, and its
context cannot find it; another one opens beside it. -/
theorem stranded_above_limit : ∃ (m m' m'' : System) (r : Request) (x : Connected)
    (ks ks' : List (Option Command)), Reachable .calm m ∧ Opens r ks x m m' ∧ x.failure = none ∧
    m'.events.getLast? = some (.returned (.borrow r) (.lent x.handle)) ∧
    x.handle ∉ m'.disconnected ∧ m'.state.registry.slot? r.identity r.context = none ∧
    Run .calm (fun _ => True) m' ks' m'' ∧
    m''.state.settings.maxConnections < (m''.openFor r.identity).length := by
  let r (c : Nat) : Request := ⟨⟨"host", 22, "user", "secret"⟩, ⟨c⟩, .sftp⟩
  let o (c e : Nat) : Ongoing := ⟨.borrow (r c), .opening (r c) e .sftp (.ofMillis 5000)⟩
  let x (n : Nat) : Connected := ⟨⟨n, .sftp⟩, none⟩
  let m₀ := System.initial { maxConnections := 1 } .faithful 0
  let m₁ := m₀.started (.borrow (r 1))
  let m₂ := m₁.started .closeAll
  let m₃ := m₂.resumed (o 1 0) (x 1) []
  let m₄ := m₃.started (.borrow (r 2))
  let m₅ := m₄.resumed (o 2 1) (x 2) []
  have hborrow : Moves .calm m₀ _ m₁ := .start m₀ (.borrow (r 1)) fun o ho => by cases ho
  have hyields : m₁.ongoing.all (·.frame.call.yields) = true := by decide
  have hclose : Moves .calm m₁ _ m₂ := .start m₁ .closeAll (List.all_eq_true.mp hyields)
  have hongoing : m₂.ongoing = [] ++ o 1 0 :: [] := by cbv
  have hrun : Run .calm (o 1 0 ∈ ·.ongoing) m₁ [some .closeAll] m₂ := by
    refine .next (.refl m₁) hclose ?_
    rw [hongoing]
    exact List.mem_singleton_self _
  have hopens : Opens (r 1) [some .closeAll] (x 1) m₀ m₃ :=
    .mk [] [] hborrow ⟨_, _, _, rfl, rfl⟩ hrun hongoing (by simp) ⟨by decide, rfl⟩
  have hborrow' : Moves .calm m₃ _ m₄ := .start m₃ (.borrow (r 2)) fun o ho =>
    absurd (List.length_pos_of_mem ho) (by decide)
  have hongoing' : m₄.ongoing = [] ++ o 2 1 :: [] := by cbv
  have hopened' : Moves .calm m₄ (some (.borrow (r 2))) m₅ :=
    .resume m₄ [] (o 2 1) [] (x 2) hongoing' (by simp) ⟨by decide, rfl⟩
  exact ⟨m₀, m₃, m₅, r 1, x 1, _, _, .initial _ _ 0, hopens, rfl, by cbv, by decide, by decide,
    .next (.next (.refl m₃) hborrow' trivial) hopened' trivial, by decide⟩

end runs

end ConnectionLeasing.Affine
