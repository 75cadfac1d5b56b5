import ConnectionLeasing.Proofs.Affine.Passage

/-!
# A lease is exclusive

A borrow that returns a handle has leased it to its context. While checks and disconnects do not
call back, the lease lasts until the context itself asks for something, everything is closed, or the
connection has been lent for too long and is found to be.

* `Change.leased`: each change by another operation leaves the leased slot as it is, or marks it
  idle because it is overdue; and `Change.idle_stays` that such a slot is not lent again by the same
  operation.
* `lease_exclusive`: from the return of the handle on, as long as nothing ends the lease, the handle
  is neither lent again nor asked to disconnect.
-/

namespace ConnectionLeasing.Affine

/-- Whether a command ends the lease of a context when it moves: it asks for something to be done
with the context's slot, or closes everything. -/
def Command.endsLease (i : Identity) (c : ContextId) : Command → Prop
  | .borrow r => r.identity = i ∧ r.context = c
  | .release j d | .close j d => j = i ∧ d = c
  | .closeAll => True
  | .tell _ | .tick | .sweep => False

/-! ### The leased slot in the middle of an operation -/

namespace Stage

/-- Slot `id` of entry `e` holds the handle that is leased to a context. -/
structure Leased (i : Identity) (c : ContextId) (h : Handle) (e id : Nat) (g : Stage) : Prop where
  home : g.homes[e]? = some i
  slot : g.state.slotIn? e c = some id
  handle : g.state.handle? id = some h
  lent : g.state.isLent id = true

variable {i : Identity} {c : ContextId} {h : Handle} {e id : Nat} {g g' : Stage}

theorem Lent.leased (hl : g.Lent i c h) : ∃ e id, g.Leased i c h e id := by
  obtain ⟨e, id, he, hs, hh, hb⟩ := hl
  exact ⟨e, id, he, hs, hh, hb⟩

theorem Leased.same (hl : g.Leased i c h e id) (hhomes : g.homes <+: g'.homes)
    (hin : g'.state.slotIn? e c = g.state.slotIn? e c)
    (hslot : g'.state.slot? id = g.state.slot? id) : g'.Leased i c h e id where
  home := getElem?_of_isPrefix hhomes hl.home
  slot := hin.trans hl.slot
  handle := by
    rw [State.handle?, hslot]
    exact hl.handle
  lent := by
    rw [State.isLent, hslot]
    exact hl.lent

theorem Leased.caller (hl : g.Leased i c h e id) (hs : g.Placed) {k : Command}
    (hown : g.Own k id) : k.caller? = some (i, c) := by
  obtain ⟨i', c', e', hk, hhome, hslot⟩ := hown
  obtain ⟨rfl, rfl⟩ := hs.slotIn?_inj hl.slot hslot
  have hi : some i' = some i := hhome.symm.trans hl.home
  cases hi
  exact hk

theorem Leased.unique (hl : g.Leased i c h e id) (hs : g.Sound) {j : Identity} {d : ContextId}
    (hj : g.Lent j d h) : j = i ∧ d = c := by
  obtain ⟨e', id', hhome, hslot, hhandle, -⟩ := hj
  obtain rfl : id' = id := hs.accounted.once _ _ h hhandle hl.handle
  obtain ⟨rfl, rfl⟩ := hs.placed.slotIn?_inj hl.slot hslot
  have hi : some j = some i := hhome.symm.trans hl.home
  cases hi
  exact ⟨rfl, rfl⟩

end Stage

theorem State.isOverdue_congr {s s' : State} {now id : Nat} (hslot : s'.slot? id = s.slot? id)
    (hsettings : s'.settings = s.settings) : s'.isOverdue now id = s.isOverdue now id := by
  rw [State.isOverdue, State.isOverdue, hslot, State.policy, State.policy, hsettings]

section change
variable {k : Command} {now : Nat} {i : Identity} {c : ContextId} {h : Handle} {e id : Nat}
  {g g' : Stage}

theorem Command.not_acts (hk : ¬ k.endsLease i c) (hcaller : k.caller? = some (i, c)) :
    k.acts = false := by
  cases k with
  | borrow r =>
    cases hcaller
    exact absurd ⟨rfl, rfl⟩ hk
  | release j d | close j d =>
    cases hcaller
    exact absurd ⟨rfl, rfl⟩ hk
  | tell a | tick | sweep | closeAll => rfl

section leased
variable (hl : g.Leased i c h e id) (hk : ¬ k.endsLease i c)
include hl hk

theorem Stage.Leased.not_borrower {r : Request} {e' : Nat} (hborrow : k = .borrow r)
    (hhome : g.homes[e']? = some r.identity) : ¬ (e' = e ∧ r.context = c) := by
  subst hborrow
  rintro ⟨rfl, rfl⟩
  have hi : some r.identity = some i := hhome.symm.trans hl.home
  exact hk ⟨Option.some.inj hi, rfl⟩

theorem Stage.Leased.not_lent (hs : g.Sound) {r : Request} (hborrow : k = .borrow r)
    (hown : g.Own k id) : False := by
  have hacts := Command.not_acts hk (hl.caller hs.placed hown)
  rw [hborrow] at hacts
  cases hacts

theorem Stage.Leased.overdue_of_idle (hs : g.Sound)
    (hidle : (g.Own k id ∧ ∃ i c, k = .release i c) ∨
      (g.Own k id ∨ k.sweeps) ∧ g.state.isOverdue now id) :
    g.state.isOverdue now id ∧ k.acts = false := by
  rcases hidle with ⟨hown, j, d, rfl⟩ | ⟨hown | hsweeps, hover⟩
  · have hacts := Command.not_acts hk (hl.caller hs.placed hown)
    cases hacts
  · exact ⟨hover, Command.not_acts hk (hl.caller hs.placed hown)⟩
  · refine ⟨hover, ?_⟩
    cases k <;> first | rfl | cases hsweeps

theorem Stage.Leased.not_taken (hs : g.Sound)
    (hw : g.state.isLent id = false ∨ (g.Own k id ∧ k.acts) ∨ g.displaced = some id ∨
      k = .closeAll) : False := by
  rcases hw with hidle | ⟨hown, hacts⟩ | hdisplaced | rfl
  · rw [hl.lent] at hidle
    cases hidle
  · rw [Command.not_acts hk (hl.caller hs.placed hown)] at hacts
    cases hacts
  · exact (hs.placed.displaced _ hdisplaced).1 e c hl.slot
  · exact hk trivial

end leased

/-- What another operation does to a leased slot: nothing, or it marks the slot idle because it is
overdue. -/
theorem Change.leased (hchange : Change True k now g g') (hs : g.Sound)
    (hk : ¬ k.endsLease i c) (hl : g.Leased i c h e id) :
    (g'.Leased i c h e id ∧ g'.state.isOverdue now id = g.state.isOverdue now id) ∨
      (g.state.isOverdue now id ∧ g'.state.isLent id = false ∧ k.acts = false) := by
  have same : g'.state.slotIn? e c = g.state.slotIn? e c →
      g'.state.slot? id = g.state.slot? id → g'.state.settings = g.state.settings →
      (g'.Leased i c h e id ∧ g'.state.isOverdue now id = g.state.isOverdue now id) ∨
      (g.state.isOverdue now id ∧ g'.state.isLent id = false ∧ k.acts = false) :=
    fun hin hslot hset =>
      .inl ⟨hl.same hchange.grows.1 hin hslot, State.isOverdue_congr hslot hset⟩
  cases hchange with
  | silent observers ledger journal => exact same rfl rfl rfl
  | know j hn => exact same (Registry.slotIn?_ensure e c) rfl rfl
  | claim j e' hn room hg => exact same (Registry.slotIn?_claim e c) rfl rfl
  | cancel e' hg => exact same (Registry.slotIn?_cancel e c) rfl rfl
  | register r e' x hk' hg hd he hh =>
    have he' := he trivial
    have hlt : e' < g.state.registry.entries.length := by
      rw [← hs.indexed.homes]
      exact (List.getElem?_eq_some_iff.mp he').1
    refine same ?_ ?_ rfl
    · rw [Stage.slotIn?_register hlt, if_neg (hl.not_borrower hk (hk' trivial) he')]
    · rw [Stage.slot?_register, if_neg (Nat.ne_of_lt (State.lt_of_handle? hl.handle))]
  | idle id' hidle =>
    by_cases hid : id' = id
    · subst hid
      obtain ⟨hover, hacts⟩ := hl.overdue_of_idle hk hs (hidle trivial)
      obtain ⟨y, hy, -⟩ := State.slot?_of_handle? hl.handle
      refine .inr ⟨hover, ?_, hacts⟩
      show ((g.state.mapSlot id' (·.markIdle now)).slot? id').any (·.borrowed) = false
      rw [State.slot?_mapSlot_self, hy]
      rfl
    · exact same rfl (State.slot?_mapSlot_of_ne _ _ hid) rfl
  | lend r id' hk' hown =>
    have hid : id' ≠ id := fun heq => hl.not_lent hk hs (hk' trivial) (heq ▸ hown trivial)
    exact same rfl (State.slot?_mapSlot_of_ne _ _ hid) rfl
  | move r e' source id' hk' hslot hd hne he ho hidle =>
    have hid : id' ≠ id := by
      rintro rfl
      exact Bool.false_ne_true ((hidle trivial).symm.trans hl.lent)
    refine same ?_ (State.slot?_mapSlot_of_ne _ _ hid) rfl
    rw [Stage.slotIn?_move hslot, if_neg (hl.not_borrower hk (hk' trivial) (he trivial)), if_neg]
    rintro ⟨-, -, hin⟩
    exact hid (Option.some.inj (hin.symm.trans hl.slot))
  | take x hh ho hp hd hw hc =>
    have hid : x.slot ≠ id := fun heq => hl.not_taken hk hs (heq ▸ hw trivial)
    exact same rfl (State.slot?_mapSlot_of_ne _ _ hid) rfl
  | finish x failure hx =>
    have hid : x.slot ≠ id := by
      rintro rfl
      exact Option.some_ne_none h (hl.handle.symm.trans (hs.placed.closing x hx).1)
    refine same ?_ ?_ (by cases failure <;> rfl)
    · refine (State.slotIn?_finishClosing x failure e c).trans (if_neg ?_)
      rintro ⟨-, -, hin⟩
      exact hid (Option.some.inj (hin.symm.trans hl.slot))
    · refine (State.slot?_finishClosing x failure id).trans ?_
      exact State.slot?_mapSlot_of_ne _ _ hid
  | forget j e' hf => exact same rfl rfl rfl
  | drain hk' =>
    rw [hk'] at hk
    exact absurd trivial hk

theorem Change.idle_stays (hchange : Change True k now g g') (hk : k.acts = false)
    (hidle : g.state.isLent id = false) : g'.state.isLent id = false := by
  have map : ∀ {f : Slot → Slot} (other : Nat), (∀ x : Slot, x.borrowed = false →
      (f x).borrowed = false) → (g.state.mapSlot other f).isLent id = false := by
    intro f other hf
    rw [State.isLent, State.slot?_mapSlot]
    split
    · rw [State.isLent] at hidle
      cases hy : g.state.slot? id with
      | none => rfl
      | some y =>
        rw [hy] at hidle
        exact hf y hidle
    · exact hidle
  have hborrow : ∀ {r : Request}, k ≠ .borrow r := by
    rintro r rfl
    cases hk
  cases hchange with
  | register r e' x hk' hg hd he hh => exact absurd (hk' trivial) hborrow
  | lend r id' hk' hown => exact absurd (hk' trivial) hborrow
  | move r e' source id' hk' hslot hd hne he ho hl => exact absurd (hk' trivial) hborrow
  | idle id' hi => exact map id' fun _ _ => rfl
  | take x hh ho hp hd hw hc => exact map x.slot fun _ hy => hy
  | finish x failure hx =>
    show ((g.state.finishClosing x failure).slot? id).any (·.borrowed) = false
    rw [State.slot?_finishClosing]
    exact map x.slot fun _ _ => rfl
  | silent | know | claim | cancel | forget | drain => exact hidle

theorem Trail.leased (ht : Trail True k now g g') (hs : g.Sound) (hk : ¬ k.endsLease i c)
    (hl : g.Leased i c h e id) :
    (g'.Leased i c h e id ∧ g'.state.isOverdue now id = g.state.isOverdue now id) ∨
      (g.state.isOverdue now id ∧ g'.state.isLent id = false ∧ k.acts = false) := by
  induction ht with
  | refl => exact .inl ⟨hl, rfl⟩
  | tail trail step ih =>
    rcases ih with ⟨hleased, hover⟩ | ⟨hover, hidle, hacts⟩
    · rw [← hover]
      exact step.leased (Trail.sound trivial trail hs) hk hleased
    · exact .inr ⟨hover, step.idle_stays hacts hidle, hacts⟩

end change

/-! ### Runs -/

/-- A move that finds the connection lent out for too long and takes it back. -/
def System.Evicts (m m' : System) (h : Handle) : Prop :=
  ∃ id, m.state.handle? id = some h ∧ m.state.isOverdue m.now id = true ∧
    m'.state.isLent id = false

/-- The runs in which nothing ends the lease of a handle to a context. -/
inductive Undisturbed (may : Overlap) (i : Identity) (c : ContextId) (h : Handle) :
    System → System → Prop
  | refl (m : System) : Undisturbed may i c h m m
  | next {m m' m'' : System} {k : Option Command} : Undisturbed may i c h m m' →
      Moves may m' k m'' → (∀ x ∈ k, ¬ x.endsLease i c) → ¬ m'.Evicts m'' h →
      Undisturbed may i c h m m''

section runs
variable {m m' : System} {k : Option Command} {i : Identity} {c : ContextId} {h : Handle}
  {e id : Nat} {g : Stage}

/-- One move of a run in which nothing ends the lease. -/
theorem System.Good.leased (hg : m.Good True g) (hmove : Moves .calm m k m')
    (hk : ∀ x ∈ k, ¬ x.endsLease i c) (hevicts : ¬ m.Evicts m' h) (hl : g.Leased i c h e id) :
    ∃ g', m'.Good True g' ∧ g'.Leased i c h e id ∧ ∃ E, m'.events = m.events ++ E ∧
      ∀ ev ∈ E, ev.disconnected? ≠ some h ∧ ev.lent? ≠ some h := by
  obtain ⟨g', hgood, ⟨claim, x, hx, -, ht, -⟩, -, E, hE, hlent⟩ := hg.next (fun _ _ _ h => h) hmove
  have hk' : ¬ (k.getD .tick).endsLease i c := by
    cases k with
    | none => exact not_false
    | some k => exact hk k rfl
  have hstart : { g with claim, closing := x }.Leased i c h e id :=
    ⟨hl.home, hl.slot, hl.handle, hl.lent⟩
  have hl' : g'.Leased i c h e id := by
    rcases ht.leased ((hg.sound trivial).inHand claim (hx trivial)) hk' hstart with
      ⟨hl', -⟩ | ⟨hover, hidle, -⟩
    · exact hl'
    · refine absurd ⟨id, ?_, ?_, ?_⟩ hevicts
      · rw [← hg.state]
        exact hl.handle
      · rw [← hg.state]
        exact hover
      · rw [← hgood.state]
        exact hidle
  refine ⟨g', hgood, hl', E, hE, fun ev hev => ⟨fun hdis => ?_, fun hret => ?_⟩⟩
  · refine (hgood.sound trivial).accounted.unasked id h hl'.handle ?_
    rw [hgood.disconnected, System.disconnected, hE]
    exact List.mem_filterMap.mpr ⟨ev, List.mem_append_right _ hev, hdis⟩
  · obtain ⟨r, rfl, hr⟩ := hlent trivial ev hev h hret
    exact hk _ rfl (hl'.unique (hgood.sound trivial) hr)

theorem Undisturbed.leased (hrun : Undisturbed .calm i c h m m') (hg : m.Good True g)
    (hl : g.Leased i c h e id) :
    ∃ g', m'.Good True g' ∧ g'.Leased i c h e id ∧ ∃ E, m'.events = m.events ++ E ∧
      ∀ ev ∈ E, ev.disconnected? ≠ some h ∧ ev.lent? ≠ some h := by
  induction hrun with
  | refl => exact ⟨g, hg, hl, [], (List.append_nil _).symm, by simp⟩
  | next _ hstep hk hevicts ih =>
    obtain ⟨g₁, hg₁, hl₁, E₁, hE₁, hev₁⟩ := ih
    obtain ⟨g₂, hg₂, hl₂, E₂, hE₂, hev₂⟩ := hg₁.leased hstep hk hevicts hl₁
    refine ⟨g₂, hg₂, hl₂, E₁ ++ E₂, by rw [hE₂, hE₁, List.append_assoc], fun ev hmem => ?_⟩
    rcases List.mem_append.mp hmem with hmem | hmem
    · exact hev₁ ev hmem
    · exact hev₂ ev hmem

/-- **A lease is exclusive.** Once a borrow has returned a handle, no operation is lent it and none
disconnects it, until its own context asks for something again, everything is closed, or the
connection is found to have been lent for too long. -/
theorem lease_exclusive {m m₁ m₂ : System} {r : Request} {seen : List Event}
    (hm : Reachable .calm m) (hmove : Moves .calm m (some (.borrow r)) m₁)
    (hlent : m₁.events = m.events ++ seen ++ [.returned (.borrow r) (.lent h)])
    (hrun : Undisturbed .calm r.identity r.context h m₁ m₂) :
    ∃ E, m₂.events = m₁.events ++ E ∧
      ∀ ev ∈ E, ev.disconnected? ≠ some h ∧ ev.lent? ≠ some h := by
  obtain ⟨g, hg⟩ := hm.calm_good
  obtain ⟨g₁, hg₁, -, -, E, hE, hlent'⟩ := hg.next (fun _ _ _ h => h) hmove
  have hE' : E = seen ++ [.returned (.borrow r) (.lent h)] := by
    rw [hE, List.append_assoc] at hlent
    exact List.append_cancel_left hlent
  obtain ⟨r', hr, hl⟩ := hlent' trivial (.returned (.borrow r) (.lent h)) (by simp [hE']) h rfl
  cases hr
  obtain ⟨e, id, hl⟩ := hl.leased
  obtain ⟨-, -, -, hevents⟩ := hrun.leased hg₁ hl
  exact hevents

/-- A connection that was just lent, while another context borrows and a sweep runs. -/
theorem lease_exclusive_swept : ∃ (m₁ m₂ : System) (h : Handle) (E : List Event),
    m₁.events.length + 2 = m₂.events.length ∧ m₂.events = m₁.events ++ E ∧
      ∀ ev ∈ E, ev.disconnected? ≠ some h ∧ ev.lent? ≠ some h := by
  let r : Request := ⟨⟨"host", 22, "user", "secret"⟩, ⟨1⟩, .sftp⟩
  let o : Ongoing := ⟨.borrow r, .opening r 0 .sftp (.ofMillis 5000)⟩
  let x : Connected := ⟨⟨1, .sftp⟩, none⟩
  let m := (System.initial {} .faithful 0).started (.borrow r)
  let m₁ := m.resumed o x []
  let m₂ := m₁.started (.borrow { r with context := ⟨2⟩ })
  let m₃ := m₂.started .sweep
  have hm : Reachable .calm m :=
    .next (.initial {} .faithful 0) (.start _ _ fun o ho => by cases ho)
  have hmove : Moves .calm m (some (.borrow r)) m₁ :=
    .resume m [] o [] x rfl (by simp) ⟨by decide, rfl⟩
  have hlent : m₁.events = m.events ++ [.answered o.command o.frame.call x] ++
      [.returned (.borrow r) (.lent x.handle)] := rfl
  -- nothing is in progress, then only the opening of the other context
  have hborrow : Moves .calm m₁ _ m₂ := .start m₁ _ fun o ho => by cases ho
  have hyields : m₂.ongoing.all (·.frame.call.yields) = true := by decide
  have hsweep : Moves .calm m₂ (some .sweep) m₃ := .start m₂ _ (List.all_eq_true.mp hyields)
  have kept : ∀ {m m' : System}, m.state.slots.length = 1 → m'.state.isLent 0 = true →
      ¬ m.Evicts m' x.handle := by
    rintro m m' hlen hlent ⟨id, hhandle, -, hidle⟩
    have hlt := State.lt_of_handle? hhandle
    obtain rfl : id = 0 := by omega
    rw [hlent] at hidle
    cases hidle
  have hrun : Undisturbed .calm r.identity r.context x.handle m₁ m₃ := by
    refine .next (.next (.refl m₁) hborrow ?_ (kept (by decide) (by decide))) hsweep ?_
      (kept (by decide) (by decide))
    · rintro k ⟨⟩ ⟨-, hc⟩
      cases hc
    · rintro k ⟨⟩ hk
      exact hk
  obtain ⟨E, hE, hev⟩ := lease_exclusive hm hmove hlent hrun
  exact ⟨m₁, m₃, x.handle, E, by decide, hE, hev⟩

end runs

end ConnectionLeasing.Affine
