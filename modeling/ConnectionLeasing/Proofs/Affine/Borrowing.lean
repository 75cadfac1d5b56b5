import ConnectionLeasing.Proofs.Affine.Outcome

/-!
# A borrow as a trail of changes

The walk of a borrow through its three places, function by function in the order of its definition.

* `outcome_claim`: a new connection is opened in claimed room, or the borrow is refused.
* `outcome_takeOver`, `outcome_resumeOther`: an idle slot of another context moves over only if it
  is still idle and usable.
* `outcome_reuse`, `outcome_resumeOwn`, `outcome_resumeOwnAgain`: the own slot is lent or closed.
* `outcome_resumeOpening_of_failure`, `outcome_resumeOpening`: claimed room is given back, or holds
  the new slot.
-/

namespace ConnectionLeasing

namespace Registry

variable {r r' : Registry} {i : Identity} {max e id : Nat} {c d : ContextId}
  {displaced : Option Nat}

theorem reserve_of_some (h : r.entryId? i = some e) :
    r.reserve i max = if (r.entry e).hasRoom max then (r.claim e, some e) else (r, none) := by
  rw [reserve, ensure_of_some h]
  rfl

theorem reserve_ensure (h : r.entryId? i = none) :
    (r.ensure i).1.reserve i max = r.reserve i max := by
  have hsome : (r.ensure i).1.entryId? i = some (r.ensure i).2 := by
    rw [ensure_of_none h]
    exact Keyed.get?_put_self _ _ _
  rw [reserve_of_some hsome]
  rfl

theorem reassign?_eq_some (h : r.reassign? e c d id = some (r', displaced)) :
    r.slotIn? e c = some id ∧ r' = ((r.detach e c id).insert e d id).1 ∧
      displaced = (r.detach e c id).slotIn? e d := by
  unfold reassign? at h
  split at h
  · rename_i hs
    cases h
    exact ⟨hs, rfl, rfl⟩
  · cases h

end Registry

namespace Affine

namespace Stage

variable {g : Stage} {i : Identity} {e : Nat}

theorem Sound.home (h : g.Sound) (hi : g.state.registry.entryId? i = some e) :
    g.homes[e]? = some i :=
  h.indexed.home _ (Keyed.mem_of_get? hi)

theorem Sound.made_slotsOf (h : g.Sound) (e : Nat) : g.Made e (g.state.slotsOf e) := fun _ hp =>
  h.placed.place e _ _ (Registry.slotIn?_of_mem h.indexed.keys hp)

theorem Lent.take {c : ContextId} {h : Handle} {x : Closing} (hl : g.Lent i c h) (hs : g.Placed)
    (hd : g.displaced = some x.slot) : (g.take x).Lent i c h := by
  obtain ⟨e, id, he, hr, hh, hb⟩ := hl
  have hne : x.slot ≠ id := fun hid => (hs.displaced _ hd).1 e c (hid ▸ hr)
  refine ⟨e, id, he, hr, ?_, ?_⟩
  · rw [handle?_take, if_neg hne]
    exact hh
  · show ((g.state.beginClosing x).slot? id).any (·.borrowed) = true
    rw [State.beginClosing, State.slot?_mapSlot, if_neg hne]
    exact hb

theorem lent_register {now : Nat} {r : Request} {h : Handle}
    (hl : e < g.state.registry.entries.length) (he : g.homes[e]? = some r.identity) :
    (g.register now r e h).Lent r.identity r.context h := by
  refine ⟨e, g.state.slots.length, he, ?_, ?_, ?_⟩
  · rw [slotIn?_register hl, if_pos ⟨rfl, rfl⟩]
  · rw [handle?_register, if_pos rfl]
  · rw [State.isLent, slot?_register, if_pos rfl]
    rfl

theorem lent_move {now id : Nat} {r : Request} {source : ContextId} {h : Handle}
    (hs : g.state.slotIn? e source = some id) (he : g.homes[e]? = some r.identity)
    (hh : g.state.handle? id = some h) :
    (g.move now r e source id).Lent r.identity r.context h := by
  refine ⟨e, id, he, ?_, (handle?_move id).trans hh, ?_⟩
  · rw [slotIn?_move hs, if_pos ⟨rfl, rfl⟩]
  · obtain ⟨y, hy, -⟩ := State.slot?_of_handle? hh
    show ((g.state.mapSlot id (·.takenOver r.context now)).slot? id).any (·.borrowed) = true
    rw [State.slot?_mapSlot_self, hy]
    rfl

end Stage

section
variable {calm : Prop} {k : Command} {now : Nat} {D : List Handle} {O : List (Identity × Handle)}
  {g : Stage} {r : Request}

/-! ### A new connection -/

theorem outcome_claim_of_known {e : Nat} (hg : g.Ready calm D O) (hk : calm → k = .borrow r)
    (hi : g.state.registry.entryId? r.identity = some e) :
    Outcome calm k now D O g (claim g.state r) := by
  unfold claim
  rw [Registry.reserve_of_some hi]
  by_cases room : (g.state.registry.entry e).hasRoom g.state.settings.maxConnections
  · rw [if_pos room]
    have hclaim : Change calm k now g
        { g.withRegistry (g.state.registry.claim e) with claim := some e } :=
      .claim g r.identity e hi room hg.claim
    refine .after hclaim ?_
    simp only [openNew]
    split
    · refine ⟨_, .refl, rfl, rfl, hg.closing, hg.opened, ?_, hg.settled,
        fun h => ⟨hk h, (hg.sound h).home hi⟩⟩
      exact hg.disconnected.trans (List.append_nil _).symm
    · have hcancel : Change calm k now
          { g.withRegistry (g.state.registry.claim e) with claim := some e }
          { g.withRegistry ((g.state.registry.claim e).cancel e) with claim := none } :=
        .cancel _ e rfl
      refine .after hcancel ?_
      refine .written (.note _ _) (Stage.Ready.done (.written ?_ (.note _ _)) fun _ => trivial)
      exact ⟨⟨rfl, hg.closing, hg.opened, hg.disconnected,
        fun h => hcancel.sound h (hclaim.sound h (hg.sound h))⟩, hg.settled⟩
  · rw [if_neg room]
    have hw : g.state.SameTables (refuseOverLimit g.state r).1 :=
      (State.SameTables.count _ _).trans (State.SameTables.note _ _)
    exact .written hw ((hg.written hw).done fun _ => trivial)

theorem outcome_claim (hg : g.Ready calm D O) (hk : calm → k = .borrow r) :
    Outcome calm k now D O g (claim g.state r) := by
  cases hi : g.state.registry.entryId? r.identity with
  | some e => exact outcome_claim_of_known hg hk hi
  | none =>
    have hknow : Change calm k now g { g.withRegistry (g.state.registry.ensure r.identity).1 with
        homes := g.homes ++ [r.identity] } := .know g r.identity hi
    have heq : claim g.state r =
        claim { g.state with registry := (g.state.registry.ensure r.identity).1 } r := by
      unfold claim
      rw [Registry.reserve_ensure hi]
    rw [heq]
    refine .after hknow (outcome_claim_of_known (e := g.state.registry.entries.length)
      (hg.change hknow hg.claim hg.closing rfl rfl rfl) hk ?_)
    show (g.state.registry.ensure r.identity).1.entryId? r.identity = _
    rw [Registry.entryId?_ensure hi, if_pos rfl]

/-! ### The idle slot of another context -/

theorem outcome_takeOver {e : Nat} (hg : g.Ready calm D O) (hk : calm → k = .borrow r)
    (he : calm → g.homes[e]? = some r.identity) (slots : List (ContextId × Nat))
    (hm : calm → g.Made e slots) : Outcome calm k now D O g (takeOver g.state r e slots) := by
  induction slots with
  | nil => exact outcome_claim hg hk
  | cons p others ih =>
    obtain ⟨owner, id⟩ := p
    have hothers : calm → g.Made e others := fun h p hp => hm h p (List.mem_cons_of_mem _ hp)
    rw [takeOver]
    split
    · exact ih hothers
    · rename_i hne
      split
      · rename_i h hidle
        obtain ⟨-, hh, hl⟩ := State.idleHandle?_eq_some hidle
        exact hg.paused (fun hc => ⟨hk hc, he hc, hne, hh, hl, hothers hc⟩) rfl rfl
      · exact ih hothers

theorem outcome_resumeOther {e id : Nat} {owner : ContextId} {h : Handle}
    {others : List (ContextId × Nat)} (hg : g.Ready calm D O)
    (hf : calm → (Frame.checkingOther r e owner id h others).Holds k g) (usable : Bool) :
    Outcome calm k now D O g (resumeOther g.state now r e owner id h others usable) := by
  have hk : calm → k = .borrow r := fun hc => (hf hc).1
  have he : calm → g.homes[e]? = some r.identity := fun hc => (hf hc).2.1
  have hh : calm → g.state.handle? id = some h := fun hc => (hf hc).2.2.2.1
  have hnext : Outcome calm k now D O g (takeOver g.state r e others) :=
    outcome_takeOver hg hk he others fun hc => (hf hc).2.2.2.2.2
  rw [resumeOther]
  split
  · split
    · exact hnext
    · rename_i registry displaced hre
      obtain ⟨hs, rfl, rfl⟩ := Registry.reassign?_eq_some hre
      have hmove : Change calm k now g (g.move now r e owner id) :=
        .move g r e owner id hk hs (fun hc => ⟨hg.settled hc, hg.closing⟩)
          (fun hc => (hf hc).2.2.1) he (fun hc => by rw [hh hc]; rfl) fun hc => (hf hc).2.2.2.2.1
      have hfree : (g.move now r e owner id).Free calm D O :=
        hg.toFree.change hmove hg.claim hg.closing rfl rfl
      refine .after hmove (hfree.displace (fun hc i hi => ?_) (fun hc c hd => ?_) fun hr => ?_)
      · have hi' : (g.state.registry.detach e owner id).slotIn? e r.context = some i := hi
        rw [Registry.slotIn?_detach, if_neg fun h => (hf hc).2.2.1 h.2.1] at hi'
        exact (hg.sound hc).placed.place e _ i hi'
      · exact ⟨hk hc, (Stage.lent_move hs (he hc) (hh hc)).take (hfree.sound hc).placed hd⟩
      · exact hr.lend (fun hc => ⟨hk hc, Stage.lent_move hs (he hc) (hh hc)⟩) _ _
  · exact hnext

/-! ### The context's own slot -/

theorem outcome_reuse {e : Nat} (hg : g.Ready calm D O) (hk : calm → k = .borrow r)
    (he : calm → g.homes[e]? = some r.identity) :
    Outcome calm k now D O g (reuse g.state r e) := by
  rw [reuse]
  split
  · rename_i c hc
    obtain ⟨-, -, -, hs, -, hh⟩ := State.ownClosing?_eq_some hc
    exact hg.paused (fun h => ⟨hk h, he h, hs, hh⟩) rfl rfl
  · exact outcome_takeOver hg hk he _ fun h => (hg.sound h).made_slotsOf e

theorem outcome_closeUseless {e id : Nat} {h : Handle} (hg : g.Ready calm D O)
    (hf : calm → (Frame.checkingOwn r e id h).Holds k g) :
    Outcome calm k now D O g (closeUseless g.state r e id h) := by
  refine hg.close (fun hc => (hf hc).2.2.2) (fun hc => ?_) (fun hc => ?_) (fun hc => ?_)
    fun hc => ⟨(hf hc).1, (hf hc).2.1⟩
  · exact (hg.sound hc).placed.owner e _ id (hf hc).2.2.1
  · exact (hg.sound hc).placed.place e _ id (hf hc).2.2.1
  · rw [(hf hc).1]
    exact .inr (.inl ⟨⟨r.identity, r.context, e, rfl, (hf hc).2.1, (hf hc).2.2.1⟩, rfl⟩)

theorem outcome_resumeOwn {e id : Nat} {h : Handle} (hg : g.Ready calm D O)
    (hf : calm → (Frame.checkingOwn r e id h).Holds k g) (usable : Bool) :
    Outcome calm k now D O g (resumeOwn g.state r e id h usable) := by
  rw [resumeOwn]
  split
  · exact .written (.note _ _) (outcome_closeUseless (hg.written (.note _ _)) hf)
  · split
    · exact hg.done fun _ => trivial
    · exact hg.paused hf rfl rfl

theorem outcome_resumeOwnAgain {e id : Nat} {h : Handle} (hg : g.Ready calm D O)
    (hf : calm → (Frame.recheckingOwn r e id h).Holds k g) (usable : Bool) :
    Outcome calm k now D O g (resumeOwnAgain g.state now r e id h usable) := by
  rw [resumeOwnAgain]
  split
  · have hlend : Change calm k now g (g.withState (g.state.mapSlot id (·.markBorrowed now))) := by
      refine .lend g r id (fun hc => (hf hc).1) fun hc =>
        ⟨r.identity, r.context, e, ?_, (hf hc).2.1, (hf hc).2.2.1⟩
      rw [(hf hc).1]
      rfl
    refine .after hlend ((hg.change hlend hg.claim hg.closing rfl rfl rfl).lend
      (fun hc => ⟨(hf hc).1, e, id, (hf hc).2.1, (hf hc).2.2.1, ?_, ?_⟩) _ _)
    · exact (State.handle?_mapSlot (f := (·.markBorrowed now)) (fun _ => rfl) id id).trans
        (hf hc).2.2.2
    · obtain ⟨y, hy, -⟩ := State.slot?_of_handle? (hf hc).2.2.2
      show ((g.state.mapSlot id (·.markBorrowed now)).slot? id).any (·.borrowed) = true
      rw [State.slot?_mapSlot_self, hy]
      rfl
  · exact .written (.note _ _) (outcome_closeUseless (hg.written (.note _ _)) hf)

theorem outcome_borrow (hg : g.Ready calm D O) (hk : calm → k = .borrow r) :
    Outcome calm k now D O g (borrow g.state r) := by
  rw [borrow]
  split
  · rename_i e hi
    exact outcome_reuse hg hk fun h => (hg.sound h).home hi
  · exact outcome_claim hg hk

/-! ### The end of an opening -/

section opening
variable {e : Nat} {produces : Channel} {timeout : Duration} {x : Connected}

theorem outcome_resumeOpening_of_failure
    (hg : g.Awaits calm k (.opening r e produces timeout) D O) (hx : x.failure.isSome) :
    Outcome calm k now D O g (resumeOpening g.state now r e x) := by
  obtain ⟨error, herror⟩ := Option.isSome_iff_exists.mp hx
  rw [resumeOpening, herror]
  have hcancel : Change calm k now g
      { g.withRegistry (g.state.registry.cancel e) with claim := none } := .cancel g e hg.claim
  refine .after hcancel (Stage.Ready.done ?_ fun _ => trivial)
  exact ⟨⟨rfl, hg.closing, hg.opened, hg.disconnected, fun h => hcancel.sound h (hg.sound h)⟩,
    hg.settled⟩

theorem resumeOpening_eq (g : Stage) (hx : x.failure = none) :
    resumeOpening g.state now r e x =
      (let g₁ := g.withState (g.state.note (.opened r.identity r.channel))
      let g' := g₁.register now r e x.handle
      match g'.displaced.bind (g'.state.anyClosing? r.identity e) with
      | some c => g'.state.close c (.displacedByOpened r x.handle)
      | none => lendOpened g'.state r x.handle) := by
  have hdis : (g.state.registry.commit e r.context g.state.slots.length).2 =
      g.state.slotIn? e r.context := Registry.slotIn?_cancel e r.context
  let g' := (g.withState (g.state.note (.opened r.identity r.channel))).register now r e x.handle
  rw [resumeOpening, hx]
  exact congrArg (fun displaced : Option Nat =>
    match displaced.bind (g'.state.anyClosing? r.identity e) with
    | some c => g'.state.close c (.displacedByOpened r x.handle)
    | none => lendOpened g'.state r x.handle) hdis

/-- The room claimed for a connection holds its slot; a slot that took the key meanwhile is
closed. -/
theorem outcome_resumeOpening (hg : g.Awaits calm k (.opening r e produces timeout) D O)
    (hx : x.failure = none) (hnew : calm → ∀ p ∈ O, p.2 ≠ x.handle) :
    Outcome calm k now D (O ++ [(r.identity, x.handle)]) g (resumeOpening g.state now r e x) := by
  rw [resumeOpening_eq g hx]
  let g₁ := g.withState (g.state.note (.opened r.identity r.channel))
  have hnote : Change calm k now g g₁ := .written (.note _ _)
  have hsound : calm → g₁.Sound := fun h => hnote.sound h (hg.sound h)
  have hk : calm → k = .borrow r := fun h => (hg.holds h).1
  have he : calm → g₁.homes[e]? = some r.identity := fun h => (hg.holds h).2
  have hlt : calm → e < g₁.state.registry.entries.length := fun h => by
    rw [← (hsound h).indexed.homes]
    exact (List.getElem?_eq_some_iff.mp (he h)).1
  have hreg : Change calm k now g₁ (g₁.register now r e x.handle) :=
    .register g₁ r e x.handle hk hg.claim (fun h => ⟨hg.settled h, hg.closing⟩) he
      (fun h => by rw [show g₁.opened = O from hg.opened]; exact hnew h)
  have hfree : (g₁.register now r e x.handle).Free calm D (O ++ [(r.identity, x.handle)]) :=
    ⟨rfl, hg.closing, congrArg (· ++ _) hg.opened, hg.disconnected,
      fun h => hreg.sound h (hsound h)⟩
  refine .after hnote (.after hreg ?_)
  refine hfree.displace (fun hc id hid => ?_) (fun hc c hd => ?_) fun hr => ?_
  · exact Stage.getElem?_of_isPrefix (List.prefix_append _ _)
      ((hg.sound hc).placed.place e r.context id hid)
  · exact ⟨hk hc, (Stage.lent_register (hlt hc) (he hc)).take (hfree.sound hc).placed hd⟩
  · exact hr.lend (fun hc => ⟨hk hc, Stage.lent_register (hlt hc) (he hc)⟩) _ _

end opening

end

end Affine

end ConnectionLeasing
