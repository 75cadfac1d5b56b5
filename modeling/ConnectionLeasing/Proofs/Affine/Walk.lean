import ConnectionLeasing.Proofs.Affine.Lease

/-!
# What a borrow closes

On its walk a borrow closes its context's own slot when it is of no use, and the slot whose place it
takes. While checks and disconnects do not call back, a borrow closes a connection that is lent only
if a check has just found it unusable, if it was lent for too long, or at the end of an opening.

* `Frame.Walked`: what a borrow has found before it waits for a check: it looks at other contexts
  only without a slot of its own.
* `Careful`: what a step closes, and what it has found where it waits.
* `careful_tell`, `careful_resume`: the moves of a borrow; `Reachable.walked`: whole runs.
* `Reachable.lost_to_borrow`: what a borrow was told when it closes a lent connection.
-/

namespace ConnectionLeasing.Affine

/-- What a borrow that waits has found of its context's own slot. -/
def Frame.Walked (s : State) : Frame → Prop
  | .recheckingOwn _ _ id _ => s.isLent id = false
  | .checkingOther r e _ _ _ _ => s.slotIn? e r.context = none
  | .closing c (.ownUseless r e) =>
    c.entry = e ∧ c.owner = r.context ∧ s.slotIn? e r.context = some c.slot
  | _ => True

/-- The step closes a slot only if it may, and has found what its frame tells. -/
structure Careful (may : Closing → Prop) (step : Step) : Prop where
  closes : ∀ c, closingOf step.2 = some c → may c
  walked : ∀ f, step.2 = .paused f → f.Walked step.1

/-- An open slot that is idle, or has been lent for too long. -/
def State.Spare (s : State) (now : Nat) (c : Closing) : Prop :=
  s.handle? c.slot = some c.handle ∧
    (s.isLent c.slot = false ∨ s.isOverdue now c.slot = true)

/-- An open slot that a borrow may close once it has seen something: one to spare, one that was
found unusable, or any one when a connection was opened. -/
def State.Lost (s : State) (now : Nat) (k : Command) (seen : List Event) (c : Closing) : Prop :=
  s.Spare now c ∨ s.handle? c.slot = some c.handle ∧
    (.answered k (.check c.handle) false ∈ seen ∨ ∃ ev ∈ seen, ev.opened?.isSome)

/-! ### Steps that close nothing -/

section steps
variable {may : Closing → Prop} {s : State} {r : Request} {e : Nat}

theorem Careful.imp {may' : Closing → Prop} {step : Step} (h : Careful may step)
    (hmay : ∀ c, may c → may' c) : Careful may' step :=
  ⟨fun c hc => hmay c (h.closes c hc), h.walked⟩

theorem careful_done (s : State) (x : Result) : Careful may (s, .done x) where
  closes _ h := by cases h
  walked _ h := by cases h

theorem careful_paused {f : Frame} (hf : f.closing? = none) (hw : f.Walked s) :
    Careful may (s, .paused f) where
  closes c h := by
    rw [show closingOf (.paused f) = f.closing? from rfl, hf] at h
    cases h
  walked f' h := by
    cases h
    exact hw

theorem careful_close {c : Closing} {after : AfterClosing} (hc : may c)
    (hw : (Frame.closing c after).Walked s) : Careful may (s.close c after) where
  closes _ h := by
    cases h
    exact hc
  walked _ h := by
    cases h
    cases after <;> exact hw

theorem careful_claim (s : State) (r : Request) : Careful may (claim s r) := by
  unfold claim
  split
  · unfold openNew
    split
    · exact careful_paused rfl trivial
    · exact careful_done _ _
  · exact careful_done _ _

theorem careful_takeOver (hown : s.slotIn? e r.context = none) (slots : List (ContextId × Nat)) :
    Careful may (takeOver s r e slots) := by
  induction slots with
  | nil => exact careful_claim s r
  | cons p others ih =>
    rw [takeOver]
    split
    · exact ih
    · split
      · exact careful_paused rfl hown
      · exact ih

end steps

/-! ### The moves of a borrow -/

section moves
variable {may : Closing → Prop} {now : Nat} {D : List Handle} {O : List (Identity × Handle)}
  {g : Stage} {r : Request} {e : Nat}

theorem Stage.Ready.slotIn?_eq_none (hg : g.Ready True D O)
    (hown : g.state.ownClosing? r.identity e r.context = none) :
    g.state.slotIn? e r.context = none := by
  have hs := (hg.sound trivial).placed
  cases hin : g.state.slotIn? e r.context with
  | none => rfl
  | some id =>
    obtain ⟨h, hh⟩ := hs.exists_handle hg.closing hin
    obtain ⟨y, hy, hopen⟩ := State.slot?_of_handle? hh
    have ho := hs.owner e _ id hin
    rw [State.owner?, hy] at ho
    have hfor : y.openFor r.context = some h :=
      Slot.openFor_eq_some.mpr ⟨Option.some.inj ho, hopen⟩
    have hin' : (g.state.registry.entry e).slot? r.context = some id := hin
    simp [State.ownClosing?, hin', State.openHandle?, hy, hfor] at hown

theorem careful_borrow (hg : g.Ready True D O) : Careful may (borrow g.state r) := by
  rw [borrow]
  split
  · rw [reuse]
    split
    · exact careful_paused rfl trivial
    · rename_i hown
      exact careful_takeOver (hg.slotIn?_eq_none hown) _
  · exact careful_claim _ _

theorem spare_of_inspect {s s' : State} {a : Announcement} {c : Closing}
    (hs : inspect s now a = (s', none)) (h : s'.Spare now c) : s.Spare now c := by
  unfold inspect at hs
  split at hs
  · cases hs
    exact h
  · rename_i x hx
    split at hs
    · rename_i hv
      obtain ⟨y, hy, hv⟩ := Option.map_eq_some_iff.mp hv
      obtain ⟨hb, hexp⟩ := RetentionPolicy.verdict_eq_release hv
      cases hs
      obtain ⟨hh, hspare⟩ := h
      have hh' : s.handle? c.slot = some c.handle :=
        (State.handle?_mapSlot (f := (·.markIdle now)) (fun _ => rfl) x.slot c.slot).symm.trans hh
      refine ⟨hh', ?_⟩
      by_cases hx : x.slot = c.slot
      · right
        rw [State.isOverdue, ← hx, hy]
        simp [hb, hexp]
      · have hslot : (s.mapSlot x.slot (·.markIdle now)).slot? c.slot = s.slot? c.slot :=
          State.slot?_mapSlot_of_ne _ _ hx
        rcases hspare with hidle | hover
        · left
          rw [State.isLent, ← hslot]
          exact hidle
        · right
          rw [State.isOverdue, ← hslot]
          exact hover
    · cases hs
    · cases hs
      exact h

theorem careful_tell (now : Nat) {t : Telling} (ht : (Command.borrow r).telling? = some t)
    (observers : List Observer) (hg : g.Ready True D O) :
    Careful (g.state.Spare now) (tell now t g.state observers) := by
  -- what is to spare in a state that differs in what is written down only
  have hspare : ∀ {s s' : State} c, s.SameTables s' → s'.Spare now c → s.Spare now c := by
    rintro s _ c ⟨_, _, _, rfl⟩ h
    exact h
  have hcaller := Command.caller?_of_telling? ht
  induction observers generalizing g with
  | nil =>
    cases ht
    exact careful_borrow hg
  | cons o observers ih =>
    cases o with
    | log =>
      have hw := (State.SameTables.note g.state (.managerCall t.announcement)).trans (.summarize _)
      exact (ih (hg.written hw)).imp fun c => hspare c hw
    | inspector =>
      rw [tell]
      split
      · rename_i s c hs
        obtain ⟨rfl, hidle, e, -, hc⟩ := inspect_eq_some hs
        obtain ⟨-, -, -, -, -, hh⟩ := State.ownClosing?_eq_some hc
        exact careful_close ⟨hh, .inl hidle⟩ trivial
      · rename_i s hs
        have hr := (trail_inspect hg (fun _ => hcaller) hs).2
        exact (ih hr).imp fun c => spare_of_inspect hs
    | poolInspector => exact ih hg
    | recorder o => exact careful_paused rfl trivial

theorem careful_resumeOpening {produces : Channel} {timeout : Duration} {x : Connected}
    (hg : g.Awaits True (.borrow r) (.opening r e produces timeout) D O) :
    Careful (fun c => g.state.handle? c.slot = some c.handle ∧ x.failure = none)
      (resumeOpening g.state now r e x) := by
  cases hx : x.failure with
  | some error =>
    rw [resumeOpening, hx]
    exact careful_done _ _
  | none =>
    rw [resumeOpening_eq g hx]
    dsimp only
    split
    · rename_i c hc
      obtain ⟨id, hid, hc⟩ := Option.bind_eq_some_iff.mp hc
      obtain ⟨-, -, rfl, -, hh⟩ := State.anyClosing?_eq_some hc
      have hlt := State.lt_of_owner? ((hg.sound trivial).placed.owner e r.context _ hid)
      rw [Stage.handle?_register] at hh
      split at hh
      · rename_i heq
        exact absurd heq (Nat.ne_of_lt hlt)
      · exact careful_close ⟨hh, rfl⟩ trivial
    · exact careful_done _ _

theorem careful_resumeOwn {id : Nat} {h : Handle} {seen : List Event}
    (hin : g.state.slotIn? e r.context = some id) (hh : g.state.handle? id = some h) (usable : Bool)
    (hseen : usable = false → .answered (.borrow r) (.check h) false ∈ seen) :
    Careful (g.state.Lost now (.borrow r) seen) (resumeOwn g.state r e id h usable) := by
  cases usable with
  | false => exact careful_close (.inr ⟨hh, .inl (hseen rfl)⟩) ⟨rfl, rfl, hin⟩
  | true =>
    rw [resumeOwn, if_neg (by simp)]
    split
    · exact careful_done _ _
    · rename_i hidle
      exact careful_paused rfl (eq_false_of_ne_true hidle)

theorem careful_resumeOwnAgain {id : Nat} {h : Handle}
    (hin : g.state.slotIn? e r.context = some id) (hh : g.state.handle? id = some h)
    (hidle : g.state.isLent id = false) (usable : Bool) :
    Careful (g.state.Spare now) (resumeOwnAgain g.state now r e id h usable) := by
  rw [resumeOwnAgain]
  split
  · exact careful_done _ _
  · exact careful_close ⟨hh, .inl hidle⟩ ⟨rfl, rfl, hin⟩

/-- A context without a slot of its own displaces none when it takes one over. -/
theorem careful_resumeOther {s : State} (hown : s.slotIn? e r.context = none) (owner : ContextId)
    (id : Nat) (h : Handle) (others : List (ContextId × Nat)) (usable : Bool) :
    Careful may (resumeOther s now r e owner id h others usable) := by
  rw [resumeOther]
  split
  · split
    · exact careful_takeOver hown _
    · rename_i registry displaced hre
      obtain ⟨-, rfl, rfl⟩ := Registry.reassign?_eq_some hre
      have hnone : (s.registry.detach e owner id).slotIn? e r.context = none := by
        rw [Registry.slotIn?_detach]
        split
        · rfl
        · exact hown
      rw [hnone]
      exact careful_done _ _
  · exact careful_takeOver hown _

theorem Stage.Placed.spare_of_finish (hs : g.Placed) {c x : Closing} {failure : Option LeaseError}
    (hc : g.closing = some c) (h : (g.finish c failure).state.Spare now x) :
    g.state.Spare now x := by
  obtain ⟨hh, hspare⟩ := h
  have hh' : g.state.handle? x.slot = some x.handle :=
    (State.handle?_finishClosing c failure x.slot).symm.trans hh
  have hne : c.slot ≠ x.slot := by
    intro heq
    rw [← heq, (hs.closing c hc).1] at hh'
    cases hh'
  have hslot : (g.finish c failure).state.slot? x.slot = g.state.slot? x.slot :=
    (State.slot?_finishClosing c failure x.slot).trans (State.slot?_mapSlot_of_ne _ _ hne)
  refine ⟨hh', hspare.imp (fun h => ?_) fun h => ?_⟩
  · rw [State.isLent, ← hslot]
    exact h
  · rw [State.isOverdue_congr hslot.symm (by cases failure <;> rfl)]
    exact h

theorem careful_resumeClosing (now : Nat) {c : Closing} {after : AfterClosing}
    (hg : g.Ready True D O) (ha : after.Holds (.borrow r) g c)
    (hw : ∀ r' e, after = .ownUseless r' e → g.state.slotIn? e r'.context = none) :
    Careful (g.state.Spare now) (resumeClosing g.state now c after) := by
  cases after with
  | inspected observers t =>
    have hwritten := ((State.SameTables.count g.state fun l =>
      { l with evictedClosed := l.evictedClosed + 1 }).trans
      (.note _ (.idleTimedOut t.announcement.identity t.announcement.context))).trans
      (.note _ (.inspected t.announcement.identity t.announcement.context .close))
    exact careful_tell now ha observers (hg.written hwritten)
  | ownUseless r' e => exact careful_takeOver (hw r' e rfl) _
  | displacedByTaken r' source taken => exact careful_done _ _
  | displacedByOpened r' opened => exact careful_done _ _
  | requested =>
    obtain ⟨i, d, hk⟩ := ha
    cases hk
  | drained slots entries closed => cases ha.1
  | sweptIdle w slots rest => cases ha.1
  | sweptSurplus w slots rest => cases ha.1

theorem careful_resume (now : Nat) {f : Frame} {a : f.call.Answer}
    (hg : g.Awaits True (.borrow r) f D O) (hw : f.Walked g.state) :
    Careful (g.state.Lost now (.borrow r) [.answered (.borrow r) f.call a])
      (resume g.state now f a) := by
  have hf := hg.holds trivial
  cases f with
  | telling o observers t =>
    exact (careful_tell now hf observers (hg.ready rfl rfl)).imp fun _ => .inl
  | ticking o observers => cases hf
  | checkingOwn r' e id h =>
    obtain ⟨hk, -, hin, hh⟩ := hf
    cases hk
    refine careful_resumeOwn hin hh a fun ha => ?_
    subst ha
    exact List.mem_singleton_self _
  | recheckingOwn r' e id h =>
    exact (careful_resumeOwnAgain hf.2.2.1 hf.2.2.2 hw a).imp fun _ => .inl
  | checkingOther r' e owner id h others => exact careful_resumeOther hw owner id h others a
  | opening r' e produces timeout =>
    obtain ⟨hk, -⟩ := hf
    cases hk
    refine (careful_resumeOpening hg).imp fun c hc =>
      .inr ⟨hc.1, .inr ⟨_, List.mem_singleton_self _, ?_⟩⟩
    simp [Event.opened?, Call.opened?, hc.2]
  | closing c after =>
    have hs := (hg.sound trivial).placed
    have hchange : Change True (.borrow r) now g (g.finish c a) := .finish g c a hg.closing
    have hfinish : (g.finish c a).Ready True D O :=
      ⟨⟨hg.claim, rfl, hg.opened, hg.disconnected, fun h => hchange.sound h (hg.sound h)⟩,
        hg.settled⟩
    refine (careful_resumeClosing now hfinish (hf.finish hs hg.closing) ?_).imp fun x hx =>
      .inl (hs.spare_of_finish hg.closing hx)
    rintro r' e rfl
    obtain ⟨rfl, hc, hin⟩ := hw
    exact (State.slotIn?_finishClosing c a c.entry r'.context).trans (if_pos ⟨rfl, hc, hin⟩)

end moves

/-! ### Runs -/

section runs
variable {m m' : System} {k : Option Command} {g : Stage} {r : Request} {h : Handle}

theorem Frame.walked_of_yields {f : Frame} (hf : f.call.yields) (s : State) : f.Walked s := by
  cases f with
  | telling | ticking | opening => exact trivial
  | checkingOwn | recheckingOwn | checkingOther | closing => cases hf

theorem Frame.Holds.walked {f : Frame} {x : Command} (hf : f.Holds x g) (hx : ∀ r, x ≠ .borrow r)
    (s : State) : f.Walked s := by
  cases f with
  | recheckingOwn r e id h => exact absurd hf.1 (hx r)
  | checkingOther r e owner id h others => exact absurd hf.1 (hx r)
  | closing c after =>
    cases after with
    | ownUseless r e => exact absurd hf.1 (hx r)
    | _ => exact trivial
  | _ => exact trivial

theorem System.Good.careful (hg : m.Good True g) (hw : ∀ o ∈ m.ongoing, o.frame.Walked m.state)
    (hmove : Moves .calm m (some (.borrow r)) m') :
    (∃ seen rest step, m' = m.moved (.borrow r) seen rest step ∧
      seen.filterMap Event.disconnected? = [] ∧ (∀ o ∈ rest, o.frame.call.yields) ∧
      Careful (m.state.Lost m.now (.borrow r) seen) step) ∨
    (m'.state = m.state ∧ m'.events = m.events ∧ ∀ o ∈ m'.ongoing, o ∈ m.ongoing) := by
  generalize hk : some (Command.borrow r) = k at hmove
  cases hmove with
  | start x hx =>
    cases hk
    refine .inl ⟨[], m.ongoing, _, rfl, rfl, hx, ?_⟩
    have htell := careful_tell m.now (r := r) rfl g.state.observers (hg.ready fun _ => hx)
    rw [← hg.state]
    exact htell.imp fun _ => .inl
  | resume before o later a hongoing ho ha =>
    obtain ⟨x, f⟩ := o
    cases hk
    refine .inl ⟨_, before ++ later, _, rfl, rfl, ho, ?_⟩
    have hwalked := hw ⟨.borrow r, f⟩ (by simp [hongoing])
    rw [← hg.state] at hwalked
    have hresume := careful_resume m.now (a := a) (hg.awaits hongoing fun _ => ho) hwalked
    rw [← hg.state]
    exact hresume
  | fail before o later hongoing ho htells =>
    exact .inr ⟨rfl, rfl, fun p hp => System.mem_ongoing hongoing hp⟩
  | attach o => cases hk
  | pass t ht => cases hk

theorem Reachable.walked (hm : Reachable .calm m) : ∀ o ∈ m.ongoing, o.frame.Walked m.state := by
  induction hm with
  | initial settings factory now =>
    intro o ho
    cases ho
  | @next m m' k hm hstep ih =>
    obtain ⟨g, hg⟩ := hm.calm_good
    obtain ⟨g', hpassage⟩ := hg.next (fun _ _ _ h => h) hstep
    have hholds := hpassage.good.holds trivial
    intro o ho
    by_cases hk : ∃ r, k = some (.borrow r)
    · obtain ⟨r, rfl⟩ := hk
      rcases hg.careful ih hstep with ⟨seen, rest, step, rfl, -, hrest, hcareful⟩ |
        ⟨hstate, -, hsub⟩
      · rcases System.mem_moved ho with ⟨-, hpaused⟩ | ho
        · exact hcareful.walked _ hpaused
        · exact Frame.walked_of_yields (hrest o ho) _
      · rw [hstate]
        exact ih o (hsub o ho)
    · -- whoever else has moved waits where nothing has to be found
      have hother : ∀ {x : Command}, k = some x → o.command = x → o.frame.Walked m'.state := by
        rintro x rfl rfl
        exact (hholds o ho).walked (fun r hr => hk ⟨r, congrArg some hr⟩) _
      cases hstep with
      | start x hx =>
        rcases System.mem_moved ho with ⟨hcommand, -⟩ | ho
        · exact hother rfl hcommand
        · exact Frame.walked_of_yields (hx o ho) _
      | resume before p later a hongoing hp ha =>
        rcases System.mem_moved ho with ⟨hcommand, -⟩ | ho
        · exact hother rfl hcommand
        · exact Frame.walked_of_yields (hp o ho) _
      | fail before p later hongoing hp htells => exact Frame.walked_of_yields (hp o ho) _
      | attach observer =>
        have hw := ih o ho
        obtain ⟨command, f⟩ := o
        cases f with
        | closing c after => cases after <;> exact hw
        | _ => exact hw
      | pass t ht => exact ih o ho

/-- **What a lent connection is lost to.** A borrow closes a connection that is lent only if that
was lent for too long, or if the borrow has just been told that it is unusable or that another one
was opened. -/
theorem Reachable.lost_to_borrow (hm : Reachable .calm m)
    (hmove : Moves .calm m (some (.borrow r)) m') {id : Nat} (hh : m.state.handle? id = some h)
    (hlent : m.state.isLent id = true) (hlost : h ∈ m'.disconnected) :
    m.state.isOverdue m.now id = true ∨ ∃ seen, m'.events =
      m.events ++ seen ++ [.called (.borrow r) (.disconnect h)] ∧
        (.answered (.borrow r) (.check h) false ∈ seen ∨ ∃ ev ∈ seen, ev.opened?.isSome) := by
  obtain ⟨g, hg⟩ := hm.calm_good
  have hs := (hg.sound trivial).accounted
  have hopen : h ∉ m.disconnected := by
    rw [← hg.state] at hh
    rw [← hg.disconnected]
    exact hs.unasked id h hh
  rcases hg.careful hm.walked hmove with ⟨seen, rest, step, rfl, hseen, -, hcareful⟩ |
    ⟨-, hevents, -⟩
  · rw [System.disconnected_moved hseen] at hlost
    rcases List.mem_append.mp hlost with hlost | hlost
    · exact absurd hlost hopen
    · obtain ⟨c, hc, rfl⟩ := List.mem_map.mp hlost
      have hclosing : closingOf step.2 = some c := Option.mem_toList.mp hc
      have hid : ∀ {other}, m.state.handle? other = some c.handle → other = id := fun hother => by
        rw [← hg.state] at hh hother
        exact hs.once _ _ _ hother hh
      rcases hcareful.closes c hclosing with ⟨hc, hidle | hover⟩ | ⟨hc, htold⟩
      · rw [hid hc, hlent] at hidle
        cases hidle
      · exact .inl (hid hc ▸ hover)
      · right
        refine ⟨seen, ?_, htold⟩
        cases hstep : step.2 with
        | done res =>
          rw [hstep] at hclosing
          cases hclosing
        | paused f =>
          rw [hstep] at hclosing
          cases f with
          | closing c' after =>
            cases hclosing
            simp [System.moved, shown, hstep]
          | _ => cases hclosing
  · rw [System.disconnected, hevents] at hlost
    exact absurd hlost hopen

end runs

end ConnectionLeasing.Affine
