import ConnectionLeasing.Proofs.Affine.Opening
import ConnectionLeasing.Proofs.Affine.Walk
import Mathlib.Data.List.Permutation

/-!
# Borrows of one context that overlap

A borrow that waits for its connection has found its context without one. If another borrow of the
context returns a handle meanwhile, then the new connection takes the place of that handle all the
same, and the handle is disconnected although its context holds it. Checks and disconnects do not
call back here.

* `closingOf_resumeOpening`: what the end of an opening disconnects.
* `Overlaps`: a borrow waits for its connection, another one of its context returns a handle, and
  the context keeps the handle until the connection is opened.
* `held_displaced_iff`: whether the context loses what it holds.
-/

namespace ConnectionLeasing.Affine

/-! ### What the end of an opening disconnects -/

section opening
variable {g : Stage} {now e : Nat} {r : Request} {x : Connected}

theorem State.map_handle_anyClosing? (s : State) (i : Identity) (e id : Nat) :
    (s.anyClosing? i e id).map (·.handle) = s.handle? id := by
  rw [anyClosing?, handle?]
  cases s.slot? id with
  | none => rfl
  | some y => cases hy : y.handle <;> simp [hy]

theorem closingOf_resumeOpening (hs : g.Placed) (now e : Nat) (r : Request) (x : Connected) :
    (closingOf (resumeOpening g.state now r e x).2).map (·.handle) =
      if x.failure = none then (g.state.slotIn? e r.context).bind g.state.handle? else none := by
  cases hx : x.failure with
  | some error =>
    rw [resumeOpening, hx]
    rfl
  | none =>
    rw [resumeOpening_eq g hx, if_pos rfl]
    let g' := (g.withState (g.state.note (.opened r.identity r.channel))).register now r e x.handle
    have hdis : (((g.state.slotIn? e r.context).bind
        (g'.state.anyClosing? r.identity e)).map (·.handle)) =
        (g.state.slotIn? e r.context).bind g.state.handle? := by
      cases hin : g.state.slotIn? e r.context with
      | none => rfl
      | some id =>
        have hlt := State.lt_of_owner? (hs.owner e r.context id hin)
        rw [Option.bind_some, Option.bind_some, State.map_handle_anyClosing?]
        exact (Stage.handle?_register id).trans (if_neg (Nat.ne_of_lt hlt))
    rw [← hdis]
    dsimp only
    have hdisplaced : g'.displaced = g.state.slotIn? e r.context := rfl
    rw [show ((g.withState (g.state.note (.opened r.identity r.channel))).register now r e
      x.handle) = g' from rfl, hdisplaced]
    cases (g.state.slotIn? e r.context).bind (g'.state.anyClosing? r.identity e) <;> rfl

theorem slot?_resumeOpening {id : Nat} (hlt : id < g.state.slots.length)
    (hne : x.failure = none → g.state.slotIn? e r.context ≠ some id) :
    (resumeOpening g.state now r e x).1.slot? id = g.state.slot? id := by
  cases hx : x.failure with
  | some error =>
    rw [resumeOpening, hx]
    rfl
  | none =>
    rw [resumeOpening_eq g hx]
    have hold : ((g.withState (g.state.note (.opened r.identity r.channel))).register now r e
        x.handle).state.slot? id = g.state.slot? id :=
      (Stage.slot?_register id).trans (if_neg (Nat.ne_of_lt hlt))
    dsimp only
    split
    · rename_i c hc
      obtain ⟨other, hother, hc⟩ := Option.bind_eq_some_iff.mp hc
      obtain ⟨-, -, rfl, -, -⟩ := State.anyClosing?_eq_some hc
      refine (State.slot?_mapSlot_of_ne _ _ ?_).trans hold
      rintro rfl
      exact hne hx hother
    · exact hold

end opening

/-! ### What a context holds -/

/-- A context holds a handle that was connected to an identity. -/
def System.Holds (m : System) (i : Identity) (c : ContextId) (h : Handle) : Prop :=
  (i, h) ∈ m.opened ∧ ∃ id, m.state.owner? id = some c ∧ m.state.handle? id = some h ∧
    m.state.isLent id = true

/-- The slot that a context has in an entry holds the handle. -/
def State.Keeps (s : State) (e : Nat) (c : ContextId) (h : Handle) : Prop :=
  ∃ id, s.slotIn? e c = some id ∧ s.handle? id = some h

section holds
variable {m : System} {g : Stage} {i : Identity} {c : ContextId} {h : Handle} {e id : Nat}
  {r : Request} {produces : Channel} {timeout : Duration} {x : Connected} {rest : List Ongoing}

theorem System.Good.holds_iff (hg : m.Good True g) : m.Holds i c h ↔ g.Lent i c h := by
  have hs := hg.sound trivial
  constructor
  · rintro ⟨hopened, id, howner, hhandle, hlent⟩
    rw [← hg.state] at howner hhandle hlent
    rw [← hg.opened] at hopened
    obtain ⟨e, d, hin⟩ := hs.placed.exists_slotIn? (hg.settled trivial) hhandle
    have hd : some d = some c := (hs.placed.owner e d id hin).symm.trans howner
    cases hd
    exact ⟨e, id, hs.home_of_opened hopened hhandle (hs.placed.place e c id hin), hin, hhandle,
      hlent⟩
  · rintro ⟨e, id, hhome, hin, hhandle, hlent⟩
    obtain ⟨e', j, hplace, hhome', hopened⟩ := hs.accounted.held id h hhandle
    have he : some e' = some e := hplace.symm.trans (hs.placed.place e c id hin)
    cases he
    have hj : some j = some i := hhome'.symm.trans hhome
    cases hj
    rw [System.Holds, ← hg.state, ← hg.opened]
    exact ⟨hopened, id, hs.placed.owner e c id hin, hhandle, hlent⟩

theorem System.Good.keeps_iff (hg : m.Good True g) (hr : m.state.Registers i c id h) :
    m.state.Keeps e c h ↔ m.state.registry.entryId? i = some e := by
  have hs := hg.sound trivial
  constructor
  · rintro ⟨other, hin, hother⟩
    rw [← hg.state] at hr hin hother ⊢
    obtain rfl : other = id := hs.accounted.once _ _ h hother hr.2
    obtain ⟨e', he', -, hin'⟩ := hs.of_slot? hr.1
    obtain ⟨rfl, -⟩ := hs.placed.slotIn?_inj hin hin'
    exact he'
  · intro he
    exact ⟨id, (Registry.slot?_entry he _).symm.trans hr.1, hr.2⟩

theorem System.Good.disconnected_opening (hg : m.Good True g) (hh : m.state.handle? id = some h) :
    h ∈ (m.resumed ⟨.borrow r, .opening r e produces timeout⟩ x rest).disconnected ↔
      x.failure = none ∧ m.state.Keeps e r.context h := by
  have hs := hg.sound trivial
  have hopen : h ∉ m.disconnected := by
    rw [← hg.state] at hh
    rw [← hg.disconnected]
    exact hs.accounted.unasked id h hh
  have hclosing := closingOf_resumeOpening hs.placed m.now e r x
  rw [hg.state] at hclosing
  rw [System.resumed, System.disconnected_moved rfl, List.mem_append, ← Option.toList_map,
    Option.mem_toList, show resume m.state m.now (.opening r e produces timeout) x =
      resumeOpening m.state m.now r e x from rfl, hclosing]
  split
  · rename_i hx
    simp [hopen, hx, State.Keeps, Option.bind_eq_some_iff]
  · rename_i hx
    simp [hopen, hx]

theorem System.Holds.opening (hheld : m.Holds i c h) (hg : m.Good True g)
    (hkeeps : ¬ (x.failure = none ∧ m.state.Keeps e r.context h)) :
    (m.resumed ⟨.borrow r, .opening r e produces timeout⟩ x rest).Holds i c h := by
  obtain ⟨hopened, id, howner, hh, hlent⟩ := hheld
  have hslot : (m.resumed ⟨.borrow r, .opening r e produces timeout⟩ x rest).state.slot? id =
      m.state.slot? id := by
    show (resumeOpening m.state m.now r e x).1.slot? id = m.state.slot? id
    rw [← hg.state] at hh hkeeps ⊢
    exact slot?_resumeOpening (State.lt_of_handle? hh) fun hx hin => hkeeps ⟨hx, id, hin, hh⟩
  refine ⟨?_, id, ?_, ?_, ?_⟩
  · rw [System.resumed, System.opened_moved]
    exact List.mem_append_left _ hopened
  · rw [State.owner?, hslot]
    exact howner
  · rw [State.handle?, hslot]
    exact hh
  · rw [State.isLent, hslot]
    exact hlent

end holds

/-! ### Borrows that overlap -/

/-- A borrow asks for a connection in entry `e`. While it waits, another borrow of the context
returns `h`, and the context holds `h` until the connection is answered `x`. -/
inductive Overlaps (r : Request) (e : Nat) (h : Handle) (x : Connected) :
    List (Option Command) → System → System → System → Prop
  | mk {m m₁ m₂ m₃ : System} {ks ks' : List (Option Command)} {r' : Request} {produces : Channel}
      {timeout : Duration} (before later : List Ongoing)
      (hmove : Moves .calm m (some (.borrow r)) m₁)
      (hpause : m.Pauses (.borrow r) (.opening r e produces timeout) m₁)
      (hwait : Run .calm (⟨.borrow r, .opening r e produces timeout⟩ ∈ ·.ongoing) m₁ ks m₂)
      (hsame : r'.identity = r.identity ∧ r'.context = r.context)
      (hlent : m₂.events.getLast? = some (.returned (.borrow r') (.lent h)))
      (hkeep : Run .calm (fun m => ⟨.borrow r, .opening r e produces timeout⟩ ∈ m.ongoing ∧
        m.Holds r.identity r.context h) m₂ ks' m₃)
      (hongoing : m₃.ongoing = before ++ ⟨.borrow r, .opening r e produces timeout⟩ :: later)
      (hyields : ∀ p ∈ before ++ later, p.frame.call.yields)
      (ha : m₃.Admits (.connect produces r.identity timeout) x) :
      Overlaps r e h x (ks ++ ks') m m₃
        (m₃.resumed ⟨.borrow r, .opening r e produces timeout⟩ x (before ++ later))

section runs
variable {m m₁ m' : System} {may : Overlap} {stays stays' : System → Prop}
  {ks ks' : List (Option Command)} {r : Request} {e : Nat} {h : Handle} {x : Connected}

theorem Run.imp (hrun : Run may stays m ks m') (hstays : ∀ m, stays m → stays' m) :
    Run may stays' m ks m' := by
  induction hrun with
  | refl => exact .refl _
  | next _ hmove hm ih => exact .next ih hmove (hstays _ hm)

theorem Run.append (hrun : Run may stays m ks m₁) (hrun' : Run may stays m₁ ks' m') :
    Run may stays m (ks ++ ks') m' := by
  induction hrun' with
  | refl =>
    rw [List.append_nil]
    exact hrun
  | next _ hmove hm ih =>
    rw [← List.append_assoc]
    exact .next ih hmove hm

theorem Overlaps.waiting (ho : Overlaps r e h x ks m m₁ m') (hm : Reachable .calm m) :
    Reachable .calm m₁ ∧ m₁.Holds r.identity r.context h ∧
      (m₁.state.registry.entryId? r.identity = some e ↔ some .closeAll ∉ ks) ∧
      ∃ produces timeout rest,
        m' = m₁.resumed ⟨.borrow r, .opening r e produces timeout⟩ x rest := by
  cases ho with
  | @mk _ m₁ m₂ m₃ ks ks' r' produces timeout before later hmove hpause hwait hsame hlent hkeep
      hongoing hyields ha =>
    have ho : ⟨.borrow r, .opening r e produces timeout⟩ ∈ m₁.ongoing := by
      obtain ⟨seen, rest, step, rfl, hstep⟩ := hpause
      simp [System.moved, left, hstep]
    have hm₁ : Reachable .calm m₁ := .next hm hmove
    have hknown := hpause.known hm hmove
    obtain ⟨hm₂, -, -⟩ := hwait.known_iff hm₁ ho rfl hknown
    obtain ⟨hm₃, -, hiff⟩ := (hwait.append (hkeep.imp fun _ h => h.1)).known_iff hm₁ ho rfl hknown
    refine ⟨hm₃, ?_, hiff, produces, timeout, before ++ later, rfl⟩
    cases hkeep with
    | refl =>
      obtain ⟨g, hg⟩ := hm₂.calm_good
      rw [hg.holds_iff, ← hsame.1, ← hsame.2]
      exact hg.lent trivial r' h hlent
    | next _ _ hstays => exact hstays.2

/-- **When a context loses what it holds to a borrow of its own.** If a borrow returns a handle
while another borrow of its context waits for a connection, and the context holds the handle until
that connection is answered, then the handle is disconnected exactly if the connection was opened
and the handle is in the entry in which room was claimed for it. A handle that the context can find
is in that entry exactly if nobody closed everything while the connection opened. Otherwise the
context still holds the handle. No other move of a borrow disconnects what its context holds, unless
that was found unusable or was lent for too long. -/
theorem held_displaced_iff (hm : Reachable .calm m) (ho : Overlaps r e h x ks m m₁ m') :
    (h ∈ m'.disconnected ↔ x.failure = none ∧ m₁.state.Keeps e r.context h) ∧
    ((∃ id, m₁.state.Registers r.identity r.context id h) →
      (h ∈ m'.disconnected ↔ x.failure = none ∧ some .closeAll ∉ ks)) ∧
    (h ∉ m'.disconnected → m'.Holds r.identity r.context h) ∧
    ∀ n n' y, Reachable .calm n → Moves .calm n (some (.borrow r)) n' →
      n.Holds r.identity r.context y → y ∈ n'.disconnected →
      (∃ id, n.state.handle? id = some y ∧ n.state.isOverdue n.now id = true) ∨
      ∃ seen, n'.events = n.events ++ seen ++ [.called (.borrow r) (.disconnect y)] ∧
        (.answered (.borrow r) (.check y) false ∈ seen ∨ ∃ ev ∈ seen, ev.opened?.isSome) := by
  obtain ⟨hm₁, hheld, hknown, produces, timeout, rest, rfl⟩ := ho.waiting hm
  obtain ⟨g, hg⟩ := hm₁.calm_good
  have hiff : h ∈ (m₁.resumed ⟨.borrow r, .opening r e produces timeout⟩ x rest).disconnected ↔
      x.failure = none ∧ m₁.state.Keeps e r.context h := by
    obtain ⟨-, id, -, hh, -⟩ := hheld
    exact hg.disconnected_opening hh
  refine ⟨hiff, fun ⟨id, hr⟩ => ?_, fun hkept => hheld.opening hg (hiff.not.mp hkept), ?_⟩
  · rw [hiff, hg.keeps_iff hr, hknown]
  · rintro n n' y hn hmove ⟨-, id', -, hy, hylent⟩ hlost
    exact (hn.lost_to_borrow hmove hy hylent hlost).imp_left fun hover => ⟨id', hy, hover⟩

end runs

/-! ### Two borrows at once -/

/-- A borrow that is made twice. -/
def twice : Request := ⟨⟨"host", 22, "user", "secret"⟩, ⟨1⟩, .sftp⟩

/-- The borrow waits for a connection. -/
def waitingTwice : Ongoing := ⟨.borrow twice, .opening twice 0 .sftp (.ofMillis 5000)⟩

/-- While the borrow waits for a connection, it is made again and returns handle 1. -/
def borrowedTwice : System :=
  (((System.initial { maxConnections := 2 } .faithful 0).started (.borrow twice)).started
    (.borrow twice)).resumed waitingTwice ⟨⟨1, .sftp⟩, none⟩ [waitingTwice]

theorem overlaps_borrowedTwice {x : Connected} (hx : x.handle ≠ ⟨1, .sftp⟩)
    (hchannel : x.handle.channel = .sftp) :
    Overlaps twice 0 ⟨1, .sftp⟩ x [some (.borrow twice), some (.borrow twice)]
      (.initial { maxConnections := 2 } .faithful 0) borrowedTwice
      (borrowedTwice.resumed waitingTwice x []) := by
  let m₀ := System.initial { maxConnections := 2 } .faithful 0
  let m₁ := m₀.started (.borrow twice)
  let m₂ := m₁.started (.borrow twice)
  have hfirst : Moves .calm m₀ (some (.borrow twice)) m₁ := .start m₀ _ fun o ho => by cases ho
  have hyields : ∀ p ∈ [waitingTwice], p.frame.call.yields := by
    intro p hp
    rw [List.mem_singleton.mp hp]
    rfl
  have hsecond : Moves .calm m₁ (some (.borrow twice)) m₂ := .start m₁ _ hyields
  have hreturned : Moves .calm m₂ (some (.borrow twice)) borrowedTwice :=
    .resume m₂ [] waitingTwice [waitingTwice] ⟨⟨1, .sftp⟩, none⟩ (by cbv) hyields ⟨by decide, rfl⟩
  have hongoing : borrowedTwice.ongoing = [] ++ waitingTwice :: [] := by cbv
  have hwait : Run .calm (waitingTwice ∈ ·.ongoing) m₁
      [some (.borrow twice), some (.borrow twice)] borrowedTwice := by
    refine .next (.next (.refl m₁) hsecond ?_) hreturned ?_
    · rw [show m₂.ongoing = [waitingTwice, waitingTwice] by cbv]
      exact List.mem_cons_self
    · rw [hongoing]
      exact List.mem_singleton_self _
  have hbuilt : borrowedTwice.built = [⟨1, .sftp⟩] := by cbv
  refine .mk [] [] hfirst ⟨_, _, _, rfl, rfl⟩ hwait ⟨rfl, rfl⟩ (by cbv) (.refl _) hongoing
    (by simp) ⟨?_, hchannel⟩
  rw [hbuilt, List.mem_singleton]
  exact hx

/-- The connection that was waited for fails. -/
theorem held_displaced_iff_failed : ∃ (m m' : System) (i : Identity) (c : ContextId) (h : Handle),
    m.Holds i c h ∧ h ∉ m'.disconnected ∧ m'.Holds i c h := by
  let x : Connected := ⟨⟨2, .sftp⟩, some (.connectFailure twice.identity "refused")⟩
  have ho := overlaps_borrowedTwice (x := x) (by decide) rfl
  have hm : Reachable .calm (.initial { maxConnections := 2 } .faithful 0) := .initial _ _ _
  obtain ⟨hiff, -, hholds, -⟩ := held_displaced_iff hm ho
  have hkept : (⟨1, .sftp⟩ : Handle) ∉ (borrowedTwice.resumed waitingTwice x []).disconnected :=
    fun h => Option.some_ne_none _ (hiff.mp h).1
  exact ⟨_, _, _, _, _, (ho.waiting hm).2.1, hkept, hholds hkept⟩

/-- The connection that was waited for opens, and both borrows have returned a handle, of which the
first is disconnected. -/
theorem displaced_while_held : ∃ (m m₁ m' m'' : System) (r : Request) (e : Nat) (h : Handle)
    (x : Connected) (ks : List (Option Command)), Reachable .calm m ∧ Overlaps r e h x ks m m₁ m' ∧
    m₁.Holds r.identity r.context h ∧ h ∉ m₁.disconnected ∧ h ∈ m'.disconnected ∧
    Moves .calm m' (some (.borrow r)) m'' ∧
    m''.events.getLast? = some (.returned (.borrow r) (.lent x.handle)) := by
  let h : Handle := ⟨1, .sftp⟩
  let x : Connected := ⟨⟨2, .sftp⟩, none⟩
  let o : Ongoing := ⟨.borrow twice, .closing ⟨twice.identity, 0, 0, twice.context, h⟩
    (.displacedByOpened twice x.handle)⟩
  let m' := borrowedTwice.resumed waitingTwice x []
  have ho := overlaps_borrowedTwice (x := x) (by decide) rfl
  have hm : Reachable .calm (.initial { maxConnections := 2 } .faithful 0) := .initial _ _ _
  have hongoing : m'.ongoing = [] ++ o :: [] := by cbv
  have hmove : Moves .calm m' (some (.borrow twice)) (m'.resumed o none []) :=
    .resume m' [] o [] none hongoing (by simp) trivial
  have hbefore : borrowedTwice.disconnected = [] := by cbv
  have hafter : m'.disconnected = [h] := by cbv
  refine ⟨_, _, m', m'.resumed o none [], twice, 0, h, x, _, hm, ho, (ho.waiting hm).2.1, ?_, ?_,
    hmove, by cbv⟩
  · rw [hbefore]
    exact List.not_mem_nil
  · rw [hafter]
    exact List.mem_singleton_self _

end ConnectionLeasing.Affine
