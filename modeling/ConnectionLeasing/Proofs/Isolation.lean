import ConnectionLeasing.Proofs.Affine.Suiting
import ConnectionLeasing.Proofs.Origin

/-!
# Isolation of identities and channels

* `borrows_isolated`: whoever borrows for an identity and a channel gets a connection that was made
  with exactly this identity, password included, and that carries the channel as long as every
  constructor builds what it is registered for.

A borrow from a context-affine manager is one operation. One from a pooled manager finds its pool
first and then tries to borrow from that pool, so there it shows as two operations.
-/

namespace ConnectionLeasing

theorem Factory.Suits.channel_eq {F : Factory} {channel : Channel} {h : Handle}
    (hs : F.Suits channel h) (hF : F.Faithful) : h.channel = channel := by
  rcases hs with heq | hproduces
  · exact heq
  · exact hF _ _ hproduces

/-- **Isolation.** In every run of either manager, a handle that is lent for an identity and a
channel was built by one connect, which was made with this identity; and it carries the channel if
every constructor builds handles of the channel it is registered for. -/
theorem borrows_isolated :
    (∀ m, Affine.Reachable .calm m → ∀ r h, .returned (.borrow r) (.lent h) ∈ m.events →
      m.connects h = [r.identity] ∧ (m.state.factory.Faithful → h.channel = r.channel)) ∧
    (∀ m, Pooled.Reachable m → ∀ key c pool x,
      .returned (.select key c) (.selected pool) ∈ m.events →
      .returned (.inPool pool .tryBorrow) (.pool (.lent x)) ∈ m.events →
      m.connects x.value = [key.identity] ∧
        (m.state.factory.Faithful → x.value.channel = key.channel)) := by
  refine ⟨fun m hm r h hlent => ?_, fun m hm key c pool x hselected hlent => ?_⟩
  · obtain ⟨hopened, hsuits⟩ := hm.suited.lent r h hlent
    exact ⟨Affine.System.connects_eq hm.nodup_built hopened, hsuits.channel_eq⟩
  · obtain ⟨p, hp, hserves⟩ := hm.bred.selected key c pool hselected
    obtain ⟨p', hp', hborn⟩ := hm.bred.lent pool .tryBorrow x hlent
    rw [hp] at hp'
    cases hp'
    refine ⟨?_, fun hF => ?_⟩
    · rw [Pooled.System.connects_eq hm.nodup_built hborn, hserves.identity]
    · rw [hborn.2]
      exact hF _ _ hserves.produces

theorem Factory.faithful_faithful : Factory.faithful.Faithful := by
  intro channel produces h
  have hself : Factory.faithful.produces? channel = some channel := by
    cases channel <;> decide
  rw [hself] at h
  exact (Option.some.inj h).symm

/-! ### One account under two passwords -/

/-- An account under a password. -/
def account (password : String) : Identity := ⟨"host", 22, "user", password⟩

namespace Affine

/-- A borrow for the account, on behalf of a context. -/
def accountRequest (password : String) (context : Nat) : Request :=
  ⟨account password, ⟨context⟩, .sftp⟩

/-- The borrow opens its connection in an entry. -/
def System.opens (m : System) (r : Request) (e : Nat) (h : Handle) : System :=
  m.resumed ⟨.borrow r, .opening r e .sftp (.ofMillis 5000)⟩ ⟨h, none⟩ []

theorem reachable_opens {m : System} {r : Request} {e : Nat} {h : Handle}
    (hm : Reachable .calm (m.started (.borrow r)))
    (ho : (m.started (.borrow r)).ongoing = [⟨.borrow r, .opening r e .sftp (.ofMillis 5000)⟩])
    (hh : h ∉ (m.started (.borrow r)).built) (hc : h.channel = .sftp) :
    Reachable .calm ((m.started (.borrow r)).opens r e h) :=
  hm.next (.resume _ [] ⟨_, .opening r e .sftp (.ofMillis 5000)⟩ [] ⟨h, none⟩ ho (by simp) ⟨hh, hc⟩)

/-- A connection of the account is lent. -/
def lentOld : System :=
  ((System.initial {} .faithful 0).started (.borrow (accountRequest "old" 1))).opens
    (accountRequest "old" 1) 0 ⟨1, .sftp⟩

/-- The connection is given back, and the account is borrowed for under another password. -/
def lentNew : System :=
  ((lentOld.started (.release (account "old") ⟨1⟩)).started
    (.borrow (accountRequest "new" 2))).opens (accountRequest "new" 2) 1 ⟨2, .sftp⟩

theorem reachable_lentNew : Reachable .calm lentNew := by
  have hold : Reachable .calm lentOld := by
    refine reachable_opens (.next (.initial {} .faithful 0) (.start _ _ fun o ho => ?_)) rfl
      (by decide) rfl
    cases ho
  have hreleased : Reachable .calm (lentOld.started (.release (account "old") ⟨1⟩)) :=
    .next hold (.start _ _ fun o ho => absurd (List.length_pos_of_mem ho) (by decide))
  exact reachable_opens (.next hreleased (.start _ _ fun o ho =>
    absurd (List.length_pos_of_mem ho) (by decide))) rfl (by decide) rfl

end Affine

namespace Pooled

/-- The pool of the account. -/
def accountPool (password : String) : Source :=
  ⟨account password, .sftp, .sftp, .ofMillis 5000, true⟩

/-- A handle of the account is lent. -/
def lentOld : System :=
  ((System.initial {} .faithful 0).connecting ⟨account "old", .sftp⟩ 0).connected
    (accountPool "old") 0 ⟨1, .sftp⟩

/-- Its guard is dropped. -/
def idleOld : System :=
  (lentOld.started (.inPool 0 (.giveBack ⟨0, 1, .sftp⟩)) []).resumed
    ⟨.inPool 0 (.giveBack ⟨0, 1, .sftp⟩),
      .inPool 0 (accountPool "old") (.checking (.returned ⟨0, 1, .sftp⟩)) .caller⟩ true []

/-- The account is borrowed for under another password. -/
def lentNew : System :=
  (idleOld.connecting ⟨account "new", .sftp⟩ 1).connected (accountPool "new") 1 ⟨2, .sftp⟩

theorem reachable_lentNew : Reachable lentNew := by
  have hold : Run (.initial {} .faithful 0) lentOld := (run_connecting _ _ 0).trans
    (run_connected _ (accountPool "old") 0 ⟨1, .sftp⟩ rfl (by decide) rfl)
  have hchecking : Run lentOld (lentOld.started (.inPool 0 (.giveBack ⟨0, 1, .sftp⟩)) []) :=
    .single (.start _ _ [] (.refl _))
  have hidle : Run lentOld idleOld := hchecking.tail (.resume _ [] ⟨_, .inPool 0
    (accountPool "old") (.checking (.returned ⟨0, 1, .sftp⟩)) .caller⟩ [] true rfl trivial)
  have hnew : Run idleOld lentNew := (run_connecting _ _ 1).trans
    (run_connected _ (accountPool "new") 1 ⟨2, .sftp⟩ rfl (by decide) rfl)
  exact Run.reachable ((hold.trans hidle).trans hnew) (.initial {} .faithful 0)

end Pooled

/-- The idle connection stays where it is when another context borrows for the same account under
another password. -/
theorem borrows_isolated_by_password : ∃ (m : Affine.System) (n : Pooled.System) (h : Handle),
    m.connects h = [account "new"] ∧ n.connects h = [account "new"] ∧ h.channel = .sftp ∧
    m.connects ⟨1, .sftp⟩ = [account "old"] ∧ n.connects ⟨1, .sftp⟩ = [account "old"] := by
  obtain ⟨haffine, hpooled⟩ := borrows_isolated
  obtain ⟨hm, hchannel⟩ := haffine Affine.lentNew Affine.reachable_lentNew
    (Affine.accountRequest "new" 2) ⟨2, .sftp⟩ (List.mem_append_right _ (.head _))
  have hselected : .returned (.select ⟨account "new", .sftp⟩ ⟨1⟩) (.selected 1) ∈
      Pooled.lentNew.events :=
    List.mem_append_left _ (List.mem_append_left _ (List.mem_append_left _
      (List.mem_append_left _ (List.mem_append_right _ (.head _)))))
  obtain ⟨hn, -⟩ := hpooled Pooled.lentNew Pooled.reachable_lentNew ⟨account "new", .sftp⟩ ⟨1⟩ 1
    ⟨0, 2, .sftp⟩ hselected (List.mem_append_right _ (.head _))
  exact ⟨Affine.lentNew, Pooled.lentNew, ⟨2, .sftp⟩, hm, hn, hchannel Factory.faithful_faithful,
    by decide, by decide⟩

end ConnectionLeasing
