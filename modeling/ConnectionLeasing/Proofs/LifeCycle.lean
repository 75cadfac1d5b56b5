import ConnectionLeasing.Proofs.Affine.Lifetime
import ConnectionLeasing.Proofs.Pooled.Custody

/-!
# The life cycle of handles in both managers

* `handle_life_cycle`: in every run of a manager, what is seen of a handle that the factory built is
  a life, and nothing is seen of any other handle.

For a context-affine manager, operations run inside connects and while observers are told; for a
pooled manager they run inside every callback.
-/

namespace ConnectionLeasing

/-- **The life cycle of handles.** In every run of either manager each handle that the factory built
is connected once, before anything else is seen of it. If that fails nothing more is seen of it.
Otherwise it may be lent, any number of times, and then be asked to disconnect, once; after that it
is not lent again. -/
theorem handle_life_cycle :
    (∀ m, Affine.Reachable .calm m → ∀ h,
      (h ∈ m.built → Life h (history h m.milestones)) ∧
      (h ∉ m.built → history h m.milestones = [])) ∧
    (∀ m, Pooled.Reachable m → ∀ h,
      (h ∈ m.built → Life h (history h m.milestones)) ∧
      (h ∉ m.built → history h m.milestones = [])) := by
  refine ⟨fun m hm h => ?_, fun m hm h => ?_⟩
  · exact hm.lawful.lives (fun _ => Affine.System.built_iff) h
  · exact hm.custody.lawful.lives (fun _ => Pooled.System.built_iff) h

/-- A handle of each manager that is lent and disconnected. -/
theorem handle_life_cycle_closed : ∃ (m : Affine.System) (m' : Pooled.System) (h : Handle),
    Affine.Reachable .calm m ∧ Pooled.Reachable m' ∧
    Life h (history h m.milestones) ∧ Life h (history h m'.milestones) ∧
    history h m.milestones = [.connected h, .lent h, .disconnected h] ∧
    history h m'.milestones = [.connected h, .lent h, .disconnected h] := by
  let i : Identity := ⟨"host", 22, "user", "secret"⟩
  let c : ContextId := ⟨1⟩
  let h : Handle := ⟨1, .sftp⟩
  let r : Affine.Request := ⟨i, c, .sftp⟩
  let o : Affine.Ongoing := ⟨.borrow r, .opening r 0 .sftp (.ofMillis 5000)⟩
  let m₁ := (Affine.System.initial {} .faithful 0).started (.borrow r)
  let m₂ := m₁.resumed o ⟨h, none⟩ []
  let m₃ := m₂.started (.close i c)
  have hm₁ : Affine.Reachable .calm m₁ :=
    .next (.initial {} .faithful 0) (.start _ _ fun o ho => by cases ho)
  have hm₂ : Affine.Reachable .calm m₂ :=
    .next hm₁ (.resume m₁ [] o [] ⟨h, none⟩ rfl (by simp) ⟨by decide, rfl⟩)
  have hm₃ : Affine.Reachable .calm m₃ :=
    .next hm₂ (.start _ _ fun o ho => absurd (List.length_pos_of_mem ho) (by decide))
  let x : Item Handle := ⟨0, h⟩
  let p : Source := ⟨i, .sftp, .sftp, .ofMillis 5000, true⟩
  let n₁ := (Pooled.System.initial {} .faithful 0).started (.select ⟨i, .sftp⟩ c) []
  let n₂ := n₁.started (.inPool 0 .tryBorrow) []
  let o' : Pooled.Ongoing := ⟨.inPool 0 .tryBorrow, .inPool 0 p .creating .caller⟩
  let n₃ := n₂.resumed o' ⟨h, none⟩ []
  let n₄ := n₃.started .closeAll [(0, x)]
  let n₅ := n₄.started (.inPool 0 (.giveBack x)) []
  have hn₁ : Pooled.Reachable n₁ := .next (.initial {} .faithful 0) (.start _ _ [] (.refl _))
  have hn₂ : Pooled.Reachable n₂ := .next hn₁ (.start _ _ [] (.refl _))
  have hn₃ : Pooled.Reachable n₃ :=
    .next hn₂ (.resume n₂ [] o' [] ⟨h, none⟩ rfl ⟨by decide, rfl⟩)
  have hn₄ : Pooled.Reachable n₄ := .next hn₃ (.start _ _ [(0, x)] (.refl _))
  have hn₅ : Pooled.Reachable n₅ := .next hn₄ (.start _ _ [] (.refl _))
  obtain ⟨haffine, hpooled⟩ := handle_life_cycle
  obtain ⟨hlife, -⟩ := haffine m₃ hm₃ h
  obtain ⟨hlife', -⟩ := hpooled n₅ hn₅ h
  exact ⟨m₃, n₅, h, hm₃, hn₅, hlife (by decide), hlife' (by decide), by decide, by decide⟩

end ConnectionLeasing
