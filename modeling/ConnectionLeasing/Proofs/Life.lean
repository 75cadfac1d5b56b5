import ConnectionLeasing.Observer
import Mathlib.Data.List.Basic

/-!
# The life of a handle

What can be seen of handles is a trace of milestones: a handle is connected or fails to connect, is
lent, is asked to disconnect. A trace is lawful if a handle comes into it by its connect, and is
lent and asked to disconnect only while it is open.

* `Life`: a handle is connected once, before anything else; it is lent any number of times; and it
  is asked to disconnect at most once, after which it is not lent again.
* `Lawful.lives`: in a lawful trace the history of each handle that was built is a life.
-/

namespace ConnectionLeasing

inductive Milestone
  | connected (handle : Handle)
  | failed (handle : Handle)
  | lent (handle : Handle)
  /-- The handle was asked to disconnect. -/
  | disconnected (handle : Handle)
  deriving DecidableEq

def Milestone.handle : Milestone → Handle
  | connected h | failed h | lent h | disconnected h => h

/-- What is seen of a handle when its connect is answered. -/
def Connected.milestone (c : Connected) : Milestone :=
  if c.failure.isNone then .connected c.handle else .failed c.handle

/-- What is seen of one handle. -/
def history (h : Handle) (l : List Milestone) : List Milestone := l.filter (·.handle = h)

/-- What may be seen of a handle that was built. -/
inductive Life (h : Handle) : List Milestone → Prop
  | failed : Life h [.failed h]
  | live (lent : Nat) : Life h (.connected h :: List.replicate lent (.lent h))
  | ended (lent : Nat) :
      Life h (.connected h :: List.replicate lent (.lent h) ++ [.disconnected h])

/-- The handle is connected and was not asked to disconnect. -/
def Opened (l : List Milestone) (h : Handle) : Prop :=
  .connected h ∈ l ∧ .disconnected h ∉ l

/-- Nothing happens to handles that are not open. -/
inductive Lawful : List Milestone → Prop
  | nil : Lawful []
  | connect {l : List Milestone} (h : Handle) (hl : Lawful l) (hnew : ∀ x ∈ l, x.handle ≠ h) :
      Lawful (l ++ [.connected h])
  | fail {l : List Milestone} (h : Handle) (hl : Lawful l) (hnew : ∀ x ∈ l, x.handle ≠ h) :
      Lawful (l ++ [.failed h])
  | lend {l : List Milestone} (h : Handle) (hl : Lawful l) (hopen : Opened l h) :
      Lawful (l ++ [.lent h])
  | disconnect {l : List Milestone} (h : Handle) (hl : Lawful l) (hopen : Opened l h) :
      Lawful (l ++ [.disconnected h])

/-- The handle was built: it is connected, or failed to connect. -/
def Begun (l : List Milestone) (h : Handle) : Prop := .connected h ∈ l ∨ .failed h ∈ l

section history
variable {l : List Milestone} {h : Handle}

theorem history_append_self {x : Milestone} (hx : x.handle = h) :
    history h (l ++ [x]) = history h l ++ [x] := by
  simp [history, hx]

theorem history_append_other {x : Milestone} (hx : x.handle ≠ h) :
    history h (l ++ [x]) = history h l := by
  simp [history, hx]

theorem history_eq_nil (hnew : ∀ x ∈ l, x.handle ≠ h) : history h l = [] := by
  rw [history, List.filter_eq_nil_iff]
  intro x hx
  simpa using hnew x hx

theorem mem_history {x : Milestone} : x ∈ history h l ↔ x ∈ l ∧ x.handle = h := by
  simp [history]

theorem Life.of_mem {t : List Milestone} (hlife : Life h t) (hconnected : .connected h ∈ t)
    (hdisconnected : .disconnected h ∉ t) :
    ∃ lent, t = .connected h :: List.replicate lent (.lent h) := by
  cases hlife with
  | failed => simp at hconnected
  | live lent => exact ⟨lent, rfl⟩
  | ended lent => simp at hdisconnected

theorem Life.of_opened (hlife : Life h (history h l)) (hopen : Opened l h) :
    ∃ lent, history h l = .connected h :: List.replicate lent (.lent h) := by
  obtain ⟨hconnected, hdisconnected⟩ := hopen
  refine hlife.of_mem (mem_history.mpr ⟨hconnected, rfl⟩) fun hd => ?_
  exact hdisconnected (mem_history.mp hd).1

theorem life_append_other {x : Milestone} (hx : x.handle ≠ h)
    (hl : Life h (history h l) ∨ ∀ y ∈ l, y.handle ≠ h) :
    Life h (history h (l ++ [x])) ∨ ∀ y ∈ l ++ [x], y.handle ≠ h := by
  rcases hl with hlife | hnone
  · left
    rwa [history_append_other hx]
  · right
    intro y hy
    rcases List.mem_append.mp hy with hy | hy
    · exact hnone y hy
    · rw [List.mem_singleton.mp hy]
      exact hx

/-- **The history of a handle in a lawful trace is a life**, or nothing is seen of it. -/
theorem Lawful.life (hl : Lawful l) (h : Handle) :
    Life h (history h l) ∨ ∀ x ∈ l, x.handle ≠ h := by
  induction hl with
  | nil => exact .inr (by simp)
  | connect h' hl hnew ih =>
    by_cases heq : h' = h
    · subst heq
      left
      rw [history_append_self (h := h') rfl, history_eq_nil hnew]
      exact .live 0
    · exact life_append_other heq ih
  | fail h' hl hnew ih =>
    by_cases heq : h' = h
    · subst heq
      left
      rw [history_append_self (h := h') rfl, history_eq_nil hnew]
      exact .failed
    · exact life_append_other heq ih
  | lend h' hl hopen ih =>
    by_cases heq : h' = h
    · subst heq
      left
      obtain ⟨lent, hlent⟩ := (ih.resolve_right fun hnone => hnone _ hopen.1 rfl).of_opened hopen
      have hmore := Life.live (h := h') (lent + 1)
      rwa [List.replicate_succ', ← List.cons_append, ← hlent,
        ← history_append_self (h := h') rfl] at hmore
    · exact life_append_other heq ih
  | disconnect h' hl hopen ih =>
    by_cases heq : h' = h
    · subst heq
      left
      obtain ⟨lent, hlent⟩ := (ih.resolve_right fun hnone => hnone _ hopen.1 rfl).of_opened hopen
      have hend := Life.ended (h := h') lent
      rwa [← hlent, ← history_append_self (h := h') rfl] at hend
    · exact life_append_other heq ih

theorem Lawful.begun (hl : Lawful l) {x : Milestone} (hx : x ∈ l) : Begun l x.handle := by
  have hmore : ∀ {l : List Milestone} {h : Handle} (y : Milestone),
      Begun l h → Begun (l ++ [y]) h := by
    intro l h y hb
    exact hb.imp (List.mem_append_left _) (List.mem_append_left _)
  induction hl with
  | nil => cases hx
  | connect h hl hnew ih =>
    rcases List.mem_append.mp hx with hx | hx
    · exact hmore _ (ih hx)
    · rw [List.mem_singleton.mp hx]
      exact .inl (List.mem_append_right _ (List.mem_singleton_self _))
  | fail h hl hnew ih =>
    rcases List.mem_append.mp hx with hx | hx
    · exact hmore _ (ih hx)
    · rw [List.mem_singleton.mp hx]
      exact .inr (List.mem_append_right _ (List.mem_singleton_self _))
  | lend h hl hopen ih =>
    rcases List.mem_append.mp hx with hx | hx
    · exact hmore _ (ih hx)
    · rw [List.mem_singleton.mp hx]
      exact hmore _ (.inl hopen.1)
  | disconnect h hl hopen ih =>
    rcases List.mem_append.mp hx with hx | hx
    · exact hmore _ (ih hx)
    · rw [List.mem_singleton.mp hx]
      exact hmore _ (.inl hopen.1)

theorem Lawful.count_connected_le (hl : Lawful l) (h : Handle) :
    l.count (.connected h) ≤ 1 := by
  induction hl with
  | nil => exact Nat.zero_le _
  | @connect l h' hl hnew ih =>
    by_cases heq : h' = h
    · subst heq
      have hnone : l.count (.connected h') = 0 :=
        List.count_eq_zero.mpr fun hmem => hnew _ hmem rfl
      rw [List.count_append, hnone, Nat.zero_add]
      exact List.count_le_length
    · simpa [List.count_append, heq] using ih
  | fail h' hl hnew ih => simpa [List.count_append] using ih
  | lend h' hl hopen ih => simpa [List.count_append] using ih
  | disconnect h' hl hopen ih => simpa [List.count_append] using ih

theorem Lawful.count_disconnected_le (hl : Lawful l) (h : Handle) :
    l.count (.disconnected h) ≤ 1 := by
  induction hl with
  | nil => exact Nat.zero_le _
  | connect h' hl hnew ih => simpa [List.count_append] using ih
  | fail h' hl hnew ih => simpa [List.count_append] using ih
  | lend h' hl hopen ih => simpa [List.count_append] using ih
  | @disconnect l h' hl hopen ih =>
    by_cases heq : h' = h
    · subst heq
      rw [List.count_append, List.count_eq_zero.mpr hopen.2, Nat.zero_add]
      exact List.count_le_length
    · simpa [List.count_append, heq] using ih

/-- A built handle has a life, and nothing is seen of any other. -/
theorem Lawful.lives (hl : Lawful l) {built : List Handle} (hbuilt : ∀ h, h ∈ built ↔ Begun l h)
    (h : Handle) : (h ∈ built → Life h (history h l)) ∧ (h ∉ built → history h l = []) := by
  refine ⟨fun hh => (hl.life h).resolve_right fun hnone => ?_, fun hh => history_eq_nil ?_⟩
  · rcases (hbuilt h).mp hh with hmem | hmem <;> exact hnone _ hmem rfl
  · rintro x hx rfl
    exact hh ((hbuilt _).mpr (hl.begun hx))

theorem lawful_answer (hl : Lawful l) {c : Connected} (hnew : ¬ Begun l c.handle) :
    Lawful (l ++ [c.milestone]) := by
  have hnone : ∀ x ∈ l, x.handle ≠ c.handle := by
    intro x hx heq
    refine hnew ?_
    rw [← heq]
    exact hl.begun hx
  unfold Connected.milestone
  split
  · exact .connect _ hl hnone
  · exact .fail _ hl hnone

end history

end ConnectionLeasing
