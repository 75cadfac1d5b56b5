import ConnectionLeasing.Proofs.Affine.Answering
import ConnectionLeasing.Proofs.Affine.Undisturbed

/-!
# Operations with the answers they get

An operation that nothing comes between, with all it says to the outside and hears from there. The
answers are arbitrary, and each may take its time.

* `Step.Concludes`: whatever the answers are, the operation comes to an end, and the exchanges, the
  state it leaves and its result fit together.
* `Step.ends_iff`: with every answer at once, and the exchanges forgotten, this is `Step.Ends`.
* `Step.Concludes.performs`: the same on handles that behave in a known way.
-/

namespace ConnectionLeasing

/-- A call and its answer. -/
structure Exchange where
  call : Call
  answer : call.Answer

namespace Exchange

/-- A disconnect that failed. -/
def failed : Exchange → Bool
  | ⟨.disconnect _, failure⟩ => failure.isSome
  | _ => false

/-- How many disconnects failed. -/
def failures (seen : List Exchange) : Nat := seen.countP failed

theorem failures_append (seen more : List Exchange) :
    failures (seen ++ more) = failures seen + failures more := List.countP_append

/-- The answer is what handles of this behaviour give. -/
def Suits (b : Behaviour) (x : Exchange) : Prop := ∃ n, x.answer = b.answer n x.call

end Exchange

namespace Affine

/-- Whatever its calls are answered, and at whatever moments in `T`, a step comes to an end, and the
exchanges, the state it leaves and its result satisfy `Q`. -/
inductive Step.Concludes (T : Nat → Prop) : (List Exchange → State → Result → Prop) → Step → Prop
  | done {Q : List Exchange → State → Result → Prop} {s : State} {r : Result} (h : Q [] s r) :
    Step.Concludes T Q (s, .done r)
  | paused {Q : List Exchange → State → Result → Prop} {s : State} {f : Frame}
    (h : ∀ t, T t → ∀ a, Step.Concludes T (fun seen => Q (⟨f.call, a⟩ :: seen)) (resume s t f a)) :
    Step.Concludes T Q (s, .paused f)

variable {T : Nat → Prop} {now : Nat} {Q Q' : List Exchange → State → Result → Prop} {step : Step}

theorem Step.Concludes.imp (h : step.Concludes T Q)
    (hQ : ∀ seen s r, Q seen s r → Q' seen s r) : step.Concludes T Q' := by
  induction h generalizing Q' with
  | done h => exact .done (hQ _ _ _ h)
  | paused _ ih => exact .paused fun t ht a => ih t ht a fun seen => hQ _

theorem Step.Concludes.ends (h : step.Concludes T Q) (hnow : T now) :
    step.Ends now fun s r => ∃ seen, Q seen s r := by
  induction h with
  | done h => exact .done ⟨[], h⟩
  | paused _ ih =>
    refine .paused fun a => (ih now hnow a).imp fun s r h => ?_
    obtain ⟨seen, hQ⟩ := h
    exact ⟨_ :: seen, hQ⟩

theorem Step.ends_iff {P : State → Result → Prop} :
    step.Ends now P ↔ step.Concludes (· = now) fun _ => P := by
  refine ⟨fun h => ?_, fun h => (h.ends rfl).imp fun s r ⟨_, hP⟩ => hP⟩
  induction h with
  | done h => exact .done h
  | paused _ ih =>
    refine .paused fun t ht a => ?_
    subst ht
    exact ih a

theorem Step.Concludes.performs (h : step.Concludes T Q) (hnow : T now) (b : Behaviour) (n : Nat) :
    ∃ seen s r, step.Performs b now n (seen.map (·.call)) s r ∧ Q seen s r ∧
      ∀ x ∈ seen, x.Suits b := by
  induction h generalizing n with
  | done h => exact ⟨[], _, _, .done _ _ _, h, fun x hx => absurd hx List.not_mem_nil⟩
  | @paused Q s f _ ih =>
    obtain ⟨seen, s', r, hperforms, hQ, hsuits⟩ := ih now hnow (b.answer n f.call)
      (Call.next n [f.call])
    refine ⟨⟨f.call, b.answer n f.call⟩ :: seen, s', r, .paused hperforms, hQ, fun x hx => ?_⟩
    rcases List.mem_cons.mp hx with rfl | hx
    · exact ⟨n, rfl⟩
    · exact hsuits x hx

end Affine

end ConnectionLeasing
